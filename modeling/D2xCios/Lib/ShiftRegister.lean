import Mathlib.Data.List.Basic
import Mathlib.Logic.Function.Iterate

/-!
# Feedback shift registers

A register that shifts right by one bit at a time and mixes in a polynomial when the
bit that leaves is set. Input enters at the low end, before the shift. The register is
linear in state and input, and if the polynomial has its top bit set, a step that let
a bit out leaves a mark at the top: so a run of no more input bits than the register
has cannot lead from zero back to zero unless all of them are zero.
-/

namespace D2xCios.Lib.ShiftRegister

variable {w : Nat}

/-- What a bit that leaves mixes in. -/
def feedback (poly : BitVec w) (bit : Bool) : BitVec w := if bit then poly else 0

/-- One shift, with feedback. -/
def shift (poly : BitVec w) (state : BitVec w) : BitVec w :=
  (state >>> 1) ^^^ feedback poly (state.getLsbD 0)

/-- An input bit in the low position. -/
def low (w : Nat) (bit : Bool) : BitVec w := (BitVec.ofBool bit).setWidth w

/-- Take in one bit. -/
def step (poly : BitVec w) (state : BitVec w) (bit : Bool) : BitVec w :=
  shift poly (state ^^^ low w bit)

/-- Take in a run of bits. -/
def run (poly : BitVec w) (bits : List Bool) (state : BitVec w) : BitVec w :=
  bits.foldl (step poly) state

variable (poly : BitVec w)

@[simp] theorem run_nil (state : BitVec w) : run poly [] state = state := rfl

@[simp] theorem run_cons (bit : Bool) (bits : List Bool) (state : BitVec w) :
    run poly (bit :: bits) state = run poly bits (step poly state bit) := rfl

theorem run_append (first second : List Bool) (state : BitVec w) :
    run poly (first ++ second) state = run poly second (run poly first state) :=
  List.foldl_append

/-! ## Linearity -/

/-- The feedback is linear. -/
theorem feedback_xor (a b : Bool) :
    feedback poly (a ^^ b) = feedback poly a ^^^ feedback poly b := by
  cases a <;> cases b <;> simp [feedback]

/-- The lowest bit is linear. -/
theorem low_xor (a b : Bool) : low w (a ^^ b) = low w a ^^^ low w b := by
  cases a <;> cases b <;> simp [low]

/-- A shift is linear. -/
theorem shift_xor (a b : BitVec w) : shift poly (a ^^^ b) = shift poly a ^^^ shift poly b := by
  simp only [shift, BitVec.getLsbD_xor, BitVec.ushiftRight_xor_distrib, feedback_xor]
  ac_rfl

/-- A step is linear. -/
theorem step_xor (a b : BitVec w) (x y : Bool) :
    step poly (a ^^^ b) (x ^^ y) = step poly a x ^^^ step poly b y := by
  rw [step, step, step, ← shift_xor, low_xor]
  congr 1
  ac_rfl

/-- Two runs differ by the run of the difference. -/
theorem run_xor {first second : List Bool} (length : first.length = second.length)
    (a b : BitVec w) : run poly (List.zipWith xor first second) (a ^^^ b) =
      run poly first a ^^^ run poly second b := by
  induction first generalizing second a b with
  | nil =>
    cases second with
    | nil => rfl
    | cons => cases length
  | cons x first ih =>
    cases second with
    | nil => cases length
    | cons y second =>
      rw [List.zipWith_cons_cons, run_cons, run_cons, run_cons, step_xor]
      exact ih (Nat.succ.inj length) _ _

/-- Bits without a difference are the same. -/
theorem eq_of_zipWith_xor {first second : List Bool} (length : first.length = second.length)
    (same : ∀ bit ∈ List.zipWith xor first second, bit = false) : first = second := by
  induction first generalizing second with
  | nil =>
    cases second with
    | nil => rfl
    | cons => cases length
  | cons x first ih =>
    cases second with
    | nil => cases length
    | cons y second =>
      rw [List.zipWith_cons_cons, List.forall_mem_cons] at same
      rw [ih (Nat.succ.inj length) same.2, bne_eq_false_iff_eq.mp same.1]

/-- A run of zero bits keeps the zero state. -/
theorem run_zero {bits : List Bool} (zero : ∀ bit ∈ bits, bit = false) : run poly bits 0 = 0 := by
  induction bits with
  | nil => rfl
  | cons bit bits ih =>
    obtain rfl := zero bit List.mem_cons_self
    have still : step poly (0 : BitVec w) false = 0 := by
      simp [step, shift, low, feedback]
    rw [run_cons, still]
    exact ih fun bit member => zero bit (List.mem_cons_of_mem _ member)

/-- A word with no bit set from position `n` on. -/
def Below (n : Nat) (state : BitVec w) : Prop := ∀ i, n ≤ i → state.getLsbD i = false

theorem low_getLsbD_succ (bit : Bool) (i : Nat) : (low w bit).getLsbD (i + 1) = false := by
  simp [low]

/-- Bits that are stored in a word at once come out one by one. -/
theorem run_word (n : Nat) (state word : BitVec w) (below : Below n word) :
    (shift poly)^[n] (state ^^^ word) = run poly ((List.range n).map word.getLsbD) state := by
  induction n generalizing state word with
  | zero =>
    have zero : word = 0 := BitVec.eq_of_getLsbD_eq fun i _ => by
      rw [below i (Nat.zero_le i)]
      simp
    simp [zero]
  | succ n ih =>
    have out : shift poly (state ^^^ word) =
        step poly state (word.getLsbD 0) ^^^ (word >>> 1) := by
      have split : state ^^^ word = state ^^^ low w (word.getLsbD 0) ^^^
          (low w (word.getLsbD 0) ^^^ word) := by
        rw [BitVec.xor_assoc, ← BitVec.xor_assoc (low w _), BitVec.xor_self, BitVec.zero_xor]
      have rest : shift poly (low w (word.getLsbD 0) ^^^ word) = word >>> 1 := by
        apply BitVec.eq_of_getLsbD_eq
        intro i inside
        have clear : (low w (word.getLsbD 0)).getLsbD 0 = word.getLsbD 0 := by
          simp [low]
          omega
        simp only [shift, BitVec.getLsbD_xor, BitVec.getLsbD_ushiftRight, clear, Bool.xor_self,
          feedback, Nat.add_comm 1, low_getLsbD_succ]
        simp
      rw [split, shift_xor, rest]
      rfl
    have higher : Below n (word >>> 1) := fun i beyond => by
      rw [BitVec.getLsbD_ushiftRight]
      exact below _ (by omega)
    have bits : (List.range n).map (word >>> 1).getLsbD =
        (List.range n).map fun i => word.getLsbD (i + 1) :=
      List.map_congr_left fun i _ => by rw [BitVec.getLsbD_ushiftRight, Nat.add_comm]
    rw [Function.iterate_succ_apply, out, ih _ _ higher, bits, List.range_succ_eq_map,
      List.map_cons, List.map_map, run_cons]
    rfl

/-! ## Shifting back -/

section Marked

variable {poly} (marked : poly.msb = true)

include marked

/-- A result without a mark at the top comes from a state with a clear low bit. -/
theorem shift_unmarked {state : BitVec w} (unmarked : (shift poly state).msb = false) :
    state.getLsbD 0 = false ∧ shift poly state = state >>> 1 := by
  cases bit : state.getLsbD 0 with
  | false => exact ⟨rfl, by simp [shift, bit, feedback]⟩
  | true =>
    simp [shift, bit, feedback, BitVec.msb_ushiftRight, marked] at unmarked

/-- Nothing but zero is shifted to zero. -/
theorem shift_eq_zero {state : BitVec w} (zero : shift poly state = 0) : state = 0 := by
  have unmarked : (shift poly state).msb = false := by simp [zero]
  obtain ⟨bit, shifted⟩ := shift_unmarked marked unmarked
  rw [zero] at shifted
  apply BitVec.eq_of_getLsbD_eq
  intro i inside
  cases i with
  | zero => simpa using bit
  | succ i =>
    have at_i := congrArg (BitVec.getLsbD · i) shifted
    simpa [Nat.add_comm 1] using at_i.symm

/-- Zero bits lead to zero from zero only. -/
theorem eq_zero_of_run {bits : List Bool} (zero : ∀ bit ∈ bits, bit = false) {state : BitVec w}
    (ended : run poly bits state = 0) : state = 0 := by
  induction bits generalizing state with
  | nil => exact ended
  | cons bit bits ih =>
    obtain rfl := zero bit List.mem_cons_self
    have shifted := ih (fun bit member => zero bit (List.mem_cons_of_mem _ member)) ended
    have still := shift_eq_zero marked shifted
    simpa [low] using still

/-- A run to zero starts from a word no longer than the run. -/
theorem below_of_run {bits : List Bool} (short : bits.length ≤ w) {state : BitVec w}
    (ended : run poly bits state = 0) : Below bits.length state := by
  induction bits generalizing state with
  | nil =>
    intro i _
    rw [run_nil] at ended
    simp [ended]
  | cons bit bits ih =>
    rw [List.length_cons] at short
    have behind := ih (by omega) ended
    have unmarked : (step poly state bit).msb = false := by
      rw [BitVec.msb_eq_getLsbD_last]
      exact behind _ (by omega)
    have shifted := (shift_unmarked marked unmarked).2
    intro i beyond
    obtain ⟨j, rfl⟩ : ∃ j, i = j + 1 := ⟨i - 1, by rw [List.length_cons] at beyond; omega⟩
    have at_j := behind j (by rw [List.length_cons] at beyond; omega)
    rw [step, shifted, BitVec.getLsbD_ushiftRight, BitVec.getLsbD_xor, Nat.add_comm 1,
      low_getLsbD_succ, Bool.xor_false] at at_j
    exact at_j

/-- No more bits than the register has lead from zero to zero only if all are zero. -/
theorem zero_of_run {bits : List Bool} (short : bits.length ≤ w)
    (ended : run poly bits (0 : BitVec w) = 0) : ∀ bit ∈ bits, bit = false := by
  induction bits with
  | nil => simp
  | cons bit bits ih =>
    rw [List.length_cons] at short
    rw [run_cons] at ended
    have behind := below_of_run marked (Nat.le_of_succ_le short) ended
    have unmarked : (step poly 0 bit).msb = false := by
      rw [BitVec.msb_eq_getLsbD_last]
      exact behind _ (by omega)
    have clear := (shift_unmarked marked unmarked).1
    obtain rfl : bit = false := by
      simpa [low, show 0 < w by omega] using clear
    have still : step poly (0 : BitVec w) false = 0 := by
      simp [step, shift, low, feedback]
    rw [still] at ended
    simpa using ih (by omega) ended

/-- Bits that are set within a burst no longer than the register only do not cancel out. -/
theorem zero_of_burst {bits : List Bool} {start : Nat}
    (burst : ∀ i, bits[i]? = some true → start ≤ i ∧ i < start + w)
    (ended : run poly bits (0 : BitVec w) = 0) : ∀ bit ∈ bits, bit = false := by
  have parts :
    bits = bits.take start ++ ((bits.drop start).take w ++ (bits.drop start).drop w) := by
    rw [List.take_append_drop, List.take_append_drop]
  have front : ∀ bit ∈ bits.take start, bit = false := by
    intro bit member
    obtain ⟨i, found⟩ := List.mem_iff_getElem?.mp member
    cases bit with
    | false => rfl
    | true =>
      rw [List.getElem?_take] at found
      split at found
      · have := burst i found
        omega
      · cases found
  have back : ∀ bit ∈ (bits.drop start).drop w, bit = false := by
    intro bit member
    obtain ⟨i, found⟩ := List.mem_iff_getElem?.mp member
    cases bit with
    | false => rfl
    | true =>
      rw [List.getElem?_drop, List.getElem?_drop] at found
      have := burst _ found
      omega
  rw [parts, run_append, run_append, run_zero poly front] at ended
  have middle := zero_of_run marked (List.length_take_le _ _) (eq_zero_of_run marked back ended)
  intro bit member
  rw [parts] at member
  rcases List.mem_append.mp member with before | member
  · exact front bit before
  · rcases List.mem_append.mp member with within | behind
    · exact middle bit within
    · exact back bit behind

/-- Runs of the same length, over bits that differ within a burst no longer than the
register, end apart. -/
theorem run_ne_of_burst {first second : List Bool} (length : first.length = second.length)
    (differ : first ≠ second) {start : Nat}
    (burst : ∀ i, first[i]? ≠ second[i]? → start ≤ i ∧ i < start + w) (state : BitVec w) :
    run poly first state ≠ run poly second state := by
  intro same
  have ended : run poly (List.zipWith xor first second) (0 : BitVec w) = 0 := by
    have apart := run_xor poly length state state
    rwa [same, BitVec.xor_self, BitVec.xor_self] at apart
  have inside : ∀ i, (List.zipWith xor first second)[i]? = some true →
      start ≤ i ∧ i < start + w := fun i set => burst i fun equal => by
    rw [List.getElem?_zipWith, equal] at set
    cases bit : second[i]? with
    | none => simp [bit] at set
    | some bit' => simp [bit] at set
  exact differ (eq_of_zipWith_xor length (zero_of_burst marked inside ended))

end Marked

end D2xCios.Lib.ShiftRegister
