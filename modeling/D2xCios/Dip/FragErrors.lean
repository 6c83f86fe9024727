import D2xCios.Dip.Frag
import D2xCios.Lib.Graded

/-!
# Errors of the device below a fragmented read

`Frag_Read` stops at the first read of the device that fails, and its result is
0 only if it got to its end. What every single read establishes between the
states around it is therefore established by the whole, with the same reading
of success.
-/

namespace D2xCios.Dip

open D2xCios.Lib

variable {σ : Type} {related : Bool → σ → σ → Prop}

/-- The relation behind code whose result is `ret`. -/
def Ends (related : Bool → σ → σ → Prop) (ret : Int) (a b : σ) : Prop :=
  related (decide (ret = 0)) a b

section Ends

variable {ret ret' : Int} {a b c : σ}

/-- Nothing to read is no error. -/
theorem Ends.zero (graded : Graded related) (s : σ) : Ends related 0 s s := graded.refl s

/-- What asks nothing of the storage ends as it likes. -/
theorem Ends.idle (graded : Graded related) (ret : Int) (s : σ) : Ends related ret s s :=
  graded.idle _ s

/-- A request that fails ends with an error. -/
theorem Ends.failed (graded : Graded related) {ok : Bool} (step : related ok a b) (ne : ret ≠ 0) :
    Ends related ret a b := graded.failed step (decide_eq_false ne)

/-- A part that succeeds, and the rest behind it. -/
theorem Ends.after (graded : Graded related) (step : Ends related ret a b) (zero : ret = 0)
    (rest : Ends related ret' b c) : Ends related ret' a c :=
  Graded.after graded step (decide_eq_true zero) rest

end Ends

section Reads

variable {storage : Storage σ} (graded : Graded related)
  (reads : ∀ dev sector count st,
    related (storage.read dev sector count st).1 st (storage.read dev sector count st).2.2)
  (fs : FragState) (ff : FragList)

include graded reads

/-- A read of whole sectors reports the errors of the storage. -/
theorem fragReadSect_ends (offset data len : Nat) (mem : Mem) (st : σ) :
    Ends related (fragReadSect storage fs ff offset data len mem st).1 st
      (fragReadSect storage fs ff offset data len mem st).2.2 := by
  induction len using Nat.strongRecOn generalizing offset data mem st with
  | ind len ih =>
    rw [fragReadSect]
    by_cases none_left : len = 0
    · rw [if_pos none_left]
      exact .zero graded st
    rw [if_neg none_left]
    cases fragGet fs.fragIdx ff offset len with
    | error ret => exact .idle graded ret st
    | ok span =>
      obtain ⟨got, span_read⟩ : ∃ got, got = (if span.count = 0 then (true, [], st)
        else storage.read fs.fragDev span.sector span.count st) := ⟨_, rfl⟩
      -- a sparse span needs no read
      have step : related got.1 st got.2.2 := by
        rw [span_read]
        split
        · exact graded.refl st
        · exact reads fs.fragDev span.sector span.count st
      dsimp only
      rw [← span_read]
      by_cases succeeded : got.1 = true
      · rw [if_neg (by simpa using succeeded)]
        by_cases stuck : span.offset - offset + span.count = 0
        · rw [if_pos stuck]
          exact .failed graded step (show (-4 : Int) ≠ 0 by decide)
        · rw [if_neg stuck]
          exact graded.after step succeeded (ih (len - (span.offset - offset + span.count))
            (by omega) _ _ _ _)
      · rw [if_pos (by simpa using succeeded)]
        exact .failed graded step (show (-3 : Int) ≠ 0 by decide)

/-- A read within a sector reports the errors of the storage. -/
theorem fragReadPartial_ends (offset data len : Nat) (io : FragIo σ) :
    Ends related (fragReadPartial storage fs ff offset data len io).1 io.st
      (fragReadPartial storage fs ff offset data len io).2.2.st := by
  have step := fragReadSect_ends graded reads fs ff (offset >>> (fs.ssNumBits - 2)) 0 1
    io.sectorBuf io.st
  unfold fragReadPartial
  extract_lets offSec mod rlen whole
  split
  case isTrue nothing => exact .zero graded io.st
  case isFalse some_bytes =>
    dsimp only
    split
    case isTrue failed => exact step
    case isFalse succeeded => exact step.after graded (by simpa using succeeded) (.zero graded _)

/-- A read from the start of a sector reports the errors of the storage. -/
theorem fragReadAligned_ends (woffset data len : Nat) (io : FragIo σ) :
    Ends related (fragReadAligned storage fs ff woffset data len io).1 io.st
      (fragReadAligned storage fs ff woffset data len io).2.2.st := by
  unfold fragReadAligned
  split
  · exact fragReadSect_ends graded reads fs ff _ data _ io.mem io.st
  · exact .zero graded io.st

/-- The tail of a read reports the errors of the storage. -/
theorem fragReadTail_ends (data len woffset : Nat) (io : FragIo σ) :
    Ends related (fragReadTail storage fs ff data len woffset io).1 io.st
      (fragReadTail storage fs ff data len woffset io).2.st := by
  obtain ⟨aligned, aligned_read⟩ : ∃ aligned,
    aligned = fragReadAligned storage fs ff woffset data len io := ⟨_, rfl⟩
  have whole : Ends related aligned.1 io.st aligned.2.2.st := by
    rw [aligned_read]
    exact fragReadAligned_ends graded reads fs ff woffset data len io
  unfold fragReadTail
  rw [← aligned_read]
  dsimp only
  by_cases succeeded : aligned.1 = 0
  case neg =>
    rw [if_pos succeeded]
    exact whole
  rw [if_neg (not_not.mpr succeeded)]
  split
  case isTrue => exact whole.after graded succeeded (.zero graded _)
  case isFalse =>
    have trailing := fragReadPartial_ends graded reads fs ff
      (u32 (woffset + aligned.2.1 <<< (fs.ssNumBits - 2))) (data + aligned.2.1 <<< fs.ssNumBits)
      (len - aligned.2.1 <<< fs.ssNumBits) aligned.2.2
    have both := whole.after graded succeeded trailing
    split
    case isTrue failed => exact both
    case isFalse last =>
      split
      · exact .failed graded both (show (-5 : Int) ≠ 0 by decide)
      · exact both.after graded (by simpa using last) (.zero graded _)

/-- What every read of the device establishes, `Frag_Read` establishes. -/
theorem fragRead_ends (data len woffset : Nat) (io : FragIo σ) :
    Ends related (fragRead storage fs ff data len woffset io).1 io.st
      (fragRead storage fs ff data len woffset io).2.st := by
  have leading := fragReadPartial_ends graded reads fs ff woffset data len io
  unfold fragRead
  dsimp only
  split
  case isTrue failed => exact leading
  case isFalse succeeded =>
    exact leading.after graded (by simpa using succeeded)
      (fragReadTail_ends graded reads fs ff _ _ _ _)

end Reads

end D2xCios.Dip
