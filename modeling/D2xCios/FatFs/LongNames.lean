import D2xCios.FatFs.CodePage
import D2xCios.Lib.Packings

/-!
# Long names

A directory holds a long name in entries of their own in front of the entry of the file, 13
characters in each of them and the last ones first. `cmp_lfn` compares the characters of an entry
with those of a name, and `pick_lfn` takes them out of it. Both come to the end of a name in the
entry or to that of the entry, and accept nothing but fillers behind the former.
-/

namespace D2xCios.FatFs

open D2xCios.Lib

/-! ## The source -/

/-- `LfnOfs`: where the characters are in an entry. -/
def lfnOfs : List Nat := [1, 3, 5, 7, 9, 14, 16, 18, 20, 22, 24, 28, 30]

/-- A character of an entry. -/
def ldWChar (dir : Mem) (p : Nat) : WChar := UInt16.ofNat (le16 dir p)

/-- The place in the name of the first character of an entry. -/
def lfnOffset (ord : UInt8) : Nat := (4294967295 + ord.toNat) % 4294967296 * 13 % 4294967296

/-- The loop of `cmp_lfn`: how far it has come and the last character, if all of them match. -/
def cmpLoop (lfnbuf : Cells WChar) (dir : Mem) : List Nat → (i : Nat) → (wc : WChar) →
    Option (Nat × WChar)
  | [], i, wc => some (i, wc)
  | ofs :: rest, i, wc =>
    let uc := ldWChar dir ofs
    if wc ≠ 0 then
      if 255 ≤ i ∨ ffWtoupper uc ≠ ffWtoupper (lfnbuf i) then none
      else cmpLoop lfnbuf dir rest (i + 1) (ffWtoupper uc)
    else if uc ≠ 0xFFFF then none
    else cmpLoop lfnbuf dir rest i wc

/-- `cmp_lfn` -/
def cmpLfn (lfnbuf : Cells WChar) (dir : Mem) : Bool :=
  match cmpLoop lfnbuf dir lfnOfs (lfnOffset (dir 0 &&& 0xBF)) 1 with
  | none => false
  | some (i, wc) => ¬ (dir 0 &&& 0x40 ≠ 0 ∧ wc ≠ 0 ∧ lfnbuf i ≠ 0)

/-- The loop of `pick_lfn`: the name, and how far it has come, if nothing is wrong. -/
def pickLoop (dir : Mem) : List Nat → (lfnbuf : Cells WChar) → (i : Nat) → (wc : WChar) →
    Cells WChar × Option Nat
  | [], lfnbuf, i, _ => (lfnbuf, some i)
  | ofs :: rest, lfnbuf, i, wc =>
    let uc := ldWChar dir ofs
    if wc ≠ 0 then
      if 255 ≤ i then (lfnbuf, none)
      else pickLoop dir rest (lfnbuf.write i uc) (i + 1) uc
    else if uc ≠ 0xFFFF then (lfnbuf, none)
    else pickLoop dir rest lfnbuf i wc

/-- `pick_lfn` -/
def pickLfn (lfnbuf : Cells WChar) (dir : Mem) : Cells WChar × Bool :=
  match pickLoop dir lfnOfs lfnbuf (lfnOffset (dir 0 &&& 0x3F)) 1 with
  | (lfnbuf, none) => (lfnbuf, false)
  | (lfnbuf, some i) =>
    if dir 0 &&& 0x40 ≠ 0 then
      if 255 ≤ i then (lfnbuf, false) else (lfnbuf.write i 0, true)
    else (lfnbuf, true)

/-- `sum_sfn` -/
def sumSfn (dir : Mem) : UInt8 :=
  (List.range 11).foldl (fun sum k => (sum >>> 1) + (sum <<< 7) + dir k) 0

/-- The loop of `gen_numname` over the name. -/
def hashLoop (lfn : Cells WChar) : (fuel : Nat) → (i : Nat) → (seq : UInt16) → UInt16
  | 0, _, seq => seq
  | fuel + 1, i, seq =>
    let seq := (seq >>> 1) + (seq <<< 15) + lfn i
    if lfn (i + 1) ≠ 0 then hashLoop lfn fuel (i + 1) seq else seq

/-- A digit of the number that `gen_numname` appends. -/
def numDigit (d : Nat) : UInt8 := UInt8.ofNat (if 9 < d then d + 48 + 7 else d + 48)

/-- The digits that `gen_numname` puts in `ns`, in front of those that it has put there. -/
def numDigits : (fuel : Nat) → (seq : Nat) → List UInt8 → List UInt8
  | 0, _, ns => ns
  | fuel + 1, seq, ns =>
    let ns := numDigit (seq % 16) :: ns
    if seq / 16 ≠ 0 then numDigits fuel (seq / 16) ns else ns

/-- `gen_numname` -/
def genNumname (src : Mem) (lfn : Cells WChar) (seq : Nat) : Mem :=
  let seq := if seq > 5 then (hashLoop lfn 256 0 (UInt16.ofNat seq)).toNat else seq
  let ns := 0x7E :: numDigits 4 seq []
  let i := 8 - ns.length
  let j := ((List.range i).findIdx fun j => src j = 0x20)
  fun k => if j ≤ k ∧ k < 8 then ns.getD (k - j) 0x20 else src k

/-! ## The characters of an entry -/

/-- The characters of an entry of a long name. -/
def lfnChars (dir : Mem) : List WChar := lfnOfs.map (ldWChar dir)

/-- Behind the end of a name there are only fillers. -/
def Padded : List WChar → Prop
  | [] => True
  | c :: cs => if c = 0 then ∀ d ∈ cs, d = 0xFFFF else Padded cs

/-- The characters up to the end of a name. -/
def upToEnd (chars : List WChar) : List WChar := chars.takeWhile fun c => c ≠ 0

/-- The buffer holds a name from a place on, with the end of it. -/
def Spells (lfnbuf : Cells WChar) : (i : Nat) → List WChar → Prop
  | i, [] => lfnbuf i = 0
  | i, c :: cs => c ≠ 0 ∧ lfnbuf i = c ∧ Spells lfnbuf (i + 1) cs

/-- The characters are those in the buffer from a place on, up to the end and but for their case. -/
def Matches (lfnbuf : Cells WChar) : (i : Nat) → List WChar → Prop
  | _, [] => True
  | i, c :: cs =>
    i < 255 ∧ ffWtoupper c = ffWtoupper (lfnbuf i) ∧ (c ≠ 0 → Matches lfnbuf (i + 1) cs)

/-- How many characters there are up to the end of a name, and with it. -/
def stored : List WChar → Nat
  | [] => 0
  | c :: cs => if c = 0 then 1 else stored cs + 1

variable {name text : List WChar} {lfnbuf buf : Cells WChar} {dir : Mem} {i k : Nat} {wc c : WChar}
  {cs ds : List WChar}

theorem lfnChars_length (dir : Mem) : (lfnChars dir).length = 13 := List.length_map _

/-- A character in front of the end. -/
theorem upToEnd_cons (some : c ≠ 0) : upToEnd (c :: cs) = c :: upToEnd cs :=
  List.takeWhile_cons_of_pos (decide_eq_true some)

theorem upToEnd_zero : upToEnd (0 :: cs) = [] :=
  List.takeWhile_cons_of_neg (by decide)

theorem upToEnd_append : upToEnd (cs ++ ds) = if 0 ∈ cs then upToEnd cs else cs ++ upToEnd ds := by
  induction cs with
  | nil => rfl
  | cons c cs ih =>
    by_cases none : c = 0
    · rw [none, List.cons_append, upToEnd_zero, upToEnd_zero, if_pos List.mem_cons_self]
    · have other : (0 : WChar) ∈ c :: cs ↔ 0 ∈ cs :=
        List.mem_cons.trans (or_iff_right fun same => none same.symm)
      rw [List.cons_append, upToEnd_cons none, upToEnd_cons none, ih]
      simp only [other]
      split
      · rfl
      · rfl

theorem stored_le : stored cs ≤ cs.length := by
  induction cs with
  | nil => exact Nat.le_refl 0
  | cons c cs ih =>
    rw [stored, List.length_cons]
    split
    · omega
    · omega

/-- A name lies in the buffer from one place on. -/
theorem Spells.congr (same : ∀ k, i ≤ k → buf k = lfnbuf k) (spells : Spells lfnbuf i name) :
    Spells buf i name := by
  induction name generalizing i with
  | nil => exact (same i (Nat.le_refl i)).trans spells
  | cons c cs ih =>
    obtain ⟨some, char, rest⟩ := spells
    exact ⟨some, (same i (Nat.le_refl i)).trans char, ih (fun k ge => same k (by omega)) rest⟩

theorem matches_append :
    Matches lfnbuf i (cs ++ ds) ↔
      Matches lfnbuf i cs ∧ (0 ∉ cs → Matches lfnbuf (i + cs.length) ds) := by
  induction cs generalizing i with
  | nil => simp [Matches]
  | cons c cs ih =>
    rw [List.cons_append, Matches, Matches, ih, List.length_cons, Nat.add_right_comm, Nat.add_assoc]
    by_cases none : c = 0
    · simp [none]
    · have other : (0 : WChar) ∉ c :: cs ↔ 0 ∉ cs := by
        rw [List.mem_cons, or_iff_right fun same => none same.symm]
      simp only [other, ne_eq, none, not_false_eq_true, true_imp_iff, and_assoc]

/-- Some characters are those of the name in the buffer, with the end of it, if they are the same
but for their case. -/
theorem matches_iff (spells : Spells lfnbuf i name) (fits : i + name.length < 255) :
    (Matches lfnbuf i text ∧ (0 ∉ text → lfnbuf (i + text.length) = 0)) ↔
      (upToEnd text).map ffWtoupper = name.map ffWtoupper := by
  induction text generalizing i name with
  | nil =>
    cases name with
    | nil => exact iff_of_true ⟨trivial, fun _ => spells⟩ rfl
    | cons c cs =>
      refine iff_of_false (fun both => spells.1 ?_) nofun
      exact spells.2.1.symm.trans (both.2 List.not_mem_nil)
  | cons d ds ih =>
    rw [Matches]
    by_cases ended : d = 0
    · subst ended
      rw [upToEnd_zero]
      cases name with
      | nil =>
        have zero : lfnbuf i = 0 := spells
        refine iff_of_true ⟨⟨by omega, by rw [zero], fun some => absurd rfl some⟩, fun none => ?_⟩
          rfl
        exact absurd List.mem_cons_self none
      | cons c cs =>
        refine iff_of_false (fun both => spells.1 ?_) nofun
        exact ffWtoupper_eq_zero.1 (by
          rw [← spells.2.1, ← both.1.2.1]
          exact ffWtoupper_eq_zero.2 rfl)
    · rw [upToEnd_cons ended]
      cases name with
      | nil =>
        have zero : lfnbuf i = 0 := spells
        refine iff_of_false (fun both => ended ?_) nofun
        exact ffWtoupper_eq_zero.1 (by
          rw [both.1.2.1, zero]
          exact ffWtoupper_eq_zero.2 rfl)
      | cons c cs =>
        obtain ⟨-, char, rest⟩ := spells
        rw [List.length_cons] at fits
        have below : i < 255 := by omega
        have others : (0 : WChar) ∉ d :: ds ↔ 0 ∉ ds := by
          rw [List.mem_cons, or_iff_right fun same => ended same.symm]
        have place : i + (d :: ds).length = i + 1 + ds.length := by
          rw [List.length_cons, Nat.add_comm ds.length, Nat.add_assoc]
        have tail := ih rest (by omega)
        rw [others, place, char, List.map_cons, List.map_cons, List.cons.injEq, ← tail]
        simp only [below, ended, ne_eq, not_false_eq_true, true_and, true_imp_iff, and_assoc]

/-! ## Comparing -/

/-- Behind the end only the padding compares equal. -/
theorem cmpLoop_fillers (rest : List Nat) :
    (∀ d ∈ rest.map (ldWChar dir), d = 0xFFFF) ∧
        cmpLoop lfnbuf dir rest i 0 = some (i, 0) ∨
      ¬ (∀ d ∈ rest.map (ldWChar dir), d = 0xFFFF) ∧ cmpLoop lfnbuf dir rest i 0 = none := by
  induction rest with
  | nil => exact .inl ⟨fun _ member => absurd member List.not_mem_nil, rfl⟩
  | cons ofs rest ih =>
    rw [cmpLoop, if_neg (not_not.2 rfl), List.map_cons, List.forall_mem_cons]
    by_cases filler : ldWChar dir ofs = 0xFFFF
    · rw [if_neg (not_not.2 filler), and_iff_right filler]
      exact ih
    · rw [if_pos filler]
      exact .inr ⟨fun both => filler both.1, rfl⟩

/-- The loop ends if the characters match, with a 0 if and only if the end of the name is there. -/
theorem cmpLoop_spec (lfnbuf : Cells WChar) (dir : Mem) (i : Nat) (rest : List Nat)
    (more : wc ≠ 0) :
    (∃ i' wc', cmpLoop lfnbuf dir rest i wc = some (i', wc') ∧ Padded (rest.map (ldWChar dir)) ∧
      Matches lfnbuf i (rest.map (ldWChar dir)) ∧ (wc' ≠ 0 ↔ 0 ∉ rest.map (ldWChar dir)) ∧
      (wc' ≠ 0 → i' = i + rest.length)) ∨
    cmpLoop lfnbuf dir rest i wc = none ∧
      ¬ (Padded (rest.map (ldWChar dir)) ∧ Matches lfnbuf i (rest.map (ldWChar dir))) := by
  induction rest generalizing i wc with
  | nil => exact .inl ⟨i, wc, rfl, trivial, trivial, iff_of_true more List.not_mem_nil,
    fun _ => rfl⟩
  | cons ofs rest ih =>
    rw [List.map_cons, cmpLoop, if_pos more, Padded, Matches]
    generalize ldWChar dir ofs = c
    by_cases differs : 255 ≤ i ∨ ffWtoupper c ≠ ffWtoupper (lfnbuf i)
    · rw [if_pos differs]
      refine .inr ⟨rfl, fun both => ?_⟩
      exact differs.elim (Nat.not_le.2 both.2.1) fun other => other both.2.2.1
    · rw [if_neg differs]
      obtain ⟨below, same⟩ := not_or.1 differs
      rw [not_not] at same
      have here : i < 255 ∧ ffWtoupper c = ffWtoupper (lfnbuf i) := ⟨Nat.not_le.1 below, same⟩
      by_cases ended : c = 0
      · subst ended
        rw [if_pos rfl, ffWtoupper_eq_zero.2 rfl]
        rcases cmpLoop_fillers rest with ⟨fillers, done⟩ | ⟨others, failed⟩
        · rw [done]
          exact .inl ⟨_, 0, rfl, fillers, ⟨here.1, here.2, fun some => absurd rfl some⟩,
            iff_of_false (not_not.2 rfl) (not_not.2 List.mem_cons_self),
              fun some => absurd rfl some⟩
        · exact .inr ⟨failed, fun both => others both.1⟩
      · rw [if_neg ended]
        have others : (0 : WChar) ∉ c :: rest.map (ldWChar dir) ↔ 0 ∉ rest.map (ldWChar dir) := by
          rw [List.mem_cons, or_iff_right fun same => ended same.symm]
        rw [others]
        rcases ih (i := i + 1) (fun none => ended (ffWtoupper_eq_zero.1 none)) with
          ⟨i', wc', done, padded, rest', zero, place⟩ | ⟨failed, differs'⟩
        · refine .inl ⟨i', wc', done, padded, ⟨here.1, here.2, fun _ => rest'⟩, zero,
            fun some => ?_⟩
          rw [place some, List.length_cons, Nat.add_comm rest.length, Nat.add_assoc]
        · exact .inr ⟨failed, fun both => differs' ⟨both.1, both.2.2.2 ended⟩⟩

/-- `cmp_lfn` accepts an entry whose characters match those in the buffer, and the last of which is
that of the name if the entry is the first one. -/
theorem cmpLfn_iff : cmpLfn lfnbuf dir = true ↔
    Padded (lfnChars dir) ∧ Matches lfnbuf (lfnOffset (dir 0 &&& 0xBF)) (lfnChars dir) ∧
      (dir 0 &&& 0x40 ≠ 0 → 0 ∉ lfnChars dir →
        lfnbuf (lfnOffset (dir 0 &&& 0xBF) + 13) = 0) := by
  unfold cmpLfn
  rcases cmpLoop_spec lfnbuf dir (lfnOffset (dir 0 &&& 0xBF)) lfnOfs
    (show (1 : WChar) ≠ 0 by decide) with
    ⟨i', wc', done, padded, matched, zero, place⟩ | ⟨failed, differs⟩
  · rw [done]
    dsimp only
    rw [decide_eq_true_iff, lfnChars, ← zero]
    refine ⟨fun last => ⟨padded, matched, fun first more => ?_⟩, fun last both => ?_⟩
    · by_contra some
      exact last ⟨first, more, by rw [place more]; exact some⟩
    · obtain ⟨first, more, some⟩ := both
      rw [place more] at some
      exact some (last.2.2 first more)
  · rw [failed]
    exact iff_of_false Bool.false_ne_true fun all => differs ⟨all.1, all.2.1⟩

/-! ## Picking -/

/-- Behind the end only the padding is picked up. -/
theorem pickLoop_fillers (rest : List Nat) :
    (∀ d ∈ rest.map (ldWChar dir), d = 0xFFFF) ∧
        pickLoop dir rest lfnbuf i 0 = (lfnbuf, some i) ∨
      ¬ (∀ d ∈ rest.map (ldWChar dir), d = 0xFFFF) ∧
        pickLoop dir rest lfnbuf i 0 = (lfnbuf, none) := by
  induction rest with
  | nil => exact .inl ⟨fun _ member => absurd member List.not_mem_nil, rfl⟩
  | cons ofs rest ih =>
    rw [pickLoop, if_neg (not_not.2 rfl), List.map_cons, List.forall_mem_cons]
    by_cases filler : ldWChar dir ofs = 0xFFFF
    · rw [if_neg (not_not.2 filler), and_iff_right filler]
      exact ih
    · rw [if_pos filler]
      exact .inr ⟨fun both => filler both.1, rfl⟩

/-- The buffer `buf` is as `lfnbuf`, but for the characters up to the end of a name, from a place
on: with a name behind them, or the end of it, they are in front of that. -/
structure Picked (lfnbuf : Cells WChar) (i : Nat) (cs : List WChar) (buf : Cells WChar) : Prop where
  others : ∀ k, k < i ∨ i + stored cs ≤ k → buf k = lfnbuf k
  spells : ∀ buf' text, (∀ k < i + stored cs, buf' k = buf k) →
    (0 ∉ cs → Spells buf' (i + cs.length) (upToEnd text)) → Spells buf' i (upToEnd (cs ++ text))

/-- The loop takes the characters out of the entry while there is room for them in the buffer. -/
theorem pickLoop_spec (lfnbuf : Cells WChar) (rest : List Nat) (more : wc ≠ 0) (room : i ≤ 255) :
    (∃ buf, pickLoop dir rest lfnbuf i wc = (buf, some (i + stored (rest.map (ldWChar dir)))) ∧
      Padded (rest.map (ldWChar dir)) ∧ i + stored (rest.map (ldWChar dir)) ≤ 255 ∧
      Picked lfnbuf i (rest.map (ldWChar dir)) buf) ∨
    (pickLoop dir rest lfnbuf i wc).2 = none ∧
      ¬ (Padded (rest.map (ldWChar dir)) ∧ i + stored (rest.map (ldWChar dir)) ≤ 255) := by
  induction rest generalizing i wc lfnbuf with
  | nil =>
    exact .inl ⟨lfnbuf, rfl, trivial, room, fun _ _ => rfl,
      fun _ _ _ behind => behind List.not_mem_nil⟩
  | cons ofs rest ih =>
    rw [List.map_cons, pickLoop, if_pos more, Padded, stored]
    generalize ldWChar dir ofs = c
    by_cases full : 255 ≤ i
    · rw [if_pos full]
      refine .inr ⟨rfl, fun both => ?_⟩
      have length := both.2
      split at length
      · omega
      · omega
    · rw [if_neg full]
      by_cases ended : c = 0
      · subst ended
        rw [if_pos rfl, if_pos rfl]
        rcases pickLoop_fillers rest with ⟨fillers, done⟩ | ⟨others, failed⟩
        · rw [done]
          refine .inl ⟨_, rfl, fillers, by omega, fun k outside => ?_, fun buf' text same _ => ?_⟩
          · rw [stored, if_pos rfl] at outside
            exact Cells.write_other _ _ (by omega)
          · rw [List.cons_append, upToEnd_zero]
            exact (same i (by rw [stored, if_pos rfl]; omega)).trans (Cells.write_same _ _ _)
        · exact .inr ⟨congrArg Prod.snd failed, fun both => others both.1⟩
      · rw [if_neg ended, if_neg ended]
        have others : (0 : WChar) ∉ c :: rest.map (ldWChar dir) ↔ 0 ∉ rest.map (ldWChar dir) := by
          rw [List.mem_cons, or_iff_right fun same => ended same.symm]
        have whole : i + (stored (rest.map (ldWChar dir)) + 1) =
            i + 1 + stored (rest.map (ldWChar dir)) := by omega
        rw [whole]
        rcases ih (lfnbuf.write i c) ended (show i + 1 ≤ 255 by omega) with
          ⟨buf, done, padded, fits, picked⟩ | ⟨failed, differs⟩
        · refine .inl ⟨buf, done, padded, fits, fun k outside => ?_,
            fun buf' text same behind => ?_⟩
          · rw [stored, if_neg ended, whole] at outside
            rw [picked.others k (by omega)]
            exact Cells.write_other _ _ (by omega)
          · rw [stored, if_neg ended, whole] at same
            rw [List.length_cons, others] at behind
            rw [List.cons_append, upToEnd_cons ended]
            refine ⟨ended, ?_, picked.spells buf' text same fun none => ?_⟩
            · rw [same i (by omega), picked.others i (.inl (by omega))]
              exact Cells.write_same _ _ _
            · rw [Nat.add_right_comm, Nat.add_assoc]
              exact behind none
        · exact .inr ⟨failed, differs⟩

/-- Without an end everything is stored. -/
theorem stored_eq (none : 0 ∉ cs) : stored cs = cs.length := by
  induction cs with
  | nil => rfl
  | cons c cs ih =>
    rw [List.mem_cons, not_or] at none
    rw [stored, if_neg (Ne.symm none.1), ih none.2, List.length_cons]

/-- `pick_lfn` accepts an entry if there are only fillers behind the end of the name, and the buffer
has room for its characters, and for the end if the entry is the first one. Then it puts them in
front of those of the other entries. -/
theorem pickLfn_spec (lfnbuf : Cells WChar) (dir : Mem) :
    ((pickLfn lfnbuf dir).2 = true ↔
      Padded (lfnChars dir) ∧ lfnOffset (dir 0 &&& 0x3F) + stored (lfnChars dir) ≤ 255 ∧
        (dir 0 &&& 0x40 ≠ 0 → lfnOffset (dir 0 &&& 0x3F) + stored (lfnChars dir) < 255)) ∧
    ((pickLfn lfnbuf dir).2 = true → ∀ text,
      (if dir 0 &&& 0x40 ≠ 0 then text = []
        else Spells lfnbuf (lfnOffset (dir 0 &&& 0x3F) + 13) (upToEnd text)) →
      Spells (pickLfn lfnbuf dir).1 (lfnOffset (dir 0 &&& 0x3F))
        (upToEnd (lfnChars dir ++ text))) := by
  unfold pickLfn
  generalize lfnOffset (dir 0 &&& 0x3F) = o
  have loop : (∃ buf, pickLoop dir lfnOfs lfnbuf o 1 = (buf, some (o + stored (lfnChars dir))) ∧
      Padded (lfnChars dir) ∧ o + stored (lfnChars dir) ≤ 255 ∧
      Picked lfnbuf o (lfnChars dir) buf) ∨
      (pickLoop dir lfnOfs lfnbuf o 1).2 = none ∧
        ¬ (Padded (lfnChars dir) ∧ o + stored (lfnChars dir) ≤ 255) := by
    by_cases room : o ≤ 255
    · exact pickLoop_spec lfnbuf lfnOfs (by decide) room
    · refine .inr ⟨?_, fun both => room (by omega)⟩
      rw [lfnOfs, pickLoop, if_pos (by decide), if_pos (by omega)]
  rcases loop with ⟨buf, done, padded, fits, picked⟩ | ⟨failed, differs⟩
  · rw [done]
    dsimp only
    by_cases first : dir 0 &&& 0x40 ≠ 0
    · simp only [if_pos first]
      by_cases full : 255 ≤ o + stored (lfnChars dir)
      · rw [if_pos full]
        refine ⟨iff_of_false Bool.false_ne_true fun all => ?_, fun failed => by cases failed⟩
        exact absurd (all.2.2 first) (Nat.not_lt.2 full)
      · rw [if_neg full]
        refine ⟨iff_of_true rfl ⟨padded, fits, fun _ => Nat.not_le.1 full⟩, ?_⟩
        rintro - text rfl
        refine picked.spells _ [] (fun k k_lt => Cells.write_other _ _ (Nat.ne_of_lt k_lt))
          fun none => ?_
        change Cells.write _ _ _ _ = 0
        rw [stored_eq none, Cells.write_same]
    · simp only [if_neg first]
      refine ⟨iff_of_true trivial ⟨padded, fits, fun other => absurd other first⟩,
        fun _ text behind => ?_⟩
      refine picked.spells buf text (fun _ _ => rfl) fun _ => behind.congr fun k ge => ?_
      have length : stored (lfnChars dir) ≤ (lfnChars dir).length := stored_le
      rw [lfnChars_length] at length ge
      exact picked.others k (.inr (by omega))
  · generalize pickLoop dir lfnOfs lfnbuf o 1 = result at failed ⊢
    obtain ⟨buf, i⟩ := result
    obtain rfl : i = none := failed
    exact ⟨iff_of_false Bool.false_ne_true fun all => differs ⟨all.1, all.2.1⟩,
      fun failed => by cases failed⟩

end D2xCios.FatFs
