import D2xCios.FatFs.Listings

/-!
# Numbered names

For a long name `dir_register` makes a short one with a number, the first one that no file of the
directory has.
-/

namespace D2xCios.FatFs

open D2xCios.Lib
open D2xCios.Fat.Wrapper (FError)

variable (g : Geometry) (faults : Faults)

/-! ## The source -/

/-- The short name with the number `n`; `NS` is 0 while it is looked for. -/
def numbered (sn : Mem) (lfn : Cells WChar) (n : Nat) : Mem := (genNumname sn lfn n).write 11 0

/-- The loop of `dir_register` over the numbers. -/
def numberLoop (sn : Mem) (lfn : Cells WChar) (dj : Dir) : (left : Nat) → (n : Nat) → FsM Mem
  | 0, _ => throw .denied
  | left + 1, n => do
    let found ← untilEnd (dirFind g faults (numbered sn lfn n) none dj)
    if found.isSome then numberLoop sn lfn dj left (n + 1)
    else return (numbered sn lfn n).write 11 (sn 11)

/-- The part of `dir_register` that makes the short name of a file, where `NS_LOSS` is set in
`sn`. -/
def numberName (sn : Mem) (lfn : Cells WChar) (dj : Dir) : FsM Mem :=
  if sn 11 &&& 0x01 ≠ 0 then numberLoop g faults sn lfn dj 99 1 else return sn

/-! ## Looking for a short name -/

/-- A file in the directory has the short name. -/
def Taken (es : List Mem) (fn : Mem) : Prop := ∃ e ∈ inUse es, IsFile e ∧ SameSfn e fn

variable {g faults} {s : Fatfs} {cells : List Nat} {dj : Dir} {fn : Mem} {es : List Mem} {k : Nat}
  {st : LfnState}

/-- Without a long name it is the short names that are compared. -/
theorem findScan_short (whole : fn 11 &&& 0x01 = 0) (forgot : st.ord = 0xFF) :
    (∃ next, scan (findLook fn none) k es st = .inl next ∧
      ∀ e ∈ es, ¬ Void e → ¬ IsLfn e → ¬ SameSfn e fn) ∨
    ∃ place, scan (findLook fn none) k es st = .inr place ∧
      ∃ e ∈ es, ¬ Void e ∧ ¬ IsLfn e ∧ SameSfn e fn := by
  induction es generalizing k st with
  | nil => exact .inl ⟨st, rfl, fun _ member => absurd member List.not_mem_nil⟩
  | cons e es ih =>
    have goes : ∀ next : LfnState, findLook fn none k e st = .inl next → next.ord = 0xFF →
        (¬ Void e → ¬ IsLfn e → ¬ SameSfn e fn) →
        (∃ next, scan (findLook fn none) k (e :: es) st = .inl next ∧
          ∀ e' ∈ e :: es, ¬ Void e' → ¬ IsLfn e' → ¬ SameSfn e' fn) ∨
        ∃ place, scan (findLook fn none) k (e :: es) st = .inr place ∧
          ∃ e' ∈ e :: es, ¬ Void e' ∧ ¬ IsLfn e' ∧ SameSfn e' fn := by
      intro next look missing other
      rw [scan_next look]
      rcases ih (k := k + 1) missing with ⟨last, seen, others⟩ | ⟨place, seen, e', member, named⟩
      · exact .inl ⟨last, seen, List.forall_mem_cons.2 ⟨other, others⟩⟩
      · exact .inr ⟨place, seen, e', List.mem_cons_of_mem _ member, named⟩
    by_cases void : Void e
    · exact goes _ (findLook_void void) rfl fun live => absurd void live
    · by_cases isLfn : IsLfn e
      · exact goes _ (findLook_lfn_none void isLfn) forgot fun _ isSfn => absurd isLfn isSfn
      · have look := findLook_sfn fn none k st void isLfn
        rw [if_neg fun long => absurd (forgot.symm.trans long.1) (by decide)] at look
        by_cases same : SameSfn e fn
        · rw [if_pos ⟨whole, same⟩] at look
          exact .inr ⟨_, scan_stop look, e, List.mem_cons_self, void, isLfn, same⟩
        · rw [if_neg fun both => same both.2] at look
          exact goes _ look rfl fun _ _ => same

/-- A search for a short name says whether it is taken. -/
theorem findEntry_none_iff (whole : fn 11 &&& 0x01 = 0) :
    findEntry fn none es = none ↔ ¬ Taken es fn := by
  have short : (∃ next, scan (findLook fn none) 0 (inUse es) noLfn = .inl next ∧ _) ∨
      ∃ place, scan (findLook fn none) 0 (inUse es) noLfn = .inr place ∧ _ :=
    findScan_short whole rfl
  rcases short with ⟨next, seen, others⟩ | ⟨place, seen, e, member, live, isSfn, same⟩
  · rw [findEntry, seen]
    refine iff_of_true rfl ?_
    rintro ⟨e, member, file, same⟩
    exact others e member file.live file.isSfn same
  · rw [findEntry, seen]
    refine iff_of_false (fun missing => by cases missing) fun free => ?_
    exact free ⟨e, member, ⟨ne_of_mem_inUse member, live, isSfn⟩, same⟩

/-! ## Numbers -/

theorem numbered_whole (sn : Mem) (lfn : Cells WChar) (n : Nat) :
    numbered sn lfn n 11 &&& 0x01 = 0 := by
  rw [numbered, Cells.write_same]
  decide

/-- The loop ends with the first number that is free. -/
theorem numberLoop_spec (wf : g.Wf) (coherent : s.Coherent g)
    (table : g.HasTable (s.fat g) dj.sclust cells) (sn : Mem) (lfn : Cells WChar) (left n : Nat) :
    After (numberLoop g faults sn lfn dj left n)
      (fun fn s' => Kept g faults s s' ∧ ∃ m, n ≤ m ∧ m < n + left ∧
        fn = (numbered sn lfn m).write 11 (sn 11) ∧
        ¬ Taken (s.dirEntries g cells) (numbered sn lfn m) ∧
        ∀ j, n ≤ j → j < m → Taken (s.dirEntries g cells) (numbered sn lfn j))
      (fun e s' => e = .denied ∧ Kept g faults s s' ∧
        (∀ j, n ≤ j → j < n + left → Taken (s.dirEntries g cells) (numbered sn lfn j)) ∨
        Broken faults e) s := by
  induction left generalizing n s with
  | zero => exact .inl ⟨rfl, .refl coherent, fun j ge lt => by omega⟩
  | succ left ih =>
    unfold numberLoop
    rw [after_bind]
    refine after_untilEnd ((dirFind_finds wf coherent table).mono (fun found s₁ => ?_)
      fun e s₁ => ?_)
    · rintro ⟨there, -, kept⟩
      have taken : Taken (s.dirEntries g cells) (numbered sn lfn n) := by
        by_contra free
        rw [(findEntry_none_iff (numbered_whole sn lfn n)).2 free] at there
        cases there
      have upTo : ∀ {m j : Nat}, (∀ j, n + 1 ≤ j → j < m →
          Taken (s.dirEntries g cells) (numbered sn lfn j)) → n ≤ j → j < m →
          Taken (s.dirEntries g cells) (numbered sn lfn j) := by
        intro m j later ge lt
        rcases Nat.eq_or_lt_of_le ge with rfl | gt
        · exact taken
        · exact later j gt lt
      rw [Option.isSome_some, if_pos rfl]
      have rest := ih kept.coherent (kept.hasTable wf table) (n + 1)
      rw [kept.dirEntries wf table] at rest
      refine rest.mono (fun fn s₂ => ?_) fun e s₂ => ?_
      · rintro ⟨kept', m, ge, lt, name, free, before⟩
        exact ⟨kept.trans kept', m, by omega, by omega, name, free, fun j => upTo before⟩
      · rintro (⟨rfl, kept', all⟩ | broken)
        · exact .inl ⟨rfl, kept.trans kept', fun j ge lt => upTo all ge (by omega)⟩
        · exact .inr broken
    · rintro (⟨rfl, missing, kept⟩ | ⟨rfl, broken⟩)
      · rw [if_pos rfl]
        exact ⟨kept, n, Nat.le_refl n, by omega, rfl,
          (findEntry_none_iff (numbered_whole sn lfn n)).1 missing, fun j ge lt => by omega⟩
      · exact .inr ⟨rfl, broken⟩

/-- The short name of a file with a long one is that with the first number, from 1 to 99, that no
file of the directory has, and there is none only if they all are taken. -/
theorem numberName_spec (wf : g.Wf) (coherent : s.Coherent g)
    (table : g.HasTable (s.fat g) dj.sclust cells) (sn : Mem) (lfn : Cells WChar)
    (loss : sn 11 &&& 0x01 ≠ 0) :
    After (numberName g faults sn lfn dj)
      (fun fn s' => Kept g faults s s' ∧ ¬ Taken (s.dirEntries g cells) fn ∧
        ∃ n, 1 ≤ n ∧ n < 100 ∧ fn = (numbered sn lfn n).write 11 (sn 11) ∧
          ∀ j, 1 ≤ j → j < n → Taken (s.dirEntries g cells) (numbered sn lfn j))
      (fun e s' => e = .denied ∧ Kept g faults s s' ∧
        (∀ j, 1 ≤ j → j < 100 → Taken (s.dirEntries g cells) (numbered sn lfn j)) ∨
        Broken faults e) s := by
  unfold numberName
  rw [if_pos loss]
  refine (numberLoop_spec wf coherent table sn lfn 99 1).mono (fun fn s' => ?_) fun e s' => id
  rintro ⟨kept, n, ge, lt, rfl, free, before⟩
  refine ⟨kept, ?_, n, ge, lt, rfl, before⟩
  rintro ⟨e, member, file, same⟩
  refine free ⟨e, member, file, fun k k_lt => ?_⟩
  rw [same k k_lt, Cells.write_other _ _ (by omega)]

/-- The number 1 is taken in the small volume. -/
theorem small_numberName :
    Taken (smallNamed.dirEntries small []) (numbered lossyName smallLfn 1) ∧
    After (numberName small .never lossyName smallLfn rootDir)
      (fun fn s' => Kept small .never smallNamed s' ∧ ¬ Taken (smallNamed.dirEntries small []) fn ∧
        ∃ n, 1 ≤ n ∧ n < 100 ∧ fn = (numbered lossyName smallLfn n).write 11 (lossyName 11) ∧
          ∀ j, 1 ≤ j → j < n →
            Taken (smallNamed.dirEntries small []) (numbered lossyName smallLfn j))
      (fun e s' => e = .denied ∧ Kept small .never smallNamed s' ∧
        (∀ j, 1 ≤ j → j < 100 →
          Taken (smallNamed.dirEntries small []) (numbered lossyName smallLfn j)) ∨
        Broken .never e) smallNamed := by
  refine ⟨?_, numberName_spec small_wf smallNamed_coherent smallNamed_table _ _ (by decide)⟩
  by_contra free
  exact absurd ((findEntry_none_iff (numbered_whole _ _ _)).2 free) (by decide +kernel)

end D2xCios.FatFs
