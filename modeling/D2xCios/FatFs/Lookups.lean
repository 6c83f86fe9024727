import D2xCios.FatFs.Entries
import Mathlib.Data.List.TakeWhile

/-!
# Names in a directory

A file is found under its short name, and under the long one whose entries are directly in front of
its own. It is taken out of the directory by marking its entries as deleted, and what `dir_find`
finds under all other names stays the same.
-/

namespace D2xCios.FatFs

open D2xCios.Lib

variable {fn : Mem} {lfn : Option (Cells WChar)} {e : Mem} {k : Nat} {st st' : LfnState}
  {es before segs after : List Mem}

/-! ## The end of a directory -/

theorem inUse_append (used : ∀ e ∈ before, e 0 ≠ 0) (after : List Mem) :
    inUse (before ++ after) = before ++ inUse after :=
  List.takeWhile_append_of_pos fun e member => decide_eq_true (used e member)

/-- An entry in use does not end the table. -/
theorem ne_of_mem_inUse (member : e ∈ inUse es) : e 0 ≠ 0 :=
  of_decide_eq_true (List.mem_takeWhile_imp (p := fun e : Mem => decide (e 0 ≠ 0)) member)

/-! ## Looking for a name -/

/-- What is found from an entry on. -/
def findFrom (fn : Mem) (lfn : Option (Cells WChar)) (k : Nat) (es : List Mem) (st : LfnState) :
    Option (Nat × Nat) := (scan (findLook fn lfn) k es st).getRight?

/-- A search goes on behind entries that it passes over. -/
theorem findFrom_next {next : LfnState} (seen : scan (findLook fn lfn) k before st = .inl next)
    (after : List Mem) :
    findFrom fn lfn k (before ++ after) st = findFrom fn lfn (k + before.length) after next := by
  rw [findFrom, scan_append_next seen]
  rfl

/-- A search stops at what it finds. -/
theorem findFrom_found {place : Nat × Nat} (seen : scan (findLook fn lfn) k before st = .inr place)
    (after : List Mem) : findFrom fn lfn k (before ++ after) st = some place := by
  rw [findFrom, scan_append_found seen]
  rfl

/-- A search that has forgotten the long name in front does not depend on it. -/
theorem findFrom_forgot (forgot : Forgot st st') :
    findFrom fn lfn k es st = findFrom fn lfn k es st' := by
  rcases findScan_forgot fn lfn k es forgot with
    ⟨next, next', seen, seen', -⟩ | ⟨place, seen, seen'⟩
  · rw [findFrom, seen, findFrom, seen']
    rfl
  · rw [findFrom, seen, findFrom, seen']

/-! ## The entries of a file -/

/-- An entry of a file or a directory. -/
structure IsFile (e : Mem) : Prop where
  used : e 0 ≠ 0
  live : ¬ Void e
  isSfn : ¬ IsLfn e

/-- Entries of long names and those without valid data. -/
def Nameless (es : List Mem) : Prop := ∀ e ∈ es, Void e ∨ IsLfn e

/-- What looking at the entries of a file can come to. -/
theorem findScan_file (nameless : Nameless segs) (file : IsFile e) (fn : Mem)
    (lfn : Option (Cells WChar)) (k : Nat) (st : LfnState) :
    (∃ lfnIdx, scan (findLook fn lfn) k (segs ++ [e]) st = .inr (k + segs.length, lfnIdx)) ∨
      ∃ next, scan (findLook fn lfn) k (segs ++ [e]) st = .inl next ∧ next.ord = 0xFF := by
  obtain ⟨next, seen⟩ := findScan_passes fn lfn k st nameless
  rw [scan_append_next seen]
  rcases findLook_file fn lfn (k + segs.length) next file.live file.isSfn with
    ⟨lfnIdx, found⟩ | ⟨next', passed, missing⟩
  · exact .inl ⟨lfnIdx, scan_stop found⟩
  · exact .inr ⟨next', scan_next passed, missing⟩

/-! ## Taking a name out of a directory -/

variable {es' : List Mem}

/-- The entries from `before` on up to that of a file, and the same ones marked as deleted. -/
structure Removed (es es' before segs : List Mem) (e : Mem) : Prop where
  used : ∀ b ∈ before ++ (segs ++ [e]), b 0 ≠ 0
  place : ∃ after, es = before ++ ((segs ++ [e]) ++ after) ∧
    es' = before ++ ((segs ++ [e]).map (fun b => b.write 0 0xE5) ++ after)
  nameless : Nameless segs
  file : IsFile e

/-- The entries in use, with those of the removed file and without them. -/
theorem Removed.inUse (removed : Removed es es' before segs e) :
    ∃ rest void, FatFs.inUse es = before ++ ((segs ++ [e]) ++ rest) ∧
      FatFs.inUse es' = before ++ (void ++ rest) ∧ void.length = segs.length + 1 ∧
      ∀ b ∈ void, Void b := by
  obtain ⟨after, rfl, rfl⟩ := removed.place
  refine ⟨FatFs.inUse after, (segs ++ [e]).map fun b => b.write 0 0xE5, ?_, ?_, ?_, ?_⟩
  · rw [← List.append_assoc, inUse_append removed.used, List.append_assoc]
  · rw [inUse_append fun b member => removed.used b (List.mem_append_left _ member), inUse_append]
    intro b member
    obtain ⟨c, -, rfl⟩ := List.mem_map.1 member
    rw [Cells.write_same]
    decide
  · rw [List.length_map, List.length_append, List.length_singleton]
  · intro b member
    obtain ⟨c, -, rfl⟩ := List.mem_map.1 member
    exact .inl (Cells.write_same _ _ _)

/-- Under any name is found what has been found before, but for the file itself, and in its place
only what lies behind. -/
theorem Removed.findEntry (removed : Removed es es' before segs e) (fn : Mem)
    (lfn : Option (Cells WChar)) : FatFs.findEntry fn lfn es' = FatFs.findEntry fn lfn es ∨
      (∃ lfnIdx, FatFs.findEntry fn lfn es = some (before.length + segs.length, lfnIdx)) ∧
        ∀ place ∈ FatFs.findEntry fn lfn es', before.length + segs.length < place.1 := by
  obtain ⟨rest, void, used, used', length, voids⟩ := removed.inUse
  change findFrom fn lfn 0 (FatFs.inUse es') noLfn = findFrom fn lfn 0 (FatFs.inUse es) noLfn ∨
    (∃ lfnIdx, findFrom fn lfn 0 (FatFs.inUse es) noLfn = _) ∧
      ∀ place ∈ findFrom fn lfn 0 (FatFs.inUse es') noLfn, _
  rw [used, used']
  cases first : scan (findLook fn lfn) 0 before noLfn with
  | inr place =>
    rw [findFrom_found first, findFrom_found first]
    exact .inl rfl
  | inl st =>
    have some : void ≠ [] := List.ne_nil_of_length_pos (by omega)
    rw [findFrom_next first, findFrom_next first, Nat.zero_add,
      findFrom_next (findScan_void voids some), length]
    rcases findScan_file removed.nameless removed.file fn lfn before.length st with
      ⟨lfnIdx, found⟩ | ⟨next, passed, missing⟩
    · rw [findFrom_found found]
      refine .inr ⟨⟨lfnIdx, rfl⟩, fun place there => ?_⟩
      cases behind : scan (findLook fn lfn) (before.length + (segs.length + 1)) rest
          { st with ord := 0xFF } with
      | inl last =>
        rw [findFrom, behind] at there
        cases there
      | inr place' =>
        rw [findFrom, behind] at there
        obtain rfl := Option.some.inj there
        have range := scan_found_range behind
        omega
    · rw [findFrom_next passed, List.length_append, List.length_singleton]
      exact .inl (findFrom_forgot (.inr ⟨rfl, missing⟩))

/-! ## What is found -/

/-- The entry of a file has the short name that is looked for. -/
def ShortNamed (fn e : Mem) : Prop := fn 11 &&& 0x01 = 0 ∧ SameSfn e fn

/-- What `dir_find` knows in front of an entry. -/
theorem findScan_tracks {next : LfnState} (none : st.ord = 0xFF) {j : Nat} (j_le : j ≤ es.length)
    (seen : scan (findLook fn lfn) 0 (es.take j) st = .inl next) :
      Tracks (accepts lfn) es j next := by
  have known := scan_invariant (fun k st => Tracks (accepts lfn) es k st)
    (fun i i_lt st next tracks look => by
      rw [Nat.zero_add] at tracks look ⊢
      rw [List.length_take, Nat.min_eq_left j_le] at i_lt
      rw [List.getElem_take] at look
      exact tracks.find (by omega) look) (.start none) seen
  rwa [Nat.zero_add, List.length_take, Nat.min_eq_left j_le] at known

/-- The entry of a file is passed over if it has neither the short name nor, in front of it, the
entries of a long one that `dir_find` accepts. -/
theorem Tracks.passed (tracks : Tracks (accepts lfn) es k st) (file : IsFile e) {next : LfnState}
    (look : findLook fn lfn k e st = .inl next) : ¬ ShortNamed fn e ∧
      ∀ segs, segs <:+ es.take k → LongRun (sumSfn e) 0 segs → ¬ ∀ b ∈ segs, accepts lfn b =
        true := by
  rw [findLook_sfn _ _ _ _ file.live file.isSfn] at look
  refine ⟨fun short => ?_, fun segs suffix run oks => ?_⟩
  · rw [if_pos (show _ ∧ _ from short)] at look
    split at look
    · cases look
    · cases look
  · obtain ⟨same, number, -⟩ := tracks.all segs _ 0 suffix run oks
    rw [if_pos ⟨UInt8.toNat_inj.1 number, same⟩] at look
    cases look

/-- The entry of a file has the name: the short one, or in front of it there are the entries of the
long one, but for the case of its characters. The entries from the one with the index `lfnIdx` on
are those of the name then. -/
structure FoundAs (fn : Mem) (lfn : Option (Cells WChar)) (name : List WChar) (es : List Mem)
    (m lfnIdx : Nat) (e : Mem) : Prop where
  file : IsFile e
  named : lfnIdx = 0xFFFF ∧ ShortNamed fn e ∨ lfn.isSome ∧ ∃ segs, segs <:+ es.take m ∧
    lfnIdx + segs.length = m ∧ LongRun (sumSfn e) 0 segs ∧
    (nameOf segs).map ffWtoupper = name.map ffWtoupper

/-- The entry of a file has neither the short name nor the long one. -/
structure Unnamed (fn : Mem) (lfn : Option (Cells WChar)) (name : List WChar) (es : List Mem)
    (m : Nat) (e : Mem) : Prop where
  short : ¬ ShortNamed fn e
  long : lfn.isSome → ∀ segs, segs <:+ es.take m → LongRun (sumSfn e) 0 segs → Whole segs →
    (nameOf segs).map ffWtoupper ≠ name.map ffWtoupper

/-- The buffer holds a name that is not too long for `cmp_lfn`. -/
def Given (lfn : Option (Cells WChar)) (name : List WChar) : Prop :=
  ∀ buf ∈ lfn, Spells buf 0 name ∧ name.length < 255

variable {name : List WChar} {m lfnIdx : Nat}

/-- The files that are passed over do not have the name. -/
theorem findScan_unnamed (given : Given lfn name) {j : Nat} (j_le : j ≤ es.length)
    {next : LfnState} (none : st.ord = 0xFF)
    (seen : scan (findLook fn lfn) 0 (es.take j) st = .inl next) (i : Nat) (i_lt : i < j)
    (file : IsFile es[i]) : Unnamed fn lfn name es i es[i] := by
  have i_lt' : i < (es.take j).length := by
    rw [List.length_take]
    omega
  obtain ⟨here, there, before, look⟩ := scan_passed seen i_lt'
  rw [List.take_take, Nat.min_eq_left (Nat.le_of_lt i_lt)] at before
  rw [Nat.zero_add, List.getElem_take] at look
  have tracks := findScan_tracks none (show i ≤ es.length by omega) before
  obtain ⟨short, long⟩ := tracks.passed file look
  refine ⟨short, fun some segs suffix run whole same => long segs suffix run ?_⟩
  cases lfn with
  | none => cases some
  | some buf =>
    obtain ⟨spells, fits⟩ := given buf rfl
    exact run.found spells fits whole same

/-- What is found is the entry of a file, with those of its long name directly in front of it if it
is found under that. -/
theorem findEntry_some (found : findEntry fn lfn es = some (m, lfnIdx)) :
    ∃ before segs e after next, inUse es = before ++ ((segs ++ [e]) ++ after) ∧
      m = before.length + segs.length ∧ IsFile e ∧
      scan (findLook fn lfn) 0 (before ++ segs) noLfn = .inl next ∧
      (lfnIdx = before.length ∧ LongRun (sumSfn e) 0 segs ∧ (∀ b ∈ segs, accepts lfn b = true) ∨
        lfnIdx = 0xFFFF ∧ segs = [] ∧ ShortNamed fn e) := by
  have scanned : scan (findLook fn lfn) 0 (inUse es) noLfn = .inr (m, lfnIdx) :=
    Sum.getRight?_eq_some_iff.1 found
  obtain ⟨seen, e, after, next, used, rfl, passed, there⟩ := scan_found scanned
  rw [Nat.zero_add] at there ⊢
  have front : (inUse es).take seen.length = seen := by rw [used, List.take_left]
  have tracks : Tracks (accepts lfn) (inUse es) seen.length next :=
    findScan_tracks rfl (by rw [used, List.length_append]; omega) (front.symm ▸ passed)
  have notVoid : ¬ Void e := fun void => by
    rw [findLook_void void] at there
    cases there
  have isSfn : ¬ IsLfn e := fun isLfn => by
    obtain ⟨next', passes⟩ := findLook_passes fn lfn seen.length next notVoid isLfn
    rw [passes] at there
    cases there
  have file : IsFile e :=
    ⟨ne_of_mem_inUse (used ▸ List.mem_append_right _ List.mem_cons_self), notVoid, isSfn⟩
  rw [findLook_sfn _ _ _ _ notVoid isSfn] at there
  by_cases long : next.ord = 0 ∧ next.sum = sumSfn e
  · rw [if_pos long] at there
    obtain rfl := Sum.inr.inj there
    obtain ⟨segs, ⟨before, split⟩, place, run, oks⟩ := tracks.known (by rw [long.1]; decide)
    rw [front] at split
    subst split
    rw [List.length_append] at place ⊢
    rw [long.1, long.2] at run
    exact ⟨before, segs, e, after, next, by rw [used]; simp, rfl, file, passed,
      .inl ⟨by omega, run, oks⟩⟩
  · rw [if_neg long] at there
    split at there
    case isTrue short =>
      obtain rfl := Sum.inr.inj there
      refine ⟨seen, [], e, after, next, by rw [used]; simp, rfl, file, ?_, .inr ⟨rfl, rfl, short⟩⟩
      rw [List.append_nil]
      exact passed
    case isFalse => cases there

/-- What `dir_find` finds is the first file with the name. -/
theorem findEntry_named (given : Given lfn name) (found : findEntry fn lfn es = some (m, lfnIdx)) :
    ∃ m_lt : m < (inUse es).length, FoundAs fn lfn name (inUse es) m lfnIdx (inUse es)[m] ∧
      ∀ i (_ : i < m), IsFile (inUse es)[i] → Unnamed fn lfn name (inUse es) i (inUse es)[i] := by
  obtain ⟨before, segs, e, after, next, used, rfl, file, passed, named⟩ := findEntry_some found
  have whole : inUse es = (before ++ segs) ++ e :: after := by rw [used]; simp
  have length : (before ++ segs).length = before.length + segs.length := List.length_append
  have m_lt : before.length + segs.length < (inUse es).length := by
    rw [whole, List.length_append, List.length_cons, length]
    omega
  have front : (inUse es).take (before.length + segs.length) = before ++ segs := by
    rw [whole, ← length, List.take_left]
  have here : (inUse es)[before.length + segs.length] = e := by
    simp only [whole]
    rw [List.getElem_append_right (Nat.le_of_eq length)]
    simp only [length, Nat.sub_self, List.getElem_cons_zero]
  refine ⟨m_lt, here.symm ▸ ⟨file, ?_⟩, fun i i_lt => ?_⟩
  · rcases named with ⟨rfl, run, oks⟩ | ⟨rfl, -, short⟩
    · cases lfn with
      | none =>
        obtain ⟨b, member⟩ := List.exists_mem_of_ne_nil segs run.ne_nil
        cases oks b member
      | some buf =>
        obtain ⟨spells, fits⟩ := given buf rfl
        exact .inr ⟨rfl, segs, front.symm ▸ List.suffix_append _ _, rfl, run,
          run.named spells fits oks⟩
    · exact .inl ⟨rfl, short⟩
  · exact findScan_unnamed given (Nat.le_of_lt m_lt) rfl (front.symm ▸ passed) i i_lt

/-- It finds nothing only if no file has the name. -/
theorem findEntry_unnamed (given : Given lfn name) (missing : findEntry fn lfn es = none) :
    ∀ i (_ : i < (inUse es).length), IsFile (inUse es)[i] →
      Unnamed fn lfn name (inUse es) i (inUse es)[i] := by
  intro i i_lt
  cases seen : scan (findLook fn lfn) 0 (inUse es) noLfn with
  | inr place =>
    rw [findEntry, seen] at missing
    cases missing
  | inl next =>
    exact findScan_unnamed given (Nat.le_refl _) (show noLfn.ord = 0xFF from rfl)
      (by rw [List.take_length]; exact seen) i i_lt

end D2xCios.FatFs
