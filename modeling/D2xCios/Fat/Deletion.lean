import D2xCios.Fat.Walks

/-!
# Deleting a directory

`FAT_DeleteDir` takes the entries of a directory away, one after the other, with everything
below them. The result of a recursive call is dropped: what has not been deleted shows when
FatFs refuses to delete the directory that holds it.
-/

namespace D2xCios.Fat.Wrapper

open D2xCios.Ffs D2xCios.Lib

section Conditions

variable {ν : Type} (names : Naming ν) (faults : Faults)

/-- The path of an entry. -/
abbrev Naming.sub (path : Path) (name : ν) : Path := joinPath path (names.text name)

/-- An entry can be deleted with everything below it: the paths fit into the buffer, nothing is read
only, no call of `f_unlink` fails, and a directory that is not empty is opened and read down to its
last entry. -/
inductive Removable : Path → ν × Node ν → Prop
  | mk {path : Path} {e : ν × Node ν} (fits : (names.sub path e.1).length ≤ maxLfn)
      (spared : faults (.fUnlink (names.sub path e.1)) = none)
      (writable : (info e.2).readOnly = false)
      (opened : faults (.fOpendir (names.sub path e.1)) = none ∨ e.2.entries = [])
      (read : seen faults (names.sub path e.1) e.2.entries = e.2.entries)
      (inside : ∀ e' ∈ e.2.entries, Removable (names.sub path e.1) e') : Removable path e

/-- No call of `f_opendir` or `f_readdir` fails while an entry is deleted. -/
inductive Undisturbed : Path → ν × Node ν → Prop
  | mk {path : Path} {e : ν × Node ν}
      (read : e.2.isDir = true → faults (.fOpendir (names.sub path e.1)) = none ∧
        ReadToEnd faults (names.sub path e.1) e.2.entries)
      (inside : ∀ e' ∈ e.2.entries, Undisturbed (names.sub path e.1) e') : Undisturbed path e

/-- The entries of a directory that are read can be deleted. -/
def RemovableIn (path : Path) (unread : Entries ν) : Prop :=
  ∀ e ∈ seen faults path unread, Removable names faults path e

/-- No call of `f_opendir` or `f_readdir` fails while the entries of a directory are deleted. -/
def UndisturbedIn (path : Path) (unread : Entries ν) : Prop :=
  ReadToEnd faults path unread ∧ ∀ e ∈ unread, Undisturbed names faults path e

/-- The deletion of the entries of a directory writes behind a buffer before it comes to an entry
that cannot be deleted otherwise. -/
inductive Overlong : Path → Entries ν → Prop
  | long {path : Path} {e : ν × Node ν} {rest : Entries ν}
      (spared : faults (.fReaddir path (rest.length + 1)) = none)
      (long : ¬ (names.sub path e.1).length ≤ maxLfn) : Overlong path (e :: rest)
  | inside {path : Path} {e : ν × Node ν} {rest : Entries ν}
      (spared : faults (.fReaddir path (rest.length + 1)) = none) (isDir : e.2.isDir = true)
      (fits : (names.sub path e.1).length ≤ maxLfn)
      (opens : faults (.fOpendir (names.sub path e.1)) = none)
      (inner : Overlong (names.sub path e.1) e.2.entries) : Overlong path (e :: rest)
  | later {path : Path} {e : ν × Node ν} {rest : Entries ν}
      (spared : faults (.fReaddir path (rest.length + 1)) = none)
      (removable : Removable names faults path e) (later : Overlong path rest) :
      Overlong path (e :: rest)

/-- The entries that are not read. -/
def unseen (path : Path) (unread : Entries ν) : Entries ν :=
  unread.drop (seen faults path unread).length

variable [DecidableEq ν]

/-- What the deletion of the entries of a directory does: it leaves `left` of them. -/
structure Deleted (path : Path) (l : List ν) (unread : Entries ν) (d : Disk ν)
    (result : Option Int × Disk ν) (left : Entries ν) : Prop where
  drive : result.2.drive = d.drive
  top : result.2.volume.top = d.volume.top.put l left
  more : d.failures ≤ result.2.failures
  overruns : result.1 = none ↔ Overlong names faults path unread
  refused : ¬ RemovableIn names faults path unread →
    left ≠ [] ∧ ∀ ret, result.1 = some ret → ret < 0
  done : RemovableIn names faults path unread →
    result.1 = some fsSuccess ∧ left = unseen faults path unread ∧
      (result.2.failures = d.failures ↔ UndisturbedIn names faults path unread)

end Conditions

section Steps

variable {ν : Type} {names : Naming ν} {faults : Faults} {path : Path}

/-- The entries are those that are seen and those that are not. -/
theorem seen_append_unseen (unread : Entries ν) :
    seen faults path unread ++ unseen faults path unread = unread := by
  induction unread with
  | nil => rfl
  | cons e rest ih =>
    rw [unseen, seen]
    split
    · exact congrArg (e :: ·) ih
    · rfl

/-- Nothing is left unseen if everything is seen. -/
theorem unseen_eq_nil_iff {unread : Entries ν} :
    unseen faults path unread = [] ↔ seen faults path unread = unread := by
  have split := @seen_append_unseen _ faults path unread
  constructor
  · intro none
    rwa [none, List.append_nil] at split
  · intro all
    rw [unseen, all]
    exact List.drop_length

/-- All entries can be removed if the first one can and the others can. -/
theorem removableIn_cons {e : ν × Node ν} {rest : Entries ν}
    (spared : faults (.fReaddir path (rest.length + 1)) = none) :
    RemovableIn names faults path (e :: rest) ↔
      Removable names faults path e ∧ RemovableIn names faults path rest := by
  rw [RemovableIn, seen, if_pos spared, List.forall_mem_cons]
  rfl

/-- A walk with a path that is too long has read its first entry. -/
theorem Overlong.first {unread : Entries ν} (overruns : Overlong names faults path unread) :
    faults (.fReaddir path unread.length) = none := by
  cases overruns <;> assumption

/-- Behind an entry that is read the same entries are left unseen. -/
theorem unseen_cons {e : ν × Node ν} {rest : Entries ν}
    (spared : faults (.fReaddir path (rest.length + 1)) = none) :
    unseen faults path (e :: rest) = unseen faults path rest := by
  rw [unseen, seen, if_pos spared]
  rfl

/-- Nothing is disturbed if nothing is at the first entry and at the others. -/
theorem undisturbedIn_cons {e : ν × Node ν} {rest : Entries ν}
    (spared : faults (.fReaddir path (rest.length + 1)) = none) :
    UndisturbedIn names faults path (e :: rest) ↔
      Undisturbed names faults path e ∧ UndisturbedIn names faults path rest := by
  rw [UndisturbedIn, readToEnd_cons, List.forall_mem_cons, UndisturbedIn]
  tauto

/-- What is below an entry can be deleted. -/
def Clearable (names : Naming ν) (faults : Faults) (path : Path) (e : ν × Node ν) : Prop :=
  (faults (.fOpendir (names.sub path e.1)) = none ∨ e.2.entries = []) ∧
    seen faults (names.sub path e.1) e.2.entries = e.2.entries ∧
      ∀ e' ∈ e.2.entries, Removable names faults (names.sub path e.1) e'

/-- An entry can be removed if it can be cleared, and its deletion is not refused. -/
theorem removable_iff {e : ν × Node ν} :
    Removable names faults path e ↔ (names.sub path e.1).length ≤ maxLfn ∧
      Clearable names faults path e ∧ faults (.fUnlink (names.sub path e.1)) = none ∧
        (info e.2).readOnly = false := by
  constructor
  · rintro ⟨fits, spared, writable, opened, read, inside⟩
    exact ⟨fits, ⟨opened, read, inside⟩, spared, writable⟩
  · rintro ⟨fits, ⟨opened, read, inside⟩, spared, writable⟩
    exact ⟨fits, spared, writable, opened, read, inside⟩

/-- What is in a removable folder can be removed. -/
theorem Removable.inner {e : ν × Node ν} (removable : Removable names faults path e) :
    RemovableIn names faults (names.sub path e.1) e.2.entries := by
  obtain ⟨-, ⟨-, read, inside⟩, -⟩ := removable_iff.1 removable
  rwa [RemovableIn, read]

/-- An entry below which a buffer does not suffice cannot be deleted. -/
theorem Overlong.not_removableIn {path : Path} {unread : Entries ν}
    (overruns : Overlong names faults path unread) : ¬ RemovableIn names faults path unread := by
  induction overruns with
  | long spared long =>
    exact fun all => long (removable_iff.1 ((removableIn_cons spared).1 all).1).1
  | inside spared isDir fits opens inner ih =>
    exact fun all => ih ((removableIn_cons spared).1 all).1.inner
  | later spared removable later ih => exact fun all => ih ((removableIn_cons spared).1 all).2

/-- An entry is undisturbed if its folder opens and what is in it is undisturbed. -/
theorem undisturbed_iff {e : ν × Node ν} :
    Undisturbed names faults path e ↔ (e.2.isDir = true →
      faults (.fOpendir (names.sub path e.1)) = none ∧
        UndisturbedIn names faults (names.sub path e.1) e.2.entries) := by
  constructor
  · rintro ⟨read, inside⟩ isDir
    exact ⟨(read isDir).1, (read isDir).2, inside⟩
  · intro quiet
    refine ⟨fun isDir => ⟨(quiet isDir).1, (quiet isDir).2.1⟩, fun e' here => ?_⟩
    by_cases isDir : e.2.isDir = true
    · exact (quiet isDir).2.2 e' here
    · rw [DirTree.entries_file isDir] at here
      exact absurd here List.not_mem_nil

variable [DecidableEq ν]

/-- What happens below an entry before the entry itself is deleted: `left` of it is still there. -/
structure Emptied (names : Naming ν) (faults : Faults) (path : Path) (l : List ν) (e : ν × Node ν)
    (d : Disk ν) (result : Option Int × Disk ν) (left : Entries ν) : Prop where
  drive : result.2.drive = d.drive
  top : result.2.volume.top = d.volume.top.put (l ++ [e.1]) left
  more : d.failures ≤ result.2.failures
  file : e.2.isDir = false → left = []
  overruns : result.1 = none ↔ e.2.isDir = true ∧ faults (.fOpendir (names.sub path e.1)) = none ∧
    Overlong names faults (names.sub path e.1) e.2.entries
  refused : ¬ Clearable names faults path e → left ≠ []
  done : Clearable names faults path e → left = [] ∧
    (result.2.failures = d.failures ↔ Undisturbed names faults path e)

/-- A folder is emptied by the deletion of its entries. -/
theorem Deleted.emptied {l : List ν} {e : ν × Node ν} {d : Disk ν} {result : Option Int × Disk ν}
    {left : Entries ν} (opens : faults (.fOpendir (names.sub path e.1)) = none)
    (isDir : e.2.isDir = true)
    (deleted : Deleted names faults (names.sub path e.1) (l ++ [e.1]) e.2.entries d result left) :
    Emptied names faults path l e d result left where
  drive := deleted.drive
  top := deleted.top
  more := deleted.more
  file isFile := absurd (isFile.symm.trans isDir) Bool.false_ne_true
  overruns := by rw [deleted.overruns, and_iff_right isDir, and_iff_right opens]
  refused blocked := by
    by_cases removable : RemovableIn names faults (names.sub path e.1) e.2.entries
    · obtain ⟨-, rest, -⟩ := deleted.done removable
      rw [rest, Ne, unseen_eq_nil_iff]
      exact fun all => blocked ⟨.inl opens, all, all ▸ removable⟩
    · exact (deleted.refused removable).1
  done := by
    rintro ⟨-, all, inside⟩
    have removable : RemovableIn names faults (names.sub path e.1) e.2.entries := by
      rwa [RemovableIn, all]
    obtain ⟨-, rest, quiet⟩ := deleted.done removable
    refine ⟨rest.trans (unseen_eq_nil_iff.2 all), quiet.trans ?_⟩
    rw [undisturbed_iff]
    exact ⟨fun quiet _ => ⟨opens, quiet⟩, fun quiet => (quiet isDir).2⟩

/-- A subdirectory that is not opened stays as it is. -/
theorem emptied_fault {l : List ν} {e : ν × Node ν} {d : Disk ν} {ret : Int}
    (fault : faults (.fOpendir (names.sub path e.1)) ≠ none) (isDir : e.2.isDir = true)
    (found : d.volume.top.look (l ++ [e.1]) = some e.2) :
    Emptied names faults path l e d (some ret, d.failing) e.2.entries where
  drive := rfl
  top := by
    obtain ⟨attr, shape⟩ := DirTree.eq_dir isDir
    exact (DirTree.put_self d.volume.distinct (found.trans (congrArg some shape))).symm
  more := Nat.le_succ _
  file isFile := absurd (isFile.symm.trans isDir) Bool.false_ne_true
  overruns := iff_of_false nofun fun overruns => fault overruns.2.1
  refused blocked empty := by
    refine blocked ⟨.inr empty, ?_, fun e' here => ?_⟩
    · rw [empty]
      rfl
    · rw [empty] at here
      exact absurd here List.not_mem_nil
  done := by
    rintro ⟨opens | empty, -, -⟩
    · exact absurd opens fault
    · refine ⟨empty, iff_of_false (Nat.succ_ne_self _) fun quiet => ?_⟩
      exact fault (undisturbed_iff.1 quiet isDir).1

/-- A file has nothing to be emptied of. -/
theorem emptied_file {l : List ν} {e : ν × Node ν} {rest : Entries ν} {d : Disk ν}
    (file : ¬ e.2.isDir = true)
    (found : ∃ attr, d.volume.top.look l = some (.dir attr (e :: rest))) :
    Emptied names faults path l e d (some fsSuccess, d) [] where
  drive := rfl
  top := by
    obtain ⟨attr, found⟩ := found
    have same : (e.1, e.2.put [] []) = e := by
      obtain ⟨name, node⟩ := e
      cases node with
      | file value => rfl
      | dir attr es => exact absurd rfl file
    rw [DirTree.put_first d.volume.distinct found, same,
      DirTree.put_self d.volume.distinct found]
  more := Nat.le_refl _
  file _ := rfl
  overruns := iff_of_false nofun fun overruns => file overruns.1
  refused blocked := by
    refine absurd ⟨.inr (DirTree.entries_file file), ?_, fun e' here => ?_⟩ blocked
    · rw [DirTree.entries_file file]
      rfl
    · rw [DirTree.entries_file file] at here
      exact absurd here List.not_mem_nil
  done _ := ⟨rfl, iff_of_true rfl (undisturbed_iff.2 fun isDir => absurd isDir file)⟩

/-! ## The loop -/

/-- An object is deleted if nothing is below it and nothing protects it. -/
theorem delete_found {d : Disk ν} {sub : Path} {parent : List ν} {name : ν} {node : Node ν}
    (here : find names d sub = .found parent name node) :
    (node.entries = [] ∧ faults (.fUnlink sub) = none ∧ (info node).readOnly = false ∧
        delete names faults sub d = (fsSuccess, { d with volume := d.volume.remove parent name })) ∨
      ¬ (node.entries = [] ∧ faults (.fUnlink sub) = none ∧ (info node).readOnly = false) ∧
        ∃ ret < 0, delete names faults sub d = (ret, d) := by
  have fails {err : FError} (failed : fUnlink names faults sub d = (.error err, d)) :
      ∃ ret < 0, delete names faults sub d = (ret, d) :=
    ⟨deleteError err, deleteError_neg err, by rw [delete, failed]⟩
  cases fault : faults (.fUnlink sub) with
  | some err => exact .inr ⟨fun all => absurd all.2.1 nofun, fails (attempt_fault fault)⟩
  | none =>
    by_cases protects : (info node).readOnly = true
    · refine .inr ⟨fun all => ?_, @fails .denied (attempt_error fault ?_)⟩
      · exact absurd (all.2.2.symm.trans protects) Bool.false_ne_true
      · simp only [here, if_pos protects]
    · have writable : (info node).readOnly = false := by simpa using protects
      by_cases empty : node.entries = []
      · have done : fUnlink names faults sub d =
            (.ok (), { d with volume := d.volume.remove parent name }) := by
          refine attempt_ok fault ?_
          simp only [here, if_neg protects, if_pos empty]
        exact .inl ⟨empty, rfl, writable, by rw [delete, done]⟩
      · refine .inr ⟨fun all => empty all.1, @fails .denied (attempt_error fault ?_)⟩
        simp only [here, if_neg protects, if_neg empty]

/-- So it is with the first entry of a directory. -/
theorem delete_first {d : Disk ν} {l : List ν} {attr : Info} {e : ν × Node ν} {rest : Entries ν}
    {sub : Path} (resolved : resolve names d.drive sub = some (l ++ [e.1]))
    (found : d.volume.top.look l = some (.dir attr (e :: rest))) :
    (e.2.entries = [] ∧ faults (.fUnlink sub) = none ∧ (info e.2).readOnly = false ∧
        delete names faults sub d = (fsSuccess, { d with volume := d.volume.remove l e.1 })) ∨
      ¬ (e.2.entries = [] ∧ faults (.fUnlink sub) = none ∧ (info e.2).readOnly = false) ∧
        ∃ ret < 0, delete names faults sub d = (ret, d) :=
  delete_found (find_found_iff.2
    ⟨resolved, d.volume.distinct.look_entry found List.mem_cons_self⟩)

variable {recurse : (path' : Path) → path.length < path'.length ∧ path'.length ≤ maxLfn →
  Disk ν → Option Int × Disk ν}

/-- The walk ends where no entry can be read. -/
theorem deleteEntries_ended {unread : Entries ν} {d d' : Disk ν} {ret : Int}
    (ended : readDirEntry names faults path unread d = (.error ret, d')) :
    deleteEntries names faults path recurse unread d = (some fsSuccess, d') := by
  rw [deleteEntries, ended]

/-- An entry that is read, with what happens below it. -/
theorem deleteEntries_read {e : ν × Node ν} {rest : Entries ν} {d : Disk ν}
    (spared : faults (.fReaddir path (rest.length + 1)) = none)
    (fits : (names.sub path e.1).length ≤ maxLfn) {result : Option Int × Disk ν}
    (below : (if e.2.isDir = true then
      recurse (names.sub path e.1) ⟨joinPath_longer path _, fits⟩
        { d with lfnBuf := names.lfname e.1 }
      else (some fsSuccess, { d with lfnBuf := names.lfname e.1 })) = result) :
    deleteEntries names faults path recurse (e :: rest) d =
      if result.1 = none then (none, result.2)
      else if (delete names faults (names.sub path e.1) result.2).1 ≠ 0 then
        (some (delete names faults (names.sub path e.1) result.2).1,
          (delete names faults (names.sub path e.1) result.2).2)
      else deleteEntries names faults path recurse rest
        (delete names faults (names.sub path e.1) result.2).2 := by
  rw [deleteEntries, readDirEntry_cons spared]
  refine (dif_pos fits).trans ?_
  subst below
  simp only [getFileinfo, fattrib_dir]
  rfl

/-- The walk breaks off at a path that is too long. -/
theorem deleteEntries_long {e : ν × Node ν} {rest : Entries ν} {d : Disk ν}
    (spared : faults (.fReaddir path (rest.length + 1)) = none)
    (long : ¬ (names.sub path e.1).length ≤ maxLfn) :
    deleteEntries names faults path recurse (e :: rest) d =
      (none, { d with lfnBuf := names.lfname e.1 }) := by
  rw [deleteEntries, readDirEntry_cons spared]
  exact dif_neg long

/-- What is below an entry is deleted, as far as that is possible. -/
theorem emptied_below {l : List ν} {e : ν × Node ν} {rest : Entries ν} {d : Disk ν}
    (below : ∀ path l (d : Disk ν), At names d path l e.2.entries →
      faults (.fOpendir path) = none →
        ∃ left, Deleted names faults path l e.2.entries d (deleteDir names faults path d) left)
    (here : At names d path l (e :: rest)) :
    ∃ left, Emptied names faults path l e d
      (if e.2.isDir = true then deleteDir names faults (names.sub path e.1) d
        else (some fsSuccess, d)) left := by
  by_cases isDir : e.2.isDir = true
  case neg =>
    rw [if_neg isDir]
    exact ⟨[], emptied_file isDir here.found⟩
  rw [if_pos isDir]
  by_cases opens : faults (.fOpendir (names.sub path e.1)) = none
  · obtain ⟨left, deleted⟩ := below _ _ _ (here.below List.mem_cons_self isDir) opens
    exact ⟨left, deleted.emptied opens isDir⟩
  · obtain ⟨ret, -, failed⟩ := @openDir_fails _ faults names _ d (names.sub path e.1) (if_neg opens)
    rw [deleteDir, failed]
    exact ⟨_, emptied_fault opens isDir (here.entry List.mem_cons_self).2⟩

/-- A deletion whose first call is let down deletes nothing. -/
theorem deleted_fault {l : List ν} {unread : Entries ν} {d : Disk ν}
    (fault : faults (.fReaddir path unread.length) ≠ none) (here : At names d path l unread) :
    Deleted names faults path l unread d (some fsSuccess, d.failing) unread := by
  obtain ⟨attr, found⟩ := here.found
  have nothing := seen_fault fault
  refine ⟨rfl, (DirTree.put_self d.volume.distinct found).symm, Nat.le_succ _,
    iff_of_false nofun fun overruns => fault overruns.first, fun blocked => ?_,
    fun _ => ⟨rfl, ?_, ?_⟩⟩
  · refine absurd (fun e inside => ?_) blocked
    rw [nothing] at inside
    exact absurd inside List.not_mem_nil
  · rw [unseen, nothing]
    rfl
  · exact iff_of_false (Nat.succ_ne_self _) fun quiet => fault quiet.1.first

/-- There is nothing to delete in an empty folder. -/
theorem deleted_nil {l : List ν} {d : Disk ν} {buf : Path}
    (spared : faults (.fReaddir path 0) = none) (here : At names d path l []) :
    Deleted names faults path l [] d (some fsSuccess, { d with lfnBuf := buf }) [] := by
  obtain ⟨attr, found⟩ := here.found
  refine ⟨rfl, (DirTree.put_self d.volume.distinct found).symm, Nat.le_refl _,
    iff_of_false nofun nofun, fun blocked => ?_, fun _ => ⟨rfl, rfl, ?_⟩⟩
  · exact absurd (fun e inside => absurd inside List.not_mem_nil) blocked
  · exact iff_of_true rfl ⟨readToEnd_nil.2 spared, fun e inside => absurd inside List.not_mem_nil⟩

/-- An entry that is deleted, and the entries behind it. -/
theorem Deleted.cons {l : List ν} {e : ν × Node ν} {rest left : Entries ν} {d d' : Disk ν}
    {result : Option Int × Disk ν} (spared : faults (.fReaddir path (rest.length + 1)) = none)
    (removable : Removable names faults path e)
    (later : Deleted names faults path l rest d' result left) (drive : d'.drive = d.drive)
    (top : d'.volume.top = d.volume.top.put l rest) (more : d.failures ≤ d'.failures)
    (quiet : d'.failures = d.failures ↔ Undisturbed names faults path e) :
    Deleted names faults path l (e :: rest) d result left where
  drive := later.drive.trans drive
  top := by rw [later.top, top, DirTree.put_put]
  more := more.trans later.more
  overruns := later.overruns.trans ⟨.later spared removable, fun overruns => by
    cases overruns with
    | long _ long => exact absurd (removable_iff.1 removable).1 long
    | inside _ _ _ _ inner => exact absurd removable.inner inner.not_removableIn
    | later _ _ later => exact later⟩
  refused blocked := later.refused fun others =>
    blocked ((removableIn_cons spared).2 ⟨removable, others⟩)
  done all := by
    obtain ⟨finished, rest, quiet'⟩ := later.done ((removableIn_cons spared).1 all).2
    have bound := later.more
    refine ⟨finished, rest.trans (unseen_cons spared).symm, ?_⟩
    rw [undisturbedIn_cons spared, ← quiet, ← quiet']
    omega

/-- An entry that is not deleted. -/
theorem Deleted.stop {l : List ν} {e : ν × Node ν} {rest left : Entries ν} {d : Disk ν}
    {result : Option Int × Disk ν} (spared : faults (.fReaddir path (rest.length + 1)) = none)
    (blocked : ¬ Removable names faults path e) (drive : result.2.drive = d.drive)
    (top : result.2.volume.top = d.volume.top.put l left) (more : d.failures ≤ result.2.failures)
    (overruns : result.1 = none ↔ ¬ (names.sub path e.1).length ≤ maxLfn ∨
      e.2.isDir = true ∧ (names.sub path e.1).length ≤ maxLfn ∧
        faults (.fOpendir (names.sub path e.1)) = none ∧
          Overlong names faults (names.sub path e.1) e.2.entries)
    (kept : left ≠ []) (negative : ∀ ret, result.1 = some ret → ret < 0) :
    Deleted names faults path l (e :: rest) d result left where
  drive := drive
  top := top
  more := more
  overruns := overruns.trans <| by
    constructor
    · rintro (long | ⟨isDir, fits, opens, inner⟩)
      · exact .long spared long
      · exact .inside spared isDir fits opens inner
    · intro overruns
      cases overruns with
      | long _ long => exact .inl long
      | inside _ isDir fits opens inner => exact .inr ⟨isDir, fits, opens, inner⟩
      | later _ removable _ => exact absurd removable blocked
  refused _ := ⟨kept, negative⟩
  done all := absurd ((removableIn_cons spared).1 all).1 blocked

/-- What is done for an entry that is read: below it everything is deleted that can be, and then the
entry, or the deletion ends. -/
theorem deleteEntries_cons {e : ν × Node ν} {rest : Entries ν} {l : List ν} {d : Disk ν}
    (below : ∀ path l (d : Disk ν), At names d path l e.2.entries →
      faults (.fOpendir path) = none →
        ∃ left, Deleted names faults path l e.2.entries d (deleteDir names faults path d) left)
    (here : At names d path l (e :: rest))
    (spared : faults (.fReaddir path (rest.length + 1)) = none)
    (fits : (names.sub path e.1).length ≤ maxLfn) :
    ∃ r left, Emptied names faults path l e d r left ∧
      r = (if e.2.isDir = true then
        deleteDir names faults (names.sub path e.1) { d with lfnBuf := names.lfname e.1 }
        else (some fsSuccess, { d with lfnBuf := names.lfname e.1 })) ∧
      ((Removable names faults path e ∧ ∃ d' : Disk ν, d'.drive = d.drive ∧
          d'.failures = r.2.failures ∧ d'.volume.top = d.volume.top.put l rest ∧
          deleteEntries names faults path (fun path' _ => deleteDir names faults path')
            (e :: rest) d =
              deleteEntries names faults path (fun path' _ => deleteDir names faults path') rest d')
        ∨ ¬ Removable names faults path e ∧ ∃ ret : Option Int, (ret = none ↔ r.1 = none) ∧
          (∀ value, ret = some value → value < 0) ∧
          deleteEntries names faults path (fun path' _ => deleteDir names faults path')
            (e :: rest) d = (ret, r.2)) := by
  obtain ⟨attr, found⟩ := here.found
  have here' : At names { d with lfnBuf := names.lfname e.1 } path l (e :: rest) :=
    here.of_same rfl rfl
  obtain ⟨left, emptied⟩ := emptied_below below here'
  rw [deleteEntries_read spared fits rfl]
  obtain ⟨r, same⟩ : ∃ r, (if e.2.isDir = true then
    deleteDir names faults (names.sub path e.1) { d with lfnBuf := names.lfname e.1 }
    else (some fsSuccess, { d with lfnBuf := names.lfname e.1 })) = r := ⟨_, rfl⟩
  rw [same] at emptied ⊢
  refine ⟨r, left, ⟨emptied.drive, emptied.top, emptied.more, emptied.file, emptied.overruns,
    emptied.refused, emptied.done⟩, rfl, ?_⟩
  have moved : r.2.volume.top = d.volume.top.put l ((e.1, e.2.put [] left) :: rest) :=
    emptied.top.trans (DirTree.put_first d.volume.distinct found left)
  have found' := DirTree.look_put found ((e.1, e.2.put [] left) :: rest)
  rw [← moved] at found'
  have resolved : resolve names r.2.drive (names.sub path e.1) = some (l ++ [e.1]) := by
    rw [emptied.drive]
    exact (here.entry List.mem_cons_self).1
  have content : (e.2.put [] left).entries = left := by
    cases shape : e.2 with
    | dir attr es => rfl
    | file value => exact (emptied.file (by rw [shape]; rfl)).symm
  have entry : info (e.2.put [] left) = info e.2 := by cases e.2 <;> rfl
  by_cases none : r.1 = none
  case pos =>
    rw [if_pos none]
    refine .inr ⟨fun removable => ?_, Option.none, iff_of_true rfl none, nofun, rfl⟩
    exact (emptied.overruns.1 none).2.2.not_removableIn removable.inner
  rw [if_neg none]
  rcases @delete_first _ names faults _ _ _ _ (e.1, e.2.put [] left) _ _ resolved found' with
    ⟨empty, spared', writable, deleted⟩ | ⟨blocked, ret, negative, failed⟩
  · rw [deleted, if_neg (show ¬ fsSuccess ≠ 0 by decide)]
    rw [content] at empty
    rw [entry] at writable
    have clearable : Clearable names faults path e := by
      by_contra blocked
      exact emptied.refused blocked empty
    refine .inl ⟨removable_iff.2 ⟨fits, clearable, spared', writable⟩,
      { r.2 with volume := r.2.volume.remove l e.1 }, emptied.drive, rfl, ?_, rfl⟩
    refine (DirTree.remove_first r.2.volume.distinct found').trans ?_
    rw [moved, DirTree.put_put]
  · rw [failed, if_pos (ne_of_lt negative)]
    refine .inr ⟨fun removable => ?_, some ret, iff_of_false nofun none,
      fun _ same => Option.some.inj same ▸ negative, rfl⟩
    obtain ⟨-, clearable, spared', writable⟩ := removable_iff.1 removable
    rw [content, entry] at blocked
    exact blocked ⟨(emptied.done clearable).1, spared', writable⟩

/-- The deletion of the entries of a directory, when that of what is below them is as it should
be. -/
theorem deleteEntries_deleted {unread : Entries ν} {l : List ν} {d : Disk ν}
    (below : ∀ e ∈ unread, ∀ path l (d : Disk ν), At names d path l e.2.entries →
      faults (.fOpendir path) = none →
        ∃ left, Deleted names faults path l e.2.entries d (deleteDir names faults path d) left)
    (here : At names d path l unread) :
    ∃ left, Deleted names faults path l unread d
      (deleteEntries names faults path (fun path' _ => deleteDir names faults path') unread d)
      left := by
  induction unread generalizing d with
  | nil =>
    by_cases spared : faults (.fReaddir path 0) = none
    · rw [deleteEntries_ended (readDirEntry_nil spared)]
      exact ⟨[], deleted_nil spared here⟩
    · rw [deleteEntries_ended (@readDirEntry_fault _ _ _ d path [] spared)]
      exact ⟨[], deleted_fault spared here⟩
  | cons e rest ih =>
    by_cases spared : faults (.fReaddir path (rest.length + 1)) = none
    case neg =>
      rw [deleteEntries_ended (@readDirEntry_fault _ _ _ d path (e :: rest) spared)]
      exact ⟨e :: rest, deleted_fault spared here⟩
    obtain ⟨attr, found⟩ := here.found
    by_cases fits : (names.sub path e.1).length ≤ maxLfn
    case neg =>
      rw [deleteEntries_long spared fits]
      exact ⟨e :: rest, .stop spared (fun removable => fits (removable_iff.1 removable).1) rfl
        (DirTree.put_self d.volume.distinct found).symm (Nat.le_refl _)
        (iff_of_true rfl (.inl fits)) (List.cons_ne_nil _ _) nofun⟩
    obtain ⟨r, left, emptied, -, step⟩ :=
      deleteEntries_cons (below e List.mem_cons_self) here spared fits
    rcases step with ⟨removable, d', drive, failures, top, run⟩ |
      ⟨blocked, ret, same, negative, run⟩
    · rw [run]
      obtain ⟨left', later⟩ := @ih d' (fun e' inside => below e' (List.mem_cons_of_mem e inside))
        ⟨by rw [drive]; exact here.resolved, attr, by rw [top, DirTree.look_put found]⟩
      refine ⟨left', .cons spared removable later drive top (failures ▸ emptied.more) ?_⟩
      rw [failures]
      exact (emptied.done (removable_iff.1 removable).2.1).2
    · rw [run]
      refine ⟨_, .stop spared blocked emptied.drive
        (emptied.top.trans (DirTree.put_first d.volume.distinct found left)) emptied.more ?_
        (List.cons_ne_nil _ _) negative⟩
      rw [or_iff_right (not_not.2 fits), and_iff_right fits]
      exact same.trans emptied.overruns

/-- What `FAT_DeleteDir` does in a directory that is opened. -/
theorem deleteDir_deleted (node : Node ν) {path : Path} {l : List ν} {d : Disk ν}
    (here : At names d path l node.entries) (spared : faults (.fOpendir path) = none) :
    ∃ left, Deleted names faults path l node.entries d (deleteDir names faults path d) left := by
  induction node using DirTree.induct generalizing path l d with
  | file value =>
    rw [deleteDir, openDir_opened (here.opened spared)]
    exact deleteEntries_deleted (fun e inside => absurd inside List.not_mem_nil) here
  | dir attr es ih =>
    rw [deleteDir, openDir_opened (here.opened spared)]
    exact deleteEntries_deleted (fun e inside path l d here spared => ih e inside here spared) here

end Steps

end D2xCios.Fat.Wrapper
