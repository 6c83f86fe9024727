import D2xCios.Fat.Places

/-!
# Replacing an object

The steps of an emulated rename: `FAT_Rename` moves an object or changes nothing, and before that
`FAT_DeleteDir` and `FAT_Delete` take away what is at the new path, or part of it, or nothing.
-/

namespace D2xCios.Fat.Wrapper

open D2xCios.Ffs D2xCios.Lib

/-! ## The rename -/

section Renames

variable {ν : Type} [DecidableEq ν] {names : Naming ν} {faults : RenameFaults}

theorem renameError_neg (e : FError) : renameError e < 0 := by
  cases e <;> decide

theorem statsError_neg (e : FError) : statsError e < 0 := by
  cases e <;> decide

variable (names) in
/-- Something is at the old path, and there is room for it at the new one. -/
def Ready (d : Disk ν) (oldpath newpath : Path) : Prop :=
  ∃ parent name node parent' name', find names d oldpath = .found parent name node ∧
    find names d newpath = .free parent' name'

variable (faults) in
/-- What `FAT_Rename` does, for paths of one drive. -/
theorem rename_cases {d : Disk ν} {oldpath newpath : Path}
    (together : ∀ l, resolve names d.drive oldpath = some l →
      chkMounted d.drive newpath = .ok (skipPrefix newpath)) :
    (∃ parent name node parent' name', faults.rename = none ∧
        find names d oldpath = .found parent name node ∧
        find names d newpath = .free parent' name' ∧
        rename names faults oldpath newpath d =
          (fsSuccess, { d with volume := d.volume.rename parent name parent' name' })) ∨
      ¬ (faults.rename = none ∧ Ready names d oldpath newpath) ∧
        ∃ ret < 0, rename names faults oldpath newpath d = (ret, d) := by
  have fails {e : FError}
      (failed : fRename names faults oldpath (skipPrefix newpath) d = (.error e, d)) :
      ∃ ret < 0, rename names faults oldpath newpath d = (ret, d) :=
    ⟨renameError e, renameError_neg e, by rw [rename, failed]⟩
  cases fault : faults.rename with
  | some e =>
    exact .inr ⟨fun ready => absurd ready.1 nofun, @fails e (by rw [fRename, fault])⟩
  | none =>
    cases here : find names d oldpath with
    | root =>
      refine .inr ⟨fun ready => ?_, @fails .noFile (by simp only [fRename, fault, here])⟩
      obtain ⟨-, parent, name, node, parent', name', found, -⟩ := ready
      exact absurd (here.symm.trans found) nofun
    | free parent name =>
      refine .inr ⟨fun ready => ?_, @fails .noFile (by simp only [fRename, fault, here])⟩
      obtain ⟨-, parent, name, node, parent', name', found, -⟩ := ready
      exact absurd (here.symm.trans found) nofun
    | fails e =>
      refine .inr ⟨fun ready => ?_, @fails e (by simp only [fRename, fault, here])⟩
      obtain ⟨-, parent, name, node, parent', name', found, -⟩ := ready
      exact absurd (here.symm.trans found) nofun
    | found parent name node =>
      have there : find names d newpath = followPath names d.volume.top (skipPrefix newpath) := by
        rw [find, together _ (find_found_iff.1 here).1]
      have blocked {other : Followed ν} (leads : find names d newpath = other)
          (taken : ∀ parent' name', other ≠ .free parent' name') :
          ¬ ((none : Option FError) = none ∧ Ready names d oldpath newpath) := by
        rintro ⟨-, -, -, -, parent', name', -, free⟩
        exact taken parent' name' (leads.symm.trans free)
      cases leads : find names d newpath with
      | root =>
        rw [there] at leads
        exact .inr ⟨blocked (there.trans leads) nofun,
          @fails .exist (by simp only [fRename, fault, here, leads])⟩
      | found parent' name' node' =>
        rw [there] at leads
        exact .inr ⟨blocked (there.trans leads) nofun,
          @fails .exist (by simp only [fRename, fault, here, leads])⟩
      | fails e =>
        rw [there] at leads
        exact .inr ⟨blocked (there.trans leads) nofun,
          @fails e (by simp only [fRename, fault, here, leads])⟩
      | free parent' name' =>
        refine .inl ⟨parent, name, node, parent', name', rfl, rfl, rfl, ?_⟩
        rw [there] at leads
        rw [rename]
        simp only [fRename, fault, here, leads]

end Renames

/-! ## The object at the new path -/

section Targets

variable {ν : Type} (names : Naming ν) (faults : Faults) (path : Path)

/-- `FAT_DeleteDir` and `FAT_Delete` delete an object with everything below it. -/
structure Erased (node : Node ν) : Prop where
  opened : faults (.fOpendir path) = none ∨ node.entries = []
  read : seen faults path node.entries = node.entries
  below : ∀ e ∈ node.entries, Removable names faults path e
  spared : faults (.fUnlink path) = none
  writable : (info node).readOnly = false

/-- Nothing of what is below it is deleted. -/
def Spared (node : Node ν) : Prop :=
  node.isDir = true → faults (.fOpendir path) = none → Untouched names faults path node.entries

/-- A path of something below it is written behind its buffer. -/
def Overruns (node : Node ν) : Prop :=
  node.isDir = true ∧ faults (.fOpendir path) = none ∧ Overlong names faults path node.entries

variable {names faults path} in
/-- A folder that opens is erased if all that is in it can be removed. -/
theorem erased_iff_removable {node : Node ν} (opens : faults (.fOpendir path) = none) :
    Erased names faults path node ↔
      (RemovableIn names faults path node.entries ∧ unseen faults path node.entries = []) ∧
        faults (.fUnlink path) = none ∧ (info node).readOnly = false := by
  rw [unseen_eq_nil_iff]
  constructor
  · rintro ⟨-, read, below, spared, writable⟩
    refine ⟨⟨?_, read⟩, spared, writable⟩
    rwa [RemovableIn, read]
  · rintro ⟨⟨below, read⟩, spared, writable⟩
    rw [RemovableIn, read] at below
    exact ⟨.inl opens, read, below, spared, writable⟩

variable {names faults path} in
/-- What cannot be opened as a folder is erased if it has no entries. -/
theorem erased_iff_empty {node : Node ν}
    (closed : faults (.fOpendir path) ≠ none ∨ node.entries = []) :
    Erased names faults path node ↔
      node.entries = [] ∧ faults (.fUnlink path) = none ∧ (info node).readOnly = false := by
  constructor
  · rintro ⟨opened, -, -, spared, writable⟩
    refine ⟨?_, spared, writable⟩
    rcases closed with fault | empty
    · exact opened.resolve_left fault
    · exact empty
  · rintro ⟨empty, spared, writable⟩
    refine ⟨.inr empty, ?_, fun e inside => ?_, spared, writable⟩
    · rw [empty]
      rfl
    · rw [empty] at inside
      exact absurd inside List.not_mem_nil

variable {names faults path} in
/-- What is erased has not overrun a buffer. -/
theorem Erased.not_overruns {node : Node ν}
    (erased : Erased names faults path node) : ¬ Overruns names faults path node := by
  rintro ⟨-, opens, overlong⟩
  exact overlong.not_removableIn ((erased_iff_removable opens).1 erased).1.1

variable [DecidableEq ν]

/-- What `IOCTL_ISFS_RENAME` does to the object at the new path. -/
structure Replaced (parent : List ν) (name : ν) (node : Node ν) (w w' : World ν) : Prop where
  drive : w'.disk.drive = w.disk.drive
  overran : w'.overran = true ↔ w.overran = true ∨ Overruns names faults path node
  erased : Erased names faults path node →
    w'.disk.volume.top = w.disk.volume.top.remove parent name
  there : ¬ Erased names faults path node →
    w'.disk.volume.top.look (parent ++ [name]) ≠ none
  kept : ¬ Erased names faults path node →
    (w'.disk.volume.top = w.disk.volume.top ↔ Spared names faults path node)

variable {names faults path}

variable (faults) in
/-- `FAT_Delete` behind a deletion that has left `left` of the entries. -/
theorem delete_left {d d' : Disk ν} {parent : List ν} {name : ν} {node : Node ν} {left : Entries ν}
    (here : find names d path = .found parent name node) (drive : d'.drive = d.drive)
    (top : d'.volume.top = d.volume.top.put (parent ++ [name]) left)
    (file : node.isDir = false → left = []) :
    let d'' := (delete names faults path d').2
    d''.drive = d.drive ∧
      (left = [] ∧ faults (.fUnlink path) = none ∧ (info node).readOnly = false →
        d''.volume.top = d.volume.top.remove parent name) ∧
      (¬ (left = [] ∧ faults (.fUnlink path) = none ∧ (info node).readOnly = false) →
        d''.volume.top.look (parent ++ [name]) ≠ none ∧ d''.volume.top = d'.volume.top) := by
  obtain ⟨resolved, found⟩ := find_found_iff.1 here
  have found' : d'.volume.top.look (parent ++ [name]) = some (node.put [] left) := by
    rw [top, DirTree.put, DirTree.look_alter, found]
    rfl
  have here' : find names d' path = .found parent name (node.put [] left) :=
    find_found_iff.2 ⟨drive ▸ resolved, found'⟩
  have content : (node.put [] left).entries = left := by
    cases shape : node with
    | dir attr es => rfl
    | file value => exact (file (by rw [shape]; rfl)).symm
  have entry : info (node.put [] left) = info node := by cases node <;> rfl
  rcases @delete_found _ names faults _ _ _ _ _ _ here' with
    ⟨empty, spared, writable, deleted⟩ | ⟨blocked, ret, -, failed⟩
  · rw [content] at empty
    rw [entry] at writable
    rw [deleted]
    refine ⟨drive, fun _ => ?_, fun blocked => absurd ⟨empty, spared, writable⟩ blocked⟩
    show d'.volume.top.remove parent name = _
    rw [top, DirTree.remove_put]
  · rw [content, entry] at blocked
    rw [failed]
    exact ⟨drive, fun all => absurd all blocked, fun _ => ⟨found' ▸ Option.some_ne_none _, rfl⟩⟩

/-- `FAT_Delete` behind a deletion that is done as it is to be. -/
theorem Replaced.of_delete (w' : World ν) (left : Entries ν) {w : World ν} {parent : List ν}
    {name : ν} {node : Node ν} (here : find names w.disk path = .found parent name node)
    (drive : w'.disk.drive = w.disk.drive)
    (overran : w'.overran = true ↔ w.overran = true ∨ Overruns names faults path node)
    (top : w'.disk.volume.top = w.disk.volume.top.put (parent ++ [name]) left)
    (file : node.isDir = false → left = [])
    (erased : Erased names faults path node ↔
      left = [] ∧ faults (.fUnlink path) = none ∧ (info node).readOnly = false)
    (kept : w'.disk.volume.top = w.disk.volume.top ↔ Spared names faults path node) :
    Replaced names faults path parent name node w
      { w' with disk := (delete names faults path w'.disk).2 } := by
  obtain ⟨drive', gone, stays⟩ := delete_left faults here drive top file
  refine ⟨drive', overran, fun all => gone (erased.1 all), fun blocked => ?_, fun blocked => ?_⟩
  · exact (stays (mt erased.2 blocked)).1
  · rw [← kept, (stays (mt erased.2 blocked)).2]

variable (names) in
/-- What `IOCTL_ISFS_RENAME` does to what is at the new path. -/
def replace (faults : RenameFaults) (rest : FatModule (World ν)) (path : Path) (node : Node ν)
    (w : World ν) : World ν :=
  let fat := renamer names faults rest
  let w := if fattrib node &&& amDir ≠ 0 then (fat.deleteDir path w).2 else w
  (fat.delete path w).2

/-- What a replacement leaves. -/
theorem replaced (faults : RenameFaults) (rest : FatModule (World ν)) {w : World ν}
    {parent : List ν} {name : ν} {node : Node ν}
    (here : find names w.disk path = .found parent name node) :
    Replaced names faults.walk path parent name node w (replace names faults rest path node w) := by
  obtain ⟨resolved, found⟩ := find_found_iff.1 here
  unfold replace
  simp only [fattrib_dir]
  by_cases isDir : node.isDir = true
  case neg =>
    have nothing := DirTree.entries_file isDir
    rw [if_neg isDir]
    refine .of_delete w [] here rfl ?_ ?_ (fun _ => rfl) ?_ ?_
    · exact ⟨.inl, fun runs => runs.resolve_right fun overruns => isDir overruns.1⟩
    · cases node with
      | dir attr es => exact absurd rfl isDir
      | file value => exact (DirTree.put_file w.disk.volume.distinct found []).symm
    · rw [erased_iff_empty (.inr nothing), nothing]
    · exact iff_of_true rfl fun isDir' => absurd isDir' isDir
  rw [if_pos isDir]
  obtain ⟨attr, shape⟩ := DirTree.eq_dir isDir
  have content : Wrapper.At names w.disk path (parent ++ [name]) node.entries :=
    ⟨resolved, attr, found.trans (congrArg some shape)⟩
  have directory : node.isDir = false → ∀ left : Entries ν, left = [] := fun file =>
    absurd (file.symm.trans isDir) Bool.false_ne_true
  by_cases opens : faults.walk (.fOpendir path) = none
  case neg =>
    obtain ⟨ret, -, failed⟩ := @openDir_fails _ faults.walk names _ w.disk path (if_neg opens)
    have ended : deleteDir names faults.walk path w.disk = (some ret, w.disk.failing) := by
      rw [deleteDir, failed]
    refine .of_delete ((renamer names faults rest).deleteDir path w).2 node.entries here ?_ ?_ ?_
      (fun file => directory file _) ?_ ?_
    · simp only [renamer, ended]
      rfl
    · simp only [renamer, ended, Option.isNone_some, Bool.or_false]
      exact ⟨.inl, fun runs => runs.resolve_right fun overruns => opens overruns.2.1⟩
    · simp only [renamer, ended]
      exact (DirTree.put_self w.disk.volume.distinct (content.found.choose_spec)).symm
    · exact erased_iff_empty (.inl opens)
    · simp only [renamer, ended]
      exact iff_of_true rfl fun _ opens' => absurd opens' opens
  obtain ⟨left, deleted⟩ := deleteDir_deleted node content opens
  have shrunk := deleteDir_shrunk node content opens
  refine .of_delete ((renamer names faults rest).deleteDir path w).2 left here deleted.drive ?_
    deleted.top (fun file => directory file _) ?_ ?_
  · simp only [renamer, Bool.or_eq_true, Option.isNone_iff_eq_none]
    rw [deleted.overruns, Overruns, and_iff_right isDir, and_iff_right opens]
  · rw [erased_iff_removable opens]
    refine and_congr_left fun _ => ⟨fun all => (deleted.done all.1).2.1.trans all.2,
      fun empty => ?_⟩
    have removable : RemovableIn names faults.walk path node.entries := by
      by_contra blocked
      exact (deleted.refused blocked).1 empty
    exact ⟨removable, (deleted.done removable).2.1.symm.trans empty⟩
  · refine shrunk.same.trans ⟨fun untouched _ _ => untouched, fun spared => spared isDir opens⟩

end Targets

end D2xCios.Fat.Wrapper
