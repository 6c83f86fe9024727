import D2xCios.Fat.Replacement
import D2xCios.Ffs.Routing

/-!
# Renaming, all or nothing

An emulated rename that fails is to leave the volume as it was. It does where nothing that is at the
new path is deleted, which is so when nothing is there or nothing of it can be deleted; where
something is deleted, the rename has to succeed behind that. One that succeeds moves the object,
unless it moves it below itself.
-/

namespace D2xCios.Fat.Wrapper

open D2xCios.Ffs D2xCios.Lib

/-! ## All or nothing -/

section Requests

variable {ν : Type} [DecidableEq ν] (names : Naming ν) (faults : RenameFaults)

/-- `FAT_GetStats` finds an object. -/
def Stated (d : Disk ν) (path : Path) (parent : List ν) (name : ν) (node : Node ν) : Prop :=
  faults.stat = none ∧ find names d path = .found parent name node

/-- A rename changes nothing when it fails, and when it is done and the names are two, what has been
at the old path is at the new one and nowhere else. -/
structure Atomic (oldpath newpath : Path) (two : Prop) (w : World ν) (answer : Int × World ν) :
    Prop where
  inside : answer.2.overran = false
  failed : answer.1 < 0 → answer.2.disk.volume.top = w.disk.volume.top
  done : answer.1 = 0 → two → ∃ source target,
    resolve names w.disk.drive oldpath = some source ∧
      resolve names w.disk.drive newpath = some target ∧
      w.disk.volume.top.Moved answer.2.disk.volume.top source target

/-- When a rename is all or nothing. -/
inductive SafeToRename (oldpath newpath : Path) (two : Prop) (d : Disk ν) : Prop
  /-- Nothing is to be moved, and two names of one object are not taken for two objects. -/
  | same (same : oldpath = newpath) (one : two → ∀ parent name node,
      ¬ Stated names faults d newpath parent name node)
  /-- Nothing is found at the new path, and it is not below the old one. -/
  | absent (other : oldpath ≠ newpath)
      (absent : ∀ parent name node, ¬ Stated names faults d newpath parent name node)
      (outside : faults.rename = none → ∀ parent name node parent' name',
        find names d oldpath = .found parent name node →
          find names d newpath = .free parent' name' →
            ¬ parent ++ [name] <+: parent' ++ [name'])
  /-- What is at the new path cannot be deleted, nor can anything below it. -/
  | kept (other : oldpath ≠ newpath) {parent : List ν} {name : ν} {node : Node ν}
      (there : Stated names faults d newpath parent name node)
      (inside : ¬ Overruns names faults.walk newpath node)
      (blocked : ¬ Erased names faults.walk newpath node)
      (spared : Spared names faults.walk newpath node)
  /-- It can be deleted as a whole, and the rename does not fail behind that. -/
  | replaced (other : oldpath ≠ newpath) {parent : List ν} {name : ν} {node : Node ν}
      (there : Stated names faults d newpath parent name node)
      (erased : Erased names faults.walk newpath node) (renames : faults.rename = none)
      {parent' : List ν} {name' : ν} {node' : Node ν}
      (source : find names d oldpath = .found parent' name' node')
      (notBelow : ¬ parent' ++ [name'] <+: parent ++ [name])
      (notAbove : ¬ parent ++ [name] <+: parent' ++ [name']) :
      SafeToRename oldpath newpath two d

variable {names faults}

/-- The query of what is there. -/
theorem getStats_stated {d : Disk ν} {path : Path} {parent : List ν} {name : ν} {node : Node ν}
    (stated : Stated names faults d path parent name node) :
    getStats names faults path d = (fsSuccess, some (statsOf (getFileinfo names name node)),
      { d with lfnBuf := names.lfname name }) := by
  obtain ⟨spared, found⟩ := stated
  simp only [getStats, fStat, spared, found]

/-- The query of what is not there fails. -/
theorem getStats_absent {d : Disk ν} {path : Path}
    (absent : ∀ parent name node, ¬ Stated names faults d path parent name node) :
    ∃ ret < 0, getStats names faults path d = (ret, none, d) := by
  obtain ⟨e, failed⟩ : ∃ e, fStat names faults path d = (.error e, d) := by
    unfold fStat
    cases fault : faults.stat with
    | some e => exact ⟨e, rfl⟩
    | none =>
      cases here : find names d path with
      | root => exact ⟨_, rfl⟩
      | found parent name node => exact absurd ⟨fault, here⟩ (absent parent name node)
      | free parent name => exact ⟨_, rfl⟩
      | fails e => exact ⟨e, rfl⟩
  exact ⟨statsError e, statsError_neg e, by rw [getStats, failed]⟩

/-- Where nothing is at the new path, only the rename is left. -/
theorem renameFat_absent (rest : FatModule (World ν)) {w : World ν} {oldpath newpath : Path}
    (other : oldpath ≠ newpath)
    (absent : ∀ parent name node, ¬ Stated names faults w.disk newpath parent name node) :
    renameFat (renamer names faults rest) oldpath newpath w =
      ((rename names faults oldpath newpath w.disk).1,
        { w with disk := (rename names faults oldpath newpath w.disk).2 }) := by
  obtain ⟨ret, negative, failed⟩ := getStats_absent absent
  have stated : (renamer names faults rest).getStats newpath w = (ret, w.stats, w) := by
    simp only [renamer, failed]
    rfl
  rw [renameFat, if_pos other, stated]
  simp only [ge_iff_le, not_le.mpr negative, if_false]
  rfl

/-- Where something is, it is replaced. -/
theorem renameFat_stated (rest : FatModule (World ν)) {w : World ν} {oldpath newpath : Path}
    (other : oldpath ≠ newpath) {parent : List ν} {name : ν} {node : Node ν}
    (stated : Stated names faults w.disk newpath parent name node) :
    ∃ w', Replaced names faults.walk newpath parent name node w w' ∧
      renameFat (renamer names faults rest) oldpath newpath w =
        ((rename names faults oldpath newpath w'.disk).1,
          { w' with disk := (rename names faults oldpath newpath w'.disk).2 }) := by
  obtain ⟨w₀, start⟩ : ∃ w₀ : World ν, w₀ = { w with
    disk := { w.disk with lfnBuf := names.lfname name }
    stats := statsOf (getFileinfo names name node) } := ⟨_, rfl⟩
  have asked : (renamer names faults rest).getStats newpath w =
      (fsSuccess, statsOf (getFileinfo names name node), w₀) := by
    simp only [renamer, getStats_stated stated, start]
    rfl
  have here : find names w₀.disk newpath = .found parent name node := by
    rw [start]
    exact stated.2
  obtain ⟨drive, overran, erased, there, kept⟩ := replaced faults rest here
  rw [start] at drive overran erased kept
  rw [start] at there
  refine ⟨replace names faults rest newpath node w₀, ⟨start ▸ drive, start ▸ overran,
    start ▸ erased, start ▸ there, start ▸ kept⟩, ?_⟩
  rw [renameFat, if_pos other, asked]
  rfl

/-- Two names of one object leave it where it is. -/
theorem renameFat_same_iff (rest : FatModule (World ν)) {w : World ν} {oldpath newpath : Path}
    {two : Prop} (same : oldpath = newpath) (unharmed : w.overran = false) :
    Atomic names oldpath newpath two w (renameFat (renamer names faults rest) oldpath newpath w) ↔
      (two → ∀ parent name node, ¬ Stated names faults w.disk newpath parent name node) := by
  subst same
  have asked : renameFat (renamer names faults rest) oldpath oldpath w =
      statsOnly (renamer names faults rest) oldpath w := if_neg (not_not.2 rfl)
  rw [asked]
  by_cases stated : ∃ parent name node, Stated names faults w.disk oldpath parent name node
  case pos =>
    obtain ⟨parent, name, node, stated⟩ := stated
    simp only [statsOnly, renamer, getStats_stated stated]
    constructor
    · intro atomic hasTwo
      obtain ⟨source, target, resolved, resolved', arrived, gone, -⟩ := atomic.done rfl hasTwo
      obtain rfl : source = target := Option.some.inj (resolved.symm.trans resolved')
      obtain ⟨x, -, found⟩ := arrived
      exact absurd (found.symm.trans gone) (Option.some_ne_none x)
    · intro one
      exact ⟨unharmed, fun failed => rfl, fun _ hasTwo => absurd stated (one hasTwo _ _ _)⟩
  case neg =>
    have absent : ∀ parent name node, ¬ Stated names faults w.disk oldpath parent name node :=
      fun parent name node here => stated ⟨parent, name, node, here⟩
    obtain ⟨ret, negative, failed⟩ := getStats_absent absent
    simp only [statsOnly, renamer, failed]
    exact iff_of_true ⟨unharmed, fun _ => rfl, fun zero => absurd zero (ne_of_lt negative)⟩
      fun _ => absent

/-- A rename that is done has moved the object if it was not moved below itself. -/
theorem renamed_atomic_iff {w : World ν} {oldpath newpath : Path} {two : Prop} (hasTwo : two)
    (unharmed : w.overran = false)
    {parent parent' : List ν} {name name' : ν} {node : Node ν}
    (source : find names w.disk oldpath = .found parent name node)
    (target : find names w.disk newpath = .free parent' name') :
    Atomic names oldpath newpath two w (fsSuccess, { w with
        disk := { w.disk with volume := w.disk.volume.rename parent name parent' name' } }) ↔
      ¬ parent ++ [name] <+: parent' ++ [name'] := by
  obtain ⟨resolved, found⟩ := find_found_iff.1 source
  obtain ⟨resolved', attr, es, room, free⟩ := find_free_iff.1 target
  have top := Volume.rename_top found room free
  constructor
  · intro atomic inside
    obtain ⟨l, l', leads, leads', moved⟩ := atomic.done rfl hasTwo
    obtain rfl : parent ++ [name] = l := Option.some.inj (resolved.symm.trans leads)
    obtain rfl : parent' ++ [name'] = l' := Option.some.inj (resolved'.symm.trans leads')
    rw [top] at moved
    exact DirTree.not_moved_below inside moved
  · intro outside
    refine ⟨unharmed, fun negative => absurd negative ?_, fun _ _ => ?_⟩
    · exact show ¬ fsSuccess < 0 by decide
    refine ⟨_, _, resolved, resolved', ?_⟩
    rw [top]
    exact DirTree.moved_insert_remove found room free outside

/-- When a rename to a new name is atomic. -/
theorem renameFat_absent_iff (rest : FatModule (World ν)) {w : World ν} {oldpath newpath : Path}
    {two : Prop} (hasTwo : two) (other : oldpath ≠ newpath)
    (together : Together names oldpath newpath) (unharmed : w.overran = false)
    (absent : ∀ parent name node, ¬ Stated names faults w.disk newpath parent name node) :
    Atomic names oldpath newpath two w (renameFat (renamer names faults rest) oldpath newpath w) ↔
      (faults.rename = none → ∀ parent name node parent' name',
        find names w.disk oldpath = .found parent name node →
          find names w.disk newpath = .free parent' name' →
            ¬ parent ++ [name] <+: parent' ++ [name']) := by
  rw [renameFat_absent rest other absent]
  rcases rename_cases faults (together w.disk.drive) with
    ⟨parent, name, node, parent', name', spared, source, target, renamed⟩ |
    ⟨blocked, ret, negative, failed⟩
  · rw [renamed]
    refine (renamed_atomic_iff hasTwo unharmed source target).trans ⟨fun outside _ => ?_, fun all =>
      all spared parent name node parent' name' source target⟩
    intro p n x p' n' source' target'
    cases source.symm.trans source'
    cases target.symm.trans target'
    exact outside
  · rw [failed]
    refine iff_of_true ⟨unharmed, fun _ => rfl, fun zero => absurd zero (ne_of_lt negative)⟩ ?_
    intro spared p n x p' n' source target
    exact absurd ⟨spared, p, n, x, p', n', source, target⟩ blocked

/-- An object that is replaced. -/
theorem renameFat_erased_iff {w w' : World ν} {oldpath newpath : Path}
    {two : Prop} (hasTwo : two) (together : Together names oldpath newpath)
    {parent : List ν} {name : ν} {node : Node ν}
    (stated : Stated names faults w.disk newpath parent name node)
    (unharmed : w'.overran = false) (drive : w'.disk.drive = w.disk.drive)
    (top : w'.disk.volume.top = w.disk.volume.top.remove parent name) :
    Atomic names oldpath newpath two w ((rename names faults oldpath newpath w'.disk).1,
        { w' with disk := (rename names faults oldpath newpath w'.disk).2 }) ↔
      faults.rename = none ∧ ∃ parent' name' node',
        find names w.disk oldpath = .found parent' name' node' ∧
          ¬ parent' ++ [name'] <+: parent ++ [name] ∧
          ¬ parent ++ [name] <+: parent' ++ [name'] := by
  obtain ⟨resolved, found⟩ := find_found_iff.1 stated.2
  have missing : w'.disk.volume.top.look (parent ++ [name]) = none :=
    top ▸ DirTree.look_remove_below _ List.prefix_rfl
  rcases rename_cases faults (together w'.disk.drive) with
    ⟨parent', name', node', p, n, spared, source, target, renamed⟩ |
      ⟨blocked, ret, negative, failed⟩
  · rw [renamed]
    obtain ⟨resolved', found'⟩ := find_found_iff.1 source
    obtain ⟨resolvedNew, attr, es, room, free⟩ := find_free_iff.1 target
    rw [drive] at resolved' resolvedNew
    obtain ⟨rfl, rfl⟩ : p = parent ∧ n = name := by
      have same := Option.some.inj (resolvedNew.symm.trans resolved)
      exact ⟨(List.append_inj' same rfl).1, List.singleton_inj.1 (List.append_inj' same rfl).2⟩
    have here : w.disk.volume.top.look (parent' ++ [name']) ≠ none := fun none => by
      have gone : (w.disk.volume.top.remove p n).look (parent' ++ [name']) = Option.none :=
        DirTree.look_remove_none none
      rw [← top, found'] at gone
      cases gone
    obtain ⟨x, here⟩ := Option.ne_none_iff_exists'.1 here
    have notAbove : ¬ p ++ [n] <+: parent' ++ [name'] := fun above => by
      have gone := DirTree.look_remove_below w.disk.volume.top above
      rw [← top, found'] at gone
      cases gone
    have whole := Volume.rename_top found' room free
    constructor
    · intro atomic
      obtain ⟨l, l', leads, leads', moved⟩ := atomic.done rfl hasTwo
      obtain rfl : parent' ++ [name'] = l := Option.some.inj (resolved'.symm.trans leads)
      obtain rfl : p ++ [n] = l' := Option.some.inj (resolved.symm.trans leads')
      rw [whole] at moved
      exact ⟨spared, parent', name', x, find_found_iff.2 ⟨resolved', here⟩,
        fun inside => DirTree.not_moved_below inside moved, notAbove⟩
    · rintro ⟨-, parent'', name'', node'', source', notBelow, -⟩
      have same := Option.some.inj ((find_found_iff.1 source').1.symm.trans resolved')
      rw [same] at notBelow
      refine ⟨unharmed, fun negative => absurd negative (show ¬ fsSuccess < 0 by decide),
        fun _ _ => ⟨_, _, resolved', resolved, ?_⟩⟩
      have moved := DirTree.moved_insert_remove found' room free notBelow
      rw [← whole] at moved
      rw [top] at moved
      exact moved.of_removed notBelow notAbove
  · rw [failed]
    constructor
    · intro atomic
      have same := atomic.failed negative
      rw [← same, missing] at found
      cases found
    · rintro ⟨spared, parent', name', node', source, notBelow, notAbove⟩
      obtain ⟨resolved', found'⟩ := find_found_iff.1 source
      refine absurd ⟨spared, parent', name', node', parent, name, find_found_iff.2 ⟨?_, ?_⟩,
        find_free_iff.2 ⟨?_, ?_⟩⟩ blocked
      · rw [drive]
        exact resolved'
      · rw [top, DirTree.look_remove_apart _ notAbove fun above =>
          notBelow (above.trans (List.prefix_append parent [name]))]
        exact found'
      · rw [drive]
        exact resolved
      · rw [top]
        exact DirTree.look_remove_parent found

/-- The rename of the FAT module is all or nothing exactly if it is safe. -/
theorem renameFat_atomic_iff (rest : FatModule (World ν)) {w : World ν} {oldpath newpath : Path}
    {two : Prop} (differ : oldpath ≠ newpath → two) (together : Together names oldpath newpath)
    (unharmed : w.overran = false) :
    Atomic names oldpath newpath two w (renameFat (renamer names faults rest) oldpath newpath w) ↔
      SafeToRename names faults oldpath newpath two w.disk := by
  by_cases same : oldpath = newpath
  case pos =>
    rw [renameFat_same_iff rest same unharmed]
    refine ⟨.same same, fun safe => ?_⟩
    cases safe with
    | same _ one => exact one
    | absent other => exact absurd same other
    | kept other => exact absurd same other
    | replaced other => exact absurd same other
  have hasTwo := differ same
  by_cases stated : ∃ parent name node, Stated names faults w.disk newpath parent name node
  case neg =>
    have absent : ∀ parent name node, ¬ Stated names faults w.disk newpath parent name node :=
      fun parent name node here => stated ⟨parent, name, node, here⟩
    rw [renameFat_absent_iff rest hasTwo same together unharmed absent]
    refine ⟨.absent same absent, fun safe => ?_⟩
    cases safe with
    | same same' _ => exact absurd same' same
    | absent _ _ outside => exact outside
    | kept _ there => exact absurd there (absent _ _ _)
    | replaced _ there => exact absurd there (absent _ _ _)
  obtain ⟨parent, name, node, stated⟩ := stated
  have unique {p : List ν} {n : ν} {x : Node ν} (other : Stated names faults w.disk newpath p n x) :
      p = parent ∧ n = name ∧ x = node := by
    have here := stated.2.symm.trans other.2
    cases here
    exact ⟨rfl, rfl, rfl⟩
  obtain ⟨w', replaced, run⟩ := renameFat_stated rest same stated
  rw [run]
  by_cases overruns : Overruns names faults.walk newpath node
  case pos =>
    have harmed : w'.overran = true := replaced.overran.2 (.inr overruns)
    refine iff_of_false (fun atomic => ?_) fun safe => ?_
    · exact absurd (harmed.symm.trans atomic.inside) Bool.true_eq_false.mp
    · cases safe with
      | same same' _ => exact same same'
      | absent _ absent _ => exact absent _ _ _ stated
      | kept _ there inside _ _ =>
        obtain ⟨rfl, rfl, rfl⟩ := unique there
        exact inside overruns
      | replaced _ there erased _ _ _ _ =>
        obtain ⟨rfl, rfl, rfl⟩ := unique there
        exact erased.not_overruns overruns
  have unharmed' : w'.overran = false := by
    rw [Bool.eq_false_iff]
    exact fun harmed => (replaced.overran.1 harmed).elim (by simp [unharmed]) overruns
  by_cases erased : Erased names faults.walk newpath node
  case pos =>
    rw [renameFat_erased_iff hasTwo together stated unharmed' replaced.drive
      (replaced.erased erased)]
    constructor
    · rintro ⟨spared, parent', name', node', source, notBelow, notAbove⟩
      exact .replaced same stated erased spared source notBelow notAbove
    · intro safe
      cases safe with
      | same same' _ => exact absurd same' same
      | absent _ absent _ => exact absurd stated (absent _ _ _)
      | kept _ there _ blocked _ =>
        obtain ⟨rfl, rfl, rfl⟩ := unique there
        exact absurd erased blocked
      | replaced _ there _ renames source notBelow notAbove =>
        obtain ⟨rfl, rfl, rfl⟩ := unique there
        exact ⟨renames, _, _, _, source, notBelow, notAbove⟩
  case neg =>
    have taken : ¬ (faults.rename = none ∧ Ready names w'.disk oldpath newpath) := by
      rintro ⟨-, -, -, -, p, n, -, free⟩
      obtain ⟨resolved, room⟩ := find_free_iff.1 free
      rw [replaced.drive, (find_found_iff.1 stated.2).1, Option.some.injEq] at resolved
      exact replaced.there erased (resolved ▸ room.missing)
    obtain ⟨ret, negative, failed⟩ : ∃ ret < 0, rename names faults oldpath newpath w'.disk =
        (ret, w'.disk) := by
      rcases rename_cases faults (together w'.disk.drive) with
        ⟨_, _, _, _, _, spared, source, target, -⟩ | ⟨-, failed⟩
      · exact absurd ⟨spared, _, _, _, _, _, source, target⟩ taken
      · exact failed
    rw [failed]
    constructor
    · intro atomic
      exact .kept same stated overruns erased ((replaced.kept erased).1 (atomic.failed negative))
    · intro safe
      refine ⟨unharmed', fun _ => ?_, fun zero => absurd zero (ne_of_lt negative)⟩
      cases safe with
      | same same' _ => exact absurd same' same
      | absent _ absent _ => exact absurd stated (absent _ _ _)
      | kept _ there _ _ spared =>
        obtain ⟨rfl, rfl, rfl⟩ := unique there
        exact (replaced.kept erased).2 spared
      | replaced _ there erased' _ _ _ _ =>
        obtain ⟨rfl, rfl, rfl⟩ := unique there
        exact absurd erased' erased

variable (names faults) in
/-- `IOCTL_ISFS_RENAME` of two emulated paths is all or nothing exactly if the rename is safe. -/
theorem ioctlRename_atomic_iff (rest : FatModule (World ν)) (env : Surroundings) (fd : Int)
    (inlen iolen : Nat) {buf : Inbuf} {s : Plugin (World ν)}
    (emulatedOld : checkRealPath s.config buf.pathOld = false)
    (emulatedNew : checkRealPath s.config buf.pathNew = false)
    (unharmed : s.fat.overran = false) :
    let answer := fsIoctl (renamer names faults rest) env fd ioctlRename (some buf) inlen iolen s
    Atomic names (generateAbsolutePath s.config buf.pathOld)
        (generateAbsolutePath s.config buf.pathNew) (buf.pathOld ≠ buf.pathNew) s.fat
        (answer.1.ret, answer.2.fat) ↔
      SafeToRename names faults (generateAbsolutePath s.config buf.pathOld)
        (generateAbsolutePath s.config buf.pathNew) (buf.pathOld ≠ buf.pathNew) s.fat.disk := by
  have on : s.config.mode ≠ 0 := fun off =>
    absurd ((checkRealPath_off off _).symm.trans emulatedOld) Bool.true_eq_false.mp
  have asked : fsIoctl (renamer names faults rest) env fd ioctlRename (some buf) inlen iolen s =
      fsRename (renamer names faults rest) buf.pathOld buf.pathNew s := rfl
  rw [asked, fsRename, emulatedOld, emulatedNew]
  simp only [onPath, Bool.or_self, Bool.false_eq_true, if_false, if_pos on]
  exact renameFat_atomic_iff rest (fun differ same => differ (congrArg _ same))
    (together_emulated names s.config buf.pathOld buf.pathNew) unharmed

end Requests

/-! ## A file that is lost -/

def tmpName : LongName := ⟨"tmp".toList, by decide⟩
def keptName : LongName := ⟨"b".toList, by decide⟩

/-- A file without contents. -/
def emptyFile : Node LongName := .file ⟨⟨0, 0, false⟩, [], by decide⟩

theorem tmpEntries_distinct :
    (DirTree.dir (⟨0, 0, false⟩ : Info) [(keptName, emptyFile)]).Distinct :=
  .dir _ (List.nodup_singleton _) fun _ inside => List.mem_singleton.1 inside ▸ .file _

/-- An SD card with the file `/tmp/b`. -/
def tmpDisk : Disk LongName where
  drive := 0
  volume :=
    { top := .dir ⟨0, 0, false⟩ [(tmpName, .dir ⟨0, 0, false⟩ [(keptName, emptyFile)])]
      isDir := rfl
      distinct := .dir _ (List.nodup_singleton _) fun _ inside =>
        List.mem_singleton.1 inside ▸ tmpEntries_distinct }
  lfnBuf := []
  failures := 0

/-- A FAT module of which nothing else is asked. -/
def unasked : FatModule (World LongName) where
  heapAlloc w := (true, w)
  openModule w := (1, w)
  setNandPath _ w := (0, w)
  openFile _ _ w := (32, w)
  close _ w := (0, w)
  read _ _ w := (0, [], w)
  write _ _ w := (0, w)
  seek _ _ _ w := (0, w)
  createDir _ w := (0, w)
  createFile _ w := (0, w)
  readDir _ _ w := (0, 0, [], w)
  delete _ w := (0, w)
  deleteDir _ w := (0, w)
  rename _ _ w := (0, w)
  getStats _ w := (0, ⟨0, 0, 0, 0⟩, w)
  getUsage _ w := (0, ⟨0, 0⟩, w)
  getFileStats _ w := (0, (0, 0), w)

/-- No call fails. -/
def nothingFails : RenameFaults where
  walk _ := none
  stat := none
  rename := none

/-- The emulation is on, with the NAND at the top of the SD card. -/
def onCard : Plugin (World LongName) :=
  { (Plugin.boot ⟨tmpDisk, ⟨0, 0, 0, 0⟩, false⟩ : Plugin (World LongName)) with
    config := { mode := modeSdhc ||| modeRev17, path := [] } }

/-- `/tmp/a`, which does not exist, to `/tmp/b`, which does. -/
def missingToKept : Inbuf := { pathOld := "/tmp/a".toList, pathNew := "/tmp/b".toList }

/-- `/tmp/b` to a new name. -/
def keptToNew : Inbuf := { pathOld := "/tmp/b".toList, pathNew := "/tmp/c".toList }

/-- The rule for a new name. -/
theorem ioctlRename_atomic_iff_new :
    let answer := fsIoctl (renamer longNames nothingFails unasked) quiet 3 ioctlRename
      (some keptToNew) 0x80 0 onCard
    Atomic longNames (generateAbsolutePath onCard.config keptToNew.pathOld)
        (generateAbsolutePath onCard.config keptToNew.pathNew)
        (keptToNew.pathOld ≠ keptToNew.pathNew) onCard.fat (answer.1.ret, answer.2.fat) ↔
      SafeToRename longNames nothingFails (generateAbsolutePath onCard.config keptToNew.pathOld)
        (generateAbsolutePath onCard.config keptToNew.pathNew)
        (keptToNew.pathOld ≠ keptToNew.pathNew) onCard.fat.disk :=
  ioctlRename_atomic_iff longNames nothingFails unasked quiet 3 0x80 0 (by decide) (by decide) rfl

/-- The rename of a missing file says so, and deletes the file at the new path. -/
theorem rename_loses_target :
    let answer := fsIoctl (renamer longNames nothingFails unasked) quiet 3 ioctlRename
      (some missingToKept) 0x80 0 onCard
    answer.1.ret = fsEnoent ∧ (tmpDisk.volume.top.look [tmpName, keptName]).isSome = true ∧
      (answer.2.fat.disk.volume.top.look [tmpName, keptName]).isSome = false ∧
      ¬ Atomic longNames (generateAbsolutePath onCard.config missingToKept.pathOld)
        (generateAbsolutePath onCard.config missingToKept.pathNew)
        (missingToKept.pathOld ≠ missingToKept.pathNew) onCard.fat
        (answer.1.ret, answer.2.fat) := by
  have ret : (fsIoctl (renamer longNames nothingFails unasked) quiet 3 ioctlRename
      (some missingToKept) 0x80 0 onCard).1.ret = fsEnoent := by decide +kernel
  have before : (tmpDisk.volume.top.look [tmpName, keptName]).isSome = true := by decide
  have after : ((fsIoctl (renamer longNames nothingFails unasked) quiet 3 ioctlRename
      (some missingToKept) 0x80 0 onCard).2.fat.disk.volume.top.look
        [tmpName, keptName]).isSome = false := by decide +kernel
  refine ⟨ret, before, after, fun atomic => ?_⟩
  have same := atomic.failed (by rw [ret]; decide)
  rw [same] at after
  exact absurd (before.symm.trans after) Bool.true_eq_false.mp

end D2xCios.Fat.Wrapper
