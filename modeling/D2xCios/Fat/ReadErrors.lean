import D2xCios.Fat.Deletion
import D2xCios.Fat.Usage

/-!
# Errors while directories are read

`__FAT_ReadDirEntry` gives its callers `FS_ENOENT` for the end of a directory as for an error
of `f_readdir`, and they take both for the end. `FAT_DeleteDir` drops the result of its
recursive call besides. A walk therefore reports a failure only if something else stops it.
-/

namespace D2xCios.Fat.Wrapper

open D2xCios.Ffs D2xCios.Lib

/-! ## FAT_ReadDir -/

section ReadDir

variable {ν : Type} {names : Naming ν} {faults : Faults} {path : Path}

/-- A listing without a limit is complete exactly if no call of `f_readdir` has failed. -/
theorem listEntries_failures (forFS buffer : Bool) (unread : Entries ν) (out : Listing)
    (d : Disk ν) :
    (listEntries names faults path 0 forFS buffer unread out d).2.failures = d.failures ↔
      ReadToEnd faults path unread := by
  have unlimited (out : Listing) : (0 : UInt32) = 0 ∨ out.cnt < 0 := .inl rfl
  have cut {unread : Entries ν} (out : Listing) (d : Disk ν)
      (fault : faults (.fReaddir path unread.length) ≠ none) :
      (listEntries names faults path 0 forFS buffer unread out d).2.failures = d.failures ↔
        ReadToEnd faults path unread := by
    rw [listEntries, if_pos (unlimited out), readDirEntry_fault fault]
    exact iff_of_false (Nat.succ_ne_self _) fun all => fault all.first
  induction unread generalizing out d with
  | nil =>
    by_cases spared : faults (.fReaddir path 0) = none
    · rw [listEntries, if_pos (unlimited out), readDirEntry_nil spared]
      exact iff_of_true rfl (readToEnd_nil.2 spared)
    · exact cut out d spared
  | cons e rest ih =>
    by_cases spared : faults (.fReaddir path (rest.length + 1)) = none
    · obtain ⟨buf, fetched⟩ := @fetchName_read _ names forFS e d
      rw [readToEnd_cons, listEntries, if_pos (unlimited out), readDirEntry_cons spared]
      dsimp only
      rw [fetched]
      dsimp only
      split
      · exact (ih _ _).trans (and_iff_right spared).symm
      · exact (ih _ _).trans (and_iff_right spared).symm
    · exact cut out d spared

end ReadDir

/-! ## Walks -/

/-- A walk over directories: `FAT_ReadDir` without a limit, with memory for its buffer or without,
`FAT_DeleteDir`, or `FAT_GetUsage`. -/
inductive Walk where
  | readDir (allocates : Bool) (buflen : UInt32) (forFS : Bool)
  | deleteDir
  | getUsage (forFS : Bool) (t : Usage)

section Walks

variable {ν : Type} [DecidableEq ν] (names : Naming ν) (faults : Faults)

/-- The result of a walk. -/
def Walk.run (walk : Walk) (path : Path) (d : Disk ν) : Option Int × Disk ν :=
  match walk with
  | .readDir allocates buflen forFS =>
    let (ret, _, d) := Wrapper.readDir names faults allocates path buflen 0 forFS d
    (some ret, d)
  | .deleteDir => Wrapper.deleteDir names faults path d
  | .getUsage forFS t =>
    let (ret, _, d) := Wrapper.getUsage names faults forFS path t d
    (ret, d)

/-- A walk returns, with a negative result if a call of `f_opendir` or `f_readdir` has failed; and a
directory that has been deleted with success has no entries left but those with a dot. -/
def Walk.Reports (walk : Walk) (path : Path) (d : Disk ν) : Prop :=
  ∃ ret, (walk.run names faults path d).1 = some ret ∧
    ((walk.run names faults path d).2.failures ≠ d.failures → ret < 0) ∧
      (walk = .deleteDir → ret = fsSuccess →
        ∀ es, entriesOf names (walk.run names faults path d).2 path = some es →
          ∀ e ∈ es, names.dotted e.1 = true)

/-- No path of the walk is too long for its buffer; and no call of `f_readdir` fails (nor one of
`f_opendir` for an empty directory that is deleted), or the walk is stopped by something else: no
memory for the buffer, an entry that cannot be deleted, a subdirectory that is not opened. -/
def Walk.Heard (walk : Walk) (path : Path) (d : Disk ν) : Prop :=
  ∀ es, opened names faults d path = some es →
    match walk with
    | .readDir allocates buflen _ => buflen ≠ 0 ∧ allocates = false ∨ ReadToEnd faults path es
    | .deleteDir => ¬ Overlong names faults path es ∧
      (¬ RemovableIn names faults path es ∨ UndisturbedIn names faults path es)
    | .getUsage forFS _ => ¬ OverrunsIn names faults forFS path es ∧
      (StopsIn names faults forFS path es ∨ WholeIn names faults forFS path es)

variable {names faults}

/-- An open succeeds or fails, and changes nothing. -/
theorem fOpen_cases (path : Path) (d : Disk ν) :
    fOpen names faults path d = (.ok (), d) ∨ ∃ e, fOpen names faults path d = (.error e, d) := by
  cases fault : faults (.fOpen path) with
  | some e => exact .inr ⟨e, attempt_fault fault⟩
  | none =>
    cases here : find names d path with
    | root => exact .inr ⟨.invalidName, attempt_error fault (by simp only [here])⟩
    | free parent name => exact .inr ⟨.noFile, attempt_error fault (by simp only [here])⟩
    | fails e => exact .inr ⟨e, attempt_error fault (by simp only [here])⟩
    | found parent name node =>
      by_cases isDir : node.isDir = true
      · exact .inr ⟨.noFile, attempt_error fault (by simp only [here, if_pos isDir])⟩
      · exact .inl (attempt_ok fault (by simp only [here, if_neg isDir]))

/-- A directory is not opened as a file. -/
theorem fOpen_directory {path : Path} {d : Disk ν} {es : Entries ν}
    (listed : entriesOf names d path = some es) :
    ∃ e, fOpen names faults path d = (.error e, d) := by
  cases fault : faults (.fOpen path) with
  | some e => exact ⟨e, attempt_fault fault⟩
  | none =>
    unfold entriesOf at listed
    split at listed
    case h_1 root => exact ⟨.invalidName, attempt_error fault (by simp only [root])⟩
    case h_2 here =>
      exact ⟨.noFile, attempt_error fault (by simp only [here, DirTree.isDir, if_true])⟩
    case h_3 => cases listed

/-- A walk over a directory that is not opened. -/
theorem Walk.run_fails (walk : Walk) {path : Path} {d : Disk ν}
    (fails : opened names faults d path = none) :
    ∃ ret < 0, (walk.run names faults path d).1 = some ret := by
  obtain ⟨ret, negative, failed⟩ := openDir_fails fails
  cases walk with
  | readDir allocates buflen forFS =>
    rcases @fOpen_cases _ _ names faults path d with file | ⟨e, other⟩
    · exact ⟨fsEfatal, by decide, by rw [run, Wrapper.readDir, file]⟩
    · exact ⟨ret, negative, by rw [run, Wrapper.readDir, other]; simp only [failed]⟩
  | deleteDir => exact ⟨ret, negative, by rw [run, Wrapper.deleteDir, failed]⟩
  | getUsage forFS t => exact ⟨ret, negative, by rw [run, Wrapper.getUsage, failed]⟩

/-- A folder that opens has its entries, and its open is spared. -/
theorem opened_spared {path : Path} {d : Disk ν} {es : Entries ν}
    (opens : opened names faults d path = some es) :
    faults (.fOpendir path) = none ∧ entriesOf names d path = some es := by
  unfold opened at opens
  split at opens
  case isTrue spared => exact ⟨spared, opens⟩
  case isFalse => cases opens

/-- `FAT_ReadDir` in a directory. -/
theorem Walk.run_readDir (allocates : Bool) (buflen : UInt32) (forFS : Bool) {path : Path}
    {d : Disk ν} {es : Entries ν} (opens : opened names faults d path = some es) :
    (Walk.readDir allocates buflen forFS).run names faults path d =
      if buflen ≠ 0 ∧ allocates = false then (some ipcEnomem, d)
      else (some fsSuccess,
        (listEntries names faults path 0 forFS (buflen ≠ 0) es ⟨0, []⟩ d).2) := by
  obtain ⟨e, other⟩ := fOpen_directory (opened_spared opens).2
  rw [run, Wrapper.readDir, other]
  simp only [openDir_opened opens, decide_eq_true_eq]
  split <;> rfl

/-- A listing reports its failures if all entries are read. -/
theorem Walk.readDir_reports (allocates : Bool) (buflen : UInt32) (forFS : Bool) {path : Path}
    {d : Disk ν} {es : Entries ν} (opens : opened names faults d path = some es) :
    (Walk.readDir allocates buflen forFS).Reports names faults path d ↔
      buflen ≠ 0 ∧ allocates = false ∨ ReadToEnd faults path es := by
  rw [Reports, run_readDir allocates buflen forFS opens]
  by_cases noMemory : buflen ≠ 0 ∧ allocates = false
  · rw [if_pos noMemory]
    exact iff_of_true ⟨_, rfl, fun other => absurd rfl other, nofun⟩ (.inl noMemory)
  · rw [if_neg noMemory, or_iff_right noMemory,
      ← @listEntries_failures _ names _ _ forFS (buflen ≠ 0) es ⟨0, []⟩ d]
    constructor
    · rintro ⟨ret, ⟨⟩, negative, -⟩
      by_contra failed
      exact absurd (negative failed) (by decide)
    · exact fun same => ⟨_, rfl, fun failed => absurd same failed, nofun⟩

/-- A deletion reports its failures if one is seen, or nothing is disturbed. -/
theorem Walk.deleteDir_reports {path : Path} {d : Disk ν} {es : Entries ν}
    (opens : opened names faults d path = some es) :
    Walk.deleteDir.Reports names faults path d ↔ ¬ Overlong names faults path es ∧
      (¬ RemovableIn names faults path es ∨ UndisturbedIn names faults path es) := by
  obtain ⟨spared, listed⟩ := opened_spared opens
  obtain ⟨l, here⟩ := entriesOf_eq_some.1 listed
  obtain ⟨attr, found⟩ := here.found
  obtain ⟨left, deleted⟩ := deleteDir_deleted (.dir attr es) here spared
  by_cases removable : RemovableIn names faults path es
  case neg =>
    obtain ⟨-, negative⟩ := deleted.refused removable
    rw [and_iff_left (.inl removable)]
    constructor
    · rintro ⟨ret, result, -⟩ overlong
      exact absurd (result.symm.trans (deleted.overruns.2 overlong)) nofun
    · intro fits
      obtain ⟨ret, result⟩ := Option.ne_none_iff_exists'.1 (mt deleted.overruns.1 fits)
      have refused := negative ret result
      exact ⟨ret, result, fun _ => refused, fun _ success => absurd success (ne_of_lt refused)⟩
  obtain ⟨done, rest, quiet⟩ := deleted.done removable
  have fits : ¬ Overlong names faults path es := fun overlong =>
    overlong.not_removableIn removable
  rw [and_iff_right fits, or_iff_right (not_not.2 removable)]
  constructor
  · rintro ⟨ret, result, negative, -⟩
    have success : ret = fsSuccess := Option.some.inj (result.symm.trans done)
    refine quiet.1 ?_
    by_contra failed
    exact absurd (success ▸ negative failed) (by decide)
  · intro undisturbed
    refine ⟨fsSuccess, done, fun failed => absurd (quiet.2 undisturbed) failed,
      fun _ _ es' listed' e inside => ?_⟩
    have nothing : left = [] := rest.trans (unseen_eq_nil_iff.2 undisturbed.1.seen)
    have empty : entriesOf names (Wrapper.deleteDir names faults path d).2 path = some [] := by
      refine entriesOf_eq_some.2 ⟨l, ?_, attr, ?_⟩
      · rw [deleted.drive]
        exact here.resolved
      · rw [deleted.top, nothing]
        exact DirTree.look_put found []
    have same : [] = es' := Option.some.inj (empty.symm.trans listed')
    rw [← same] at inside
    exact absurd inside List.not_mem_nil

/-- A count reports its failures if one is seen, or everything is counted. -/
theorem Walk.getUsage_reports (forFS : Bool) (t : Usage) {path : Path} {d : Disk ν}
    {es : Entries ν} (opens : opened names faults d path = some es) :
    (Walk.getUsage forFS t).Reports names faults path d ↔
      ¬ OverrunsIn names faults forFS path es ∧
        (StopsIn names faults forFS path es ∨ WholeIn names faults forFS path es) := by
  obtain ⟨spared, listed⟩ := opened_spared opens
  obtain ⟨l, here⟩ := entriesOf_eq_some.1 listed
  obtain ⟨attr, found⟩ := here.found
  have walked := @getUsage_walked _ names faults forFS _ (.dir attr es) _ _ _ here spared t
  by_cases stops : StopsIn names faults forFS path es
  case pos =>
    rw [and_iff_left (.inl stops)]
    constructor
    · rintro ⟨ret, result, -⟩ overruns
      exact absurd (result.symm.trans (walked.overruns.2 overruns)) nofun
    · intro fits
      obtain ⟨ret, result⟩ := Option.ne_none_iff_exists'.1 (mt walked.overruns.1 fits)
      exact ⟨ret, result, fun _ => walked.stopped stops ret result, nofun⟩
  obtain ⟨done, whole, -⟩ := walked.finished stops
  rw [and_iff_right (mt OverrunsIn.stopsIn stops), or_iff_right stops]
  refine Iff.trans ?_ whole
  constructor
  · rintro ⟨ret, result, negative, -⟩
    have success : ret = fsSuccess := Option.some.inj (result.symm.trans done)
    by_contra failed
    exact absurd (success ▸ negative failed) (by decide)
  · exact fun same => ⟨fsSuccess, done, fun failed => absurd same failed, nofun⟩

/-- A walk reports the failures of `f_opendir` and `f_readdir` exactly if it hears of them. -/
theorem Walk.reports_iff (names : Naming ν) (faults : Faults) (walk : Walk) (path : Path)
    (d : Disk ν) :
    walk.Reports names faults path d ↔ walk.Heard names faults path d := by
  cases opens : opened names faults d path with
  | none =>
    obtain ⟨ret, negative, result⟩ := walk.run_fails opens
    refine iff_of_true ⟨ret, result, fun _ => negative, fun _ success => ?_⟩ fun es opens' => ?_
    · exact absurd success (ne_of_lt negative)
    · exact absurd (opens.symm.trans opens') nofun
  | some es =>
    have heard : walk.Heard names faults path d ↔
        match walk with
        | .readDir allocates buflen _ => buflen ≠ 0 ∧ allocates = false ∨ ReadToEnd faults path es
        | .deleteDir => ¬ Overlong names faults path es ∧
          (¬ RemovableIn names faults path es ∨ UndisturbedIn names faults path es)
        | .getUsage forFS _ => ¬ OverrunsIn names faults forFS path es ∧
          (StopsIn names faults forFS path es ∨ WholeIn names faults forFS path es) := by
      refine ⟨fun heard => heard es opens, fun heard es' opens' => ?_⟩
      have same : es = es' := Option.some.inj (opens.symm.trans opens')
      exact same ▸ heard
    rw [heard]
    cases walk with
    | readDir allocates buflen forFS => exact Walk.readDir_reports allocates buflen forFS opens
    | deleteDir => exact Walk.deleteDir_reports opens
    | getUsage forFS t => exact Walk.getUsage_reports forFS t opens

end Walks

/-! ## A listing that stops early -/

/-- The second entry of `/save` cannot be read. -/
def secondFails : Faults := fun call =>
  if call = .fReaddir "0:/save".toList 1 then some .diskErr else none

/-- `FAT_ReadDir` counts the first entry and succeeds. -/
theorem secondFails_unheard :
    ¬ (Walk.readDir true 0 false).Reports longNames secondFails "0:/save".toList saveDisk := by
  have opens : opened longNames secondFails saveDisk "0:/save".toList = some saveEntries := by
    rw [opened, if_pos (by decide)]
    exact saveDisk_entriesOf
  rw [Walk.readDir_reports true 0 false opens]
  rintro (noMemory | all)
  · exact noMemory.1 rfl
  · exact absurd (all 1 (by decide)) (by decide)

end D2xCios.Fat.Wrapper
