import D2xCios.Fat.Deletion
import D2xCios.Lib.Relocation

/-!
# Deletions that delete nothing

`FAT_DeleteDir` stops at the first entry that cannot be deleted, and what has been deleted until
then is gone. The volume is as it was only if there is no entry, if the first one is not read, or if
it cannot be deleted and nothing below it was.
-/

namespace D2xCios.Fat.Wrapper

open D2xCios.Ffs D2xCios.Lib

/-- Nothing is deleted of the entries of a directory. -/
inductive Untouched {ν : Type} (names : Naming ν) (faults : Faults) : Path → Entries ν → Prop
  | empty {path : Path} : Untouched names faults path []
  | unread {path : Path} {e : ν × Node ν} {rest : Entries ν}
      (fault : faults (.fReaddir path (rest.length + 1)) ≠ none) :
      Untouched names faults path (e :: rest)
  | refused {path : Path} {e : ν × Node ν} {rest : Entries ν}
      (blocked : ¬ Removable names faults path e)
      (below : (names.sub path e.1).length ≤ maxLfn → e.2.isDir = true →
        faults (.fOpendir (names.sub path e.1)) = none →
          Untouched names faults (names.sub path e.1) e.2.entries) :
      Untouched names faults path (e :: rest)

section Deletions

variable {ν : Type} {names : Naming ν} {faults : Faults} {path : Path}

/-- Nothing is touched if nothing is at the first entry. -/
theorem untouched_cons {e : ν × Node ν} {rest : Entries ν}
    (spared : faults (.fReaddir path (rest.length + 1)) = none) :
    Untouched names faults path (e :: rest) ↔ ¬ Removable names faults path e ∧
      ((names.sub path e.1).length ≤ maxLfn → e.2.isDir = true →
        faults (.fOpendir (names.sub path e.1)) = none →
          Untouched names faults (names.sub path e.1) e.2.entries) := by
  constructor
  · intro untouched
    cases untouched with
    | unread fault => exact absurd spared fault
    | refused blocked below => exact ⟨blocked, below⟩
  · rintro ⟨blocked, below⟩
    exact .refused blocked below

variable [DecidableEq ν]

/-- The volume has nothing that it has not had before, and has everything only if nothing was
deleted. -/
structure Shrunk (names : Naming ν) (faults : Faults) (path : Path) (es : Entries ν)
    (d d' : Disk ν) : Prop where
  within : ∀ l, d.volume.top.look l = none → d'.volume.top.look l = none
  same : d'.volume.top = d.volume.top ↔ Untouched names faults path es

/-- A volume that stays the same has shrunk by nothing. -/
theorem shrunk_same {es : Entries ν} {d d' : Disk ν} (same : d'.volume.top = d.volume.top)
    (untouched : Untouched names faults path es) : Shrunk names faults path es d d' where
  within l missing := by rw [same, missing]
  same := iff_of_true same untouched

/-- An entry that is deleted is missed. -/
theorem Shrunk.removed {l : List ν} {e : ν × Node ν} {rest : Entries ν} {d d' d'' : Disk ν}
    (spared : faults (.fReaddir path (rest.length + 1)) = none)
    (removable : Removable names faults path e) (here : At names d path l (e :: rest))
    (top : d'.volume.top = d.volume.top.put l rest)
    (later : Shrunk names faults path rest d' d'') :
    Shrunk names faults path (e :: rest) d d'' := by
  obtain ⟨attr, found⟩ := here.found
  rw [← DirTree.remove_first d.volume.distinct found] at top
  refine ⟨fun l' missing => later.within l' (top ▸ DirTree.look_remove_none missing), ?_⟩
  refine iff_of_false (fun same => ?_) fun untouched =>
    ((untouched_cons spared).1 untouched).1 removable
  have missing : d''.volume.top.look (l ++ [e.1]) = none :=
    later.within _ (top ▸ DirTree.look_remove_below _ List.prefix_rfl)
  have there := (here.entry List.mem_cons_self).2
  rw [← same, missing] at there
  cases there

/-- The deletion of the entries of a directory, when that of what is below them is as it should
be. -/
theorem deleteEntries_shrunk {unread : Entries ν} {l : List ν} {d : Disk ν}
    (below : ∀ e ∈ unread, ∀ path l (d : Disk ν), At names d path l e.2.entries →
      faults (.fOpendir path) = none →
        Shrunk names faults path e.2.entries d (deleteDir names faults path d).2)
    (here : At names d path l unread) :
    Shrunk names faults path unread d
      (deleteEntries names faults path (fun path' _ => deleteDir names faults path') unread
        d).2 := by
  induction unread generalizing d with
  | nil =>
    by_cases spared : faults (.fReaddir path 0) = none
    · rw [deleteEntries_ended (readDirEntry_nil spared)]
      exact shrunk_same rfl .empty
    · rw [deleteEntries_ended (@readDirEntry_fault _ _ _ d path [] spared)]
      exact shrunk_same rfl .empty
  | cons e rest ih =>
    by_cases spared : faults (.fReaddir path (rest.length + 1)) = none
    case neg =>
      rw [deleteEntries_ended (@readDirEntry_fault _ _ _ d path (e :: rest) spared)]
      exact shrunk_same rfl (.unread spared)
    by_cases fits : (names.sub path e.1).length ≤ maxLfn
    case neg =>
      rw [deleteEntries_long spared fits]
      exact shrunk_same rfl (.refused (fun removable => fits (removable_iff.1 removable).1)
        fun short => absurd short fits)
    obtain ⟨r, left, emptied, result, step⟩ := deleteEntries_cons
      (fun path l d here spared => deleteDir_deleted e.2 here spared) here spared fits
    rcases step with ⟨removable, d', drive, -, top, run⟩ | ⟨blocked, ret, -, -, run⟩
    · rw [run]
      obtain ⟨attr, found⟩ := here.found
      refine .removed spared removable here top
        (ih (fun e' inside => below e' (List.mem_cons_of_mem e inside)) ⟨?_, attr, ?_⟩)
      · rw [drive]
        exact here.resolved
      · rw [top, DirTree.look_put found]
    rw [run]
    by_cases isDir : e.2.isDir = true
    case neg =>
      rw [if_neg isDir] at result
      rw [result]
      exact shrunk_same rfl (.refused blocked fun _ isDir' => absurd isDir' isDir)
    rw [if_pos isDir] at result
    by_cases opens : faults (.fOpendir (names.sub path e.1)) = none
    case neg =>
      obtain ⟨ret', -, failed⟩ := @openDir_fails _ faults names _
        { d with lfnBuf := names.lfname e.1 } (names.sub path e.1) (if_neg opens)
      rw [deleteDir, failed] at result
      rw [result]
      exact shrunk_same rfl (.refused blocked fun _ _ opens' => absurd opens' opens)
    have here' : At names { d with lfnBuf := names.lfname e.1 } path l (e :: rest) :=
      here.of_same rfl rfl
    have inner := below e List.mem_cons_self _ _ _ (here'.below List.mem_cons_self isDir) opens
    rw [← result] at inner
    refine ⟨inner.within, inner.same.trans ?_⟩
    rw [untouched_cons spared, and_iff_right blocked]
    exact ⟨fun untouched _ _ _ => untouched, fun untouched => untouched fits isDir opens⟩

/-- The deletion of a directory that is opened. -/
theorem deleteDir_shrunk (node : Node ν) {path : Path} {l : List ν} {d : Disk ν}
    (here : At names d path l node.entries) (spared : faults (.fOpendir path) = none) :
    Shrunk names faults path node.entries d (deleteDir names faults path d).2 := by
  induction node using DirTree.induct generalizing path l d with
  | file value =>
    rw [deleteDir, openDir_opened (here.opened spared)]
    exact deleteEntries_shrunk (fun e inside => absurd inside List.not_mem_nil) here
  | dir attr es ih =>
    rw [deleteDir, openDir_opened (here.opened spared)]
    exact deleteEntries_shrunk (fun e inside path l d here spared => ih e inside here spared) here

end Deletions

end D2xCios.Fat.Wrapper
