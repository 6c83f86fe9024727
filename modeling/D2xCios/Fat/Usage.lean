import D2xCios.Fat.Walks
import Mathlib.Algebra.BigOperators.Group.List.Basic
import Mathlib.Data.UInt

/-!
# The usage of a directory

`FAT_GetUsage` adds up a tree, directory by directory. With a request of FS it goes into a
directory by the unescaped form of its name, under which FatFs finds nothing if the name
holds an escape sequence; and it counts the objects whose long names start with a dot, as
`__FAT_ReadDirEntry` looks at the short name only.
-/

namespace D2xCios.Fat.Wrapper

open D2xCios.Ffs D2xCios.Lib

/-! ## Sums -/

namespace Usage

/-- Two usages are equal if their counts are. -/
theorem ext_iff {t t' : Usage} :
    t = t' ↔ t.size = t'.size ∧ t.files = t'.files ∧ t.dirs = t'.dirs := by
  cases t
  cases t'
  simp

instance : Zero Usage := ⟨⟨0, 0, 0⟩⟩

instance : Add Usage := ⟨fun t t' => ⟨t.size + t'.size, t.files + t'.files, t.dirs + t'.dirs⟩⟩

@[simp] theorem size_zero : (0 : Usage).size = 0 := rfl
@[simp] theorem files_zero : (0 : Usage).files = 0 := rfl
@[simp] theorem dirs_zero : (0 : Usage).dirs = 0 := rfl
@[simp] theorem size_add (t t' : Usage) : (t + t').size = t.size + t'.size := rfl
@[simp] theorem files_add (t t' : Usage) : (t + t').files = t.files + t'.files := rfl
@[simp] theorem dirs_add (t t' : Usage) : (t + t').dirs = t.dirs + t'.dirs := rfl

instance : AddCommMonoid Usage where
  add_assoc t t' t'' := by simp [ext_iff, UInt64.add_assoc, UInt32.add_assoc]
  zero_add t := by simp [ext_iff]
  add_zero t := by simp [ext_iff]
  add_comm t t' := by simp [ext_iff, UInt64.add_comm, UInt32.add_comm]
  nsmul := nsmulRec

/-- Nothing is missing exactly if what is hidden is nothing. -/
theorem add_add_eq_iff (t t' hidden : Usage) : t + (t' + hidden) = t + t' ↔ hidden = 0 := by
  simp only [ext_iff, size_add, files_add, dirs_add, size_zero, files_zero, dirs_zero]
  grind

end Usage

section Sums

variable {ν : Type}

/-- What an object counts for. -/
def usage : Node ν → Usage
  | .file value => ⟨UInt64.ofNat value.data.length, 1, 0⟩
  | .dir _ _ => ⟨0, 0, 1⟩

/-- The sum over objects. -/
def total (objects : List (List ν × Node ν)) : Usage := (objects.map fun r => usage r.2).sum

theorem total_append (first second : List (List ν × Node ν)) :
    total (first ++ second) = total first + total second := by
  rw [total, List.map_append, List.sum_append]
  rfl

/-- An entry and what is below it. -/
theorem total_entry {listed : ν → Bool} {e : ν × Node ν} (counted : listed e.1 = true) :
    total (DirTree.reachIn listed [e]) =
      usage e.2 + total (DirTree.reachIn listed e.2.entries) := by
  rw [DirTree.reachIn, if_pos counted, DirTree.reach_eq, DirTree.reachIn, List.append_nil]
  simp [total, Function.comp_def, DirTree.entries]

/-- The total of a list, divided by a property. -/
theorem total_partition (p : List ν × Node ν → Bool) (objects : List (List ν × Node ν)) :
    total objects = total (objects.filter p) + total (objects.filter fun r => !p r) := by
  rw [← total_append]
  exact ((List.filter_append_perm p objects).map _).sum_eq.symm

end Sums

/-! ## Names -/

section Names

variable {ν : Type} (names : Naming ν) (forFS : Bool)

/-- The name that a walk goes by. -/
def Naming.shown (name : ν) : Path :=
  if forFS then fatEscapes.decode (names.text name) else names.text name

/-- The entries with this name are not passed over. -/
def Naming.counted (name : ν) : Bool :=
  !(forFS && fsMaxname < (fatEscapes.decode (names.text name)).length)

/-- The name starts with a dot. -/
def Naming.dotted (name : ν) : Bool := (names.text name).head? = some '.'

/-- The entries that are listed: those without a dot, and for FS with a short name. -/
def Naming.listed (name : ν) : Bool := names.counted forFS name && !names.dotted name

variable {names forFS}

/-- The name of an entry is fetched from the buffers of the walk. -/
theorem fetchName_read (e : ν × Node ν) (d : Disk ν) :
    ∃ buf, fetchName forFS (getFileinfo names e.1 e.2) { d with lfnBuf := names.lfname e.1 } =
      (names.shown forFS e.1, { d with lfnBuf := buf }) := by
  have text : entryName (getFileinfo names e.1 e.2) { d with lfnBuf := names.lfname e.1 } =
      names.text e.1 := rfl
  rw [fetchName, Naming.shown, text]
  cases forFS with
  | false => exact ⟨_, rfl⟩
  | true => exact ⟨_, rfl⟩

/-- An entry is passed over if its name is too long to be shown. -/
theorem passed_over_iff (name : ν) :
    (forFS = true ∧ fsMaxname < (names.shown forFS name).length) ↔
      names.counted forFS name = false := by
  cases forFS <;> simp [Naming.shown, Naming.counted]

end Names

/-! ## Walks -/

section Walks

variable {ν : Type} (names : Naming ν) (faults : Faults) (forFS : Bool)

/-- The path by which a walk goes into an entry. -/
abbrev Naming.wayTo (path : Path) (name : ν) : Path := joinPath path (names.shown forFS name)

/-- A walk goes into a directory with this name. -/
structure Opens (path : Path) (name : ν) : Prop where
  fits : (names.wayTo forFS path name).length ≤ maxLfn
  plain : names.shown forFS name = names.text name
  spared : faults (.fOpendir (names.wayTo forFS path name)) = none

/-- A walk over an entry ends with an error, or behind a buffer: it does not go into the directory
or into one that it reads below. -/
inductive Stops : Path → ν × Node ν → Prop
  | closed {path : Path} {e : ν × Node ν} (isDir : e.2.isDir = true)
      (counted : names.counted forFS e.1 = true) (closed : ¬ Opens names faults forFS path e.1) :
      Stops path e
  | inside {path : Path} {e e' : ν × Node ν} (isDir : e.2.isDir = true)
      (counted : names.counted forFS e.1 = true)
      (read : e' ∈ seen faults (names.wayTo forFS path e.1) e.2.entries)
      (stops : Stops (names.wayTo forFS path e.1) e') : Stops path e

/-- No call of `f_readdir` fails on the way over an entry. -/
inductive Whole : Path → ν × Node ν → Prop
  | mk {path : Path} {e : ν × Node ν}
      (read : names.counted forFS e.1 = true → e.2.isDir = true →
        ReadToEnd faults (names.wayTo forFS path e.1) e.2.entries)
      (inside : names.counted forFS e.1 = true → ∀ e' ∈ e.2.entries,
        Whole (names.wayTo forFS path e.1) e') : Whole path e

/-- A walk over the entries of a directory stops. -/
def StopsIn (path : Path) (unread : Entries ν) : Prop :=
  ∃ e ∈ seen faults path unread, Stops names faults forFS path e

/-- No call of `f_readdir` fails on the way over the entries of a directory. -/
def WholeIn (path : Path) (unread : Entries ν) : Prop :=
  ReadToEnd faults path unread ∧ ∀ e ∈ unread, Whole names faults forFS path e

/-- A walk over the entries of a directory writes behind a buffer before anything else stops it. -/
inductive OverrunsIn : Path → Entries ν → Prop
  | long {path : Path} {e : ν × Node ν} {rest : Entries ν}
      (spared : faults (.fReaddir path (rest.length + 1)) = none) (isDir : e.2.isDir = true)
      (counted : names.counted forFS e.1 = true)
      (long : ¬ (names.wayTo forFS path e.1).length ≤ maxLfn) : OverrunsIn path (e :: rest)
  | inside {path : Path} {e : ν × Node ν} {rest : Entries ν}
      (spared : faults (.fReaddir path (rest.length + 1)) = none) (isDir : e.2.isDir = true)
      (counted : names.counted forFS e.1 = true) (opens : Opens names faults forFS path e.1)
      (inner : OverrunsIn (names.wayTo forFS path e.1) e.2.entries) : OverrunsIn path (e :: rest)
  | later {path : Path} {e : ν × Node ν} {rest : Entries ν}
      (spared : faults (.fReaddir path (rest.length + 1)) = none)
      (proceeds : ¬ Stops names faults forFS path e) (later : OverrunsIn path rest) :
      OverrunsIn path (e :: rest)

/-- What a walk over the entries of a directory does. -/
structure Walked (path : Path) (unread : Entries ν) (t : Usage) (d : Disk ν)
    (result : Option Int × Usage × Disk ν) : Prop where
  drive : result.2.2.drive = d.drive
  volume : result.2.2.volume = d.volume
  more : d.failures ≤ result.2.2.failures
  overruns : result.1 = none ↔ OverrunsIn names faults forFS path unread
  stopped : StopsIn names faults forFS path unread → ∀ ret, result.1 = some ret → ret < 0
  finished : ¬ StopsIn names faults forFS path unread → result.1 = some fsSuccess ∧
    (result.2.2.failures = d.failures ↔ WholeIn names faults forFS path unread) ∧
    (WholeIn names faults forFS path unread →
      result.2.1 = t + total (DirTree.reachIn (names.counted forFS) unread))

variable {names faults forFS}

/-- An entry stops the walk if it is a counted folder that does not open, or in which the walk
stops. -/
theorem stops_iff {path : Path} {e : ν × Node ν} :
    Stops names faults forFS path e ↔ e.2.isDir = true ∧ names.counted forFS e.1 = true ∧
      (¬ Opens names faults forFS path e.1 ∨
        StopsIn names faults forFS (names.wayTo forFS path e.1) e.2.entries) := by
  constructor
  · intro stops
    cases stops with
    | closed isDir counted closed => exact ⟨isDir, counted, .inl closed⟩
    | inside isDir counted read stops => exact ⟨isDir, counted, .inr ⟨_, read, stops⟩⟩
  · rintro ⟨isDir, counted, closed | ⟨e', read, stops⟩⟩
    · exact .closed isDir counted closed
    · exact .inside isDir counted read stops

/-- An entry is counted whole if its folder is. -/
theorem whole_iff {path : Path} {e : ν × Node ν} :
    Whole names faults forFS path e ↔ (e.2.isDir = true → names.counted forFS e.1 = true →
      WholeIn names faults forFS (names.wayTo forFS path e.1) e.2.entries) := by
  constructor
  · rintro ⟨read, inside⟩ isDir counted
    exact ⟨read counted isDir, inside counted⟩
  · intro inside
    refine ⟨fun counted isDir => (inside isDir counted).1, fun counted e' here => ?_⟩
    by_cases isDir : e.2.isDir = true
    · exact (inside isDir counted).2 e' here
    · rw [DirTree.entries_file isDir] at here
      exact absurd here List.not_mem_nil

/-- A walk that overruns a buffer has read its first entry. -/
theorem OverrunsIn.first {path : Path} {unread : Entries ν}
    (overruns : OverrunsIn names faults forFS path unread) :
    faults (.fReaddir path unread.length) = none := by
  cases overruns <;> assumption

/-- The walk stops at the first entry, or behind it. -/
theorem stopsIn_cons {path : Path} {e : ν × Node ν} {rest : Entries ν}
    (spared : faults (.fReaddir path (rest.length + 1)) = none) :
    StopsIn names faults forFS path (e :: rest) ↔
      Stops names faults forFS path e ∨ StopsIn names faults forFS path rest := by
  rw [StopsIn, seen, if_pos spared, List.exists_mem_cons_iff]
  rfl

/-- A folder is counted whole if its first entry is and the others are. -/
theorem wholeIn_cons {path : Path} {e : ν × Node ν} {rest : Entries ν}
    (spared : faults (.fReaddir path (rest.length + 1)) = none) :
    WholeIn names faults forFS path (e :: rest) ↔
      Whole names faults forFS path e ∧ WholeIn names faults forFS path rest := by
  rw [WholeIn, readToEnd_cons, List.forall_mem_cons, WholeIn]
  tauto

/-- A walk that overruns a buffer stops. -/
theorem OverrunsIn.stopsIn {path : Path} {unread : Entries ν}
    (overruns : OverrunsIn names faults forFS path unread) :
    StopsIn names faults forFS path unread := by
  induction overruns with
  | long spared isDir counted long =>
    exact (stopsIn_cons spared).2 (.inl (.closed isDir counted fun opens => long opens.fits))
  | inside spared isDir counted opens inner ih =>
    exact (stopsIn_cons spared).2 (.inl (stops_iff.2 ⟨isDir, counted, .inr ih⟩))
  | later spared proceeds later ih => exact (stopsIn_cons spared).2 (.inr ih)

/-! ## The loop -/

variable {path : Path} {recurse : (path' : Path) → path.length < path'.length ∧
  path'.length ≤ maxLfn → Usage → Disk ν → Option Int × Usage × Disk ν}

/-- The walk is over when `__FAT_ReadDirEntry` reports an error. -/
theorem usageEntries_ended {unread : Entries ν} {t : Usage} {d d' : Disk ν} {ret : Int}
    (ended : readDirEntry names faults path unread d = (.error ret, d')) :
    usageEntries names faults forFS path recurse unread t d = (some fsSuccess, t, d') := by
  rw [usageEntries, ended]

/-- An entry that is read. -/
theorem usageEntries_read {e : ν × Node ν} {rest : Entries ν} {t : Usage} {d : Disk ν}
    (spared : faults (.fReaddir path (rest.length + 1)) = none) :
    ∃ buf, usageEntries names faults forFS path recurse (e :: rest) t d =
      if names.counted forFS e.1 = false then
        usageEntries names faults forFS path recurse rest t { d with lfnBuf := buf }
      else if e.2.isDir = true then
        if fits : (names.wayTo forFS path e.1).length ≤ maxLfn then
          match recurse (names.wayTo forFS path e.1) ⟨joinPath_longer path _, fits⟩
              { t with dirs := t.dirs + 1 } { d with lfnBuf := buf } with
          | (none, t, d) => (none, t, d)
          | (some ret, t, d) =>
            if ret ≠ 0 then (some ret, t, d)
            else usageEntries names faults forFS path recurse rest t d
        else (none, t, { d with lfnBuf := buf })
      else usageEntries names faults forFS path recurse rest (t + usage e.2)
        { d with lfnBuf := buf } := by
  obtain ⟨buf, fetched⟩ := @fetchName_read _ names forFS e d
  refine ⟨buf, ?_⟩
  rw [usageEntries, readDirEntry_cons spared]
  dsimp only
  rw [fetched]
  dsimp only
  by_cases passed : names.counted forFS e.1 = false
  · rw [if_pos passed, if_pos ((passed_over_iff e.1).2 passed)]
  rw [if_neg passed, if_neg (mt (passed_over_iff e.1).1 passed)]
  by_cases isDir : e.2.isDir = true
  · rw [if_pos isDir]
    exact if_pos ((fattrib_dir e.2).2 isDir)
  · rw [if_neg isDir]
    refine (if_neg (mt (fattrib_dir e.2).1 isDir)).trans ?_
    refine congrArg (usageEntries _ _ _ _ _ _ · _) ?_
    cases shape : e.2 with
    | dir attr es => exact absurd (shape ▸ rfl) isDir
    | file value =>
      have size : (UInt32.ofNat value.data.length).toUInt64 = UInt64.ofNat value.data.length := by
        rw [← UInt64.ofNat_uInt32ToNat, UInt32.toNat_ofNat_of_lt' value.small]
      simp [Usage.ext_iff, usage, getFileinfo, fsize, size]

/-- A walk that goes on behind an entry. -/
theorem Walked.cons {e : ν × Node ν} {rest : Entries ν} {t t' : Usage} {d d' : Disk ν}
    {result : Option Int × Usage × Disk ν}
    (spared : faults (.fReaddir path (rest.length + 1)) = none)
    (later : Walked names faults forFS path rest t' d' result)
    (proceeds : ¬ Stops names faults forFS path e) (drive : d'.drive = d.drive)
    (volume : d'.volume = d.volume) (more : d.failures ≤ d'.failures)
    (whole : d'.failures = d.failures ↔ Whole names faults forFS path e)
    (adds : Whole names faults forFS path e →
      t' = t + total (DirTree.reachIn (names.counted forFS) [e])) :
    Walked names faults forFS path (e :: rest) t d result where
  drive := later.drive.trans drive
  volume := later.volume.trans volume
  more := more.trans later.more
  overruns := later.overruns.trans ⟨.later spared proceeds, fun overruns => by
    cases overruns with
    | long _ isDir counted long =>
      exact absurd (.closed isDir counted fun opens => long opens.fits) proceeds
    | inside _ isDir counted opens inner =>
      exact absurd (stops_iff.2 ⟨isDir, counted, .inr inner.stopsIn⟩) proceeds
    | later _ _ later => exact later⟩
  stopped stops := later.stopped (((stopsIn_cons spared).1 stops).resolve_left proceeds)
  finished none := by
    obtain ⟨done, complete, added⟩ := later.finished fun stops =>
      none ((stopsIn_cons spared).2 (.inr stops))
    have bound := later.more
    refine ⟨done, ?_, fun both => ?_⟩
    · rw [wholeIn_cons spared, ← whole, ← complete]
      omega
    · obtain ⟨first, others⟩ := (wholeIn_cons spared).1 both
      have split : DirTree.reachIn (names.counted forFS) (e :: rest) =
          DirTree.reachIn (names.counted forFS) [e] ++
            DirTree.reachIn (names.counted forFS) rest := by
        rw [DirTree.reachIn, DirTree.reachIn, DirTree.reachIn, List.append_nil]
      rw [added others, adds first, split, total_append, add_assoc]

/-- A walk that stops at an entry. -/
theorem Walked.stop {e : ν × Node ν} {rest : Entries ν} {t : Usage} {d : Disk ν}
    {result : Option Int × Usage × Disk ν}
    (spared : faults (.fReaddir path (rest.length + 1)) = none)
    (stops : Stops names faults forFS path e) (drive : result.2.2.drive = d.drive)
    (volume : result.2.2.volume = d.volume) (more : d.failures ≤ result.2.2.failures)
    (overruns : result.1 = none ↔ ¬ (names.wayTo forFS path e.1).length ≤ maxLfn ∨
      Opens names faults forFS path e.1 ∧
        OverrunsIn names faults forFS (names.wayTo forFS path e.1) e.2.entries)
    (negative : ∀ ret, result.1 = some ret → ret < 0) :
    Walked names faults forFS path (e :: rest) t d result where
  drive := drive
  volume := volume
  more := more
  overruns := overruns.trans <| by
    obtain ⟨isDir, counted, -⟩ := stops_iff.1 stops
    constructor
    · rintro (long | ⟨opens, inner⟩)
      · exact .long spared isDir counted long
      · exact .inside spared isDir counted opens inner
    · intro overruns
      cases overruns with
      | long _ _ _ long => exact .inl long
      | inside _ _ _ opens inner => exact .inr ⟨opens, inner⟩
      | later _ proceeds _ => exact absurd stops proceeds
  stopped _ := negative
  finished none := absurd ((stopsIn_cons spared).2 (.inl stops)) none

/-- A walk whose first call is let down. -/
theorem walked_fault {unread : Entries ν} {t : Usage} {d : Disk ν}
    (fault : faults (.fReaddir path unread.length) ≠ none) :
    Walked names faults forFS path unread t d (some fsSuccess, t, d.failing) := by
  refine ⟨rfl, rfl, Nat.le_succ _, iff_of_false nofun fun overruns => fault overruns.first,
    fun ⟨e, inside, _⟩ => ?_, fun _ => ⟨rfl, ?_, fun whole => ?_⟩⟩
  · rw [seen_fault fault] at inside
    exact absurd inside List.not_mem_nil
  · exact iff_of_false (Nat.succ_ne_self _) fun whole => fault whole.1.first
  · exact absurd whole.1.first fault

/-- A walk behind the last entry. -/
theorem walked_nil {t : Usage} {d : Disk ν} {buf : Path}
    (spared : faults (.fReaddir path 0) = none) :
    Walked names faults forFS path [] t d (some fsSuccess, t, { d with lfnBuf := buf }) := by
  refine ⟨rfl, rfl, Nat.le_refl _, iff_of_false nofun nofun, fun ⟨e, inside, _⟩ => ?_,
    fun _ => ⟨rfl, ?_, fun _ => ?_⟩⟩
  · exact absurd inside List.not_mem_nil
  · exact iff_of_true rfl ⟨readToEnd_nil.2 spared, fun e inside => absurd inside List.not_mem_nil⟩
  · exact (add_zero t).symm

variable [DecidableEq ν]

/-- FatFs finds nothing under a name that has been unescaped to another one. -/
theorem resolve_shown {d : Disk ν} {l : List ν} {es : Entries ν} (here : At names d path l es)
    {name : ν} (escaped : names.shown forFS name ≠ names.text name) :
    resolve names d.drive (names.wayTo forFS path name) = none := by
  have written := segment_text names name
  have single : Segment (names.shown forFS name) := by
    cases forFS with
    | false => exact written
    | true =>
      refine ⟨Escapes.decode_ne_nil written.nonempty, fun c read => ?_⟩
      rcases Escapes.mem_decode read with inside | ⟨e, inside, rfl⟩
      · exact written.plain c inside
      · have plain : ∀ e ∈ fatEscapes.table, isSeparator e.1 = false := by decide
        exact plain e inside
  have invalid : names.createName (names.shown forFS name) = none := by
    cases forFS with
    | false => exact absurd rfl escaped
    | true =>
      obtain ⟨e, inside, read⟩ :=
        (Escapes.decode_cases (names.text name)).resolve_left escaped
      have invalid : ∀ e ∈ fatEscapes.table, e.1 ∈ invalidChars := by decide
      exact names.createName_invalid (invalid e inside) read
  rw [resolve_join here.resolved single, invalid]
  rfl

/-- The directory of an entry that a walk does not go into. -/
theorem opened_closed {d : Disk ν} {l : List ν} {es : Entries ν} (here : At names d path l es)
    {name : ν} (fits : (names.wayTo forFS path name).length ≤ maxLfn)
    (closed : ¬ Opens names faults forFS path name) :
    opened names faults d (names.wayTo forFS path name) = none := by
  unfold opened
  split
  case isFalse => rfl
  case isTrue spared =>
    have escaped : names.shown forFS name ≠ names.text name := fun plain =>
      closed ⟨fits, plain, spared⟩
    by_contra some
    obtain ⟨es', listed⟩ := Option.ne_none_iff_exists'.1 some
    obtain ⟨l', below⟩ := entriesOf_eq_some.1 listed
    exact absurd (below.resolved.symm.trans (resolve_shown here escaped)) nofun

/-- `FAT_GetUsage` in a directory that is opened. -/
theorem getUsage_opened {d : Disk ν} {es : Entries ν} {t : Usage}
    (opens : opened names faults d path = some es) :
    getUsage names faults forFS path t d =
      usageEntries names faults forFS path
        (fun path' _ => getUsage names faults forFS path') es t d := by
  rw [getUsage, openDir_opened opens]

/-- A folder that does not open is an error. -/
theorem getUsage_fails {d : Disk ν} {t : Usage} (fails : opened names faults d path = none) :
    ∃ ret < 0, getUsage names faults forFS path t d = (some ret, t, d.failing) := by
  obtain ⟨ret, negative, failed⟩ := openDir_fails fails
  exact ⟨ret, negative, by rw [getUsage, failed]⟩

/-- No result is negative where none is returned. -/
theorem negative_none (ret : Int) (returned : Option.none = some ret) : ret < 0 :=
  absurd returned (Option.some_ne_none ret).symm

/-- The walk over the entries of a directory, when those into its subdirectories are as they should
be. -/
theorem usageEntries_walked {es unread : Entries ν} (part : ∀ e ∈ unread, e ∈ es)
    (below : ∀ e ∈ es, ∀ path l (d : Disk ν) t, At names d path l e.2.entries →
      faults (.fOpendir path) = none →
        Walked names faults forFS path e.2.entries t d (getUsage names faults forFS path t d))
    {l : List ν} {d : Disk ν} (here : At names d path l es) (t : Usage) :
    Walked names faults forFS path unread t d
      (usageEntries names faults forFS path
        (fun path' _ => getUsage names faults forFS path') unread t d) := by
  induction unread generalizing t d with
  | nil =>
    by_cases spared : faults (.fReaddir path 0) = none
    · rw [usageEntries_ended (readDirEntry_nil spared)]
      exact walked_nil spared
    · rw [usageEntries_ended (@readDirEntry_fault _ _ _ d path [] spared)]
      exact walked_fault spared
  | cons e rest ih =>
    by_cases spared : faults (.fReaddir path (rest.length + 1)) = none
    case neg =>
      rw [usageEntries_ended (@readDirEntry_fault _ _ _ d path (e :: rest) spared)]
      exact walked_fault spared
    have later : ∀ e ∈ rest, e ∈ es := fun e' inside => part e' (List.mem_cons_of_mem e inside)
    obtain ⟨buf, read⟩ := @usageEntries_read _ names faults forFS path
      (fun path' _ => getUsage names faults forFS path') e rest t d spared
    have here' : At names { d with lfnBuf := buf } path l es := here.of_same rfl rfl
    rw [read]
    by_cases passed : names.counted forFS e.1 = false
    · rw [if_pos passed]
      refine .cons spared (ih later here' t) ?_ rfl rfl (Nat.le_refl _) (iff_of_true rfl ?_)
        fun _ => ?_
      · rw [stops_iff, passed]
        exact fun stops => Bool.false_ne_true stops.2.1
      · rw [whole_iff, passed]
        exact fun _ counted => absurd counted Bool.false_ne_true
      · rw [DirTree.reachIn, passed]
        exact (add_zero t).symm
    rw [if_neg passed]
    have counted : names.counted forFS e.1 = true := by simpa using passed
    by_cases isDir : e.2.isDir = true
    case neg =>
      rw [if_neg isDir]
      refine .cons spared (ih later here' (t + usage e.2)) ?_ rfl rfl (Nat.le_refl _)
        (iff_of_true rfl ?_) fun _ => ?_
      · rw [stops_iff]
        exact fun stops => isDir stops.1
      · rw [whole_iff]
        exact fun isDir' => absurd isDir' isDir
      · rw [total_entry counted, DirTree.entries_file isDir]
        exact congrArg (t + ·) (add_zero _).symm
    rw [if_pos isDir]
    by_cases fits : (names.wayTo forFS path e.1).length ≤ maxLfn
    case neg =>
      rw [dif_neg fits]
      exact .stop spared (stops_iff.2 ⟨isDir, counted, .inl fun opens => fits opens.fits⟩) rfl rfl
        (Nat.le_refl _) (iff_of_true rfl (.inl fits)) negative_none
    rw [dif_pos fits]
    by_cases opens : Opens names faults forFS path e.1
    case neg =>
      obtain ⟨ret, negative, failed⟩ := @getUsage_fails _ names faults forFS _ _ _
        { t with dirs := t.dirs + 1 } (opened_closed here' fits opens)
      rw [failed]
      dsimp only
      rw [if_pos (ne_of_lt negative)]
      refine .stop spared (stops_iff.2 ⟨isDir, counted, .inl opens⟩) rfl rfl (Nat.le_succ _)
        (iff_of_false (Option.some_ne_none ret) ?_) fun _ same => Option.some.inj same ▸ negative
      exact fun overruns => overruns.elim (absurd fits) fun inner => opens inner.1
    have inside : At names { d with lfnBuf := buf } (names.wayTo forFS path e.1) (l ++ [e.1])
        e.2.entries := by
      rw [Naming.wayTo, opens.plain]
      exact here'.below (part e List.mem_cons_self) isDir
    have walked := below e (part e List.mem_cons_self) _ _ _ { t with dirs := t.dirs + 1 } inside
      opens.spared
    obtain ⟨⟨ret, t', d'⟩, result⟩ : ∃ r, getUsage names faults forFS
      (names.wayTo forFS path e.1) { t with dirs := t.dirs + 1 } { d with lfnBuf := buf } = r :=
        ⟨_, rfl⟩
    rw [result] at walked ⊢
    by_cases stops : StopsIn names faults forFS (names.wayTo forFS path e.1) e.2.entries
    case pos =>
      have stops' := stops_iff.2 ⟨isDir, counted, .inr stops⟩
      have negative := walked.stopped stops
      have overruns : ret = none ↔ ¬ (names.wayTo forFS path e.1).length ≤ maxLfn ∨
          Opens names faults forFS path e.1 ∧
            OverrunsIn names faults forFS (names.wayTo forFS path e.1) e.2.entries := by
        rw [or_iff_right (not_not.2 fits), and_iff_right opens]
        exact walked.overruns
      cases ret with
      | none =>
        exact .stop spared stops' walked.drive walked.volume walked.more overruns negative_none
      | some ret =>
        dsimp only
        rw [if_pos (ne_of_lt (negative ret rfl))]
        exact .stop spared stops' walked.drive walked.volume walked.more overruns negative
    obtain ⟨done, complete, added⟩ := walked.finished stops
    dsimp only at done complete added
    subst done
    dsimp only
    rw [if_neg (show ¬ fsSuccess ≠ 0 by decide)]
    refine .cons spared (ih later (here'.of_same walked.drive walked.volume) t') ?_ walked.drive
      walked.volume walked.more (complete.trans ?_) fun whole => ?_
    · rw [stops_iff]
      exact fun stops' => (stops'.2.2).elim (absurd opens) stops
    · rw [whole_iff]
      exact ⟨fun whole _ _ => whole, fun whole => whole isDir counted⟩
    · have counts : (⟨t.size, t.files, t.dirs + 1⟩ : Usage) = t + usage e.2 := by
        obtain ⟨attr, shape⟩ := DirTree.eq_dir isDir
        rw [shape]
        simp [Usage.ext_iff, usage]
      rw [added (whole_iff.1 whole isDir counted), total_entry counted, counts, add_assoc]

/-- What `FAT_GetUsage` does in a directory that is opened. -/
theorem getUsage_walked (node : Node ν) {path : Path} {l : List ν} {d : Disk ν}
    (here : At names d path l node.entries) (spared : faults (.fOpendir path) = none) (t : Usage) :
    Walked names faults forFS path node.entries t d (getUsage names faults forFS path t d) := by
  induction node using DirTree.induct generalizing path l d t with
  | file value =>
    rw [getUsage_opened (here.opened spared)]
    exact usageEntries_walked (fun _ inside => inside)
      (fun e inside => absurd inside List.not_mem_nil) here t
  | dir attr es ih =>
    rw [getUsage_opened (here.opened spared)]
    exact usageEntries_walked (fun _ inside => inside)
      (fun e inside path l d t here spared => ih e inside here spared t) here t

end Walks

/-! ## Without failures -/

section Totals

variable {ν : Type} (names : Naming ν) (forFS : Bool)

/-- No call fails. -/
def noFaults : Faults := fun _ => none

/-- The path of an object that is reached from a directory. -/
def Naming.wayPath (dirpath : Path) (way : List ν) : Path :=
  way.foldl (fun path name => joinPath path (names.text name)) dirpath

/-- A walk can go into an object that is reached, if that is a directory: its path fits into the
buffer, and for FS no name on the way holds an escape sequence. -/
def Enters (dirpath : Path) (r : List ν × Node ν) : Prop :=
  r.2.isDir = true → (names.wayPath dirpath r.1).length ≤ maxLfn ∧
    (forFS = true → ∀ name ∈ r.1, fatEscapes.Plain (names.text name))

/-- A walk can go into every directory that it reaches. -/
def Walkable (dirpath : Path) (es : Entries ν) : Prop :=
  ∀ r ∈ DirTree.reachIn (names.counted forFS) es, Enters names forFS dirpath r

/-- The objects that are reached by a name that starts with a dot. -/
def dottedIn (es : Entries ν) : List (List ν × Node ν) :=
  (DirTree.reachIn (names.counted forFS) es).filter fun r => r.1.any names.dotted

variable {names forFS}

/-- A name is shown as it is unless its escapes are decoded. -/
theorem shown_eq_text_iff (name : ν) :
    names.shown forFS name = names.text name ↔
      (forFS = true → fatEscapes.Plain (names.text name)) := by
  rw [← (literal_text names name).decode_iff]
  cases forFS <;> simp [Naming.shown]

/-- Without faults all entries are seen. -/
theorem seen_noFaults (path : Path) (es : Entries ν) : seen noFaults path es = es :=
  ReadToEnd.seen fun _ _ => rfl

/-- Without faults a folder opens if its path fits and is shown as it is. -/
theorem opens_noFaults_iff {path : Path} {name : ν} :
    Opens names noFaults forFS path name ↔
      (joinPath path (names.text name)).length ≤ maxLfn ∧
        (forFS = true → fatEscapes.Plain (names.text name)) := by
  rw [← shown_eq_text_iff]
  constructor
  · rintro ⟨fits, plain, -⟩
    exact ⟨by rwa [Naming.wayTo, plain] at fits, plain⟩
  · rintro ⟨fits, plain⟩
    exact ⟨by rwa [Naming.wayTo, plain], plain, rfl⟩

/-- Without failures, a walk stops at a directory that it cannot go into. -/
theorem stopsIn_noFaults_iff (node : Node ν) (path : Path) :
    StopsIn names noFaults forFS path node.entries ↔
      ∃ r ∈ DirTree.reachIn (names.counted forFS) node.entries, ¬ Enters names forFS path r := by
  induction node using DirTree.induct generalizing path with
  | file value =>
    refine iff_of_false ?_ ?_
    · rintro ⟨e, inside, -⟩
      exact absurd inside List.not_mem_nil
    · rintro ⟨r, inside, -⟩
      exact absurd inside List.not_mem_nil
  | dir attr es ih =>
    rw [StopsIn, seen_noFaults]
    have first {e : ν × Node ν} (isDir : e.2.isDir = true) :
        Opens names noFaults forFS path e.1 ↔ Enters names forFS path ([e.1], e.2) := by
      rw [opens_noFaults_iff, Enters]
      simp [isDir, Naming.wayPath]
    have later {e : ν × Node ν} {r : List ν × Node ν}
        (opens : Opens names noFaults forFS path e.1) :
        Enters names forFS path (e.1 :: r.1, r.2) ↔
          Enters names forFS (names.wayTo forFS path e.1) r := by
      rw [Naming.wayTo, opens.plain, Enters, Enters]
      have plain := (opens_noFaults_iff.1 opens).2
      refine imp_congr_right fun _ => and_congr Iff.rfl (imp_congr_right fun fs => ?_)
      rw [List.forall_mem_cons]
      exact and_iff_right (plain fs)
    constructor
    · rintro ⟨e, inside, stops⟩
      obtain ⟨isDir, counted, closed⟩ := stops_iff.1 stops
      by_cases opens : Opens names noFaults forFS path e.1
      · obtain ⟨r, below, barred⟩ := (ih e inside _).1 (closed.resolve_left (not_not.2 opens))
        have reached : (e.1 :: r.1, r.2) ∈ DirTree.reachIn (names.counted forFS) es := by
          rw [← DirTree.reach_eq] at below
          exact DirTree.mem_reachIn.2 ⟨e, inside, counted, .inr ⟨r, below, rfl⟩⟩
        exact ⟨_, reached, mt (later opens).1 barred⟩
      · exact ⟨([e.1], e.2), DirTree.mem_reachIn.2 ⟨e, inside, counted, .inl rfl⟩,
          fun enters => opens ((first isDir).2 enters)⟩
    · rintro ⟨r, reached, barred⟩
      obtain ⟨e, inside, counted, rfl | ⟨r, below, rfl⟩⟩ := DirTree.mem_reachIn.1 reached
      · have isDir : e.2.isDir = true := by
          by_contra file
          exact barred fun isDir => absurd isDir file
        exact ⟨e, inside, .closed isDir counted fun opens => barred ((first isDir).1 opens)⟩
      · have isDir : e.2.isDir = true := by
          by_contra file
          rw [DirTree.reach_eq, DirTree.entries_file file] at below
          exact absurd below List.not_mem_nil
        refine ⟨e, inside, stops_iff.2 ⟨isDir, counted, ?_⟩⟩
        by_cases opens : Opens names noFaults forFS path e.1
        · rw [later opens] at barred
          rw [DirTree.reach_eq] at below
          exact .inr ((ih e inside _).2 ⟨r, below, barred⟩)
        · exact .inl opens

/-- What is counted is what is listed and what is reached by a name with a dot. -/
theorem total_counted (es : Entries ν) :
    total (DirTree.reachIn (names.counted forFS) es) =
      total (DirTree.reachIn (names.listed forFS) es) + total (dottedIn names forFS es) := by
  have listed : DirTree.reachIn (names.listed forFS) es =
      (DirTree.reachIn (names.counted forFS) es).filter fun r => !r.1.any names.dotted := by
    have split := DirTree.reachIn_and (names.counted forFS) (fun name => !names.dotted name) es
    simp only [← List.not_any_eq_all_not] at split
    exact split
  rw [listed, add_comm]
  exact total_partition _ _

/-- Without faults every entry is counted whole. -/
theorem whole_noFaults (node : Node ν) (name : ν) (path : Path) :
    Whole names noFaults forFS path (name, node) := by
  induction node using DirTree.induct generalizing name path with
  | file value => exact ⟨fun _ _ _ _ => rfl, fun _ e inside => absurd inside List.not_mem_nil⟩
  | dir attr es ih => exact ⟨fun _ _ _ _ => rfl, fun _ e inside => ih e inside e.1 _⟩

/-- Without faults every folder is counted whole. -/
theorem wholeIn_noFaults (es : Entries ν) (path : Path) : WholeIn names noFaults forFS path es :=
  ⟨fun _ _ => rfl, fun e _ => whole_noFaults e.2 e.1 path⟩

variable [DecidableEq ν]

/-- Without failures, `FAT_GetUsage` succeeds and adds up what is listed below a directory, for
itself or for FS, exactly if it can go into every directory that it reaches and what it reaches by
names with a dot adds up to nothing. -/
theorem getUsage_adds_iff {d : Disk ν} {dirpath : Path} {es : Entries ν}
    (under : entriesOf names d dirpath = some es) (t : Usage) :
    ((getUsage names noFaults forFS dirpath t d).1 = some fsSuccess ∧
        (getUsage names noFaults forFS dirpath t d).2.1 =
          t + total (DirTree.reachIn (names.listed forFS) es)) ↔
      Walkable names forFS dirpath es ∧ total (dottedIn names forFS es) = 0 := by
  obtain ⟨l, here⟩ := entriesOf_eq_some.1 under
  obtain ⟨attr, found⟩ := here.found
  have stops : StopsIn names noFaults forFS dirpath es ↔ ¬ Walkable names forFS dirpath es := by
    simp only [Walkable, not_forall, exists_prop]
    exact stopsIn_noFaults_iff (.dir attr es) dirpath
  have walked := @getUsage_walked _ names noFaults forFS _ (.dir attr es) _ _ _ here rfl t
  constructor
  · rintro ⟨done, added⟩
    have proceeds : ¬ StopsIn names noFaults forFS dirpath es := fun stops =>
      absurd (walked.stopped stops _ done) (by decide)
    refine ⟨not_not.1 (mt stops.2 proceeds), ?_⟩
    obtain ⟨-, -, sum⟩ := walked.finished proceeds
    rw [sum (wholeIn_noFaults es dirpath), DirTree.entries, total_counted] at added
    exact (Usage.add_add_eq_iff _ _ _).1 added
  · rintro ⟨walkable, nothing⟩
    obtain ⟨done, -, sum⟩ := walked.finished (mt stops.1 (not_not.2 walkable))
    refine ⟨done, ?_⟩
    rw [sum (wholeIn_noFaults es dirpath), DirTree.entries, total_counted, nothing, add_zero]

end Totals

/-! ## A directory with a colon -/

/-- A file of two bytes. -/
def twoBytes : FileData where
  info := ⟨0, 0, false⟩
  data := [1, 2]
  small := by decide

def saveName : LongName := ⟨"save".toList, by decide⟩
def dataName : LongName := ⟨"data".toList, by decide⟩
def escapedName : LongName := ⟨"a&cl;b".toList, by decide⟩

/-- The entries of `/save`: a file, and a directory with an escaped colon in its name. -/
def saveEntries : Entries LongName :=
  [(dataName, .file twoBytes), (escapedName, .dir ⟨0, 0, false⟩ [])]

theorem saveEntries_distinct : (DirTree.dir (⟨0, 0, false⟩ : Info) saveEntries).Distinct := by
  refine .dir _ (by decide) fun e inside => ?_
  rcases List.mem_pair.1 inside with rfl | rfl
  · exact .file _
  · exact .dir _ List.nodup_nil fun _ absent => absurd absent List.not_mem_nil

/-- An SD card with this directory. -/
def saveDisk : Disk LongName where
  drive := 0
  volume :=
    { top := .dir ⟨0, 0, false⟩ [(saveName, .dir ⟨0, 0, false⟩ saveEntries)]
      isDir := rfl
      distinct := .dir _ (List.nodup_singleton _) fun _ inside =>
        List.mem_singleton.1 inside ▸ saveEntries_distinct }
  lfnBuf := []
  failures := 0

/-- The entries of the folder. -/
theorem saveDisk_entriesOf : entriesOf longNames saveDisk "0:/save".toList = some saveEntries := rfl

/-- The rule for this directory and a request of FS. -/
theorem getUsage_adds_iff_save :
    ((getUsage longNames noFaults true "0:/save".toList 0 saveDisk).1 = some fsSuccess ∧
        (getUsage longNames noFaults true "0:/save".toList 0 saveDisk).2.1 =
          0 + total (DirTree.reachIn (longNames.listed true) saveEntries)) ↔
      Walkable longNames true "0:/save".toList saveEntries ∧
        total (dottedIn longNames true saveEntries) = 0 :=
  getUsage_adds_iff saveDisk_entriesOf 0

/-- What the escaped name stands for. -/
theorem escapedName_decode : fatEscapes.decode (longNames.text escapedName) = "a:b".toList := by
  have written : longNames.text escapedName = fatEscapes.encode "a:b".toList := by decide
  have plain : fatEscapes.Plain "a:b".toList := by
    rw [plain_iff]
    decide
  rw [written, (Escapes.decode_encode_iff _).2 plain]

/-- It fails, as FatFs takes no colon. -/
theorem escapedName_fails :
    entriesOf longNames saveDisk "0:/save".toList = some saveEntries ∧
      ¬ ((getUsage longNames noFaults true "0:/save".toList 0 saveDisk).1 = some fsSuccess ∧
        (getUsage longNames noFaults true "0:/save".toList 0 saveDisk).2.1 =
          0 + total (DirTree.reachIn (longNames.listed true) saveEntries)) := by
  refine ⟨saveDisk_entriesOf, fun right => ?_⟩
  obtain ⟨l, here⟩ := entriesOf_eq_some.1 saveDisk_entriesOf
  have walked := @getUsage_walked _ longNames noFaults true _
    (.dir (⟨0, 0, false⟩ : Info) saveEntries) _ _ _ here rfl 0
  have closed : Stops longNames noFaults true "0:/save".toList
      (escapedName, .dir (⟨0, 0, false⟩ : Info) []) := by
    refine .closed rfl ?_ fun opens => ?_
    · rw [Naming.counted, escapedName_decode]
      rfl
    · exact absurd (escapedName_decode.symm.trans opens.plain) (by decide)
  have stops : StopsIn longNames noFaults true "0:/save".toList saveEntries :=
    ⟨_, by rw [seen_noFaults]; exact List.mem_cons_of_mem _ List.mem_cons_self, closed⟩
  exact absurd (walked.stopped stops _ right.1) (by decide)

end D2xCios.Fat.Wrapper
