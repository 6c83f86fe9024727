import D2xCios.Fat.Wrapper

/-!
# Paths and calls of a walk

Where a path leads, by the names of its segments alone, and what the calls of a walk do: the
path of an entry leads to the entry, and a directory is read entry by entry until a call of
`f_readdir` fails.
-/

namespace D2xCios.Fat.Wrapper

open D2xCios.Ffs D2xCios.Lib

/-! ## Segments -/

/-- A string that is one segment of a path. -/
structure Segment (s : Path) : Prop where
  nonempty : s ≠ []
  plain : ∀ c ∈ s, isSeparator c = false

/-- A separator ends the segment in front of it, if there is one. -/
theorem segmentsFrom_slash (segment s : Path) :
    segmentsFrom segment ('/' :: s) =
      if segment = [] then segmentsFrom [] s else segment :: segmentsFrom [] s := rfl

/-- The segments of a path, without the separator in front. -/
theorem segments_eq (path : Path) :
    segments path = if stripSeparator path = [] then []
      else segmentsFrom [] (stripSeparator path) := rfl

/-- Without a separator there is one segment. -/
theorem segmentsFrom_plain (segment : Path) {s : Path} (plain : ∀ c ∈ s, isSeparator c = false) :
    segmentsFrom segment s = [segment ++ s] := by
  induction s generalizing segment with
  | nil => rw [segmentsFrom, List.append_nil]
  | cons c s ih =>
    rw [segmentsFrom, if_neg (by simp [plain c List.mem_cons_self]),
      ih _ fun c' inside => plain c' (List.mem_cons_of_mem c inside), List.append_assoc]
    rfl

/-- A segment is appended to the list as it is to the path. -/
theorem segmentsFrom_join {segment path s : Path} (single : Segment s)
    (ended : [] ∉ segmentsFrom segment path) :
    segmentsFrom segment (path ++ '/' :: s) = segmentsFrom segment path ++ [s] := by
  have last : segmentsFrom [] s = [s] := segmentsFrom_plain [] single.plain
  induction path generalizing segment with
  | nil =>
    rw [segmentsFrom, List.mem_singleton] at ended
    rw [List.nil_append, segmentsFrom_slash, if_neg (Ne.symm ended), last]
    rfl
  | cons c path ih =>
    rw [segmentsFrom] at ended
    rw [List.cons_append, segmentsFrom, segmentsFrom]
    split at ended
    case isTrue separator =>
      rw [if_pos separator, if_pos separator]
      split at ended
      case isTrue none => rw [if_pos none, if_pos none, ih ended]
      case isFalse some =>
        rw [if_neg some, if_neg some, ih fun inside => ended (List.mem_cons_of_mem _ inside)]
        rfl
    case isFalse plain => rw [if_neg plain, if_neg plain, ih ended]

/-- A segment is appended to the segments of a path as it is to the path. -/
theorem segments_join {path s : Path} (single : Segment s) (ended : [] ∉ segments path) :
    segments (path ++ '/' :: s) = segments path ++ [s] := by
  have last : segmentsFrom [] s = [s] := segmentsFrom_plain [] single.plain
  have more (path : Path) (ended : [] ∉ if path = [] then [] else segmentsFrom [] path) :
      segmentsFrom [] (path ++ '/' :: s) =
        (if path = [] then [] else segmentsFrom [] path) ++ [s] := by
    split at ended
    case isTrue none =>
      subst none
      rw [List.nil_append, segmentsFrom_slash, if_pos rfl, last, if_pos rfl, List.nil_append]
    case isFalse some => rw [if_neg some, segmentsFrom_join single ended]
  have some (path : Path) : path ++ '/' :: s ≠ [] := by simp
  cases path with
  | nil =>
    have stripped : stripSeparator ('/' :: s) = s := rfl
    rw [List.nil_append, segments_eq, stripped, if_neg single.nonempty, last]
    rfl
  | cons c path =>
    rw [segments_eq] at ended
    rw [segments_eq, segments_eq, List.cons_append]
    by_cases separator : isSeparator c = true
    · have stripped (rest : Path) : stripSeparator (c :: rest) = rest := if_pos separator
      rw [stripped] at ended
      rw [stripped, stripped, if_neg (some path)]
      exact more path ended
    · have kept (rest : Path) : stripSeparator (c :: rest) = c :: rest := if_neg separator
      rw [kept] at ended
      rw [kept, kept, ← List.cons_append, if_neg (some (c :: path))]
      exact more (c :: path) ended

/-- The drive of a path is that of its folder. -/
theorem logicalDrive_join (path s : Path) :
    logicalDrive (path ++ '/' :: s) =
      ((logicalDrive path).1, (logicalDrive path).2 ++ '/' :: s) := by
  match path with
  | [] =>
    cases s with
    | nil => rfl
    | cons c s =>
      by_cases colon : c = ':'
      · subst colon
        rfl
      · simp [logicalDrive, colon]
  | [c] => simp [logicalDrive]
  | c :: c' :: path =>
    by_cases colon : c' = ':'
    · subst colon
      simp only [List.cons_append, logicalDrive]
      split <;> rfl
    · simp [logicalDrive, colon]

/-- A path is on a mounted volume if its folder is. -/
theorem chkMounted_join {drive : Nat} {path rest : Path}
    (mounted : chkMounted drive path = .ok rest) (s : Path) :
    chkMounted drive (path ++ '/' :: s) = .ok (rest ++ '/' :: s) := by
  unfold chkMounted at mounted ⊢
  rw [logicalDrive_join]
  dsimp only at mounted ⊢
  split at mounted
  case isTrue => cases mounted
  case isFalse valid =>
    split at mounted
    case isTrue here =>
      cases mounted
      rw [if_neg valid, if_pos here]
    case isFalse => cases mounted

/-! ## Locations -/

section Locations

variable {ν : Type} (names : Naming ν)

/-- The location that a path names. -/
def resolve (drive : Nat) (path : Path) : Option (List ν) :=
  match chkMounted drive path with
  | .ok path => (segments path).mapM names.createName
  | .error _ => none

/-- The text of a name is a segment. -/
theorem segment_text (name : ν) : Segment (names.text name) where
  nonempty empty := by
    have named := names.createName_text name
    rw [show (if names.lfname name ≠ [] then names.lfname name else names.fname name) = [] from
      empty, names.createName_empty] at named
    cases named
  plain _ inside := names.text_plain inside

/-- A name that is read has no character that is invalid. -/
theorem literal_text (name : ν) : fatEscapes.Literal (names.text name) := by
  rw [literal_iff]
  intro c invalid inside
  have named := names.createName_text name
  exact absurd (named.symm.trans (names.createName_invalid invalid inside)) nofun

variable {names}

/-- A resolved path is on a mounted volume, and its segments are names. -/
theorem resolve_segments {drive : Nat} {path : Path} {l : List ν}
    (resolved : resolve names drive path = some l) :
    ∃ rest, chkMounted drive path = .ok rest ∧ (segments rest).mapM names.createName = some l := by
  unfold resolve at resolved
  split at resolved
  case h_1 rest mounted => exact ⟨rest, mounted, resolved⟩
  case h_2 => cases resolved

/-- A list of segments is named one by one. -/
theorem named_cons {first : Path} {rest : List Path} {l : List ν} :
    (first :: rest).mapM names.createName = some l ↔
      ∃ name others, names.createName first = some name ∧
        rest.mapM names.createName = some others ∧ name :: others = l := by
  simp only [List.mapM_cons, Option.bind_eq_bind, Option.bind_eq_some_iff, Option.pure_def,
    Option.some.injEq, exists_and_left]

/-- The segments of a path that names a location are not empty. -/
theorem segments_ended {segments : List Path} {l : List ν}
    (named : segments.mapM names.createName = some l) : [] ∉ segments := by
  induction segments generalizing l with
  | nil => exact List.not_mem_nil
  | cons first rest ih =>
    obtain ⟨name, l', created, others, -⟩ := named_cons.1 named
    intro inside
    rcases List.mem_cons.1 inside with rfl | later
    · rw [names.createName_empty] at created
      cases created
    · exact ih others later

/-- The path of an entry. -/
theorem resolve_join {drive : Nat} {path : Path} {l : List ν}
    (resolved : resolve names drive path = some l) {s : Path} (single : Segment s) :
    resolve names drive (joinPath path s) = (names.createName s).map fun name => l ++ [name] := by
  obtain ⟨rest, mounted, named⟩ := resolve_segments resolved
  rw [resolve, joinPath, chkMounted_join mounted s]
  dsimp only
  rw [segments_join single (segments_ended named), List.mapM_append, named]
  cases created : names.createName s <;> simp [created]

variable [DecidableEq ν]

/-- The loop of `follow_path` looks at the location that the segments name. -/
theorem followFrom_found {parent p : List ν} {dir node : Node ν} {segment : Path}
    {rest : List Path} {name : ν}
    (found : followFrom names parent dir segment rest = .found p name node) :
    ∃ l, p = parent ++ l ∧ (segment :: rest).mapM names.createName = some (l ++ [name]) ∧
      dir.look (l ++ [name]) = some node := by
  fun_induction followFrom names parent dir segment rest with
  | case1 => cases found
  | case2 => cases found
  | case3 => cases found
  | case4 parent dir segment first created s here =>
    cases found
    refine ⟨[], (List.append_nil _).symm, by simp [created], ?_⟩
    rw [List.nil_append, DirTree.look_cons, here]
    exact DirTree.look_nil node
  | case5 parent dir segment first created s next rest here isDir ih =>
    obtain ⟨l, rfl, named, below⟩ := ih found
    refine ⟨first :: l, by simp, by simp [created, named], ?_⟩
    rw [List.cons_append, DirTree.look_cons, here]
    exact below
  | case6 => cases found

/-- A path is followed to what is found under its names. -/
theorem followFrom_of_look {parent l : List ν} {dir node : Node ν} {segment : Path}
    {rest : List Path} {name : ν}
    (named : (segment :: rest).mapM names.createName = some (l ++ [name]))
    (found : dir.look (l ++ [name]) = some node) :
    followFrom names parent dir segment rest = .found (parent ++ l) name node := by
  induction rest generalizing parent l dir segment with
  | nil =>
    obtain ⟨first, others, created, none, same⟩ := named_cons.1 named
    rw [List.mapM_nil, Option.pure_def, Option.some.injEq] at none
    subst none
    obtain ⟨rfl, rfl⟩ : l = [] ∧ first = name := by
      cases l with
      | nil => exact ⟨rfl, (List.cons.inj same).1⟩
      | cons c l => simp at same
    rw [List.nil_append, DirTree.look_cons] at found
    obtain ⟨s, here, below⟩ := Option.bind_eq_some_iff.1 found
    rw [DirTree.look_nil, Option.some.injEq] at below
    rw [followFrom, created]
    simp only [here, below, List.append_nil]
  | cons next rest ih =>
    obtain ⟨first, others, created, named', same⟩ := named_cons.1 named
    obtain ⟨second, others', -, -, rfl⟩ := named_cons.1 named'
    cases l with
    | nil => simp at same
    | cons c l =>
      rw [List.cons_append, List.cons.injEq] at same
      obtain ⟨rfl, same⟩ := same
      rw [List.cons_append, DirTree.look_cons] at found
      obtain ⟨s, here, below⟩ := Option.bind_eq_some_iff.1 found
      have isDir : s.isDir = true := by
        cases s with
        | dir attr es => rfl
        | file value => cases l <;> cases below
      rw [followFrom, created]
      simp only [here, isDir, if_true, ih (same ▸ named') below, List.append_assoc,
        List.singleton_append]

/-- A path with a segment does not lead to the root. -/
theorem followFrom_ne_root (parent : List ν) (dir : Node ν) (segment : Path) (rest : List Path) :
    followFrom names parent dir segment rest ≠ .root := by
  fun_induction followFrom names parent dir segment rest with
  | case5 parent dir segment first created s next rest here isDir ih => exact ih
  | _ => exact nofun

/-- What a path leads to. -/
theorem find_found_iff {d : Disk ν} {path : Path} {parent : List ν} {name : ν} {node : Node ν} :
    find names d path = .found parent name node ↔
      resolve names d.drive path = some (parent ++ [name]) ∧
        d.volume.top.look (parent ++ [name]) = some node := by
  unfold find resolve
  cases chkMounted d.drive path with
  | error e => simp
  | ok rest =>
    dsimp only [followPath]
    cases segments rest with
    | nil => simp
    | cons segment others =>
      constructor
      · intro found
        obtain ⟨l, rfl, named, here⟩ := followFrom_found found
        exact ⟨named, here⟩
      · rintro ⟨named, here⟩
        exact followFrom_of_look named here

/-- The root is found under the path without names. -/
theorem find_root_iff {d : Disk ν} {path : Path} :
    find names d path = .root ↔ resolve names d.drive path = some [] := by
  unfold find resolve
  cases chkMounted d.drive path with
  | error e => simp
  | ok rest =>
    dsimp only [followPath]
    cases segments rest with
    | nil => simp
    | cons segment others =>
      refine iff_of_false (followFrom_ne_root _ _ _ _) fun named => ?_
      obtain ⟨name, l, -, -, none⟩ := named_cons.1 named
      cases none

/-- The entries of the directory that a path leads to. -/
def entriesOf (names : Naming ν) (d : Disk ν) (path : Path) : Option (Entries ν) :=
  match find names d path with
  | .root => some d.volume.top.entries
  | .found _ _ (.dir _ entries) => some entries
  | _ => none

/-- The path leads to a directory with these entries. -/
structure At (names : Naming ν) (d : Disk ν) (path : Path) (l : List ν) (es : Entries ν) :
    Prop where
  resolved : resolve names d.drive path = some l
  found : ∃ attr, d.volume.top.look l = some (.dir attr es)

/-- A path has entries if it leads to a folder with them. -/
theorem entriesOf_eq_some {d : Disk ν} {path : Path} {es : Entries ν} :
    entriesOf names d path = some es ↔ ∃ l, At names d path l es := by
  constructor
  · intro listed
    unfold entriesOf at listed
    split at listed
    case h_1 root =>
      cases listed
      obtain ⟨attr, top⟩ := DirTree.eq_dir d.volume.isDir
      exact ⟨[], find_root_iff.1 root, attr, by rw [← top, DirTree.look_nil]⟩
    case h_2 parent name attr entries here =>
      cases listed
      obtain ⟨resolved, found⟩ := find_found_iff.1 here
      exact ⟨parent ++ [name], resolved, attr, found⟩
    case h_3 => cases listed
  · rintro ⟨l, resolved, attr, found⟩
    rcases List.eq_nil_or_concat l with rfl | ⟨parent, name, rfl⟩
    · rw [DirTree.look_nil, Option.some.injEq] at found
      rw [entriesOf, find_root_iff.2 resolved]
      exact congrArg (fun t => some (DirTree.entries t)) found
    · rw [List.concat_eq_append] at resolved found
      rw [entriesOf, find_found_iff.2 ⟨resolved, found⟩]

/-- A path leads to the same folder on a disk with the same volume. -/
theorem At.of_same {d d' : Disk ν} {path : Path} {l : List ν} {es : Entries ν}
    (here : At names d path l es) (drive : d'.drive = d.drive) (volume : d'.volume = d.volume) :
    At names d' path l es where
  resolved := drive ▸ here.resolved
  found := volume ▸ here.found

/-- The path of an entry leads to the entry. -/
theorem At.entry {d : Disk ν} {path : Path} {l : List ν} {es : Entries ν}
    (here : At names d path l es) {e : ν × Node ν} (inside : e ∈ es) :
    resolve names d.drive (joinPath path (names.text e.1)) = some (l ++ [e.1]) ∧
      d.volume.top.look (l ++ [e.1]) = some e.2 := by
  obtain ⟨attr, found⟩ := here.found
  refine ⟨?_, d.volume.distinct.look_entry found inside⟩
  rw [resolve_join here.resolved (segment_text names e.1)]
  exact congrArg (Option.map _) (names.createName_text e.1)

/-- If it is a directory, it leads to its entries. -/
theorem At.below {d : Disk ν} {path : Path} {l : List ν} {es : Entries ν}
    (here : At names d path l es) {e : ν × Node ν} (inside : e ∈ es) (isDir : e.2.isDir = true) :
    At names d (joinPath path (names.text e.1)) (l ++ [e.1]) e.2.entries := by
  obtain ⟨resolved, found⟩ := here.entry inside
  obtain ⟨attr, shape⟩ := DirTree.eq_dir isDir
  exact ⟨resolved, attr, found.trans (congrArg some shape)⟩

end Locations

/-! ## Calls -/

section Calls

variable {ν : Type} {faults : Faults}

theorem openDirError_neg (e : FError) : openDirError e < 0 := by
  cases e <;> decide

theorem deleteError_neg (e : FError) : deleteError e < 0 := by
  cases e <;> decide

/-- A call that the disk lets down. -/
theorem attempt_fault {α : Type} {call : FatCall} {act : Disk ν → Except FError (α × Disk ν)}
    {d : Disk ν} {e : FError} (fault : faults call = some e) :
    attempt faults call act d = (.error e, d.failed call) := by
  rw [attempt, fault]

/-- A call that is spared and succeeds. -/
theorem attempt_ok {α : Type} {call : FatCall} {act : Disk ν → Except FError (α × Disk ν)}
    {d d' : Disk ν} {value : α} (spared : faults call = none) (done : act d = .ok (value, d')) :
    attempt faults call act d = (.ok value, d') := by
  simp only [attempt, spared, done]

/-- A call that is spared and refused. -/
theorem attempt_error {α : Type} {call : FatCall} {act : Disk ν → Except FError (α × Disk ν)}
    {d : Disk ν} {e : FError} (spared : faults call = none) (refused : act d = .error e) :
    attempt faults call act d = (.error e, d.failed call) := by
  simp only [attempt, spared, refused]

/-- Another count of the calls that have failed. -/
def Disk.failing (d : Disk ν) : Disk ν := { d with failures := d.failures + 1 }

variable {names : Naming ν}

/-- A listing ends at an entry that cannot be read. -/
theorem readDirEntry_fault {d : Disk ν} {path : Path} {unread : Entries ν}
    (fault : faults (.fReaddir path unread.length) ≠ none) :
    readDirEntry names faults path unread d = (.error fsEnoent, d.failing) := by
  obtain ⟨e, fault⟩ := Option.ne_none_iff_exists'.1 fault
  have failed : fReaddir names faults path unread d = (.error e, d.failing) := attempt_fault fault
  cases unread with
  | nil => rw [readDirEntry, failed]
  | cons entry rest => rw [readDirEntry, failed]

/-- A listing ends behind the last entry. -/
theorem readDirEntry_nil {d : Disk ν} {path : Path}
    (spared : faults (.fReaddir path 0) = none) :
    readDirEntry names faults path [] d = (.error fsEnoent, { d with lfnBuf := [] }) := by
  have done : fReaddir names faults path [] d = (.ok .ending, { d with lfnBuf := [] }) :=
    attempt_ok spared rfl
  rw [readDirEntry, done]

/-- An entry that is read is the next one, as every short name is that of an entry to list. -/
theorem readDirEntry_cons {d : Disk ν} {path : Path} {e : ν × Node ν} {rest : Entries ν}
    (spared : faults (.fReaddir path (rest.length + 1)) = none) :
    readDirEntry names faults path (e :: rest) d =
      (.ok (getFileinfo names e.1 e.2, ⟨rest, Nat.lt_succ_self _⟩),
        { d with lfnBuf := names.lfname e.1 }) := by
  have done : fReaddir names faults path (e :: rest) d =
      (.ok (getFileinfo names e.1 e.2), { d with lfnBuf := names.lfname e.1 }) :=
    attempt_ok spared rfl
  rw [readDirEntry, done]
  exact (if_neg (names.fname_nonempty e.1)).trans (if_pos (names.fname_dot e.1))

variable [DecidableEq ν] (names)

/-- The entries that `f_opendir` opens. -/
def opened (faults : Faults) (d : Disk ν) (path : Path) : Option (Entries ν) :=
  if faults (.fOpendir path) = none then entriesOf names d path else none

variable {names}

/-- A folder that opens is read from its first entry. -/
theorem openDir_opened {d : Disk ν} {path : Path} {es : Entries ν}
    (opens : opened names faults d path = some es) :
    openDir names faults path d = (.ok es, d) := by
  unfold opened at opens
  split at opens
  case isFalse => cases opens
  case isTrue spared =>
    have done : fOpendir names faults path d = (.ok es, d) := by
      refine attempt_ok spared ?_
      unfold entriesOf at opens
      split at opens
      case h_1 root =>
        cases opens
        rw [root]
      case h_2 here =>
        cases opens
        rw [here]
      case h_3 => cases opens
    rw [openDir, done]

/-- A folder opens if the disk does not let the call down. -/
theorem At.opened {d : Disk ν} {path : Path} {l : List ν} {es : Entries ν}
    (here : At names d path l es) (spared : faults (.fOpendir path) = none) :
    opened names faults d path = some es := by
  rw [Wrapper.opened, if_pos spared]
  exact entriesOf_eq_some.2 ⟨l, here⟩

/-- A folder that does not open is an error. -/
theorem openDir_fails {d : Disk ν} {path : Path} (fails : opened names faults d path = none) :
    ∃ ret < 0, openDir names faults path d = (.error ret, d.failing) := by
  obtain ⟨e, failed⟩ : ∃ e, fOpendir names faults path d = (.error e, d.failing) := by
    cases fault : faults (.fOpendir path) with
    | some e => exact ⟨e, attempt_fault fault⟩
    | none =>
      rw [opened, if_pos fault, entriesOf] at fails
      cases here : find names d path with
      | root => simp [here] at fails
      | free parent name => exact ⟨.noPath, attempt_error fault (by simp only [here])⟩
      | fails e => exact ⟨e, attempt_error fault (by simp only [here])⟩
      | found parent name node =>
        cases node with
        | dir attr es => simp [here] at fails
        | file value => exact ⟨.noPath, attempt_error fault (by simp only [here])⟩
  exact ⟨openDirError e, openDirError_neg e, by rw [openDir, failed]⟩

end Calls

/-! ## What is read of a directory -/

section Reading

variable {ν : Type} (faults : Faults) (path : Path)

/-- The entries that are read before a call of `f_readdir` fails. -/
def seen : Entries ν → Entries ν
  | [] => []
  | e :: rest => if faults (.fReaddir path (rest.length + 1)) = none then e :: seen rest else []

/-- No call of `f_readdir` fails. -/
def ReadToEnd (unread : Entries ν) : Prop :=
  ∀ left ≤ unread.length, faults (.fReaddir path left) = none

variable {faults path}

/-- The end is read if the last call is spared. -/
theorem readToEnd_nil : ReadToEnd faults path ([] : Entries ν) ↔ faults (.fReaddir path 0) = none :=
  ⟨fun all => all 0 (Nat.le_refl 0), fun spared _ le => Nat.le_zero.1 le ▸ spared⟩

/-- All entries are read if the first one is and the others are. -/
theorem readToEnd_cons {e : ν × Node ν} {rest : Entries ν} :
    ReadToEnd faults path (e :: rest) ↔
      faults (.fReaddir path (rest.length + 1)) = none ∧ ReadToEnd faults path rest := by
  constructor
  · intro all
    exact ⟨all _ (Nat.le_refl _), fun left le => all left (Nat.le_succ_of_le le)⟩
  · rintro ⟨spared, others⟩ left le
    rcases Nat.le_succ_iff.1 le with later | rfl
    · exact others left later
    · exact spared

/-- A listing that is read to its end shows all entries. -/
theorem ReadToEnd.seen {unread : Entries ν} (all : ReadToEnd faults path unread) :
    seen faults path unread = unread := by
  induction unread with
  | nil => rfl
  | cons e rest ih =>
    obtain ⟨spared, others⟩ := readToEnd_cons.1 all
    rw [Wrapper.seen, if_pos spared, ih others]

/-- A listing whose first call is let down shows none. -/
theorem seen_fault {unread : Entries ν} (fault : faults (.fReaddir path unread.length) ≠ none) :
    seen faults path unread = [] := by
  cases unread with
  | nil => rfl
  | cons e rest => exact if_neg fault

/-- A listing that is read to its end has its first call spared. -/
theorem ReadToEnd.first {unread : Entries ν} (all : ReadToEnd faults path unread) :
    faults (.fReaddir path unread.length) = none := all _ (Nat.le_refl _)

end Reading

/-! ## Long names -/

/-- What can be a long name, with a short name of its own on the volume. -/
abbrev LongName := { s : Path // s ≠ [] ∧ ∀ c ∈ s, isSeparator c = false ∧ c ∉ invalidChars }

/-- Decided letter by letter of the name, not over all the letters there are. -/
instance LongName.decidableValid (s : Path) :
    Decidable (s ≠ [] ∧ ∀ c ∈ s, isSeparator c = false ∧ c ∉ invalidChars) :=
  decidable_of_iff
    (s.isEmpty = false ∧ s.all (fun c => !isSeparator c && !invalidChars.elem c) = true) (by simp)

/-- The names of a volume whose entries have long names, told apart letter by letter. -/
def longNames : Naming LongName where
  createName s :=
    if valid : s ≠ [] ∧ ∀ c ∈ s, isSeparator c = false ∧ c ∉ invalidChars then some ⟨s, valid⟩
    else none
  fname _ := "NAME~1".toList
  lfname name := name.1
  fname_nonempty _ := by decide
  fname_dot _ := by decide
  createName_text name := by
    rw [if_pos name.2.1, dif_pos name.2]
  createName_empty := dif_neg fun valid => valid.1 rfl
  createName_invalid invalid inside := dif_neg fun valid => (valid.2 _ inside).2 invalid
  text_plain {name c} inside := by
    rw [if_pos name.2.1] at inside
    exact (name.2.2 c inside).1

end D2xCios.Fat.Wrapper
