import D2xCios.Fat.Rename

/-!
# Places for entries

Where a path leads if there is no such entry, and how two paths of one drive are taken by
`FAT_Rename`, which cuts the drive off the new one: where the old path leads somewhere, what is cut
off is the drive of both.
-/

namespace D2xCios.Fat.Wrapper

open D2xCios.Ffs D2xCios.Lib

/-! ## Free places -/

section Places

variable {ν : Type} [DecidableEq ν] {names : Naming ν}

/-- A place for an entry: a directory that has none with the name. -/
def Room (top : Node ν) (parent : List ν) (name : ν) : Prop :=
  ∃ attr es, top.look parent = some (.dir attr es) ∧ es.lookup name = none

/-- Where there is room nothing is found. -/
theorem Room.missing {top : Node ν} {parent : List ν} {name : ν} (room : Room top parent name) :
    top.look (parent ++ [name]) = none := by
  obtain ⟨attr, es, here, free⟩ := room
  exact DirTree.look_entry_none here free

/-- A path that ends at a free name ends in a folder with room for it. -/
theorem followFrom_free {parent p : List ν} {dir : Node ν} {segment : Path} {rest : List Path}
    {name : ν} (isDir : dir.isDir = true)
    (free : followFrom names parent dir segment rest = .free p name) :
    ∃ l, p = parent ++ l ∧ (segment :: rest).mapM names.createName = some (l ++ [name]) ∧
      Room dir l name := by
  fun_induction followFrom names parent dir segment rest with
  | case1 => cases free
  | case2 parent dir segment first created missing =>
    cases free
    obtain ⟨attr, shape⟩ := DirTree.eq_dir isDir
    refine ⟨[], (List.append_nil _).symm, by simp [created], attr, dir.entries, ?_, missing⟩
    rw [DirTree.look_nil, ← shape]
  | case3 => cases free
  | case4 => cases free
  | case5 parent dir segment first created s next rest here isDir' ih =>
    obtain ⟨l, rfl, named, attr, es, below, missing⟩ := ih isDir' free
    refine ⟨first :: l, by simp, by simp [created, named], attr, es, ?_, missing⟩
    rw [DirTree.look_cons, here]
    exact below
  | case6 => cases free

/-- A path to a folder with room for its last name ends at a free name. -/
theorem followFrom_of_room {parent l : List ν} {dir : Node ν} {segment : Path}
    {rest : List Path} {name : ν}
    (named : (segment :: rest).mapM names.createName = some (l ++ [name]))
    (room : Room dir l name) :
    followFrom names parent dir segment rest = .free (parent ++ l) name := by
  induction rest generalizing parent l dir segment with
  | nil =>
    obtain ⟨first, others, created, none, same⟩ := named_cons.1 named
    rw [List.mapM_nil, Option.pure_def, Option.some.injEq] at none
    subst none
    obtain ⟨rfl, rfl⟩ : l = [] ∧ first = name := by
      cases l with
      | nil => exact ⟨rfl, (List.cons.inj same).1⟩
      | cons c l => simp at same
    obtain ⟨attr, es, here, free⟩ := room
    rw [DirTree.look_nil, Option.some.injEq] at here
    have missing : dir.child first = none := by
      rw [here]
      exact free
    rw [followFrom, created]
    simp only [missing, List.append_nil]
  | cons next rest ih =>
    obtain ⟨first, others, created, named', same⟩ := named_cons.1 named
    obtain ⟨second, others', -, -, rfl⟩ := named_cons.1 named'
    cases l with
    | nil => simp at same
    | cons c l =>
      rw [List.cons_append, List.cons.injEq] at same
      obtain ⟨rfl, same⟩ := same
      obtain ⟨attr, es, found, free⟩ := room
      rw [DirTree.look_cons] at found
      obtain ⟨s, here, below⟩ := Option.bind_eq_some_iff.1 found
      have isDir : s.isDir = true := by
        cases s with
        | dir attr es => rfl
        | file value => cases l <;> cases below
      rw [followFrom, created]
      simp only [here, isDir, if_true, ih (same ▸ named') ⟨attr, es, below, free⟩,
        List.append_assoc, List.singleton_append]

/-- What a path leads to where nothing is. -/
theorem find_free_iff {d : Disk ν} {path : Path} {parent : List ν} {name : ν} :
    find names d path = .free parent name ↔
      resolve names d.drive path = some (parent ++ [name]) ∧ Room d.volume.top parent name := by
  unfold find resolve
  cases chkMounted d.drive path with
  | error e => simp
  | ok rest =>
    dsimp only [followPath]
    cases segments rest with
    | nil => simp
    | cons segment others =>
      constructor
      · intro free
        obtain ⟨l, rfl, named, room⟩ := followFrom_free d.volume.isDir free
        exact ⟨named, room⟩
      · rintro ⟨named, room⟩
        exact followFrom_of_room named room

end Places

/-! ## Two paths of one volume -/

section Prefixes

/-- A character of a path is in one of its segments. -/
theorem mem_segmentsFrom {c : Char} (plain : isSeparator c = false) {segment path : Path}
    (inside : c ∈ segment ∨ c ∈ path) : ∃ s ∈ segmentsFrom segment path, c ∈ s := by
  induction path generalizing segment with
  | nil => exact ⟨segment, List.mem_singleton_self _, inside.resolve_right List.not_mem_nil⟩
  | cons c' path ih =>
    rw [segmentsFrom]
    split
    case isTrue separator =>
      have other : c ≠ c' := fun same => by
        rw [← same, plain] at separator
        cases separator
      split
      case isTrue none =>
        refine ih (.inr ?_)
        subst none
        exact (List.mem_cons.1 (inside.resolve_left List.not_mem_nil)).resolve_left other
      case isFalse some =>
        rcases inside with first | later
        · exact ⟨segment, List.mem_cons_self, first⟩
        · obtain ⟨s, among, here⟩ := @ih []
            (.inr ((List.mem_cons.1 later).resolve_left other))
          exact ⟨s, List.mem_cons_of_mem _ among, here⟩
    case isFalse =>
      refine ih ?_
      rw [List.mem_append, List.mem_singleton]
      rcases inside with first | later
      · exact .inl (.inl first)
      · rcases List.mem_cons.1 later with here | behind
        · exact .inl (.inr here)
        · exact .inr behind

variable {ν : Type} {names : Naming ν}

/-- The segments of a named path are names. -/
theorem named_mem {segments : List Path} {l : List ν}
    (named : segments.mapM names.createName = some l) {s : Path} (inside : s ∈ segments) :
    names.createName s ≠ none := by
  induction segments generalizing l with
  | nil => exact absurd inside List.not_mem_nil
  | cons first rest ih =>
    obtain ⟨name, l', created, others, -⟩ := named_cons.1 named
    rcases List.mem_cons.1 inside with rfl | later
    · exact created ▸ Option.some_ne_none name
    · exact ih others later

/-- A path that leads somewhere has no colon behind its drive. -/
theorem colon_not_mem {drive : Nat} {path rest : Path} {l : List ν}
    (resolved : resolve names drive path = some l) (mounted : chkMounted drive path = .ok rest) :
    ':' ∉ rest := by
  intro colon
  obtain ⟨rest', mounted', named⟩ := resolve_segments resolved
  obtain rfl : rest = rest' := Except.ok.inj (mounted.symm.trans mounted')
  have plain : isSeparator ':' = false := by decide
  have stripped : ':' ∈ stripSeparator rest := by
    cases rest with
    | nil => exact absurd colon List.not_mem_nil
    | cons c rest =>
      rw [stripSeparator]
      split
      case isFalse => exact colon
      case isTrue separator =>
        refine (List.mem_cons.1 colon).resolve_left fun same => ?_
        rw [← same, plain] at separator
        cases separator
  rw [segments_eq, if_neg (List.ne_nil_of_mem stripped)] at named
  obtain ⟨s, inside, here⟩ := mem_segmentsFrom plain (.inr stripped)
  exact named_mem named inside (names.createName_invalid (by decide) here)

/-- A path without a drive is on the first one. -/
theorem logicalDrive_none {base path : Path} (plain : ':' ∉ path)
    (none : ∀ c rest, base = c :: ':' :: rest → c.isDigit = false) :
    logicalDrive (base ++ path) = (0, base ++ path) := by
  have second : ∀ {c c' rest}, path = c :: c' :: rest → c' ≠ ':' := by
    rintro c c' rest rfl rfl
    exact plain (by simp)
  rcases base with _ | ⟨c, _ | ⟨c', base⟩⟩
  · rcases path with _ | ⟨c, _ | ⟨c', path⟩⟩
    · rfl
    · simp [logicalDrive]
    · simp [logicalDrive, second rfl]
  · rcases path with _ | ⟨c', path⟩
    · simp [logicalDrive]
    · have other : c' ≠ ':' := fun same => plain (same ▸ List.mem_cons_self)
      simp [logicalDrive, other]
  · by_cases colon : c' = ':'
    · subst colon
      simp [logicalDrive, none c base rfl]
    · simp [logicalDrive, colon]

/-- A drive is skipped. -/
theorem skipPrefix_drive {c : Char} (digit : c.isDigit = true) (path : Path) :
    skipPrefix (c :: ':' :: path) = path := by
  have other : c ≠ ':' := by
    rintro rfl
    exact absurd digit (by decide)
  simp [skipPrefix, other]

/-- Where one path leads somewhere, `FAT_Rename` takes the drive from another one with the same
beginning. -/
theorem chkMounted_skipPrefix {drive : Nat} {base path path' : Path} {l : List ν}
    (resolved : resolve names drive (base ++ path) = some l) (plain : ':' ∉ path)
    (plain' : ':' ∉ path') :
    chkMounted drive (base ++ path') = .ok (skipPrefix (base ++ path')) := by
  obtain ⟨rest, mounted, -⟩ := resolve_segments resolved
  by_cases prefixed : ∃ c rest, base = c :: ':' :: rest ∧ c.isDigit = true
  case pos =>
    obtain ⟨c, base, rfl, digit⟩ := prefixed
    have drives (path : Path) : logicalDrive (c :: ':' :: base ++ path) =
        (c.toNat - '0'.toNat, base ++ path) := if_pos digit
    unfold chkMounted at mounted ⊢
    rw [drives] at mounted ⊢
    dsimp only at mounted ⊢
    split at mounted
    case isTrue => cases mounted
    case isFalse valid =>
      split at mounted
      case isTrue here =>
        rw [if_neg valid, if_pos here]
        exact congrArg Except.ok (skipPrefix_drive digit (base ++ path')).symm
      case isFalse => cases mounted
  case neg =>
    have none : ∀ c rest, base = c :: ':' :: rest → c.isDigit = false := fun c rest same =>
      Bool.eq_false_iff.2 fun digit => prefixed ⟨c, rest, same, digit⟩
    have clean := colon_not_mem resolved mounted
    unfold chkMounted at mounted ⊢
    rw [logicalDrive_none plain none] at mounted
    rw [logicalDrive_none plain' none]
    dsimp only at mounted ⊢
    split at mounted
    case isTrue => cases mounted
    case isFalse valid =>
      split at mounted
      case isTrue here =>
        cases mounted
        rw [if_neg valid, if_pos here]
        refine congrArg Except.ok (if_neg fun colon => ?_).symm
        rcases List.mem_append.1 colon with before | behind
        · exact clean (List.mem_append_left _ before)
        · exact plain' behind
      case isFalse => cases mounted

variable (names) in
/-- The old path leads to the drive that `FAT_Rename` takes the new one to be on. -/
def Together (oldpath newpath : Path) : Prop :=
  ∀ drive l, resolve names drive oldpath = some l →
    chkMounted drive newpath = .ok (skipPrefix newpath)

/-- An escaped path has no colon. -/
theorem colon_not_mem_fatEscape (path : Path) : ':' ∉ fatEscape path := by
  rw [fatEscape_eq]
  exact (literal_iff _).1 (Escapes.literal_encode path) ':' (by decide)

variable (names) in
/-- Two emulated paths are on one drive. -/
theorem together_emulated (config : FsConfig) (old new : Path) :
    Together names (generateAbsolutePath config old) (generateAbsolutePath config new) :=
  fun _ _ resolved => chkMounted_skipPrefix resolved (colon_not_mem_fatEscape old)
    (colon_not_mem_fatEscape new)

end Prefixes

end D2xCios.Fat.Wrapper
