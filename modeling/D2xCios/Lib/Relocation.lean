import D2xCios.Lib.DirTree

/-!
# Moving an object

An object is moved by adding it to another directory and then taking away the entry that it has been
found by. What that leaves alone is said by `look`: which object is at a location, and what the
object itself is like apart from what is below it. An object that is moved below itself is lost.
-/

namespace D2xCios

namespace DirTree

variable {ν α δ : Type}

/-- An object apart from what is below it. -/
def label : DirTree ν α δ → α ⊕ δ
  | file value => .inl value
  | dir attr _ => .inr attr

variable [DecidableEq ν]

/-- Adds an entry to the directory at a location. -/
def insert (t : DirTree ν α δ) (parent : List ν) (name : ν) (x : DirTree ν α δ) :
    DirTree ν α δ :=
  t.alter (fun es => es ++ [(name, x)]) parent

/-- The object at `source` is at `target` now, and nothing else has changed. -/
structure Moved (t t' : DirTree ν α δ) (source target : List ν) : Prop where
  arrived : ∃ x, t.look source = some x ∧ t'.look target = some x
  gone : t'.look source = none
  others : ∀ l, ¬ source <+: l → ¬ target <+: l →
    (t'.look l).map label = (t.look l).map label

/-! ## Above and below -/

/-- Nothing is found below a location at which nothing is. -/
theorem look_below_none {t : DirTree ν α δ} {l l' : List ν} (below : l <+: l')
    (missing : t.look l = none) : t.look l' = none := by
  obtain ⟨r, rfl⟩ := below
  rw [look_append, missing]
  rfl

/-- What an object is below is a directory. -/
theorem look_parent {t x : DirTree ν α δ} {l : List ν} {name : ν}
    (found : t.look (l ++ [name]) = some x) :
    ∃ attr es, t.look l = some (dir attr es) ∧ es.lookup name = some x := by
  rw [look_append] at found
  obtain ⟨s, here, below⟩ := Option.bind_eq_some_iff.1 found
  rw [look_cons] at below
  obtain ⟨c, entry, same⟩ := Option.bind_eq_some_iff.1 below
  rw [look_nil, Option.some.injEq] at same
  cases s with
  | file value => cases entry
  | dir attr es => exact ⟨attr, es, here, same ▸ entry⟩

/-- Nothing is below a file, and nothing is under a name that no entry has. -/
theorem look_entry_none {t : DirTree ν α δ} {l : List ν} {attr : δ} {es : Entries ν α δ} {name : ν}
    (room : t.look l = some (dir attr es)) (free : es.lookup name = none) :
    t.look (l ++ [name]) = none := by
  have missing : (dir attr es).child name = none := free
  rw [look_append, room, Option.bind_some, look_cons, missing]
  rfl

/-! ## Changing one directory -/

/-- A change of entries keeps the label of the tree. -/
theorem label_alter (change : Entries ν α δ → Entries ν α δ) (l : List ν) (t : DirTree ν α δ) :
    (t.alter change l).label = t.label := by
  cases t <;> cases l <;> rfl

/-- A change below one entry leaves the others. -/
theorem child_alter_cons (change : Entries ν α δ → Entries ν α δ) (name m : ν) (l : List ν)
    (t : DirTree ν α δ) :
    (t.alter change (name :: l)).child m =
      (t.child m).map fun s => if m = name then s.alter change l else s := by
  cases t with
  | file value => rfl
  | dir attr es => exact lookup_map (fun k s => if k = name then s.alter change l else s) es m

/-- Away from the directory that is changed. -/
theorem look_alter_apart (change : Entries ν α δ → Entries ν α δ) {l q : List ν}
    (t : DirTree ν α δ) (below : ¬ l <+: q) (above : ¬ q <+: l) :
    (t.alter change l).look q = t.look q := by
  induction l generalizing q t with
  | nil => exact absurd List.nil_prefix below
  | cons name l ih =>
    cases q with
    | nil => exact absurd List.nil_prefix above
    | cons m q =>
      rw [look_cons, look_cons, child_alter_cons]
      cases t.child m with
      | none => rfl
      | some s =>
        by_cases same : m = name
        · subst same
          rw [Option.map_some, if_pos rfl]
          exact ih s (fun inside => below (List.cons_prefix_cons.2 ⟨rfl, inside⟩))
            fun inside => above (List.cons_prefix_cons.2 ⟨rfl, inside⟩)
        · rw [Option.map_some, if_neg same]

/-- Above the directory that is changed, and at it. -/
theorem look_alter_above (change : Entries ν α δ → Entries ν α δ) (q r : List ν)
    (t : DirTree ν α δ) :
    (t.alter change (q ++ r)).look q = (t.look q).map (alter change r) := by
  induction q generalizing t with
  | nil => simp
  | cons m q ih =>
    rw [List.cons_append, look_cons, look_cons, child_alter_cons]
    cases t.child m with
    | none => rfl
    | some s => simpa using ih s

/-- Above a change, and at the directory that is changed, no object is another one. -/
theorem label_look_above (change : Entries ν α δ → Entries ν α δ) {l q : List ν}
    (t : DirTree ν α δ) (above : q <+: l) :
    ((t.alter change l).look q).map label = (t.look q).map label := by
  obtain ⟨r, rfl⟩ := above
  rw [look_alter_above, Option.map_map]
  exact congrArg (Option.map · (t.look q)) (funext (label_alter change r))

/-- A file has no entries to be changed. -/
theorem put_file {t : DirTree ν α δ} (distinct : t.Distinct) {l : List ν} {value : α}
    (found : t.look l = some (file value)) (es : Entries ν α δ) : t.put l es = t := by
  refine (alter_congr distinct fun attr es' here => ?_).trans (alter_id l t)
  rw [found, Option.some.injEq] at here
  cases here

/-- A change of one entry is seen at the entry and below it only. -/
theorem look_alter_entry {change : Entries ν α δ → Entries ν α δ} {parent q : List ν} {name : ν}
    (t : DirTree ν α δ)
    (others : ∀ (s : DirTree ν α δ) m, m ≠ name → (s.alter change []).child m = s.child m)
    (below : ¬ parent ++ [name] <+: q) (above : ¬ q <+: parent) :
    (t.alter change parent).look q = t.look q := by
  by_cases inside : parent <+: q
  case neg => exact look_alter_apart _ t inside above
  obtain ⟨r, rfl⟩ := inside
  cases r with
  | nil => exact absurd ⟨[], by simp⟩ above
  | cons m r =>
    have other : m ≠ name := by
      rintro rfl
      exact below ⟨r, by simp⟩
    rw [look_append, look_append, look_alter]
    cases t.look parent with
    | none => rfl
    | some s =>
      rw [Option.map_some, Option.bind_some, Option.bind_some, look_cons, look_cons,
        others s m other]

/-- A change of one entry of a folder leaves the labels of all other ways. -/
theorem label_look_entry {change : Entries ν α δ → Entries ν α δ} {parent q : List ν} {name : ν}
    (t : DirTree ν α δ)
    (others : ∀ (s : DirTree ν α δ) m, m ≠ name → (s.alter change []).child m = s.child m)
    (below : ¬ parent ++ [name] <+: q) :
    ((t.alter change parent).look q).map label = (t.look q).map label := by
  by_cases above : q <+: parent
  · exact label_look_above change t above
  · rw [look_alter_entry t others below above]

/-! ## Taking an entry away -/

/-- The name that is taken out is not found, and the others are. -/
theorem lookup_filter (es : Entries ν α δ) (name m : ν) :
    (es.filter fun e => e.1 ≠ name).lookup m = if m = name then none else es.lookup m := by
  induction es with
  | nil => simp
  | cons e es ih =>
    rw [List.filter_cons, List.lookup_cons]
    by_cases kept : e.1 = name
    · rw [if_neg (by simpa using kept), ih]
      by_cases same : m = name
      · rw [if_pos same, if_pos same]
      · rw [if_neg same, if_neg same, beq_false_of_ne (by simpa [kept] using same)]
    · rw [if_pos (by simpa using kept), List.lookup_cons, ih]
      cases here : m == e.1 with
      | false => rfl
      | true =>
        have other : m ≠ name := by
          rw [eq_of_beq here]
          exact kept
        exact (if_neg other).symm

/-- A folder without one of its names. -/
theorem child_alter_filter (name m : ν) (t : DirTree ν α δ) :
    (t.alter (fun es => es.filter fun e => e.1 ≠ name) []).child m =
      if m = name then none else t.child m := by
  cases t with
  | file value => simp [alter, child, entries]
  | dir attr es => exact lookup_filter es name m

/-- At an entry that has been taken away, and below it, nothing is left. -/
theorem look_remove_below {parent q : List ν} {name : ν} (t : DirTree ν α δ)
    (below : parent ++ [name] <+: q) : (t.remove parent name).look q = none := by
  refine look_below_none below ?_
  rw [remove, look_append, look_alter]
  cases t.look parent with
  | none => rfl
  | some s =>
    rw [Option.map_some, Option.bind_some, look_cons, child_alter_filter, if_pos rfl]
    rfl

/-- A removal leaves what is neither above nor below it. -/
theorem look_remove_apart {parent q : List ν} {name : ν} (t : DirTree ν α δ)
    (below : ¬ parent ++ [name] <+: q) (above : ¬ q <+: parent) :
    (t.remove parent name).look q = t.look q :=
  look_alter_entry t (fun s m other => (child_alter_filter name m s).trans (if_neg other)) below
    above

/-- A removal leaves the labels of what is not below it. -/
theorem label_look_remove {parent q : List ν} {name : ν} (t : DirTree ν α δ)
    (below : ¬ parent ++ [name] <+: q) :
    ((t.remove parent name).look q).map label = (t.look q).map label :=
  label_look_entry t (fun s m other => (child_alter_filter name m s).trans (if_neg other)) below

/-- Nothing is found that has not been there before. -/
theorem look_remove_none {parent q : List ν} {name : ν} {t : DirTree ν α δ}
    (missing : t.look q = none) : (t.remove parent name).look q = none := by
  by_cases below : parent ++ [name] <+: q
  · exact look_remove_below t below
  · have same := label_look_remove t below
    rw [missing, Option.map_none] at same
    exact Option.map_eq_none_iff.1 same

/-- There is room where an entry has been. -/
theorem look_remove_parent {t x : DirTree ν α δ} {parent : List ν} {name : ν}
    (found : t.look (parent ++ [name]) = some x) :
    ∃ attr es, (t.remove parent name).look parent = some (dir attr es) ∧ es.lookup name = none := by
  obtain ⟨attr, es, here, -⟩ := look_parent found
  refine ⟨attr, es.filter fun e => e.1 ≠ name, ?_, ?_⟩
  · rw [remove, look_alter, here]
    rfl
  · rw [lookup_filter, if_pos rfl]

/-- What has been below an entry does not matter once it is taken away. -/
theorem remove_put (t : DirTree ν α δ) (parent : List ν) (name : ν) (es : Entries ν α δ) :
    (t.put (parent ++ [name]) es).remove parent name = t.remove parent name := by
  rw [put, alter_append, remove, alter_alter]
  refine congrArg (t.alter · parent) (funext fun es' => ?_)
  induction es' with
  | nil => rfl
  | cons e rest ih =>
    rw [List.map_cons, List.filter_cons, List.filter_cons, ih]
    by_cases here : e.1 = name
    · rw [if_neg (by simpa using here), if_neg (by simpa using here)]
    · have kept : decide (e.1 ≠ name) = true := by simpa using here
      rw [if_neg here, if_pos kept]

/-! ## Adding an entry -/

/-- A folder with a new entry. -/
theorem child_insert (name m : ν) (x : DirTree ν α δ) (attr : δ) (es : Entries ν α δ) :
    ((dir attr es).alter (fun es => es ++ [(name, x)]) []).child m =
      (es.lookup m).or (if m = name then some x else none) := by
  rw [child, alter, entries, List.lookup_append]
  refine congrArg _ ?_
  by_cases same : m = name
  · rw [if_pos same, same, List.lookup_cons_self]
  · rw [if_neg same, List.lookup_cons, beq_false_of_ne same]
    rfl

/-- A new entry leaves the others. -/
theorem child_insert_other {name m : ν} (x s : DirTree ν α δ) (other : m ≠ name) :
    (s.alter (fun es => es ++ [(name, x)]) []).child m = s.child m := by
  cases s with
  | file value => rfl
  | dir attr es =>
    rw [child_insert, if_neg other, Option.or_none]
    rfl

/-- A new entry is found. -/
theorem look_insert {parent : List ν} {name : ν} {t : DirTree ν α δ} {attr : δ}
    {es : Entries ν α δ} (x : DirTree ν α δ) (room : t.look parent = some (dir attr es))
    (free : es.lookup name = none) : (t.insert parent name x).look (parent ++ [name]) = some x := by
  rw [insert, look_append, look_alter, room, Option.map_some, Option.bind_some, look_cons,
    child_insert, free, if_pos rfl]
  exact look_nil x

/-- An insertion leaves the labels of what is not below it. -/
theorem label_look_insert {parent q : List ν} {name : ν} (t x : DirTree ν α δ)
    (below : ¬ parent ++ [name] <+: q) :
    ((t.insert parent name x).look q).map label = (t.look q).map label :=
  label_look_entry t (fun s _ => child_insert_other x s) below

/-- A name that no entry has is added to the names. -/
theorem nodup_snoc {es : Entries ν α δ} {name : ν} (nodup : (es.map Prod.fst).Nodup)
    (free : es.lookup name = none) : (es.map Prod.fst ++ [name]).Nodup := by
  rw [List.nodup_append]
  refine ⟨nodup, List.nodup_singleton name, fun m inside n new => ?_⟩
  obtain ⟨e, entry, rfl⟩ := List.mem_map.1 inside
  rw [List.mem_singleton.1 new]
  rintro rfl
  exact absurd (List.lookup_eq_none_iff.1 free e entry) (by simp)

/-! ## Moving an object -/

/-- An object that is not moved below itself arrives, to where nothing has been. -/
theorem moved_insert_remove {t x : DirTree ν α δ} {parent parent' : List ν} {name name' : ν}
    {attr : δ} {es : Entries ν α δ} (found : t.look (parent ++ [name]) = some x)
    (room : t.look parent' = some (dir attr es)) (free : es.lookup name' = none)
    (outside : ¬ parent ++ [name] <+: parent' ++ [name']) :
    Moved t ((t.insert parent' name' x).remove parent name) (parent ++ [name])
      (parent' ++ [name']) where
  arrived := by
    have above : ¬ parent' ++ [name'] <+: parent := fun above => by
      have missing := look_below_none (above.trans (List.prefix_append parent [name]))
        (look_entry_none room free)
      exact absurd (found.symm.trans missing) (Option.some_ne_none x)
    exact ⟨x, found, (look_remove_apart _ outside above).trans (look_insert x room free)⟩
  gone := look_remove_below _ List.prefix_rfl
  others l notSource notTarget := by
    rw [label_look_remove _ notSource, label_look_insert _ _ notTarget]

/-- Where something has been that was taken away before, an object arrives as well. -/
theorem Moved.of_removed {t t' : DirTree ν α δ} {source parent : List ν} {name : ν}
    (moved : Moved (t.remove parent name) t' source (parent ++ [name]))
    (notBelow : ¬ source <+: parent ++ [name]) (notAbove : ¬ parent ++ [name] <+: source) :
    Moved t t' source (parent ++ [name]) where
  arrived := by
    obtain ⟨x, found, there⟩ := moved.arrived
    rw [look_remove_apart t notAbove fun above =>
      notBelow (above.trans (List.prefix_append parent [name]))] at found
    exact ⟨x, found, there⟩
  gone := moved.gone
  others l notSource notTarget := by
    rw [moved.others l notSource notTarget, label_look_remove t notTarget]

/-- An object that is moved below itself does not. -/
theorem not_moved_below {t t' : DirTree ν α δ} {parent : List ν} {name : ν} {target : List ν}
    (inside : parent ++ [name] <+: target) :
    ¬ Moved t (t'.remove parent name) (parent ++ [name]) target := by
  rintro ⟨⟨x, -, found⟩, -, -⟩
  exact absurd (found.symm.trans (look_remove_below t' inside)) (Option.some_ne_none x)

end DirTree

end D2xCios
