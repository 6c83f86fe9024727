import Mathlib.Data.List.Infix
import Mathlib.Data.List.Nodup

/-!
# Trees of directories

A finite tree of files and directories, in which a location is the list of the
names on the way from the top. The entries of one directory are changed by
`alter`. A tree is distinct if no directory of it has two entries with one name;
what a change does to such a tree depends on the entries it is made to only.
-/

namespace D2xCios

/-- Files with a value and directories with an attribute and named entries. -/
inductive DirTree (ν α δ : Type) where
  | file (value : α)
  | dir (attr : δ) (entries : List (ν × DirTree ν α δ))

namespace DirTree

variable {ν α δ : Type}

/-- The named entries of a tree. -/
abbrev Entries (ν α δ : Type) := List (ν × DirTree ν α δ)

/-- Induction over the entries of directories. -/
@[elab_as_elim, induction_eliminator]
theorem induct {motive : DirTree ν α δ → Prop} (file : ∀ value, motive (file value))
    (dir : ∀ attr es, (∀ e ∈ es, motive e.2) → motive (dir attr es)) (t : DirTree ν α δ) :
    motive t :=
  @DirTree.rec ν α δ motive (fun es => ∀ e ∈ es, motive e.2) (fun e => motive e.2) file dir
    (fun _ absent => absurd absent List.not_mem_nil)
    (fun _ _ first rest _ inside =>
      (List.mem_cons.1 inside).elim (fun same => same ▸ first) (rest _))
    (fun _ _ below => below) t

def isDir : DirTree ν α δ → Bool
  | file _ => false
  | dir _ _ => true

/-- The entries of a directory. -/
def entries : DirTree ν α δ → Entries ν α δ
  | file _ => []
  | dir _ es => es

/-- A folder is made of its attributes and its entries. -/
theorem eq_dir {t : DirTree ν α δ} (isDir : t.isDir = true) : ∃ attr, t = dir attr t.entries := by
  cases t with
  | file value => exact absurd isDir Bool.false_ne_true
  | dir attr es => exact ⟨attr, rfl⟩

/-- A file has no entries. -/
theorem entries_file {t : DirTree ν α δ} (file : ¬ t.isDir = true) : t.entries = [] := by
  cases t with
  | file value => rfl
  | dir attr es => exact absurd rfl file

/-- No directory has two entries with one name. -/
inductive Distinct : DirTree ν α δ → Prop
  | file (value : α) : Distinct (file value)
  | dir (attr : δ) {es : Entries ν α δ} (names : (es.map Prod.fst).Nodup)
      (below : ∀ e ∈ es, Distinct e.2) : Distinct (dir attr es)

/-- The names in a folder are distinct. -/
theorem Distinct.names {t : DirTree ν α δ} (distinct : t.Distinct) :
    (t.entries.map Prod.fst).Nodup := by
  cases distinct with
  | file value => exact List.nodup_nil
  | dir attr names below => exact names

/-- The entries of a folder have distinct names themselves. -/
theorem Distinct.entry {t : DirTree ν α δ} (distinct : t.Distinct) :
    ∀ e ∈ t.entries, e.2.Distinct := by
  cases distinct with
  | file value => exact fun _ absent => absurd absent List.not_mem_nil
  | dir attr names below => exact below

/-! ## What is listed -/

mutual

/-- The objects that are reached from the top through the entries whose names are listed, each with
the names on the way. -/
def reach (listed : ν → Bool) : DirTree ν α δ → List (List ν × DirTree ν α δ)
  | file _ => []
  | dir _ es => reachIn listed es

/-- What is reached through the entries of a directory. -/
def reachIn (listed : ν → Bool) : Entries ν α δ → List (List ν × DirTree ν α δ)
  | [] => []
  | (name, t) :: rest =>
    (if listed name then
      ([name], t) :: (reach listed t).map fun r => (name :: r.1, r.2)
    else []) ++ reachIn listed rest

end

section Reach

variable {listed : ν → Bool}

/-- What is reached in a folder is reached among its entries. -/
theorem reach_eq (t : DirTree ν α δ) : t.reach listed = reachIn listed t.entries := by
  cases t with
  | file value => rw [reach, entries, reachIn]
  | dir attr es => rw [reach, entries]

/-- An entry is reached by its name, or by way of the folder it is in. -/
theorem mem_reachIn {es : Entries ν α δ} {r : List ν × DirTree ν α δ} :
    r ∈ reachIn listed es ↔ ∃ e ∈ es, listed e.1 = true ∧
      (r = ([e.1], e.2) ∨ ∃ r' ∈ e.2.reach listed, r = (e.1 :: r'.1, r'.2)) := by
  induction es with
  | nil => simp [reachIn]
  | cons e es ih =>
    rw [reachIn, List.mem_append, ih, List.exists_mem_cons_iff]
    refine or_congr ?_ Iff.rfl
    cases listed e.1 <;> simp [eq_comm]

/-- Two filters on the names of a list, if they are two filters below it. -/
theorem reachIn_and_of {p q : ν → Bool} {es : Entries ν α δ}
    (below : ∀ e ∈ es, e.2.reach (fun name => p name && q name) =
      (e.2.reach p).filter fun r => r.1.all q) :
    reachIn (fun name => p name && q name) es = (reachIn p es).filter fun r => r.1.all q := by
  induction es with
  | nil => rfl
  | cons e es ih =>
    rw [reachIn, reachIn, List.filter_append,
      ih fun e' later => below e' (List.mem_cons_of_mem e later)]
    congr 1
    cases p e.1 with
    | false => rfl
    | true =>
      rw [below e List.mem_cons_self]
      cases here : q e.1 <;> simp [here, List.filter_map, Function.comp_def]

/-- Two filters on names are one filter on ways. -/
theorem reach_and (p q : ν → Bool) (t : DirTree ν α δ) :
    t.reach (fun name => p name && q name) = (t.reach p).filter fun r => r.1.all q := by
  induction t with
  | file value => rfl
  | dir attr es ih => exact reachIn_and_of ih

/-- What is reached through entries that meet another condition as well. -/
theorem reachIn_and (p q : ν → Bool) (es : Entries ν α δ) :
    reachIn (fun name => p name && q name) es = (reachIn p es).filter fun r => r.1.all q :=
  reachIn_and_of fun e _ => reach_and p q e.2

end Reach

section Locations

variable [DecidableEq ν]

/-- The object with a name in a directory. -/
def child (t : DirTree ν α δ) (name : ν) : Option (DirTree ν α δ) := t.entries.lookup name

/-- The object at a location. -/
def look : DirTree ν α δ → List ν → Option (DirTree ν α δ)
  | t, [] => some t
  | t, name :: rest => (t.child name).bind (look · rest)

/-- Changes the entries of the directory at a location. -/
def alter (change : Entries ν α δ → Entries ν α δ) : List ν → DirTree ν α δ → DirTree ν α δ
  | _, file value => file value
  | [], dir attr es => dir attr (change es)
  | name :: rest, dir attr es =>
    dir attr (es.map fun e => (e.1, if e.1 = name then alter change rest e.2 else e.2))

/-- The tree with other entries in the directory at a location. -/
def put (t : DirTree ν α δ) (l : List ν) (es : Entries ν α δ) : DirTree ν α δ :=
  t.alter (fun _ => es) l

/-- Takes the entry with a name out of the directory at a location. -/
def remove (t : DirTree ν α δ) (parent : List ν) (name : ν) : DirTree ν α δ :=
  t.alter (fun es => es.filter fun e => e.1 ≠ name) parent

/-! ## Looking things up -/

@[simp] theorem look_nil (t : DirTree ν α δ) : t.look [] = some t := by
  cases t <;> rfl

/-- The first name of a way is looked up first. -/
theorem look_cons (t : DirTree ν α δ) (name : ν) (rest : List ν) :
    t.look (name :: rest) = (t.child name).bind (look · rest) := by
  cases t <;> rfl

theorem look_append (t : DirTree ν α δ) (l r : List ν) :
    t.look (l ++ r) = (t.look l).bind (look · r) := by
  induction l generalizing t with
  | nil => simp
  | cons name l ih =>
    rw [List.cons_append, look_cons, look_cons]
    cases t.child name with
    | none => rfl
    | some s => exact ih s

/-- What is found is there. -/
theorem mem_of_lookup {es : Entries ν α δ} {name : ν} {t : DirTree ν α δ}
    (found : es.lookup name = some t) : (name, t) ∈ es := by
  obtain ⟨before, behind, rfl, -⟩ := List.lookup_eq_some_iff.1 found
  exact List.mem_append_right before List.mem_cons_self

/-- What is there is found, if the names are distinct. -/
theorem lookup_of_mem {es : Entries ν α δ} (names : (es.map Prod.fst).Nodup)
    {e : ν × DirTree ν α δ} (inside : e ∈ es) : es.lookup e.1 = some e.2 := by
  induction es with
  | nil => exact absurd inside List.not_mem_nil
  | cons first rest ih =>
    rw [List.map_cons, List.nodup_cons] at names
    rw [List.lookup_cons]
    rcases List.mem_cons.1 inside with rfl | later
    · rw [beq_self_eq_true]
    · have other : e.1 ≠ first.1 := fun same =>
        names.1 (same ▸ List.mem_map_of_mem later)
      rw [beq_false_of_ne other]
      exact ih names.2 later

/-- The folders in a tree with distinct names have distinct names. -/
theorem Distinct.child {t s : DirTree ν α δ} (distinct : t.Distinct) {name : ν}
    (found : t.child name = some s) : s.Distinct :=
  distinct.entry _ (mem_of_lookup found)

/-- So have the trees on its ways. -/
theorem Distinct.look {t s : DirTree ν α δ} (distinct : t.Distinct) {l : List ν}
    (found : t.look l = some s) : s.Distinct := by
  induction l generalizing t with
  | nil =>
    rw [look_nil, Option.some.injEq] at found
    exact found ▸ distinct
  | cons name l ih =>
    rw [look_cons] at found
    obtain ⟨c, here, below⟩ := Option.bind_eq_some_iff.1 found
    exact ih (distinct.child here) below

/-- An entry of a directory is found under its name. -/
theorem Distinct.look_entry {t : DirTree ν α δ} (distinct : t.Distinct) {l : List ν} {attr : δ}
    {es : Entries ν α δ} (found : t.look l = some (.dir attr es)) {e : ν × DirTree ν α δ}
    (inside : e ∈ es) : t.look (l ++ [e.1]) = some e.2 := by
  have here : (DirTree.dir attr es).child e.1 = some e.2 :=
    lookup_of_mem (distinct.look found).names inside
  rw [look_append, found, Option.bind_some, look_cons, here, Option.bind_some, look_nil]

/-! ## Changing one directory -/

/-- A change of entries leaves a folder a folder. -/
theorem isDir_alter (change : Entries ν α δ → Entries ν α δ) (l : List ν) (t : DirTree ν α δ) :
    (t.alter change l).isDir = t.isDir := by
  cases t <;> cases l <;> rfl

/-- A change that keeps names distinct in a folder keeps them so in the tree. -/
theorem distinct_alter {change : Entries ν α δ → Entries ν α δ} (l : List ν) {t : DirTree ν α δ}
    (distinct : t.Distinct) (kept : ∀ es : Entries ν α δ, (es.map Prod.fst).Nodup →
      (∀ e ∈ es, e.2.Distinct) →
        ((change es).map Prod.fst).Nodup ∧ ∀ e ∈ change es, e.2.Distinct) :
    (t.alter change l).Distinct := by
  induction l generalizing t with
  | nil =>
    cases distinct with
    | file value => exact .file value
    | dir attr names below => exact .dir attr (kept _ names below).1 (kept _ names below).2
  | cons name l ih =>
    cases distinct with
    | file value => exact .file value
    | dir attr names below =>
      refine .dir attr ?_ fun e inside => ?_
      · rw [List.map_map]
        exact names
      · obtain ⟨e, before, rfl⟩ := List.mem_map.1 inside
        dsimp only
        split
        · exact ih (below e before)
        · exact below e before

/-- A removal keeps names distinct. -/
theorem distinct_remove {t : DirTree ν α δ} (distinct : t.Distinct) (parent : List ν) (name : ν) :
    (t.remove parent name).Distinct :=
  distinct_alter parent distinct fun _ names below =>
    ⟨names.sublist (List.filter_sublist.map _), fun e kept => below e (List.mem_of_mem_filter kept)⟩

/-- A change at the end of the way is a change of the entry at its start. -/
theorem alter_congr {f g : Entries ν α δ → Entries ν α δ} {l : List ν} {t : DirTree ν α δ}
    (distinct : t.Distinct) (same : ∀ attr es, t.look l = some (dir attr es) → f es = g es) :
    t.alter f l = t.alter g l := by
  induction l generalizing t with
  | nil =>
    cases t with
    | file value => rfl
    | dir attr es => exact congrArg (dir attr) (same attr es (look_nil _))
  | cons name l ih =>
    cases t with
    | file value => rfl
    | dir attr es =>
      refine congrArg (dir attr) (List.map_congr_left fun e inside => ?_)
      refine congrArg (Prod.mk e.1) ?_
      split
      case isTrue here =>
        refine ih (distinct.entry e inside) fun attr' es' found => same attr' es' ?_
        have first : (dir attr es).child name = some e.2 :=
          here ▸ lookup_of_mem distinct.names inside
        rw [look_cons, first]
        exact found
      case isFalse => rfl

/-- Two changes in one folder. -/
theorem alter_alter (f g : Entries ν α δ → Entries ν α δ) (l : List ν) (t : DirTree ν α δ) :
    (t.alter f l).alter g l = t.alter (fun es => g (f es)) l := by
  induction l generalizing t with
  | nil => cases t <;> rfl
  | cons name l ih =>
    cases t with
    | file value => rfl
    | dir attr es =>
      simp only [alter, List.map_map]
      refine congrArg (dir attr) (List.map_congr_left fun e _ => ?_)
      by_cases here : e.1 = name
      · simp [here, ih]
      · simp [here]

theorem alter_append (f : Entries ν α δ → Entries ν α δ) (l r : List ν) (name : ν)
    (t : DirTree ν α δ) :
    t.alter f (l ++ name :: r) =
      t.alter (fun es => es.map fun e => (e.1, if e.1 = name then e.2.alter f r else e.2)) l := by
  induction l generalizing t with
  | nil => cases t <;> rfl
  | cons first l ih => cases t with
    | file value => rfl
    | dir attr es => simp only [List.cons_append, alter, ih]

/-- A lookup among changed entries. -/
theorem lookup_map (f : ν → DirTree ν α δ → DirTree ν α δ) (es : Entries ν α δ) (name : ν) :
    (es.map fun e => (e.1, f e.1 e.2)).lookup name = (es.lookup name).map (f name) := by
  induction es with
  | nil => rfl
  | cons e es ih =>
    rw [List.map_cons, List.lookup_cons, List.lookup_cons, ih]
    cases same : name == e.1 with
    | false => rfl
    | true =>
      rw [eq_of_beq same]
      rfl

/-- At the directory that is changed. -/
theorem look_alter (change : Entries ν α δ → Entries ν α δ) (l : List ν) (t : DirTree ν α δ) :
    (t.alter change l).look l = (t.look l).map (alter change []) := by
  induction l generalizing t with
  | nil => simp
  | cons name l ih =>
    rw [look_cons, look_cons]
    cases t with
    | file value => rfl
    | dir attr es =>
      have entry : ((dir attr es).alter change (name :: l)).child name =
          ((dir attr es).child name).map (alter change l) := by
        refine (lookup_map (fun k s => if k = name then s.alter change l else s) es name).trans ?_
        simp only [if_true]
        rfl
      rw [entry]
      cases (dir attr es).child name with
      | none => rfl
      | some s => exact ih s

/-- The entries that were put are found. -/
theorem look_put {t : DirTree ν α δ} {l : List ν} {attr : δ} {es : Entries ν α δ}
    (found : t.look l = some (dir attr es)) (es' : Entries ν α δ) :
    (t.put l es').look l = some (dir attr es') := by
  rw [put, look_alter, found]
  rfl

/-- Only the last entries that were put are left. -/
theorem put_put (t : DirTree ν α δ) (l : List ν) (first second : Entries ν α δ) :
    (t.put l first).put l second = t.put l second := alter_alter _ _ l t

/-- A change of the entries is seen where it is made. -/
theorem alter_eq_put {change : Entries ν α δ → Entries ν α δ} {t : DirTree ν α δ}
    (distinct : t.Distinct) {l : List ν} {attr : δ} {es : Entries ν α δ}
    (found : t.look l = some (dir attr es)) : t.alter change l = t.put l (change es) := by
  refine alter_congr distinct fun attr' es' found' => ?_
  rw [found, Option.some.injEq, dir.injEq] at found'
  rw [found'.2]

/-- Nothing changes without a change. -/
theorem alter_id (l : List ν) (t : DirTree ν α δ) : t.alter id l = t := by
  induction l generalizing t with
  | nil => cases t <;> rfl
  | cons name l ih =>
    cases t with
    | file value => rfl
    | dir attr es => simp [alter, ih]

/-- Nothing changes where the entries stay. -/
theorem put_self {t : DirTree ν α δ} (distinct : t.Distinct) {l : List ν} {attr : δ}
    {es : Entries ν α δ} (found : t.look l = some (dir attr es)) : t.put l es = t :=
  (alter_eq_put distinct found).symm.trans (alter_id l t)

/-! ## The first entry of a directory -/

/-- Other entries below the first entry. -/
theorem put_first {t : DirTree ν α δ} (distinct : t.Distinct) {l : List ν} {attr : δ}
    {e : ν × DirTree ν α δ} {rest : Entries ν α δ}
    (found : t.look l = some (dir attr (e :: rest))) (es : Entries ν α δ) :
    t.put (l ++ [e.1]) es = t.put l ((e.1, e.2.put [] es) :: rest) := by
  have names := (distinct.look found).names
  rw [entries, List.map_cons, List.nodup_cons] at names
  have others : (rest.map fun e' =>
      (e'.1, if e'.1 = e.1 then e'.2.alter (fun _ => es) [] else e'.2)) = rest := by
    refine (List.map_congr_left fun e' later => ?_).trans (List.map_id rest)
    have other : e'.1 ≠ e.1 := fun same => names.1 (same ▸ List.mem_map_of_mem later)
    rw [if_neg other]
    rfl
  rw [put, alter_append, alter_eq_put distinct found, List.map_cons, others, if_pos rfl]
  rfl

/-- Taking the first entry away. -/
theorem remove_first {t : DirTree ν α δ} (distinct : t.Distinct) {l : List ν} {attr : δ}
    {e : ν × DirTree ν α δ} {rest : Entries ν α δ}
    (found : t.look l = some (dir attr (e :: rest))) : t.remove l e.1 = t.put l rest := by
  have names := (distinct.look found).names
  rw [entries, List.map_cons, List.nodup_cons] at names
  rw [remove, alter_eq_put distinct found, List.filter_cons, if_neg (by simp)]
  refine congrArg (t.put l) (List.filter_eq_self.2 fun e' later => decide_eq_true fun same => ?_)
  exact names.1 (same ▸ List.mem_map_of_mem later)

end Locations

end DirTree

end D2xCios
