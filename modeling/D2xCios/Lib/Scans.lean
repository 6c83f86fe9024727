import Mathlib.Tactic.TypeStar

/-!
# Looking through a list

A list is looked through from its start, with a state, until the state and an element say that what
was looked for is there. Where two states make no difference to this, neither does the way to them.
-/

namespace D2xCios.Lib

universe u v w

variable {α : Type u} {σ : Type v} {β : Type w}

/-- The elements of a list are looked at, the first one as number `k`: what has been found and
where, or the state at the end. -/
def scan (look : Nat → α → σ → σ ⊕ β) : Nat → List α → σ → σ ⊕ Nat × β
  | _, [], st => .inl st
  | k, a :: as, st =>
    match look k a st with
    | .inl next => scan look (k + 1) as next
    | .inr found => .inr (k, found)

variable {look : Nat → α → σ → σ ⊕ β} {k : Nat} {a : α} {as bs : List α} {st next : σ} {found : β}

@[simp] theorem scan_nil : scan look k [] st = .inl st := rfl

/-- A scan goes on behind an element. -/
theorem scan_next (seen : look k a st = .inl next) :
    scan look k (a :: as) st = scan look (k + 1) as next := by
  rw [scan, seen]

/-- A scan stops at an element. -/
theorem scan_stop (seen : look k a st = .inr found) :
    scan look k (a :: as) st = .inr (k, found) := by
  rw [scan, seen]

/-- Behind the first part the second one is looked through, if nothing has been found by then. -/
theorem scan_append : scan look k (as ++ bs) st =
    (scan look k as st).elim (fun next => scan look (k + as.length) bs next) .inr := by
  induction as generalizing k st with
  | nil => rfl
  | cons a as ih =>
    rw [List.cons_append]
    cases seen : look k a st with
    | inl next =>
      rw [scan_next seen, scan_next seen, ih, List.length_cons, Nat.add_right_comm, Nat.add_assoc]
    | inr found => rw [scan_stop seen, scan_stop seen, Sum.elim_inr]

/-- A scan goes on behind a first part. -/
theorem scan_append_next (first : scan look k as st = .inl next) :
    scan look k (as ++ bs) st = scan look (k + as.length) bs next := by
  rw [scan_append, first, Sum.elim_inl]

/-- A scan stops in the first part. -/
theorem scan_append_found {place : Nat × β} (first : scan look k as st = .inr place) :
    scan look k (as ++ bs) st = .inr place := by
  rw [scan_append, first, Sum.elim_inr]

/-- Where something has been found, nothing has been found before it. -/
theorem scan_found {m : Nat} (seen : scan look k as st = .inr (m, found)) :
    ∃ before a after next, as = before ++ a :: after ∧ m = k + before.length ∧
      scan look k before st = .inl next ∧ look m a next = .inr found := by
  induction as generalizing k st with
  | nil => cases seen
  | cons a as ih =>
    cases first : look k a st with
    | inl next =>
      rw [scan_next first] at seen
      obtain ⟨before, b, after, last, rfl, rfl, passed, there⟩ := ih seen
      refine ⟨a :: before, b, after, last, rfl, ?_, ?_, ?_⟩
      · rw [List.length_cons]
        omega
      · rw [scan_next first, passed]
      · exact there
    | inr found' =>
      rw [scan_stop first] at seen
      obtain ⟨rfl, rfl⟩ := Prod.mk.inj (Sum.inr.inj seen)
      exact ⟨[], a, as, st, rfl, rfl, rfl, first⟩

/-- What is found is found where it is. -/
theorem scan_found_range {m : Nat} (seen : scan look k as st = .inr (m, found)) :
    k ≤ m ∧ m < k + as.length := by
  obtain ⟨before, a, after, next, rfl, rfl, -, -⟩ := scan_found seen
  rw [List.length_append, List.length_cons]
  omega

/-- Where nothing has been found, nothing has been found in front of an element or at it. -/
theorem scan_passed (seen : scan look k as st = .inl next) {j : Nat} (j_lt : j < as.length) :
    ∃ here there, scan look k (as.take j) st = .inl here ∧ look (k + j) as[j] here =
      .inl there := by
  have whole : as = as.take j ++ as[j] :: as.drop (j + 1) := by
    rw [← List.drop_eq_getElem_cons j_lt, List.take_append_drop]
  rw [whole] at seen
  cases first : scan look k (as.take j) st with
  | inr place =>
    rw [scan_append_found first] at seen
    cases seen
  | inl here =>
    rw [scan_append_next first, List.length_take, Nat.min_eq_left (Nat.le_of_lt j_lt)] at seen
    cases there : look (k + j) as[j] here with
    | inl next' => exact ⟨here, next', rfl, there⟩
    | inr found =>
      rw [scan_stop there] at seen
      cases seen

/-- Two ways of looking for the same, in states that make no difference to it. -/
theorem scan_related {τ : Type v} {look' : Nat → α → τ → τ ⊕ β} {related : σ → τ → Prop} {st' : τ}
    (respects : ∀ k, ∀ a ∈ as, ∀ st st', related st st' →
      (∃ next next', look k a st = .inl next ∧ look' k a st' = .inl next' ∧ related next next') ∨
      ∃ found, look k a st = .inr found ∧ look' k a st' = .inr found)
    (start : related st st') :
    (∃ next next', scan look k as st = .inl next ∧ scan look' k as st' = .inl next' ∧
      related next next') ∨
    ∃ place, scan look k as st = .inr place ∧ scan look' k as st' = .inr place := by
  induction as generalizing k st st' with
  | nil => exact .inl ⟨st, st', rfl, rfl, start⟩
  | cons a as ih =>
    rcases respects k a List.mem_cons_self st st' start with
      ⟨next, next', seen, seen', same⟩ | ⟨found, seen, seen'⟩
    · rw [scan_next seen, scan_next seen']
      exact ih (fun k b member => respects k b (List.mem_cons_of_mem _ member)) same
    · rw [scan_stop seen, scan_stop seen']
      exact .inr ⟨_, rfl, rfl⟩

/-- What holds of the state before an element holds of it at the end. -/
theorem scan_invariant (holds : Nat → σ → Prop)
    (keeps : ∀ j (j_lt : j < as.length), ∀ st next, holds (k + j) st →
      look (k + j) as[j] st = .inl next → holds (k + j + 1) next)
    (start : holds k st) (seen : scan look k as st = .inl next) : holds (k + as.length) next := by
  induction as generalizing k st with
  | nil => exact Sum.inl.inj seen ▸ start
  | cons a as ih =>
    cases first : look k a st with
    | inl next' =>
      rw [scan_next first] at seen
      have rest := ih (k := k + 1) (fun j j_lt st next before there => by
        have moved := keeps (j + 1) (Nat.succ_lt_succ j_lt) st next
        rw [List.getElem_cons_succ, ← Nat.add_assoc, Nat.add_right_comm] at moved
        exact moved before there) (keeps 0 (Nat.succ_pos _) st next' start first) seen
      rwa [List.length_cons, Nat.add_comm as.length, ← Nat.add_assoc]
    | inr found =>
      rw [scan_stop first] at seen
      cases seen

end D2xCios.Lib
