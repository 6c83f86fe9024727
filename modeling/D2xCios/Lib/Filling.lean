import Mathlib.Data.List.Basic

/-!
# Arrays that are filled from a cursor

A loop over the entries of an array, where each entry is made from what lies at a cursor and moves
the cursor on, fails, or leaves the loop. What a run does is decided by the first entry that does
not move on. The array is then searched, or gone through, by loops that may fail as well.
-/

namespace D2xCios.Lib

variable {ε α β : Type}

/-- Fills `left` entries from the index `i` on. An entry is given its index, what the array holds
there, and the cursor; it gives what it stores and the next cursor, or none to leave the loop. An
entry behind the end of the array is `outside`. -/
def fillFrom (outside : ε) (entry : Nat → α → Nat → Except ε (α × Option Nat)) :
    Nat → Nat → List α → Nat → Except ε (List α × Option Nat)
  | 0, _, xs, cursor => .ok (xs, some cursor)
  | left + 1, i, xs, cursor =>
    match xs[i]? with
    | none => .error outside
    | some x =>
      match entry i x cursor with
      | .error e => .error e
      | .ok (y, none) => .ok (xs.set i y, none)
      | .ok (y, some next) => fillFrom outside entry left (i + 1) (xs.set i y) next

/-- The array with its first `k` entries made anew. -/
def filled (made : Nat → α) (k : Nat) (xs : List α) : List α := (List.range k).map made ++ xs.drop k

theorem filled_length (made : Nat → α) (xs : List α) :
    filled made xs.length xs = (List.range xs.length).map made := by
  rw [filled, List.drop_length, List.append_nil]

/-- What is behind the filled entries is as it was. -/
theorem filled_getElem? (made : Nat → α) (k : Nat) (xs : List α) :
    (filled made k xs)[k]? = xs[k]? := by
  have length : ((List.range k).map made).length = k := by simp
  rw [filled, List.getElem?_append_right (Nat.le_of_eq length), length, Nat.sub_self,
    List.getElem?_drop, Nat.add_zero]

/-- One more entry, whatever is stored. -/
theorem filled_set (made : Nat → α) {k : Nat} {xs : List α} (inside : k < xs.length) (y : α) :
    (filled made k xs).set k y = (List.range k).map made ++ y :: xs.drop (k + 1) := by
  have length : ((List.range k).map made).length = k := by simp
  rw [filled, List.set_append_right _ _ (Nat.le_of_eq length), length, Nat.sub_self,
    List.drop_eq_getElem_cons inside, List.set_cons_zero]

theorem filled_succ (made : Nat → α) {k : Nat} {xs : List α} (inside : k < xs.length) :
    (filled made k xs).set k (made k) = filled made (k + 1) xs := by
  rw [filled_set made inside, filled, List.range_succ, List.map_append, List.append_assoc]
  rfl

/-- No entry is added or lost. -/
theorem fillFrom_length {outside : ε} {entry : Nat → α → Nat → Except ε (α × Option Nat)}
    {left i cursor : Nat} {xs ys : List α} {next : Option Nat}
    (run : fillFrom outside entry left i xs cursor = .ok (ys, next)) : ys.length = xs.length := by
  induction left generalizing i xs cursor with
  | zero =>
    cases run
    rfl
  | succ left ih =>
    rw [fillFrom] at run
    split at run
    · cases run
    · split at run
      · cases run
      · cases run
        exact List.length_set
      · exact (ih run).trans List.length_set

section Runs

variable {outside : ε} {entry : Nat → α → Nat → Except ε (α × Option Nat)} {made : Nat → α}
  {cursor : Nat → Nat} {k : Nat} {xs : List α}

/-- The first `k` entries move on, along the given cursors. -/
def MovesOn (entry : Nat → α → Nat → Except ε (α × Option Nat)) (made : Nat → α)
    (cursor : Nat → Nat) (xs : List α) (k : Nat) : Prop :=
  ∀ i < k, ∀ x, xs[i]? = some x → entry i x (cursor i) = .ok (made i, some (cursor (i + 1)))

theorem MovesOn.mono {l : Nat} (moves : MovesOn entry made cursor xs k) (le : l ≤ k) :
    MovesOn entry made cursor xs l :=
  fun i below => moves i (Nat.lt_of_lt_of_le below le)

/-- The loop behind entries that move on. -/
theorem fillFrom_moved (moves : MovesOn entry made cursor xs k) (inside : k ≤ xs.length) :
    fillFrom outside entry xs.length 0 xs (cursor 0) =
      fillFrom outside entry (xs.length - k) k (filled made k xs) (cursor k) := by
  induction k with
  | zero => rfl
  | succ k ih =>
    have here : xs[k]? = some (xs[k]) := List.getElem?_eq_getElem inside
    have more : xs.length - k = xs.length - (k + 1) + 1 := by omega
    rw [ih (moves.mono (Nat.le_succ k)) (Nat.le_of_lt inside), more, fillFrom,
      filled_getElem?, here]
    dsimp only
    rw [moves k (Nat.lt_succ_self k) _ here]
    dsimp only
    rw [filled_succ made inside]

/-- All entries move on. -/
theorem fillFrom_all (moves : MovesOn entry made cursor xs xs.length) :
    fillFrom outside entry xs.length 0 xs (cursor 0) =
      .ok ((List.range xs.length).map made, some (cursor xs.length)) := by
  rw [fillFrom_moved moves (Nat.le_refl _), Nat.sub_self, fillFrom, filled_length]

/-- The first entry that does not move on leaves the loop. -/
theorem fillFrom_left (moves : MovesOn entry made cursor xs k) (inside : k < xs.length) {y : α}
    (leaves : entry k xs[k] (cursor k) = .ok (y, none)) :
    fillFrom outside entry xs.length 0 xs (cursor 0) =
      .ok ((List.range k).map made ++ y :: xs.drop (k + 1), none) := by
  have more : xs.length - k = xs.length - (k + 1) + 1 := by omega
  rw [fillFrom_moved moves (Nat.le_of_lt inside), more, fillFrom, filled_getElem?,
    List.getElem?_eq_getElem inside]
  dsimp only
  rw [leaves]
  dsimp only
  rw [filled_set made inside]

/-- The array when the entry `k` leaves the loop with `y`. -/
def leftAt (made : Nat → α) (k : Nat) (y : α) (held : Nat → α) (i : Nat) : α :=
  if i < k then made i else if i = k then y else held i

@[simp] theorem leftAt_before (y : α) (held : Nat → α) {i : Nat} (before : i < k) :
    leftAt made k y held i = made i := if_pos before

@[simp] theorem leftAt_same (y : α) (held : Nat → α) : leftAt made k y held k = y := by
  rw [leftAt, if_neg (Nat.lt_irrefl k), if_pos rfl]

@[simp] theorem leftAt_behind (y : α) (held : Nat → α) {i : Nat} (behind : k < i) :
    leftAt made k y held i = held i := by
  rw [leftAt, if_neg (Nat.lt_asymm behind), if_neg (Nat.ne_of_gt behind)]

/-- The array as it was left at an element. -/
theorem map_leftAt {n : Nat} (inside : k < n) (y : α) (held : Nat → α) :
    (List.range n).map (leftAt made k y held) =
      (List.range k).map made ++ y :: ((List.range n).map held).drop (k + 1) := by
  obtain ⟨rest, rfl⟩ : ∃ rest, n = k + 1 + rest := Nat.exists_eq_add_of_le inside
  have first : (List.range k).map (leftAt made k y held) = (List.range k).map made :=
    List.map_congr_left fun i before => leftAt_before y held (List.mem_range.1 before)
  have others : ((List.range rest).map (k + 1 + ·)).map (leftAt made k y held) =
      ((List.range rest).map (k + 1 + ·)).map held := by
    refine List.map_congr_left fun i behind => ?_
    obtain ⟨j, -, rfl⟩ := List.mem_map.1 behind
    exact leftAt_behind y held (by omega)
  have gone : (((List.range (k + 1)).map held).drop (k + 1)) = [] :=
    List.drop_eq_nil_of_le (by simp)
  have reached : k + 1 ≤ ((List.range (k + 1)).map held).length := by simp
  rw [List.range_add, List.map_append, List.map_append, others,
    List.drop_append_of_le_length reached, gone, List.nil_append, List.range_succ, List.map_append,
    first, List.append_assoc, List.map_singleton, leftAt_same, List.singleton_append]

/-- The first entry that does not move on fails. -/
theorem fillFrom_failed (moves : MovesOn entry made cursor xs k) (inside : k < xs.length) {e : ε}
    (fails : entry k xs[k] (cursor k) = .error e) :
    fillFrom outside entry xs.length 0 xs (cursor 0) = .error e := by
  have more : xs.length - k = xs.length - (k + 1) + 1 := by omega
  rw [fillFrom_moved moves (Nat.le_of_lt inside), more, fillFrom, filled_getElem?,
    List.getElem?_eq_getElem inside]
  dsimp only
  rw [fails]

end Runs

/-! ## Loops over an array -/

/-- A loop that may fail goes through if it does at each element. -/
theorem forM_ok_iff (f : α → Except ε Unit) (xs : List α) :
    xs.forM f = .ok () ↔ ∀ x ∈ xs, f x = .ok () := by
  induction xs with
  | nil => exact iff_of_true rfl fun _ absent => absurd absent List.not_mem_nil
  | cons x xs ih =>
    rw [List.forall_mem_cons, ← ih, show (x :: xs).forM f = (f x >>= fun _ => xs.forM f) from rfl]
    cases f x with
    | error e => exact iff_of_false (fun ran => by cases ran) fun both => by cases both.1
    | ok _ => exact (and_iff_right rfl).symm

/-- A search succeeds if it does at each element that it comes to: one that is not behind an element
that is found. -/
theorem findSomeM?_ok_iff (f : α → Except ε (Option β)) (xs : List α) :
    (∃ found, xs.findSomeM? f = .ok found) ↔
      ∀ (i : Nat) (x : α), xs[i]? = some x →
        (∃ found, f x = .ok found) ∨ ∃ j < i, ∃ y b, xs[j]? = some y ∧ f y = .ok (some b) := by
  induction xs with
  | nil => exact iff_of_true ⟨none, rfl⟩ fun i x absent => by cases absent
  | cons x xs ih =>
    rw [List.findSomeM?_cons]
    cases first : f x with
    | error e =>
      refine iff_of_false (fun ⟨found, ran⟩ => by cases ran) fun all => ?_
      rcases all 0 x rfl with ⟨found, same⟩ | ⟨j, before, -⟩
      · rw [first] at same
        cases same
      · exact Nat.not_lt_zero j before
    | ok found =>
      cases found with
      | some b =>
        refine iff_of_true ⟨some b, rfl⟩ fun i y here => ?_
        cases i with
        | zero =>
          cases here
          exact .inl ⟨some b, first⟩
        | succ i => exact .inr ⟨0, Nat.succ_pos i, x, b, rfl, first⟩
      | none =>
        refine ih.trans ⟨fun later i y here => ?_, fun all i y here => ?_⟩
        · cases i with
          | zero =>
            cases here
            exact .inl ⟨none, first⟩
          | succ i =>
            rcases later i y here with fine | ⟨j, before, z, b, there, found⟩
            · exact .inl fine
            · exact .inr ⟨j + 1, Nat.succ_lt_succ before, z, b, there, found⟩
        · rcases all (i + 1) y here with fine | ⟨j, before, z, b, there, found⟩
          · exact .inl fine
          · cases j with
            | zero =>
              cases there
              rw [first] at found
              cases found
            | succ j => exact .inr ⟨j, Nat.lt_of_succ_lt_succ before, z, b, there, found⟩

/-- The same for an array whose entries are given by their indices. -/
theorem findSomeM?_range_ok_iff (f : α → Except ε (Option β)) (held : Nat → α) (n : Nat) :
    (∃ found, ((List.range n).map held).findSomeM? f = .ok found) ↔
      ∀ i < n, (∃ found, f (held i) = .ok found) ∨ ∃ j < i, ∃ b, f (held j) = .ok (some b) := by
  have entry {i : Nat} (inside : i < n) : ((List.range n).map held)[i]? = some (held i) := by
    rw [List.getElem?_map, List.getElem?_range inside, Option.map_some]
  have inside {i : Nat} {x : α} (here : ((List.range n).map held)[i]? = some x) :
      i < n ∧ held i = x := by
    obtain ⟨bound, same⟩ := List.getElem?_eq_some_iff.1 here
    rw [List.length_map, List.length_range] at bound
    exact ⟨bound, Option.some.inj ((entry bound).symm.trans here)⟩
  rw [findSomeM?_ok_iff]
  constructor
  · intro all i below
    refine (all i _ (entry below)).imp_right ?_
    rintro ⟨j, before, y, b, there, found⟩
    exact ⟨j, before, b, (inside there).2 ▸ found⟩
  · intro all i x here
    obtain ⟨below, rfl⟩ := inside here
    refine (all i below).imp_right ?_
    rintro ⟨j, before, b, found⟩
    exact ⟨j, before, _, b, entry (Nat.lt_trans before below), found⟩

/-- Up to any bound, a property holds of the indices before some index, at which it fails if the
index is below the bound. -/
theorem exists_first (p : Nat → Prop) (n : Nat) :
    ∃ k ≤ n, (∀ i < k, p i) ∧ (k < n → ¬ p k) := by
  induction n with
  | zero =>
    exact ⟨0, Nat.le_refl 0, fun i below => absurd below i.not_lt_zero,
      fun below => absurd below (Nat.not_lt_zero 0)⟩
  | succ n ih =>
    obtain ⟨k, le, before, first⟩ := ih
    by_cases here : k < n ∨ ¬ p k
    · refine ⟨k, Nat.le_succ_of_le le, before, fun _ => ?_⟩
      exact here.elim first id
    · rw [not_or, not_not] at here
      have same : k = n := Nat.le_antisymm le (Nat.not_lt.1 here.1)
      refine ⟨n + 1, Nat.le_refl _, fun i below => ?_, fun below => absurd below (Nat.lt_irrefl _)⟩
      rcases Nat.lt_succ_iff_lt_or_eq.1 below with earlier | rfl
      · exact before i (same ▸ earlier)
      · exact same ▸ here.2

end D2xCios.Lib
