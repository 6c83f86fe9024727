import Mathlib.Data.List.Basic
import Mathlib.Algebra.Order.Group.Nat

/-!
# Items that follow one another

Where each of a sequence of items begins, if the first begins at a base and each begins where the
one before ends: the ranges are in order, have nothing in common, and leave no gap.
-/

namespace D2xCios.Lib

universe u

/-- Where item `i` begins. -/
def place (base : Nat) (size : Nat → Nat) : Nat → Nat
  | 0 => base
  | i + 1 => place base size i + size i

section Placement

variable {base : Nat} {size size' : Nat → Nat}

theorem place_congr {n : Nat} (same : ∀ i < n, size i = size' i) :
    place base size n = place base size' n := by
  induction n with
  | zero => rfl
  | succ n ih =>
    rw [place, place, ih fun i i_lt => same i (Nat.lt_succ_of_lt i_lt), same n n.lt_succ_self]

/-- Items without a size do not move those behind them. -/
theorem place_empty {n : Nat} (empty : ∀ i < n, size i = 0) : place base size n = base := by
  induction n with
  | zero => rfl
  | succ n ih =>
    rw [place, ih fun i i_lt => empty i (Nat.lt_succ_of_lt i_lt), empty n n.lt_succ_self,
      Nat.add_zero]

/-- An item ends before the later ones begin. -/
theorem place_apart {i j : Nat} (later : i < j) :
    place base size i + size i ≤ place base size j := by
  induction j with
  | zero => exact absurd later i.not_lt_zero
  | succ j ih =>
    rcases Nat.lt_succ_iff_lt_or_eq.1 later with before | rfl
    · exact Nat.le_trans (ih before) (Nat.le_add_right _ _)
    · exact Nat.le_refl _

theorem place_mono {i j : Nat} (le : i ≤ j) : place base size i ≤ place base size j := by
  rcases Nat.lt_or_eq_of_le le with later | rfl
  · exact Nat.le_trans (Nat.le_add_right _ _) (place_apart later)
  · exact Nat.le_refl _

/-- Nothing is placed in front of the base. -/
theorem base_le_place (n : Nat) : base ≤ place base size n := place_mono n.zero_le

/-- What lies between the base and an item lies in one of the items before it. -/
theorem place_cover {n x : Nat} (above : base ≤ x) (below : x < place base size n) :
    ∃ i < n, place base size i ≤ x ∧ x < place base size i + size i := by
  induction n with
  | zero => exact absurd above (Nat.not_le_of_lt below)
  | succ n ih =>
    by_cases before : x < place base size n
    · obtain ⟨i, i_lt, inside⟩ := ih before
      exact ⟨i, Nat.lt_succ_of_lt i_lt, inside⟩
    · exact ⟨n, n.lt_succ_self, Nat.le_of_not_lt before, below⟩

end Placement

/-- The items themselves, behind what there is before the base. -/
theorem take_place {α : Type u} (before : List α) (items : List (List α)) {i : Nat} {item : List α}
    (here : items[i]? = some item) :
    ((before ++ items.flatten).drop
      (place before.length (fun j => (items.getD j []).length) i)).take item.length = item := by
  induction items generalizing before i with
  | nil => exact absurd here (by simp)
  | cons first rest ih =>
    cases i with
    | zero =>
      obtain rfl : first = item := by simpa using here
      rw [place, List.drop_left, List.flatten_cons, List.take_left]
    | succ i =>
      have later := ih (before ++ first) (i := i) (by simpa using here)
      have moved : ∀ n, place (before ++ first).length (fun j => (rest.getD j []).length) n =
          place before.length (fun j => ((first :: rest).getD j []).length) (n + 1) := by
        intro n
        induction n with
        | zero => exact List.length_append
        | succ n ih =>
          rw [place, ih, place]
          rfl
      rw [moved, List.append_assoc] at later
      exact later

end D2xCios.Lib
