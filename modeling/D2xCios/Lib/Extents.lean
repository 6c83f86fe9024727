import Mathlib.Data.List.Basic

/-!
# Ascending extents

A finite sequence of non-empty half-open intervals of indices, each behind the
one before. `find` is the extent an index lies in, and the rules below say what
a search that walks the sequence from left to right knows about the indices
around it.
-/

namespace D2xCios.Lib

/-- `num` non-empty intervals `[start i, stop i)` in ascending order. -/
structure Extents where
  num : Nat
  start : Nat → Nat
  stop : Nat → Nat
  nonempty : ∀ i, i < num → start i < stop i
  apart : ∀ i j, i < j → j < num → stop i ≤ start j

namespace Extents

variable (e : Extents)

/-- Extent `i` holds `pos`. -/
def Covers (i pos : Nat) : Prop := e.start i ≤ pos ∧ pos < e.stop i

instance (i pos : Nat) : Decidable (e.Covers i pos) := by
  unfold Covers
  infer_instance

/-- The extent that holds `pos`. -/
def find (pos : Nat) : Option Nat := (List.range e.num).find? fun i => e.Covers i pos

/-- Every extent before extent `i` ends at or before `pos`. -/
def Passed (i pos : Nat) : Prop := ∀ j, j < i → j < e.num → e.stop j ≤ pos

variable {e}

theorem start_mono {i j : Nat} (le : i ≤ j) (j_lt : j < e.num) : e.start i ≤ e.start j := by
  rcases Nat.lt_or_eq_of_le le with lt | rfl
  · exact Nat.le_trans (Nat.le_of_lt (e.nonempty i (by omega))) (e.apart i j lt j_lt)
  · exact Nat.le_refl _

/-- No two extents hold one index. -/
theorem Covers.unique {i j pos : Nat} (left : e.Covers i pos) (right : e.Covers j pos)
    (i_lt : i < e.num) (j_lt : j < e.num) : i = j := by
  obtain ⟨left_start, left_stop⟩ := left
  obtain ⟨right_start, right_stop⟩ := right
  rcases Nat.lt_trichotomy i j with lt | eq | gt
  · have apart := e.apart i j lt j_lt
    omega
  · exact eq
  · have apart := e.apart j i gt i_lt
    omega

/-- The extent that covers a position is found. -/
theorem find_of_covers {i pos : Nat} (i_lt : i < e.num) (covers : e.Covers i pos) :
    e.find pos = some i := by
  match found : e.find pos with
  | some j =>
    have j_lt : j < e.num := List.mem_range.mp (List.mem_of_find?_eq_some found)
    have j_covers : e.Covers j pos := by simpa using List.find?_some found
    rw [j_covers.unique covers j_lt i_lt]
  | none =>
    have missed := List.find?_eq_none.mp found i (List.mem_range.mpr i_lt)
    exact absurd covers (by simpa using missed)

/-- An index behind the extents passed and before the next one lies in none. -/
theorem find_none_of_passed {i pos : Nat} (passed : e.Passed i pos)
    (before : i < e.num → pos < e.start i) : e.find pos = none := by
  refine List.find?_eq_none.mpr fun j member covers => ?_
  have j_lt : j < e.num := List.mem_range.mp member
  obtain ⟨j_start, j_stop⟩ : e.Covers j pos := by simpa using covers
  rcases Nat.lt_or_ge j i with lt | ge
  · have ended := passed j lt j_lt
    omega
  · have begins := before (by omega)
    have later := start_mono ge j_lt
    omega

theorem Passed.mono {i pos later : Nat} (passed : e.Passed i pos) (le : pos ≤ later) :
    e.Passed i later :=
  fun j lt j_lt => Nat.le_trans (passed j lt j_lt) le

/-- Nothing is passed at the first extent. -/
theorem Passed.zero (pos : Nat) : e.Passed 0 pos := fun j lt => absurd lt (Nat.not_lt_zero j)

/-- One more extent is passed when it ends at or before `pos`. -/
theorem Passed.succ {i pos : Nat} (passed : e.Passed i pos) (ended : i < e.num → e.stop i ≤ pos) :
    e.Passed (i + 1) pos := by
  intro j lt j_lt
  rcases Nat.lt_succ_iff_lt_or_eq.mp lt with earlier | rfl
  · exact passed j earlier j_lt
  · exact ended j_lt

end Extents

end D2xCios.Lib
