import Mathlib.Data.List.Basic

/-!
# Collapsing repeated separators

Two paths denote the same file if they agree once every run of separators is
shortened to a single one. A path that is cut at a separator collapses part by
part, so that a common remainder can be cancelled.
-/

namespace D2xCios.Lib

universe u

variable {α : Type u} [DecidableEq α]

/-- Every run of `sep` shortened to one. -/
def collapse (sep : α) : List α → List α
  | [] => []
  | a :: rest => if a = sep ∧ rest.head? = some sep then collapse sep rest else a ::
    collapse sep rest

variable (sep : α)

theorem collapse_singleton (a : α) : collapse sep [a] = [a] := by simp [collapse]

/-- Separators that follow one disappear. -/
theorem collapse_sep_cons (rest : List α) :
    collapse sep (sep :: rest) = sep :: collapse sep (rest.dropWhile (· = sep)) := by
  induction rest with
  | nil => simp [collapse]
  | cons a rest ih =>
    by_cases again : a = sep
    · subst again
      rw [collapse, if_pos ⟨rfl, rfl⟩, ih, List.dropWhile_cons_of_pos (by simp)]
    · rw [collapse, if_neg (by simp [again]), List.dropWhile_cons_of_neg (by simpa using again)]

/-- A path cut behind a separator collapses part by part. -/
theorem collapse_append_sep (start rest : List α) :
    collapse sep (start ++ sep :: rest) =
      collapse sep (start ++ [sep]) ++ collapse sep (rest.dropWhile (· = sep)) := by
  induction start with
  | nil =>
    rw [List.nil_append, List.nil_append, collapse_sep_cons, collapse_singleton]
    rfl
  | cons a start ih =>
    have next : (start ++ sep :: rest).head? = (start ++ [sep]).head? := by cases start <;> rfl
    simp only [List.cons_append, collapse, next]
    split
    · exact ih
    · rw [ih, List.cons_append]

/-- A common remainder behind a separator does not matter. -/
theorem collapse_append_sep_inj (first second rest : List α) :
    collapse sep (first ++ sep :: rest) = collapse sep (second ++ sep :: rest) ↔
      collapse sep (first ++ [sep]) = collapse sep (second ++ [sep]) := by
  rw [collapse_append_sep sep first rest, collapse_append_sep sep second rest, List.append_left_inj]

end D2xCios.Lib
