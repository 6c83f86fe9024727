import Mathlib.Order.Basic

/-!
# Graded steps

A relation between the states around a step, graded by whether the step
succeeded. Code that stops at its first failure is related by its parts: what
went before a step that runs has succeeded, and the step decides the grade.
-/

namespace D2xCios.Lib

universe u v

/-- The rules that a graded relation needs to follow code that stops at its
first failure. -/
structure Graded {σ : Type u} (related : Bool → σ → σ → Prop) : Prop where
  refl : ∀ s, related true s s
  seq : ∀ {ok a b c}, related true a b → related ok b c → related ok a c
  fail : ∀ {ok a b}, related ok a b → related false a b

namespace Graded

variable {σ : Type u} {related : Bool → σ → σ → Prop}

/-- Nothing was run. -/
theorem idle (graded : Graded related) (ok : Bool) (s : σ) : related ok s s := by
  cases ok with
  | true => exact graded.refl s
  | false => exact graded.fail (graded.refl s)

/-- A step known to have succeeded, and one behind it. -/
theorem after (graded : Graded related) {first ok : Bool} {a b c : σ} (step : related first a b)
    (succeeded : first = true) (rest : related ok b c) : related ok a c := by
  subst succeeded
  exact graded.seq step rest

/-- A failure is as good as any other. -/
theorem failed (graded : Graded related) {first ok : Bool} {a b : σ} (step : related first a b)
    (fails : ok = false) : related ok a b := by
  subst fails
  exact graded.fail step

end Graded

end D2xCios.Lib
