import Mathlib.Tactic.TypeStar

/-!
# Machines that answer requests

A machine answers one request after the other and goes from state to state. Two states that are
alike, for a relation that every request keeps and whose states answer it in the same way, cannot be
told apart by any sequence of requests.
-/

namespace D2xCios.Lib

variable {ρ α σ : Type*} (step : ρ → σ → α × σ)

/-- The answers to a sequence of requests, and the state behind the last one. -/
def responses : List ρ → σ → List α × σ
  | [], s => ([], s)
  | request :: requests, s =>
    let (answer, s) := step request s
    let (answers, s) := responses requests s
    (answer :: answers, s)

/-- A relation between states that is kept by every request, with the same answer. -/
structure KeptAlike (Alike : σ → σ → Prop) : Prop where
  answer : ∀ request s s', Alike s s' → (step request s).1 = (step request s').1
  state : ∀ request s s', Alike s s' → Alike (step request s).2 (step request s').2

variable {step}

/-- States that are alike answer in the same way, and stay alike. -/
theorem KeptAlike.responses {Alike : σ → σ → Prop} (kept : KeptAlike step Alike)
    (requests : List ρ) {s s' : σ} (alike : Alike s s') :
    (responses step requests s).1 = (responses step requests s').1 ∧
      Alike (responses step requests s).2 (responses step requests s').2 := by
  induction requests generalizing s s' with
  | nil => exact ⟨rfl, alike⟩
  | cons request requests ih =>
    obtain ⟨answers, behind⟩ := ih (kept.state request s s' alike)
    refine ⟨?_, behind⟩
    show (step request s).1 :: _ = (step request s').1 :: _
    rw [kept.answer request s s' alike, answers]

end D2xCios.Lib
