import Mathlib.Tactic.TypeStar

/-!
# Conditions on runs

A run takes one event after the other. A condition on its events is enough for a property of them
when an invariant carries it from event to event. The condition is exact when an event that breaks
it leaves a flaw behind which stays in sight: no run that ends without the flaw can then have the
property and break the condition.
-/

namespace D2xCios.Lib

variable {ε σ : Type*} (step : ε → σ → σ)

/-- The state behind a run. -/
def behind : List ε → σ → σ
  | [], s => s
  | event :: rest, s => behind rest (step event s)

/-- `P` holds of every event of a run, with the state in front of it. -/
def Throughout (P : ε → σ → Prop) : List ε → σ → Prop
  | [], _ => True
  | event :: rest, s => P event s ∧ Throughout P rest (step event s)

instance Throughout.decidable (P : ε → σ → Prop) [∀ event s, Decidable (P event s)] :
    ∀ (events : List ε) (s : σ), Decidable (Throughout step P events s)
  | [], _ => .isTrue trivial
  | event :: rest, s =>
    have := decidable P rest (step event s)
    inferInstanceAs (Decidable (P event s ∧ Throughout step P rest (step event s)))

variable {step} {Inv Flawed : σ → Prop} {P Meets : ε → σ → Prop}

/-- An invariant carries the property through every run that meets the condition. -/
theorem Throughout.of_invariant
    (carries : ∀ event s, Inv s → Meets event s → P event s ∧ Inv (step event s))
    {events : List ε} {s : σ} (inv : Inv s) (meets : Throughout step Meets events s) :
    Throughout step P events s := by
  induction events generalizing s with
  | nil => exact trivial
  | cons event rest ih =>
    obtain ⟨here, later⟩ := carries event s inv meets.1
    exact ⟨here, ih later meets.2⟩

/-- A condition that is exact for one event in every state is exact for runs. -/
theorem Throughout.congr (each : ∀ event s, P event s ↔ Meets event s) {events : List ε} {s : σ} :
    Throughout step P events s ↔ Throughout step Meets events s := by
  have same : P = Meets := funext fun event => funext fun s => propext (each event s)
  rw [same]

/-- What is known of every event of a run holds throughout. -/
theorem Throughout.of_forall {Formed : ε → Prop} {events : List ε}
    (formed : ∀ event ∈ events, Formed event) {s : σ} :
    Throughout step (fun event _ => Formed event) events s := by
  induction events generalizing s with
  | nil => exact trivial
  | cons event rest ih =>
    exact ⟨formed event List.mem_cons_self,
      ih fun other mem => formed other (List.mem_cons_of_mem _ mem)⟩

/-- Two properties of the events of one run. -/
theorem Throughout.and {events : List ε} {s : σ} (holds : Throughout step P events s)
    (meets : Throughout step Meets events s) :
    Throughout step (fun event s => P event s ∧ Meets event s) events s := by
  induction events generalizing s with
  | nil => exact trivial
  | cons event rest ih => exact ⟨⟨holds.1, meets.1⟩, ih holds.2 meets.2⟩

/-- A condition that is exact for one allowed event, and keeps the invariant, is exact for runs of
allowed events. -/
theorem Throughout.iff_of_invariant {Allowed : ε → σ → Prop}
    (each : ∀ event s, Allowed event s → Inv s →
      (P event s ↔ Meets event s) ∧ (Meets event s → Inv (step event s)))
    {events : List ε} {s : σ} (allowed : Throughout step Allowed events s) (inv : Inv s) :
    Throughout step P events s ↔ Throughout step Meets events s := by
  induction events generalizing s with
  | nil => exact Iff.rfl
  | cons event rest ih =>
    obtain ⟨here, next⟩ := each event s allowed.1 inv
    have later (meets : Meets event s) := ih allowed.2 (next meets)
    constructor
    · rintro ⟨holds, rest⟩
      exact ⟨here.1 holds, (later (here.1 holds)).1 rest⟩
    · rintro ⟨meets, rest⟩
      exact ⟨here.2 meets, (later meets).2 rest⟩

/-- A flaw that the property does not take away is there at the end of the run. -/
theorem Throughout.flawed
    (stays : ∀ event s, Flawed s → P event s → Flawed (step event s))
    {events : List ε} {s : σ} (flawed : Flawed s) (holds : Throughout step P events s) :
    Flawed (behind step events s) := by
  induction events generalizing s with
  | nil => exact flawed
  | cons event rest ih => exact ih (stays event s flawed holds.1) holds.2

/-- A run with the property that ends without a flaw has met the condition. -/
theorem Throughout.meets
    (carries : ∀ event s, Inv s → Meets event s → P event s ∧ Inv (step event s))
    (appears : ∀ event s, Inv s → P event s → ¬ Meets event s → Flawed (step event s))
    (stays : ∀ event s, Flawed s → P event s → Flawed (step event s))
    {events : List ε} {s : σ} (inv : Inv s) (sound : ¬ Flawed (behind step events s))
    (holds : Throughout step P events s) : Throughout step Meets events s := by
  induction events generalizing s with
  | nil => exact trivial
  | cons event rest ih =>
    by_cases meets : Meets event s
    · exact ⟨meets, ih (carries event s inv meets).2 sound holds.2⟩
    · exact absurd (holds.2.flawed stays (appears event s inv holds.1 meets)) sound

end D2xCios.Lib
