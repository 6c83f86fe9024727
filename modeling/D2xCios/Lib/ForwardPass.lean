import D2xCios.Lib.Cells

/-!
# Forward passes over tables of earlier references

`forRange` is the counting loop; an invariant indexed by the loop counter holds
behind it. A `Dag` is a table whose entries refer at most to one earlier entry
and say how an entry's value comes from the referenced one: `Dag.value` is the
recursive meaning, which a loop computes in one forward pass because the value
it needs is always already there.
-/

namespace D2xCios.Lib

universe u v

/-- The loop `for (i = 0; i < count; i++)`. -/
def forRange {σ : Type u} (step : σ → Nat → σ) (count : Nat) (s : σ) : σ :=
  (List.range count).foldl step s

section Loop

variable {σ : Type u} {step : σ → Nat → σ}

theorem forRange_succ (count : Nat) (s : σ) :
    forRange step (count + 1) s = step (forRange step count s) count := by
  simp [forRange, List.range_succ]

/-- What holds before the loop and is carried over each round holds behind it. -/
theorem forRange_invariant (step : σ → Nat → σ) (count : Nat) (s : σ)
    (invariant : Nat → σ → Prop) (start : invariant 0 s)
    (round : ∀ i t, i < count → invariant i t → invariant (i + 1) (step t i)) :
    invariant count (forRange step count s) := by
  induction count with
  | zero => exact start
  | succ count ih =>
    rw [forRange_succ]
    exact round count _ (Nat.lt_succ_self _)
      (ih fun i t below => round i t (Nat.lt_succ_of_lt below))

end Loop

/-- A table whose entries refer to earlier entries only. -/
structure Dag (β : Type u) where
  parent : Nat → Option Nat
  earlier : ∀ i p, parent i = some p → p < i
  node : Nat → Option β → β

namespace Dag

variable {β : Type u} (dag : Dag β)

/-- The recursive meaning of an entry. -/
def value (i : Nat) : β :=
  dag.node i (match _ : dag.parent i with
    | none => none
    | some p => some (value p))
termination_by i
decreasing_by exact dag.earlier i p ‹_›

/-- An entry's meaning comes from its parent's. -/
theorem value_eq (i : Nat) : dag.value i = dag.node i ((dag.parent i).map dag.value) := by
  rw [value]
  congr 1
  split <;> simp_all

/-- A loop computes the meanings if each round leaves the other entries alone and,
given the meaning of the parent, adds its own. `fresh t i` says that the loop's
state `t` has not come to entry `i`, and `holds t i b` that it records `b` for it. -/
theorem forRange_computes {σ : Type v} (step : σ → Nat → σ) (count : Nat) (s : σ)
    (fresh : σ → Nat → Prop) (holds : σ → Nat → β → Prop)
    (start : ∀ i, i < count → fresh s i)
    (waits : ∀ t i j, i < j → j < count → fresh t j → fresh (step t i) j)
    (keeps : ∀ t i j b, j < i → i < count → holds t j b → holds (step t i) j b)
    (adds : ∀ t i, i < count → fresh t i →
      (∀ p, dag.parent i = some p → holds t p (dag.value p)) →
      holds (step t i) i (dag.value i)) :
    ∀ i, i < count → holds (forRange step count s) i (dag.value i) := by
  have done := forRange_invariant step count s
    (fun k t => (∀ i, i < k → holds t i (dag.value i)) ∧ ∀ i, k ≤ i → i < count → fresh t i)
    ⟨fun i below => absurd below (Nat.not_lt_zero i), fun i _ inside => start i inside⟩
    (by
      rintro k t inside ⟨earlier, later⟩
      constructor
      · intro i below
        rcases Nat.lt_succ_iff_lt_or_eq.mp below with old | rfl
        · exact keeps t k i _ old inside (earlier i old)
        · exact adds t i inside (later i (Nat.le_refl _) inside) fun p child =>
            earlier p (dag.earlier i p child)
      · intro i above below
        exact waits t k i above below (later i (Nat.le_of_lt above) below))
  exact done.1

end Dag

end D2xCios.Lib
