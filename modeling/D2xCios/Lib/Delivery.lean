import Mathlib.Data.List.Induction
import Mathlib.Data.Nat.ModEq

/-!
# Sequence-numbered delivery

A replica follows a stream of mutations `change 1`, `change 2`, ... Each message
carries one of them under a tag, and the replica applies the message exactly
when its tag is the one of the next position. Tags may repeat along the stream,
so the guarantee holds for schedules in which no message but the next one
carries the next tag. `position` counts what a schedule delivers in order;
`Follows.run` says that the replica's value and tag are determined by it.
-/

namespace D2xCios.Lib.Delivery

universe u v w

/-- The value after the first `n` mutations of a stream. -/
def applied {α : Type u} (change : Nat → α → α) (start : α) : Nat → α
  | 0 => start
  | n + 1 => change (n + 1) (applied change start n)

/-- What one message carries: a stream position, or nothing. -/
abbrev Carried := Option Nat

/-- The position reached once the message carrying `carried` was offered at `here`. -/
def advance (here : Nat) (carried : Carried) : Nat :=
  if carried = some (here + 1) then here + 1 else here

/-- The position a schedule reaches: it moves only on the next mutation. -/
def position (schedule : List Carried) : Nat := schedule.foldl advance 0

@[simp] theorem position_nil : position [] = 0 := rfl

theorem position_snoc (schedule : List Carried) (carried : Carried) :
    position (schedule ++ [carried]) = advance (position schedule) carried := by
  simp [position]

/-- A delivery is the next one, or changes nothing. -/
theorem advance_cases (here : Nat) (carried : Carried) :
    (carried = some (here + 1) ∧ advance here carried = here + 1) ∨
      (carried ≠ some (here + 1) ∧ advance here carried = here) := by
  by_cases next : carried = some (here + 1)
  · exact Or.inl ⟨next, if_pos next⟩
  · exact Or.inr ⟨next, if_neg next⟩

/-- A schedule reaches no further than it is long. -/
theorem position_le (schedule : List Carried) : position schedule ≤ schedule.length := by
  induction schedule using List.reverseRecOn with
  | nil => simp
  | append_singleton front last ih =>
    rw [position_snoc, List.length_append, List.length_singleton]
    rcases advance_cases (position front) last with ⟨_, moved⟩ | ⟨_, stayed⟩ <;> omega

/-- A schedule is unambiguous for a tagging when, at every moment, no mutation
but the next one is offered under the next tag. -/
def Unambiguous {τ : Type v} (tag : Nat → τ) (schedule : List Carried) : Prop :=
  ∀ prior k rest, schedule = prior ++ some k :: rest →
    tag k = tag (position prior + 1) → k = position prior + 1

/-- The first part of an unambiguous schedule is unambiguous. -/
theorem Unambiguous.front {τ : Type v} {tag : Nat → τ} {front back : List Carried}
    (unambiguous : Unambiguous tag (front ++ back)) : Unambiguous tag front := by
  intro prior k rest split
  exact unambiguous prior k (rest ++ back) (by simp [split])

/-- Tags that repeat with a period are unambiguous for schedules that stay within
one period of the next mutation. -/
theorem unambiguous_of_window {τ : Type v} {tag : Nat → τ} {period : Nat}
    (periodic : ∀ k n, tag k = tag n → k % period = n % period) {schedule : List Carried}
    (window : ∀ prior k rest, schedule = prior ++ some k :: rest →
      position prior + 1 < k + period ∧ k < position prior + 1 + period) :
    Unambiguous tag schedule := by
  intro prior k rest split same
  obtain ⟨notOld, notFar⟩ := window prior k rest split
  have residue : k ≡ position prior + 1 [MOD period] := periodic k _ same
  rcases Nat.le_total k (position prior + 1) with old | far
  · have divides := (Nat.modEq_iff_dvd' old).mp residue
    have zero := Nat.eq_zero_of_dvd_of_lt divides (by omega)
    omega
  · have divides := (Nat.modEq_iff_dvd' far).mp residue.symm
    have zero := Nat.eq_zero_of_dvd_of_lt divides (by omega)
    omega

/-- A concrete receiver follows a stream: a message under the next tag applies
the mutation it carries, and any other message leaves value and tag alone. -/
structure Follows {σ : Type u} {ρ : Type v} {α : Type w} {τ : Type v}
    (receive : σ → ρ → σ) (value : σ → α) (seq : σ → τ)
    (change : Nat → α → α) (tag : Nat → τ) (Carries : ρ → Carried → Prop)
    (start : α) : Prop where
  accepts : ∀ {state message n}, Carries message (some (n + 1)) →
    value state = applied change start n → seq state = tag n →
    value (receive state message) = change (n + 1) (value state) ∧
      seq (receive state message) = tag (n + 1)
  ignores : ∀ {state message carried n}, Carries message carried →
    seq state = tag n → (∀ k, carried = some k → tag k ≠ tag (n + 1)) →
    value (receive state message) = value state ∧ seq (receive state message) = seq state

/-- Over an unambiguous schedule the receiver ends at the schedule's position in
the stream. -/
theorem Follows.run {σ : Type u} {ρ : Type v} {α : Type w} {τ : Type v}
    {receive : σ → ρ → σ} {value : σ → α} {seq : σ → τ}
    {change : Nat → α → α} {tag : Nat → τ} {Carries : ρ → Carried → Prop} {start : α}
    (follows : Follows receive value seq change tag Carries start)
    (origin : σ) (atStart : value origin = start) (tagged : seq origin = tag 0)
    (messages : List (ρ × Carried))
    (carried : ∀ message ∈ messages, Carries message.1 message.2)
    (unambiguous : Unambiguous tag (messages.map Prod.snd)) :
    value ((messages.map Prod.fst).foldl receive origin) =
        applied change start (position (messages.map Prod.snd)) ∧
      seq ((messages.map Prod.fst).foldl receive origin) =
        tag (position (messages.map Prod.snd)) := by
  induction messages using List.reverseRecOn with
  | nil => exact ⟨atStart, tagged⟩
  | append_singleton front last ih =>
    rw [List.map_append, List.map_singleton] at unambiguous
    have before := ih (fun message member => carried message (by simp [member]))
      unambiguous.front
    have lastCarried : Carries last.1 last.2 := carried last (by simp)
    simp only [List.map_append, List.map_singleton, List.foldl_append, List.foldl_cons,
      List.foldl_nil, position_snoc]
    rcases advance_cases (position (front.map Prod.snd)) last.2 with
      ⟨next, moved⟩ | ⟨other, stayed⟩
    · have accepted := follows.accepts (next ▸ lastCarried) before.1 before.2
      rw [moved, applied]
      exact ⟨accepted.1.trans (congrArg _ before.1), accepted.2⟩
    · have ignored := follows.ignores lastCarried before.2 (by
        intro k carries same
        exact other (carries ▸ congrArg some (unambiguous _ k [] (by rw [carries]) same)))
      rw [stayed]
      exact ⟨ignored.1.trans before.1, ignored.2.trans before.2⟩

end D2xCios.Lib.Delivery
