import D2xCios.Lib.Retry

/-!
# Chunked transfers

Data that arrives in numbered chunks, each asked for a bounded number of times until
a reply to it is acceptable. Which replies are acceptable may depend on the chunks
before. `ChunkedTransfer.collect` is the loop that asks for one chunk after the other, up to
the last or to a bound, and `ChunkedTransfer.collect_eq_iff` says what a complete transfer
is without that loop.
-/

namespace D2xCios.Lib

universe u v w

/-- The first result of at most `attempts` attempts, from number `start` on. -/
def firstResult {α : Type u} (attempts start : Nat) (result : Nat → Option α) : Option α :=
  (List.range' start attempts).findSome? result

namespace Outcome

variable {σ : Type u} {α : Type v} {ε : Type w} {β : Type}

/-- Retries find the first attempt with a result, when a failed one counts up. -/
theorem retry_first (report : Nat → σ → σ) (once : σ → Except ε α × σ) (asked : σ → Nat)
    (result : Nat → Option β) (ok : β → α → σ → Prop) (failed : σ → Prop)
    (attempt : ∀ s, failed s → Outcome
      (fun a after => ∃ b, result (asked s) = some b ∧ ok b a after)
      (fun after => result (asked s) = none ∧ failed after ∧ asked after = asked s + 1) (once s))
    (reported : ∀ b a att s, ok b a s → ok b a (report att s)) (left att : Nat) (error : ε) {s : σ}
    (start : failed s) : Outcome
      (fun a after => ∃ b, firstResult left (asked s) result = some b ∧ ok b a after)
      (fun after => firstResult left (asked s) result = none ∧ failed after)
      (retry report once left att error s) := by
  induction left generalizing att error s with
  | zero => exact ⟨rfl, start⟩
  | succ left ih =>
    have outcome := attempt s start
    rw [retry]
    rcases tried : once s with ⟨failure | a, after⟩
    · rw [tried] at outcome
      obtain ⟨none, again, counted⟩ := outcome
      have rest := ih (att + 1) failure again
      simp only [firstResult, List.range'_succ, List.findSome?_cons, none]
      rw [counted] at rest
      exact rest
    · rw [tried] at outcome
      obtain ⟨b, some, done⟩ := outcome
      simp only [firstResult, List.range'_succ, List.findSome?_cons, some]
      by_cases first : att = 0
      · simpa [Outcome, first] using done
      · simpa [Outcome, first] using reported b a att after done

end Outcome

/-- How a chunk loop ends: with the last chunk, with a chunk that did not arrive, or
because it ran out of rounds. -/
inductive Ending where
  | last
  | failed
  | ranOut
  deriving DecidableEq

/-- A transfer of chunks `α` by replies `ρ`. -/
structure ChunkedTransfer (ρ : Type u) (α : Type v) where
  /-- What a reply delivers, behind the chunks that arrived before. -/
  accept : List α → ρ → Option α
  isLast : α → Bool
  attempts : Nat

namespace ChunkedTransfer

variable {ρ : Type u} {α : Type v} (transfer : ChunkedTransfer ρ α) (replies : Nat → Nat → ρ)

/-- What the attempts for the chunk behind `before` deliver: the reply that comes
first among the acceptable ones. -/
def chunk (before : List α) : Option α :=
  firstResult transfer.attempts 0 fun j => transfer.accept before (replies before.length j)

/-- The chunks that arrive in at most `left` more rounds, and how the loop ends. -/
def collect : (left : Nat) → (before : List α) → List α × Ending
  | 0, before => (before, .ranOut)
  | left + 1, before =>
    match transfer.chunk replies before with
    | none => (before, .failed)
    | some a =>
      if transfer.isLast a then (before ++ [a], .last) else collect left (before ++ [a])

/-- The chunks arrive one behind the other, and none of them is the last. -/
inductive Underway : List α → Prop where
  | nil : Underway []
  | more {before : List α} {a : α} (underway : Underway before)
    (arrived : transfer.chunk replies before = some a) (open_ : transfer.isLast a = false) :
    Underway (before ++ [a])

/-- All chunks up to the last one have arrived. -/
inductive Complete : List α → Prop where
  | last {before : List α} {a : α} (underway : transfer.Underway replies before)
    (arrived : transfer.chunk replies before = some a) (closed : transfer.isLast a = true) :
    Complete (before ++ [a])

variable {transfer replies}

/-- The chunks underway are the ones that arrived, each behind those before it. -/
theorem Underway.arrived {chunks : List α} (underway : transfer.Underway replies chunks) {k : Nat}
    (inside : k < chunks.length) : transfer.chunk replies (chunks.take k) = some chunks[k] ∧
      transfer.isLast chunks[k] = false := by
  induction underway with
  | nil => exact absurd inside (Nat.not_lt_zero _)
  | @more before a _ arrived open_ ih =>
    by_cases earlier : k < before.length
    · rw [List.take_append_of_le_length (Nat.le_of_lt earlier), List.getElem_append_left earlier]
      exact ih earlier
    · obtain rfl : k = before.length := by simp at inside; omega
      simpa using ⟨arrived, open_⟩

/-- Chunks given by their numbers are underway if each arrives behind the ones before. -/
theorem underway_range {source : Nat → α} {n : Nat}
    (arrived : ∀ k, k < n → transfer.chunk replies ((List.range k).map source) = some (source k) ∧
      transfer.isLast (source k) = false) :
    transfer.Underway replies ((List.range n).map source) := by
  induction n with
  | zero => exact .nil
  | succ n ih =>
    rw [List.range_succ, List.map_append]
    have behind := arrived n (Nat.lt_succ_self n)
    exact .more (ih fun k below => arrived k (Nat.lt_succ_of_lt below)) behind.1 behind.2

/-- What the loop arrives at from `before`, within `left` rounds. -/
inductive Collected (transfer : ChunkedTransfer ρ α) (replies : Nat → Nat → ρ) (before : List α)
    (left : Nat) : List α × Ending → Prop where
  | last {chunks} (more : before <+: chunks) (within : chunks.length ≤ before.length + left)
    (complete : transfer.Complete replies chunks) : Collected transfer replies before left
    (chunks, .last)
  | failed {chunks} (more : before <+: chunks) (within : chunks.length < before.length + left)
    (underway : transfer.Underway replies chunks) (missing : transfer.chunk replies chunks = none) :
    Collected transfer replies before left (chunks, .failed)
  | ranOut {chunks} (more : before <+: chunks) (all : chunks.length = before.length + left)
    (underway : transfer.Underway replies chunks) :
    Collected transfer replies before left (chunks, .ranOut)

/-- The loop collects the chunks that are left. -/
theorem collect_collected (left : Nat) {before : List α}
    (underway : transfer.Underway replies before) :
    Collected transfer replies before left (transfer.collect replies left before) := by
  induction left generalizing before with
  | zero => exact .ranOut (List.prefix_refl _) rfl underway
  | succ left ih =>
    rw [collect]
    cases arrived : transfer.chunk replies before with
    | none => exact .failed (List.prefix_refl _) (by omega) underway arrived
    | some a =>
      have longer : (before ++ [a]).length = before.length + 1 := List.length_append
      have front : before <+: before ++ [a] := List.prefix_append _ _
      simp only
      split
      · rename_i closed
        exact .last front (by omega) (.last underway arrived closed)
      · rename_i open_
        have rest := ih (underway.more arrived (by simpa using open_))
        cases collected : transfer.collect replies left (before ++ [a]) with
        | mk chunks ending =>
          rw [collected] at rest
          cases rest with
          | last more within complete => exact .last (front.trans more) (by omega) complete
          | failed more within underway missing =>
            exact .failed (front.trans more) (by omega) underway missing
          | ranOut more all underway => exact .ranOut (front.trans more) (by omega) underway

/-- The loop passes through every stage of the transfer. -/
theorem Underway.collect {before : List α} (underway : transfer.Underway replies before)
    (left : Nat) : transfer.collect replies (before.length + left) [] =
      transfer.collect replies left before := by
  induction underway generalizing left with
  | nil => simp
  | @more before a _ arrived open_ ih =>
    have rounds : (before ++ [a]).length + left = before.length + (left + 1) := by
      simp
      omega
    rw [rounds, ih, ChunkedTransfer.collect, arrived]
    simp [open_]

/-- The loop ends with the last chunk exactly when the transfer is complete within its
rounds. -/
theorem collect_eq_iff {cap : Nat} {chunks : List α} :
    transfer.collect replies cap [] = (chunks, .last) ↔
      transfer.Complete replies chunks ∧ chunks.length ≤ cap := by
  constructor
  · intro ended
    have started : transfer.Underway replies [] := .nil
    have collected := collect_collected cap started
    rw [ended] at collected
    cases collected with
    | last _ within complete => exact ⟨complete, by simpa using within⟩
  · rintro ⟨complete, within⟩
    cases complete with
    | @last before a underway arrived closed =>
      rw [List.length_append, List.length_singleton] at within
      obtain ⟨left, rounds⟩ : ∃ left, cap = before.length + (left + 1) :=
        ⟨cap - before.length - 1, by omega⟩
      rw [rounds, underway.collect, collect, arrived]
      simp [closed]

end ChunkedTransfer

end D2xCios.Lib
