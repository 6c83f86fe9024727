/-!
# Fallible steps and bounded retries

A fallible step leads from one state to the next and yields a result or an
error. `Outcome` is its postcondition with one clause for each of the two, and
`retry` repeats a step a bounded number of times until it yields a result.
-/

namespace D2xCios.Lib

universe u v w

variable {σ : Type u} {α : Type v} {ε : Type w}

/-- `ok` holds of the result and the state behind it, or `failed` of the state
behind an error. -/
def Outcome (ok : α → σ → Prop) (failed : σ → Prop) : Except ε α × σ → Prop
  | (.ok a, s) => ok a s
  | (.error _, s) => failed s

namespace Outcome

variable {ok : α → σ → Prop} {failed : σ → Prop}

@[simp] theorem of_ok (a : α) (s : σ) : Outcome ok failed (Except.ok (ε := ε) a, s) ↔ ok a s :=
  Iff.rfl

@[simp] theorem of_error (e : ε) (s : σ) : Outcome ok failed (.error e, s) ↔ failed s := Iff.rfl

/-- A weaker outcome. -/
theorem mono {ok' : α → σ → Prop} {failed' : σ → Prop} {result : Except ε α × σ}
    (outcome : Outcome ok failed result) (weakerOk : ∀ a s, ok a s → ok' a s)
    (weakerFailed : ∀ s, failed s → failed' s) : Outcome ok' failed' result := by
  obtain ⟨value, s⟩ := result
  cases value with
  | ok a => exact weakerOk a s outcome
  | error e => exact weakerFailed s outcome

/-- A clause that both outcomes share holds of the state behind the step. -/
theorem state {post : σ → Prop} {result : Except ε α × σ}
    (outcome : Outcome (fun _ => post) post result) : post result.2 := by
  obtain ⟨value, s⟩ := result
  cases value with
  | ok a => exact outcome
  | error e => exact outcome

end Outcome

/-- Repeat `once` while it fails: `left` attempts remain, `att` have failed, the
last of them with `error`. A late success is reported. -/
def retry (report : Nat → σ → σ) (once : σ → Except ε α × σ) :
    (left att : Nat) → (error : ε) → σ → Except ε α × σ
  | 0, _, error, s => (.error error, s)
  | left + 1, att, _, s =>
    match once s with
    | (.ok a, s) => (.ok a, if att ≠ 0 then report att s else s)
    | (.error error, s) => retry report once left (att + 1) error s

/-- What an attempt re-establishes when it fails holds behind all of them. -/
theorem retry_outcome (report : Nat → σ → σ) (once : σ → Except ε α × σ) {ok : α → σ → Prop}
    {failed : σ → Prop} (attempt : ∀ s, failed s → Outcome ok failed (once s))
    (reported : ∀ a att s, ok a s → ok a (report att s)) (left att : Nat) (error : ε) {s : σ}
    (start : failed s) : Outcome ok failed (retry report once left att error s) := by
  induction left generalizing att error s with
  | zero => exact start
  | succ left ih =>
    have outcome := attempt s start
    rw [retry]
    match result : once s with
    | (.ok a, s') =>
      rw [result] at outcome
      by_cases first : att = 0
      · simpa [Outcome, first] using outcome
      · simpa [Outcome, first] using reported a att s' outcome
    | (.error e, s') =>
      rw [result] at outcome
      exact ih (att + 1) e outcome

/-- What every attempt and the report keep is kept by all of them. -/
theorem retry_keeps (kept : σ → Prop) (report : Nat → σ → σ) (once : σ → Except ε α × σ)
    (attempt : ∀ s, kept s → kept (once s).2) (reported : ∀ att s, kept s → kept (report att s))
    (left att : Nat) (error : ε) {s : σ} (start : kept s) :
    kept (retry report once left att error s).2 := by
  have outcome : Outcome (fun _ => kept) kept (retry report once left att error s) := by
    refine retry_outcome report once (fun s holds => ?_) (fun _ => reported) left att error start
    have after := attempt s holds
    rcases result : once s with ⟨value, s'⟩
    rw [result] at after
    cases value <;> exact after
  exact outcome.state

/-- A change of state that every attempt and the report carry along is carried along by
all of them. -/
theorem retry_map {report : Nat → σ → σ} {once : σ → Except ε α × σ} (change : σ → σ)
    (attempt : ∀ s, once (change s) = Prod.map id change (once s))
    (reported : ∀ att s, report att (change s) = change (report att s)) (left att : Nat) (error : ε)
    (s : σ) : retry report once left att error (change s) =
      Prod.map id change (retry report once left att error s) := by
  induction left generalizing att error s with
  | zero => rfl
  | succ left ih =>
    rw [retry, retry, attempt]
    match once s with
    | (.ok a, after) => by_cases first : att = 0 <;> simp [first, reported]
    | (.error failed, after) => exact ih (att + 1) failed after

end D2xCios.Lib
