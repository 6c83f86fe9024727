import Mathlib.Tactic.TypeStar

/-!
# Programs that may fail

A program changes a state and yields a result or an error. What holds behind it is stated with one
clause for either, and goes through a program from its end to its front.
-/

namespace D2xCios.Lib

variable {ε σ α β : Type}

/-- A program on states that may fail. An error leaves the state as it then is. -/
abbrev Prog (ε σ α : Type) := ExceptT ε (StateM σ) α

/-- The result and the state behind a program. -/
def Prog.runFrom (x : Prog ε σ α) (s : σ) : Except ε α × σ := (x.run).run s

/-- Behind the program, `ok` holds of its result and `failed` of its error. -/
def After (x : Prog ε σ α) (ok : α → σ → Prop) (failed : ε → σ → Prop) (s : σ) : Prop :=
  match x.runFrom s with
  | (.ok a, s') => ok a s'
  | (.error e, s') => failed e s'

variable {ok : α → σ → Prop} {failed : ε → σ → Prop} {s : σ}

@[simp] theorem after_pure (a : α) : After (pure a : Prog ε σ α) ok failed s ↔ ok a s := Iff.rfl

@[simp] theorem after_throw (e : ε) :
    After (throw e : Prog ε σ α) ok failed s ↔ failed e s := Iff.rfl

@[simp] theorem after_bind (x : Prog ε σ α) (f : α → Prog ε σ β) {ok : β → σ → Prop} :
    After (x >>= f) ok failed s ↔ After x (fun a => After (f a) ok failed) failed s := by
  have unfolded : (x >>= f).runFrom s =
      match x.runFrom s with
      | (.ok a, s') => (f a).runFrom s'
      | (.error e, s') => (.error e, s') := by
    simp only [Prog.runFrom, ExceptT.run_bind, StateT.run_bind]
    rcases StateT.run (ExceptT.run x) s with ⟨r, s'⟩
    cases r <;> rfl
  unfold After
  rw [unfolded]
  rcases x.runFrom s with ⟨r, s'⟩
  cases r <;> rfl

/-- An error that is caught is a result of its own. -/
@[simp] theorem after_tryCatch (x : Prog ε σ α) (handle : ε → Prog ε σ α) :
    After (tryCatch x handle) ok failed s ↔
      After x ok (fun e => After (handle e) ok failed) s := by
  have unfolded : (tryCatch x handle).runFrom s =
      match x.runFrom s with
      | (.ok a, s') => (.ok a, s')
      | (.error e, s') => (handle e).runFrom s' := by
    simp only [Prog.runFrom, ExceptT.run_tryCatch, StateT.run_bind]
    rcases StateT.run (ExceptT.run x) s with ⟨r, s'⟩
    cases r <;> rfl
  unfold After
  rw [unfolded]
  rcases x.runFrom s with ⟨r, s'⟩
  cases r <;> rfl

@[simp] theorem after_map (f : α → β) (x : Prog ε σ α) {ok : β → σ → Prop} :
    After (f <$> x) ok failed s ↔ After x (fun a => ok (f a)) failed s := by
  rw [← bind_pure_comp, after_bind]
  rfl

@[simp] theorem after_get {ok : σ → σ → Prop} :
    After (get : Prog ε σ σ) ok failed s ↔ ok s s := Iff.rfl

@[simp] theorem after_set (s' : σ) {ok : PUnit → σ → Prop} :
    After (set s' : Prog ε σ PUnit) ok failed s ↔ ok ⟨⟩ s' := Iff.rfl

@[simp] theorem after_modify (f : σ → σ) {ok : PUnit → σ → Prop} :
    After (modify f : Prog ε σ PUnit) ok failed s ↔ ok ⟨⟩ (f s) := Iff.rfl

/-- What holds behind a program may be weakened. -/
theorem After.mono {x : Prog ε σ α} {ok' : α → σ → Prop} {failed' : ε → σ → Prop}
    (after : After x ok failed s) (weaker : ∀ a s', ok a s' → ok' a s')
    (weakerFailed : ∀ e s', failed e s' → failed' e s') : After x ok' failed' s := by
  unfold After at after ⊢
  generalize x.runFrom s = result at after ⊢
  obtain ⟨r, s'⟩ := result
  cases r with
  | ok a => exact weaker a s' after
  | error e => exact weakerFailed e s' after

/-- A program without an error behind it has a result. -/
theorem After.result {x : Prog ε σ α} (after : After x ok (fun _ _ => False) s) :
    ∃ a s', x.runFrom s = (.ok a, s') ∧ ok a s' := by
  unfold After at after
  generalize x.runFrom s = result at after ⊢
  obtain ⟨r, s'⟩ := result
  cases r with
  | ok a => exact ⟨a, s', rfl, after⟩
  | error e => exact after.elim

end D2xCios.Lib
