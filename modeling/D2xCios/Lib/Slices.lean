import Mathlib.Algebra.Ring.Nat

/-!
# Transfers in slices

`sliced` handles a run of bytes in slices of at most a given size, one after the other,
and stops at a slice that fails. Slices of slices are the finer slices alone when the
sizes divide, and two loops over the same slices are related if their slices are.
-/

namespace D2xCios.Lib

universe u v

variable {σ : Type u} {τ : Type v}

/-- The next slice of what is left: `left >= size ? size : left`. -/
def slice (size left : Nat) : Nat := if size ≤ left then size else left

theorem slice_le (size left : Nat) : slice size left ≤ left := by
  unfold slice
  split <;> omega

/-- A slice is no longer than its size. -/
theorem slice_le_size (size left : Nat) : slice size left ≤ size := by
  unfold slice
  split <;> omega

theorem slice_pos (size : Nat) [NeZero size] {left : Nat} (more : 0 < left) :
    0 < slice size left := by
  have := Nat.pos_of_neZero size
  unfold slice
  split <;> omega

theorem slice_of_le {size left : Nat} (whole : size ≤ left) : slice size left = size := if_pos whole

/-- Handle the `left` bytes from position `p` on, until a slice reports a code other than 0. -/
def sliced (size : Nat) [NeZero size] (part : Nat → Nat → σ → Int × σ) (p left : Nat) (s : σ) :
    Int × σ :=
  if _ : left = 0 then (0, s)
  else
    let handled := part p (slice size left) s
    if handled.1 = 0 then
      sliced size part (p + slice size left) (left - slice size left) handled.2
    else handled
termination_by left
decreasing_by
  have := slice_pos size (Nat.pos_of_ne_zero ‹_›)
  omega

section Loop

variable {size : Nat} [NeZero size] {part : Nat → Nat → σ → Int × σ}

@[simp] theorem sliced_zero (p : Nat) (s : σ) : sliced size part p 0 s = (0, s) := by
  rw [sliced, dif_pos rfl]

/-- A part that was handled, and the rest. -/
theorem sliced_next {p left : Nat} {s : σ} (more : 0 < left)
    (handled : (part p (slice size left) s).1 = 0) : sliced size part p left s =
      sliced size part (p + slice size left) (left - slice size left)
        (part p (slice size left) s).2 := by
  rw [sliced, dif_neg (Nat.ne_of_gt more)]
  exact if_pos handled

/-- A part that fails is the last one. -/
theorem sliced_failed {p left : Nat} {s : σ} (more : 0 < left)
    (failed : (part p (slice size left) s).1 ≠ 0) :
    sliced size part p left s = part p (slice size left) s := by
  rw [sliced, dif_neg (Nat.ne_of_gt more)]
  exact if_neg failed

/-- A run that begins with whole slices is handled as two runs. -/
theorem sliced_append (count p second : Nat) (s : σ) :
    sliced size part p (size * count + second) s =
      if (sliced size part p (size * count) s).1 = 0 then
        sliced size part (p + size * count) second (sliced size part p (size * count) s).2
      else sliced size part p (size * count) s := by
  have positive := Nat.pos_of_neZero size
  induction count generalizing p s with
  | zero => simp
  | succ count ih =>
    have expand : size * (count + 1) = size + size * count := by
      rw [Nat.mul_succ, Nat.add_comm]
    have first : slice size (size + size * count) = size := slice_of_le (by omega)
    have whole : slice size (size + size * count + second) = size := slice_of_le (by omega)
    rw [expand]
    by_cases handled : (part p size s).1 = 0
    · have long : size + size * count + second - size = size * count + second := by omega
      have short : size + size * count - size = size * count := by omega
      rw [sliced_next (by omega) (by rwa [whole]), sliced_next (p := p) (by omega) (by rwa [first]),
        whole, first, long, short, ih, Nat.add_assoc]
    · rw [sliced_failed (by omega) (by rwa [whole]), sliced_failed (p := p) (by omega)
        (by rwa [first]),
        whole, first, if_neg handled]

/-- Slices that are handled in finer slices, where the sizes divide, are finer slices. -/
theorem sliced_sliced {outer : Nat} [NeZero outer] (divides : size ∣ outer) (recode : Int → Int)
    (success : ∀ code, recode code = 0 ↔ code = 0) (p left : Nat) (s : σ) :
    sliced outer (fun p n s =>
        (recode (sliced size part p n s).1, (sliced size part p n s).2)) p left s =
      (recode (sliced size part p left s).1, (sliced size part p left s).2) := by
  induction left using Nat.strongRecOn generalizing p s with
  | ind left ih =>
    rcases Nat.eq_zero_or_pos left with rfl | more
    · simp [(success 0).mpr rfl]
    have zero : recode 0 = 0 := (success 0).mpr rfl
    by_cases handled : (sliced size part p (slice outer left) s).1 = 0
    · rw [sliced_next more (by simpa [success] using handled),
        ih _ (by have := slice_pos outer more; omega)]
      by_cases whole : outer ≤ left
      · obtain ⟨count, rfl⟩ := divides
        rw [slice_of_le whole] at handled ⊢
        have parts : left = size * count + (left - size * count) := by omega
        conv => rhs; rw [parts, sliced_append, if_pos handled]
      · have all : slice outer left = left := if_neg whole
        rw [all] at handled ⊢
        simp [handled, zero]
    · rw [sliced_failed more (by simpa [success] using handled)]
      by_cases whole : outer ≤ left
      · obtain ⟨count, rfl⟩ := divides
        rw [slice_of_le whole] at handled ⊢
        have parts : left = size * count + (left - size * count) := by omega
        conv => rhs; rw [parts, sliced_append, if_neg handled]
      · have all : slice outer left = left := if_neg whole
        rw [all]

/-- Two loops over the same slices, none of which fails, end related if each slice keeps
them related. -/
theorem sliced_related {part' : Nat → Nat → τ → Int × τ} (rel : Nat → σ → τ → Prop) {last : Nat}
    (round : ∀ p s t, p < last → rel p s t →
      (part p (slice size (last - p)) s).1 = 0 ∧ (part' p (slice size (last - p)) t).1 = 0 ∧
        rel (p + slice size (last - p)) (part p (slice size (last - p)) s).2
          (part' p (slice size (last - p)) t).2)
    {p left : Nat} (ends : p + left = last) {s : σ} {t : τ} (start : rel p s t) :
    (sliced size part p left s).1 = 0 ∧ (sliced size part' p left t).1 = 0 ∧
      rel last (sliced size part p left s).2 (sliced size part' p left t).2 := by
  induction left using Nat.strongRecOn generalizing p s t with
  | ind left ih =>
    rcases Nat.eq_zero_or_pos left with rfl | more
    · rw [Nat.add_zero] at ends
      simpa [← ends] using start
    have rest : last - p = left := by omega
    have inside := slice_le size left
    have positive := slice_pos size more
    have next := round p s t (by omega) start
    rw [rest] at next
    obtain ⟨left_ok, right_ok, kept⟩ := next
    rw [sliced_next more left_ok, sliced_next more right_ok]
    exact ih (left - slice size left) (by omega) (by omega) kept

end Loop

end D2xCios.Lib
