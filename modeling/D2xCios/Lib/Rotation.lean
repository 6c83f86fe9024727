import Mathlib.Tactic.Ring

/-!
# Rotating windows

Slots that are served window by window: every window starts where the one before
it stopped, the window that reaches the end is followed by one at the start, and
every other window has a guaranteed width. `Rotates.covered` bounds how long a
slot waits, wherever in the rotation one starts to watch.
-/

namespace D2xCios.Lib

/-- A run of consecutive slots. -/
structure Window where
  first : Nat
  count : Nat
  deriving DecidableEq

namespace Window

/-- The slot behind the window. -/
def stop (window : Window) : Nat := window.first + window.count

/-- The slots of a window. -/
def Holds (window : Window) (slot : Nat) : Prop := window.first ≤ slot ∧ slot < window.stop

end Window

/-- A sequence of windows goes round `size` slots: each is non-empty and, unless it
stops at the end, at least `least` wide. -/
structure Rotates (size least : Nat) (window : Nat → Window) : Prop where
  nonempty : ∀ k, 0 < (window k).count
  inside : ∀ k, (window k).stop ≤ size
  wide : ∀ k, (window k).stop = size ∨ least ≤ (window k).count
  next : ∀ k, (window (k + 1)).first = if (window k).stop = size then 0 else (window k).stop

namespace Rotates

variable {size least : Nat} {window : Nat → Window}

theorem first_lt (rotates : Rotates size least window) (k : Nat) : (window k).first < size := by
  have nonempty := rotates.nonempty k
  have inside := rotates.inside k
  unfold Window.stop at inside
  omega

/-- A slot ahead is reached before the windows between have passed it. -/
theorem reaches (rotates : Rotates size least window) {slot : Nat} (below : slot < size) (k : Nat)
    (ahead : (window k).first ≤ slot) :
    ∃ j, j * least ≤ slot - (window k).first ∧ (window (k + j)).Holds slot := by
  -- The distance to the slot falls with every window that does not hold it.
  induction distance : slot - (window k).first using Nat.strong_induction_on generalizing k with
  | _ d ih =>
    by_cases held : slot < (window k).stop
    · exact ⟨0, by omega, ahead, held⟩
    · have open_end : (window k).stop ≠ size := by omega
      have next : (window (k + 1)).first = (window k).first + (window k).count := by
        rw [rotates.next, if_neg open_end]
        rfl
      have wide : least ≤ (window k).count := (rotates.wide k).resolve_left open_end
      have nonempty := rotates.nonempty k
      unfold Window.stop at held
      obtain ⟨j, early, holds⟩ := ih (slot - (window (k + 1)).first) (by omega) (k + 1)
        (by omega) rfl
      refine ⟨j + 1, ?_, ?_⟩
      · calc (j + 1) * least = j * least + least := by ring
          _ ≤ slot - (window (k + 1)).first + (window k).count := Nat.add_le_add early wide
          _ = d := by omega
      · rwa [Nat.add_right_comm] at holds

/-- The rotation comes back to the start. -/
theorem wraps (rotates : Rotates size least window) (k : Nat) :
    ∃ j, j * least ≤ size - 1 - (window k).first ∧ (window (k + j + 1)).first = 0 := by
  have started := rotates.first_lt k
  have below : size - 1 < size := by omega
  obtain ⟨j, early, _, last⟩ := rotates.reaches below k (by omega)
  have inside := rotates.inside (k + j)
  refine ⟨j, early, ?_⟩
  rw [rotates.next, if_pos (by omega)]

/-- Every slot is in one of any `⌈size / least⌉ + 1` consecutive windows. -/
theorem covered (rotates : Rotates size least window) (positive : 0 < least) {slot : Nat}
    (below : slot < size) (start : Nat) :
    ∃ k, start ≤ k ∧ k < start + ((size + least - 1) / least + 1) ∧ (window k).Holds slot := by
  have started := rotates.first_lt start
  -- `j` windows cost `j * least` slots, and the slots passed on the way are fewer than `size`.
  have affordable : ∀ j, j * least < size → j < (size + least - 1) / least := fun j paid =>
    (Nat.le_div_iff_mul_le positive).mpr (by rw [Nat.succ_mul]; omega)
  by_cases ahead : (window start).first ≤ slot
  · obtain ⟨j, early, holds⟩ := rotates.reaches below start ahead
    have soon := affordable j (by omega)
    exact ⟨start + j, by omega, by omega, holds⟩
  · obtain ⟨j, lap, wrapped⟩ := rotates.wraps start
    obtain ⟨i, early, holds⟩ := rotates.reaches below (start + j + 1) (by omega)
    have soon := affordable (j + i) (by rw [Nat.add_mul]; omega)
    exact ⟨start + j + 1 + i, by omega, by omega, holds⟩

end Rotates

end D2xCios.Lib
