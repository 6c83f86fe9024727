import D2xCios.Lib.Cells

/-!
# Transfers from an image into memory

An image is an array of which the cells below `limit` may be read. A transfer
copies a run of its cells to memory and reports whether it did. Transfers of
runs that meet compose, so that a read made of several parts is judged as one.
-/

namespace D2xCios.Lib

universe u

/-- What is left behind by an attempt to copy the `count` cells of `image` from
`start` on to memory at `data`: result 0 exactly when all of them lie below
`limit`, the cells in place if so, and nothing else changed in either case. -/
structure Transfer {α : Type u} (image : Cells α) (limit start data count : Nat)
    (before : Cells α) (ret : Int) (after : Cells α) : Prop where
  zero_iff : ret = 0 ↔ count = 0 ∨ start + count ≤ limit
  contents : ret = 0 → after = before.overlay data (image.window start count)
  frame : ∀ a, a < data ∨ data + count ≤ a → after a = before a

namespace Transfer

variable {α : Type u} {image before middle after : Cells α}
  {limit start data first second : Nat} {ret : Int}

/-- Nothing to copy. -/
theorem nil : Transfer image limit start data 0 before 0 before where
  zero_iff := by simp
  contents _ := by simp
  frame _ _ := rfl

/-- The run was stored. -/
theorem of_overlay {count : Nat} (inside : start + count ≤ limit) :
    Transfer image limit start data count before 0
      (before.overlay data (image.window start count)) where
  zero_iff := by simp [inside]
  contents _ := rfl
  frame a outside := Cells.overlay_outside _ _ _ (by simpa using outside)

/-- Nothing was stored because the run leaves the image. -/
theorem refuse {count : Nat} (count_pos : 0 < count) (beyond : limit < start + count)
    (failed : ret ≠ 0) : Transfer image limit start data count before ret before where
  zero_iff := by
    constructor
    · exact fun zero => absurd zero failed
    · omega
  contents zero := absurd zero failed
  frame _ _ := rfl

/-- A transfer that fails over a run fails over every longer one. -/
theorem fail_append (left : Transfer image limit start data first before ret after)
    (failed : ret ≠ 0) : Transfer image limit start data (first + second) before ret after where
  zero_iff := by
    have beyond : ¬ (first = 0 ∨ start + first ≤ limit) :=
      fun fits => failed (left.zero_iff.mpr fits)
    constructor
    · exact fun zero => absurd zero failed
    · intro fits
      omega
  contents zero := absurd zero failed
  frame a outside := left.frame a (by omega)

/-- Two transfers that meet are one. -/
theorem append (left : Transfer image limit start data first before 0 middle)
    (right : Transfer image limit (start + first) (data + first) second middle ret after) :
    Transfer image limit start data (first + second) before ret after where
  zero_iff := by
    have fits := left.zero_iff.mp rfl
    rw [right.zero_iff]
    omega
  contents zero := by
    have stored := Cells.overlay_append before data (image.window start first)
      (image.window (start + first) second)
    rw [Cells.window_length, Cells.window_append] at stored
    rw [right.contents zero, left.contents rfl, stored]
  frame a outside := by
    rw [right.frame a (by omega), left.frame a (by omega)]

end Transfer

end D2xCios.Lib
