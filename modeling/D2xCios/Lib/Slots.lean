import Mathlib.Data.List.Perm.Basic

/-!
# Tables of slots

A table has a fixed number of slots, and some values mark a slot as free. What is kept in
the other slots is a collection without an order: a value that is stored in a free slot is
added to it, and one that is overwritten by a free mark is taken away.
-/

namespace D2xCios.Lib.Slots

universe u

variable {α : Type u} (free : α → Bool)

/-- The values in slots that are not free. -/
def used (slots : List α) : List α := slots.filter fun v => !free v

variable {free}

/-- The used slots hold what is not a mark. -/
theorem mem_used_iff {slots : List α} {v : α} :
    v ∈ used free slots ↔ v ∈ slots ∧ free v = false := by
  simp [used]

theorem used_append (left right : List α) :
    used free (left ++ right) = used free left ++ used free right :=
  List.filter_append ..

/-- A free slot in front. -/
theorem used_cons_free {v : α} (vacant : free v = true) (slots : List α) :
    used free (v :: slots) = used free slots := by
  simp [used, vacant]

/-- A used slot in front. -/
theorem used_cons_kept {v : α} (kept : free v = false) (slots : List α) :
    used free (v :: slots) = v :: used free slots := by
  simp [used, kept]

/-- A table before and behind one of its slots. -/
theorem exists_split {slots : List α} {i : Nat} {old : α} (here : slots[i]? = some old) (v : α) :
    ∃ before behind, slots = before ++ old :: behind ∧ slots.set i v = before ++ v :: behind := by
  obtain ⟨inside, rfl⟩ := List.getElem?_eq_some_iff.1 here
  obtain ⟨before, behind, split, -, stored⟩ := @List.exists_of_set _ i v slots inside
  exact ⟨before, behind, split, stored⟩

/-- Storing in a free slot. -/
theorem used_store {slots : List α} {i : Nat} {old v : α} (here : slots[i]? = some old)
    (vacant : free old = true) (kept : free v = false) :
    (used free (slots.set i v)).Perm (v :: used free slots) := by
  obtain ⟨before, behind, rfl, stored⟩ := exists_split here v
  rw [stored, used_append, used_append, used_cons_kept kept, used_cons_free vacant]
  exact List.perm_middle

/-- Freeing a slot. -/
theorem used_clear {slots : List α} {i : Nat} {old v : α} (here : slots[i]? = some old)
    (kept : free old = false) (vacant : free v = true) :
    (used free slots).Perm (old :: used free (slots.set i v)) := by
  obtain ⟨before, behind, rfl, cleared⟩ := exists_split here v
  rw [cleared, used_append, used_append, used_cons_kept kept, used_cons_free vacant]
  exact List.perm_middle

/-- There is a free slot as long as fewer values are kept than there are slots. -/
theorem exists_free_iff (slots : List α) :
    (∃ v ∈ slots, free v = true) ↔ (used free slots).length < slots.length := by
  rw [used, List.length_filter_lt_length_iff_exists]
  simp

end D2xCios.Lib.Slots
