import D2xCios.Lib.Words

/-!
# Memory in blocks

A run of bytes that lies in blocks of one size, in any places. A part of the run within a block is
a part of the block, and whole blocks of the run are these blocks one after the other.
-/

namespace D2xCios.Lib

/-- An index in the block of another one. -/
theorem within_block {size k i : Nat} (fits : k % size + i < size) :
    (k + i) / size = k / size ∧ (k + i) % size = k % size + i := by
  have size_pos : 0 < size := by omega
  have split := Nat.div_add_mod k size
  constructor
  · rw [← split, Nat.add_assoc, Nat.mul_add_div size_pos, Nat.div_eq_of_lt fits, split,
      Nat.add_zero]
  · rw [← split, Nat.add_assoc, Nat.mul_add_mod, Nat.mod_eq_of_lt fits, Nat.mul_add_mod,
      Nat.mod_mod]

/-- The index before one on the boundary of a block. -/
theorem pred_div_boundary {k size : Nat} (k_pos : 0 < k) (size_pos : 0 < size)
    (boundary : k % size = 0) : (k - 1) / size + 1 = k / size := by
  obtain ⟨m, rfl⟩ := Nat.dvd_of_mod_eq_zero boundary
  have m_pos : 0 < m := Nat.pos_of_mul_pos_left k_pos
  obtain ⟨n, rfl⟩ : ∃ n, m = n + 1 := ⟨m - 1, by omega⟩
  rw [Nat.mul_div_cancel_left _ size_pos, Nat.mul_add, Nat.mul_one, Nat.add_sub_assoc size_pos,
    Nat.mul_add_div size_pos, Nat.div_eq_of_lt (Nat.sub_lt size_pos Nat.one_pos), Nat.add_zero]

/-- The index before another one. -/
theorem pred_div_inside {k size : Nat} (inside : k % size ≠ 0) : (k - 1) / size = k / size := by
  have split := Nat.div_add_mod k size
  have k_pos : 0 < k := Nat.pos_of_ne_zero fun zero => inside (by rw [zero, Nat.zero_mod])
  by_cases size_pos : 0 < size
  · have rest := Nat.mod_lt k size_pos
    have before : k - 1 = size * (k / size) + (k % size - 1) := by omega
    have small : k % size - 1 < size := by omega
    rw [before, Nat.mul_add_div size_pos, Nat.div_eq_of_lt small, Nat.add_zero]
  · rw [Nat.eq_zero_of_not_pos size_pos, Nat.div_zero, Nat.div_zero]

/-- The bytes in the blocks. -/
def blocked (size : Nat) (block : Nat → Mem) : Mem := fun k => block (k / size) (k % size)

variable {size : Nat} {block : Nat → Mem}

/-- A part of one block. -/
theorem window_blocked {k n : Nat} (fits : k % size + n ≤ size) :
    Cells.window (blocked size block) k n = Cells.window (block (k / size)) (k % size) n := by
  refine List.map_congr_left fun i member => ?_
  have place := within_block (i := i) (k := k)
    (Nat.lt_of_lt_of_le (Nat.add_lt_add_left (List.mem_range.1 member) _) fits)
  rw [blocked, place.1, place.2]

/-- Some whole blocks. -/
theorem window_blocks (size_pos : 0 < size) (q count : Nat) :
    Cells.window (blocked size block) (q * size) (count * size) =
      (List.range count).flatMap fun i => Cells.window (block (q + i)) 0 size := by
  induction count with
  | zero => rw [Nat.zero_mul, Cells.window_zero]; rfl
  | succ count ih =>
    have start : q * size + count * size = (q + count) * size := (Nat.add_mul ..).symm
    rw [Nat.add_mul, Nat.one_mul, ← Cells.window_append, ih, List.range_succ,
      List.flatMap_append, start,
      window_blocked (by rw [Nat.mul_mod_left]; omega), Nat.mul_div_cancel _ size_pos,
      Nat.mul_mod_left]
    simp

end D2xCios.Lib
