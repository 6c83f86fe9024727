import D2xCios.Lib.Cells

/-!
# Bitmaps in byte arrays

One bit for each index, eight to a byte, lowest bit first. Setting or clearing
one index leaves every other index as it was.
-/

namespace D2xCios.Lib

/-- A bitmap is a byte array. -/
abbrev Bitmap := Cells UInt8

namespace Bitmap

/-- The byte `1 << (index & 7)`. -/
def mask (index : Nat) : UInt8 := 1 <<< UInt8.ofNat (index % 8)

/-- `map[index >> 3] & (1 << (index & 7))`. -/
def test (map : Bitmap) (index : Nat) : Bool := map (index / 8) &&& mask index != 0

/-- `map[index >> 3] |= 1 << (index & 7)`. -/
def set (map : Bitmap) (index : Nat) : Bitmap :=
  map.write (index / 8) (map (index / 8) ||| mask index)

/-- `map[index >> 3] &= ~(1 << (index & 7))`. -/
def clear (map : Bitmap) (index : Nat) : Bitmap :=
  map.write (index / 8) (map (index / 8) &&& ~~~mask index)

/-- Record a flag. -/
def put (map : Bitmap) (index : Nat) (flag : Bool) : Bitmap :=
  if flag then map.set index else map.clear index

/-- The mask of a bit. -/
theorem mask_toBitVec (index : Nat) : (mask index).toBitVec = BitVec.twoPow 8 (index % 8) := by
  have residue : ∀ position < 8,
      ((1 : UInt8) <<< UInt8.ofNat position).toBitVec = BitVec.twoPow 8 position := by
    decide
  exact residue _ (Nat.mod_lt index (by decide))

/-- Testing the mask reads the stored bit. -/
theorem test_eq_bit (map : Bitmap) (index : Nat) :
    map.test index = (map (index / 8)).toBitVec.getLsbD (index % 8) := by
  have inside : index % 8 < 8 := Nat.mod_lt index (by decide)
  have masked : (map (index / 8) &&& mask index).toBitVec =
      if (map (index / 8)).toBitVec.getLsbD (index % 8) then BitVec.twoPow 8 (index % 8)
      else 0#8 := by
    rw [UInt8.toBitVec_and, mask_toBitVec, BitVec.and_twoPow]
  have nonzero : BitVec.twoPow 8 (index % 8) ≠ 0#8 := by
    intro zero
    have selected := congrArg (fun bits => bits.getLsbD (index % 8)) zero
    simp [inside] at selected
  have compared : map.test index = ((map (index / 8) &&& mask index).toBitVec != 0#8) := by
    rw [test, bne, bne, Bool.not_inj_iff, Bool.eq_iff_iff, beq_iff_eq, beq_iff_eq]
    exact UInt8.toBitVec_inj.symm
  rw [compared, masked]
  cases (map (index / 8)).toBitVec.getLsbD (index % 8) <;> simp [nonzero]

@[simp] theorem test_zero (index : Nat) : test (fun _ => 0) index = false := by
  simp [test]

/-- A bit that was set is set, and the others are as before. -/
theorem test_set (map : Bitmap) (index tested : Nat) :
    (map.set index).test tested = (decide (tested = index) || map.test tested) := by
  have inside : tested % 8 < 8 := Nat.mod_lt tested (by decide)
  rw [test_eq_bit, test_eq_bit, set]
  by_cases sameByte : tested / 8 = index / 8
  · have sameIndex : tested % 8 = index % 8 ↔ tested = index := by omega
    rw [sameByte, Cells.write_same, UInt8.toBitVec_or, mask_toBitVec, BitVec.getLsbD_or,
      Bool.or_comm]
    simp [inside, ← sameIndex, eq_comm]
  · have distinct : tested ≠ index := fun same => sameByte (congrArg (· / 8) same)
    rw [Cells.write_other _ _ sameByte]
    simp [distinct]

/-- A bit that was cleared is clear, and the others are as before. -/
theorem test_clear (map : Bitmap) (index tested : Nat) :
    (map.clear index).test tested = (decide (tested ≠ index) && map.test tested) := by
  have inside : tested % 8 < 8 := Nat.mod_lt tested (by decide)
  rw [test_eq_bit, test_eq_bit, clear]
  by_cases sameByte : tested / 8 = index / 8
  · have sameIndex : tested % 8 = index % 8 ↔ tested = index := by omega
    rw [sameByte, Cells.write_same, UInt8.toBitVec_and, UInt8.toBitVec_not, mask_toBitVec,
      BitVec.getLsbD_and, Bool.and_comm]
    simp [inside, ← sameIndex, eq_comm]
  · have distinct : tested ≠ index := fun same => sameByte (congrArg (· / 8) same)
    rw [Cells.write_other _ _ sameByte]
    simp [distinct]

/-- A recorded flag is read back, and no other flag moves. -/
theorem test_put (map : Bitmap) (index tested : Nat) (flag : Bool) :
    (map.put index flag).test tested = if tested = index then flag else map.test tested := by
  cases flag <;> by_cases same : tested = index <;> simp [put, test_set, test_clear, same]

/-- The bitmap that starts at byte `base` of a memory. -/
def mapAt (cells : Cells UInt8) (base : Nat) : Bitmap := fun i => cells (base + i)

/-- `cells[base + (index >> 3)] |= 1 << (index & 7)`. -/
def setAt (cells : Cells UInt8) (base index : Nat) : Cells UInt8 :=
  cells.write (base + index / 8) (cells (base + index / 8) ||| mask index)

/-- A bit that is set in memory is set in its map. -/
theorem mapAt_setAt (cells : Cells UInt8) (base index : Nat) :
    Bitmap.mapAt (setAt cells base index) base = (Bitmap.mapAt cells base).set index := by
  funext i
  by_cases same : i = index / 8
  · simp [Bitmap.mapAt, setAt, set, same]
  · have apart : base + i ≠ base + index / 8 := fun equal => same (Nat.add_left_cancel equal)
    simp [Bitmap.mapAt, setAt, set, Cells.write_other _ _ apart, Cells.write_other _ _ same]

/-- Setting a bit leaves the other bytes. -/
theorem setAt_other (cells : Cells UInt8) {base index i : Nat} (other : i ≠ base + index / 8) :
    setAt cells base index i = cells i :=
  Cells.write_other _ _ other

/-- A flag depends on its own byte only. -/
theorem test_congr {left right : Bitmap} {index : Nat}
    (same : left (index / 8) = right (index / 8)) : left.test index = right.test index := by
  simp [test, same]

end Bitmap

end D2xCios.Lib
