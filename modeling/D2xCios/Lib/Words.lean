import D2xCios.Lib.Cells

/-!
# Machine words in byte memory

Big-endian loads and stores of 16- and 32-bit words, and the little-endian
packing of up to four raw bytes into one 32-bit word.
-/

namespace D2xCios.Lib

/-- A byte-addressed memory; a C byte buffer is the memory from its first byte. -/
abbrev Mem := Cells UInt8

/-- A buffer that starts with the given bytes and is clear behind them. -/
def bufferOf (bytes : List UInt8) : Mem := fun i => bytes.getD i 0

/-- A buffer received from a memory holds that memory's cells. -/
theorem bufferOf_window (mem : Mem) {count i : Nat} (inside : i < count) :
    bufferOf (mem.window 0 count) i = mem i := by
  simp [bufferOf, List.getD_eq_getElem?_getD, Cells.window, inside]

/-- The 16-bit word a big-endian processor loads at `offset`. -/
def be16 (mem : Mem) (offset : Nat) : UInt16 :=
  UInt16.ofNat ((mem offset).toNat * 256 + (mem (offset + 1)).toNat)

/-- The 32-bit word a big-endian processor loads at `offset`. -/
def be32 (mem : Mem) (offset : Nat) : UInt32 :=
  UInt32.ofNat ((mem offset).toNat * 16777216 + (mem (offset + 1)).toNat * 65536 +
    (mem (offset + 2)).toNat * 256 + (mem (offset + 3)).toNat)

/-- A 16-bit word as stored by a big-endian processor. -/
def bytes16 (value : UInt16) : List UInt8 :=
  [UInt8.ofNat (value.toNat / 256), UInt8.ofNat value.toNat]

/-- A 32-bit word as stored by a big-endian processor. -/
def bytes32 (value : UInt32) : List UInt8 :=
  [UInt8.ofNat (value.toNat / 16777216), UInt8.ofNat (value.toNat / 65536),
    UInt8.ofNat (value.toNat / 256), UInt8.ofNat value.toNat]

@[simp] theorem bytes16_length (value : UInt16) : (bytes16 value).length = 2 := rfl

@[simp] theorem bytes32_length (value : UInt32) : (bytes32 value).length = 4 := rfl

/-- Loading where a word's bytes lie yields the word. -/
theorem be16_of_bytes {mem : Mem} {offset : Nat} {value : UInt16}
    (stored : mem.window offset 2 = bytes16 value) : be16 mem offset = value := by
  have cells : [mem (offset + 0), mem (offset + 1)] = bytes16 value := stored
  simp only [bytes16, Nat.add_zero, List.cons.injEq, and_true] at cells
  obtain ⟨high, low⟩ := cells
  have bound := value.toNat_lt
  apply UInt16.toNat_inj.mp
  simp only [be16, high, low, UInt16.toNat_ofNat', UInt8.toNat_ofNat']
  omega

/-- The bytes of a word are read back as the word. -/
theorem be32_of_bytes {mem : Mem} {offset : Nat} {value : UInt32}
    (stored : mem.window offset 4 = bytes32 value) : be32 mem offset = value := by
  have cells : [mem (offset + 0), mem (offset + 1), mem (offset + 2), mem (offset + 3)] =
      bytes32 value := stored
  simp only [bytes32, Nat.add_zero, List.cons.injEq, and_true] at cells
  obtain ⟨byte3, byte2, byte1, byte0⟩ := cells
  have bound := value.toNat_lt
  apply UInt32.toNat_inj.mp
  simp only [be32, byte3, byte2, byte1, byte0, UInt32.toNat_ofNat', UInt8.toNat_ofNat']
  omega

/-- The number whose base-256 digits are `bytes`, least significant first. -/
def lePack : List UInt8 → Nat
  | [] => 0
  | byte :: rest => byte.toNat + 256 * lePack rest

theorem lePack_snoc (bytes : List UInt8) (byte : UInt8) :
    lePack (bytes ++ [byte]) = lePack bytes + byte.toNat * 256 ^ bytes.length := by
  induction bytes with
  | nil => simp [lePack]
  | cons head rest ih =>
    rw [List.cons_append, lePack, lePack, ih, List.length_cons, Nat.pow_succ, Nat.mul_add,
      ← Nat.add_assoc]
    congr 1
    rw [Nat.mul_left_comm, Nat.mul_comm 256 (256 ^ rest.length)]

theorem lePack_lt (bytes : List UInt8) : lePack bytes < 256 ^ bytes.length := by
  induction bytes with
  | nil => simp [lePack]
  | cons byte rest ih =>
    have bound := byte.toNat_lt
    rw [lePack, List.length_cons, Nat.pow_succ]
    omega

/-- Lists of one length are determined by the number they stand for. -/
theorem lePack_injective {left right : List UInt8} (same : lePack left = lePack right)
    (lengths : left.length = right.length) : left = right := by
  induction left generalizing right with
  | nil => exact (List.length_eq_zero_iff.mp lengths.symm).symm
  | cons byte rest ih =>
    cases right with
    | nil => cases lengths
    | cons other others =>
      have byte_lt := byte.toNat_lt
      have other_lt := other.toNat_lt
      simp only [lePack] at same
      have heads : byte = other := UInt8.toNat_inj.mp (by omega)
      rw [heads, ih (by omega) (Nat.succ.inj lengths)]

/-- Zero bytes make a zero. -/
theorem lePack_zeros (width : Nat) : lePack (List.replicate width 0) = 0 := by
  induction width with
  | zero => rfl
  | succ width ih => simp [List.replicate_succ, lePack, ih]

/-- Byte `k` of a word, counted from the least significant one. -/
def byteAt (value : UInt32) (k : Nat) : UInt8 := UInt8.ofNat (value.toNat / 256 ^ k)

/-- A byte of a word, as a number. -/
theorem byteAt_toNat (value : UInt32) (k : Nat) :
    (byteAt value k).toNat = value.toNat / 256 ^ k % 256 := by
  simp [byteAt]

/-- The low `width` bytes of a word, least significant first. -/
def leBytes (width : Nat) (value : UInt32) : List UInt8 :=
  (List.range width).map (byteAt value)

@[simp] theorem leBytes_length (width : Nat) (value : UInt32) :
    (leBytes width value).length = width := by
  simp [leBytes]

/-- The low bytes of a word pack back to the word truncated to their width. -/
theorem lePack_leBytes (width : Nat) (value : UInt32) :
    lePack (leBytes width value) = value.toNat % 256 ^ width := by
  induction width with
  | zero => simp [leBytes, lePack, Nat.mod_one]
  | succ width ih =>
    have unfolded : leBytes (width + 1) value =
        leBytes width value ++ [byteAt value width] := by
      simp [leBytes, List.range_succ]
    have digit : value.toNat % 256 ^ (width + 1) =
        value.toNat % 256 ^ width + 256 ^ width * (value.toNat / 256 ^ width % 256) := by
      rw [Nat.pow_succ, Nat.mod_mul]
    rw [unfolded, lePack_snoc, ih, leBytes_length, byteAt_toNat, digit,
      Nat.mul_comm (256 ^ width)]

/-- The low bytes of a word are all clear exactly when the word is a multiple of
what they hold. -/
theorem leBytes_eq_zeros {width : Nat} {value : UInt32} :
    leBytes width value = List.replicate width 0 ↔ value.toNat % 256 ^ width = 0 := by
  rw [← lePack_leBytes, ← lePack_zeros width]
  exact ⟨fun same => congrArg lePack same, fun same => lePack_injective same (by simp)⟩

/-- A byte shifted to place `k`. -/
theorem shifted_toNat (byte : UInt8) {k : Nat} (k_lt : k < 4) :
    (byte.toUInt32 <<< UInt32.ofNat (8 * k)).toNat = byte.toNat * 256 ^ k := by
  have byte_lt := byte.toNat_lt
  have power : (256 : Nat) ^ k = 2 ^ (8 * k) := by rw [Nat.pow_mul]
  have small : byte.toNat * 2 ^ (8 * k) < 2 ^ 32 := by
    have top : byte.toNat * 2 ^ (8 * k) ≤ byte.toNat * 2 ^ 24 :=
      Nat.mul_le_mul_left _ (Nat.pow_le_pow_right (by omega) (by omega))
    omega
  have amount : (8 * k) % 2 ^ 32 % 32 = 8 * k := by omega
  simp only [UInt32.toNat_shiftLeft, UInt8.toNat_toUInt32, UInt32.toNat_ofNat', amount]
  rw [Nat.shiftLeft_eq, Nat.mod_eq_of_lt small, power]

/-- OR-ing a byte in above the bits used so far adds its digit. -/
theorem orShift_toNat {acc : UInt32} {byte : UInt8} {k : Nat} (k_lt : k < 4)
    (low : acc.toNat < 256 ^ k) :
    (acc ||| (byte.toUInt32 <<< UInt32.ofNat (8 * k))).toNat =
      acc.toNat + byte.toNat * 256 ^ k := by
  have power : (256 : Nat) ^ k = 2 ^ (8 * k) := by rw [Nat.pow_mul]
  rw [UInt32.toNat_or, shifted_toNat byte k_lt, Nat.or_comm, power, ← Nat.shiftLeft_eq,
    ← Nat.shiftLeft_add_eq_or_of_lt (power ▸ low), Nat.shiftLeft_eq, Nat.add_comm]

/-- The loop `for (k = 0; k < width; k++) v |= (u32)byte(k) << (8 * k)`. -/
def orShiftLoop (width : Nat) (byte : Nat → UInt8) : UInt32 :=
  (List.range width).foldl
    (fun acc k => acc ||| ((byte k).toUInt32 <<< UInt32.ofNat (8 * k))) 0

/-- For at most four bytes the loop computes the little-endian number. -/
theorem orShiftLoop_toNat {width : Nat} (width_le : width ≤ 4) (byte : Nat → UInt8) :
    (orShiftLoop width byte).toNat = lePack ((List.range width).map byte) := by
  induction width with
  | zero => rfl
  | succ width ih =>
    have prior := ih (by omega)
    have low : (orShiftLoop width byte).toNat < 256 ^ width := by
      have bound := lePack_lt ((List.range width).map byte)
      rw [prior]
      simpa using bound
    have unfolded : orShiftLoop (width + 1) byte = orShiftLoop width byte |||
        ((byte width).toUInt32 <<< UInt32.ofNat (8 * width)) := by
      simp [orShiftLoop, List.range_succ]
    rw [unfolded, orShift_toNat (by omega) low, prior, List.range_succ, List.map_append,
      List.map_singleton, lePack_snoc]
    simp

/-! ## Bytes selected by masks -/

/-- Masking a byte leaves that byte, in its place. -/
theorem and_byteMask (n k : Nat) : n &&& 255 * 256 ^ k = n / 256 ^ k % 256 * 256 ^ k := by
  have power : (256 : Nat) ^ k = 2 ^ (8 * k) := by rw [Nat.pow_mul]
  rw [power]
  apply Nat.eq_of_testBit_eq
  intro i
  have mask : (255 : Nat).testBit (i - 8 * k) = decide (i - 8 * k < 8) :=
    Nat.testBit_two_pow_sub_one 8 _
  have digit : (256 : Nat) = 2 ^ 8 := rfl
  rw [Nat.testBit_and, Nat.testBit_mul_two_pow, Nat.testBit_mul_two_pow, mask, digit,
    Nat.testBit_mod_two_pow, Nat.testBit_div_two_pow]
  by_cases above : 8 * k ≤ i
  · rw [Nat.sub_add_cancel above]
    cases n.testBit i <;> simp [above]
  · simp [above]

/-- Masking a byte of a word leaves that byte, in its place. -/
theorem and_mask_toNat {mask : UInt32} {k : Nat} (masks : mask.toNat = 255 * 256 ^ k)
    (value : UInt32) : (value &&& mask).toNat = (byteAt value k).toNat * 256 ^ k := by
  rw [UInt32.toNat_and, masks, and_byteMask, byteAt_toNat]

/-- Byte `k`, selected by its mask and shifted down to place `j`. -/
theorem mask_shiftDown (mask : UInt32) (k j : Nat) (masks : mask.toNat = 255 * 256 ^ k)
    (j_le : j ≤ k) (k_lt : k < 4) (value : UInt32) :
    (value &&& mask) >>> UInt32.ofNat (8 * (k - j)) =
      (byteAt value k).toUInt32 <<< UInt32.ofNat (8 * j) := by
  apply UInt32.toNat_inj.mp
  have amount : 8 * (k - j) % 2 ^ 32 % 32 = 8 * (k - j) := by omega
  have place : 8 * j % 2 ^ 32 % 32 = 8 * j := by omega
  have split : (256 : Nat) ^ k = 256 ^ j * 2 ^ (8 * (k - j)) := by
    rw [Nat.pow_mul, ← Nat.pow_add, Nat.add_sub_cancel' j_le]
  have bound : (byteAt value k).toNat * 256 ^ j < 2 ^ 32 := by
    have byte_lt := (byteAt value k).toNat_lt
    have top : (byteAt value k).toNat * 256 ^ j ≤ (byteAt value k).toNat * 256 ^ 3 :=
      Nat.mul_le_mul_left _ (Nat.pow_le_pow_right (by omega) (by omega))
    omega
  simp only [UInt32.toNat_shiftRight, UInt32.toNat_shiftLeft, UInt8.toNat_toUInt32,
    UInt32.toNat_ofNat', amount, place, and_mask_toNat masks value]
  rw [Nat.shiftRight_eq_div_pow, Nat.shiftLeft_eq, split, ← Nat.mul_assoc,
    Nat.mul_div_cancel _ (Nat.two_pow_pos _), Nat.pow_mul, Nat.mod_eq_of_lt bound]

/-- Byte `k`, selected by its mask and shifted up to place `j`. -/
theorem mask_shiftUp (mask : UInt32) (k j : Nat) (masks : mask.toNat = 255 * 256 ^ k)
    (k_le : k ≤ j) (j_lt : j < 4) (value : UInt32) :
    (value &&& mask) <<< UInt32.ofNat (8 * (j - k)) =
      (byteAt value k).toUInt32 <<< UInt32.ofNat (8 * j) := by
  apply UInt32.toNat_inj.mp
  have amount : 8 * (j - k) % 2 ^ 32 % 32 = 8 * (j - k) := by omega
  have place : 8 * j % 2 ^ 32 % 32 = 8 * j := by omega
  have split : (256 : Nat) ^ k * 2 ^ (8 * (j - k)) = 2 ^ (8 * j) := by
    rw [Nat.pow_mul, Nat.pow_mul, ← Nat.pow_add, Nat.add_sub_cancel' k_le]
  simp only [UInt32.toNat_shiftLeft, UInt8.toNat_toUInt32, UInt32.toNat_ofNat', amount, place,
    and_mask_toNat masks value]
  rw [Nat.shiftLeft_eq, Nat.shiftLeft_eq, Nat.mul_assoc, split]

/-- The cast `(u8)(value >> (8 * k))`. -/
theorem shiftRight_toUInt8 {k : Nat} (k_lt : k < 4) (value : UInt32) :
    (value >>> UInt32.ofNat (8 * k)).toUInt8 = byteAt value k := by
  apply UInt8.toNat_inj.mp
  have amount : 8 * k % 2 ^ 32 % 32 = 8 * k := by omega
  rw [byteAt_toNat, UInt32.toNat_toUInt8, UInt32.toNat_shiftRight, UInt32.toNat_ofNat', amount,
    Nat.shiftRight_eq_div_pow, Nat.pow_mul]

/-- The word with the given bytes, least significant first. -/
def leWord (bytes : List UInt8) : UInt32 := UInt32.ofNat (lePack bytes)

/-- The packing loop builds the word of the bytes it reads. -/
theorem orShiftLoop_eq_leWord (width : Nat) (width_le : width ≤ 4) (byte : Nat → UInt8) :
    orShiftLoop width byte = leWord ((List.range width).map byte) := by
  rw [leWord, ← orShiftLoop_toNat width_le byte, UInt32.ofNat_toNat]

/-- Masking all but the low bytes away leaves the word of those bytes. -/
theorem and_low_eq_leWord (mask : UInt32) (width : Nat)
    (masks : mask.toNat = 2 ^ (8 * width) - 1) (value : UInt32) :
    value &&& mask = leWord (leBytes width value) := by
  apply UInt32.toNat_inj.mp
  have small : value.toNat % 256 ^ width < 2 ^ 32 :=
    Nat.lt_of_le_of_lt (Nat.mod_le _ _) value.toNat_lt
  rw [UInt32.toNat_and, masks, Nat.and_two_pow_sub_one_eq_mod, leWord, UInt32.toNat_ofNat',
    lePack_leBytes, Nat.mod_eq_of_lt small, Nat.pow_mul]

/-! ## Bytes from the top down -/

/-- The bytes of a word that is put together are put together. -/
theorem byteAt_or (a b : UInt32) (k : Nat) : byteAt (a ||| b) k = byteAt a k ||| byteAt b k := by
  apply UInt8.toNat_inj.mp
  have power : (256 : Nat) ^ k = 2 ^ (8 * k) := by rw [Nat.pow_mul]
  have byte : (256 : Nat) = 2 ^ 8 := rfl
  rw [UInt8.toNat_or, byteAt_toNat, byteAt_toNat, byteAt_toNat, UInt32.toNat_or, power,
    Nat.or_div_two_pow, byte, Nat.or_mod_two_pow]

@[simp] theorem byteAt_zero (k : Nat) : byteAt 0 k = 0 := by
  simp [byteAt]

/-- A byte shifted to place `j` is byte `j`, and the others are clear. -/
theorem byteAt_shifted (byte : UInt8) {j : Nat} (j_lt : j < 4) (k : Nat) :
    byteAt (byte.toUInt32 <<< UInt32.ofNat (8 * j)) k = if k = j then byte else 0 := by
  have byte_lt := byte.toNat_lt
  apply UInt8.toNat_inj.mp
  rw [byteAt_toNat, shifted_toNat byte j_lt]
  rcases Nat.lt_trichotomy k j with below | rfl | above
  · obtain ⟨d, rfl⟩ : ∃ d, j = k + (d + 1) := ⟨j - k - 1, by omega⟩
    have places : byte.toNat * 256 ^ (k + (d + 1)) = byte.toNat * 256 ^ d * 256 * 256 ^ k := by
      rw [Nat.add_comm k, Nat.pow_add, Nat.pow_succ, Nat.mul_assoc, Nat.mul_assoc, Nat.mul_assoc]
    rw [places, Nat.mul_div_cancel _ (Nat.pow_pos (by decide)), Nat.mul_mod_left,
      if_neg (Nat.ne_of_lt below)]
    rfl
  · rw [Nat.mul_div_cancel _ (Nat.pow_pos (by decide)), Nat.mod_eq_of_lt byte_lt, if_pos rfl]
  · obtain ⟨d, rfl⟩ : ∃ d, k = j + (d + 1) := ⟨k - j - 1, by omega⟩
    have beyond : byte.toNat < 256 ^ (d + 1) :=
      Nat.lt_of_lt_of_le byte_lt (Nat.le_self_pow (by omega) 256)
    rw [Nat.pow_add, ← Nat.div_div_eq_div_mul, Nat.mul_div_cancel _ (Nat.pow_pos (by decide)),
      Nat.div_eq_of_lt beyond, if_neg (Nat.ne_of_gt above)]
    rfl

/-- The loop `for (i = 0; i < n; i++) val |= (u32)byte(i) << (8 * (3 - i))`. -/
def packLoop (n : Nat) (byte : Nat → UInt8) : UInt32 :=
  (List.range n).foldl
    (fun val i => val ||| ((byte i).toUInt32 <<< UInt32.ofNat (8 * (3 - i)))) 0

/-- The bytes that were packed, and zeros behind them. -/
theorem byteAt_packLoop {n i : Nat} (n_le : n ≤ 4) (i_lt : i < 4) (byte : Nat → UInt8) :
    byteAt (packLoop n byte) (3 - i) = if i < n then byte i else 0 := by
  induction n with
  | zero => simp [packLoop]
  | succ n ih =>
    have unfolded : packLoop (n + 1) byte =
        packLoop n byte ||| ((byte n).toUInt32 <<< UInt32.ofNat (8 * (3 - n))) := by
      simp [packLoop, List.range_succ]
    rw [unfolded, byteAt_or, ih (by omega), byteAt_shifted _ (by omega)]
    rcases Nat.lt_trichotomy i n with before | rfl | behind
    · simp [before, show 3 - i ≠ 3 - n by omega, show i < n + 1 by omega]
    · simp
    · simp [show 3 - i ≠ 3 - n by omega, show ¬ i < n by omega, show ¬ i < n + 1 by omega]

/-- The bytes of a word, from the highest one on. -/
theorem bytes32_eq (value : UInt32) :
    bytes32 value = (List.range 4).map fun i => byteAt value (3 - i) := by
  simp [bytes32, byteAt, List.range_succ]

/-- The first bytes of a packed word are the bytes packed into it. -/
theorem bytes32_packLoop {n : Nat} (n_le : n ≤ 4) (byte : Nat → UInt8) :
    (bytes32 (packLoop n byte)).take n = (List.range n).map byte := by
  rw [bytes32_eq, ← List.map_take, List.take_range, Nat.min_eq_left n_le]
  refine List.map_congr_left fun i inside => ?_
  have i_lt := List.mem_range.mp inside
  rw [byteAt_packLoop n_le (by omega), if_pos i_lt]

/-- Byte `i` from the top, as `(val >> (8 * (3 - i))) & 0xFF` gets it. -/
def unpacked (val : UInt32) (i : Nat) : UInt8 :=
  ((val >>> UInt32.ofNat (8 * (3 - i))) &&& 0xFF).toUInt8

/-- The bytes are unpacked from the highest one on. -/
theorem unpacked_eq (val : UInt32) (i : Nat) : unpacked val i = byteAt val (3 - i) := by
  have kept : ∀ word : UInt32, (word &&& 0xFF).toUInt8 = word.toUInt8 := fun word => by
    apply UInt8.toNat_inj.mp
    have mask : word.toNat &&& 255 = word.toNat % 256 := Nat.and_two_pow_sub_one_eq_mod _ 8
    have low : (0xFF : UInt32).toNat = 255 := rfl
    rw [UInt32.toNat_toUInt8, UInt32.toNat_toUInt8, UInt32.toNat_and, low, mask]
    exact Nat.mod_mod _ _
  rw [unpacked, kept, shiftRight_toUInt8 (by omega)]

/-- A loaded word unpacks to the bytes it was loaded from. -/
theorem unpacked_be32 (mem : Mem) {offset i : Nat} (i_lt : i < 4) :
    unpacked (be32 mem offset) i = mem (offset + i) := by
  have b0 := (mem offset).toNat_lt
  have b1 := (mem (offset + 1)).toNat_lt
  have b2 := (mem (offset + 2)).toNat_lt
  have b3 := (mem (offset + 3)).toNat_lt
  rw [unpacked_eq]
  apply UInt8.toNat_inj.mp
  rw [byteAt_toNat, be32, UInt32.toNat_ofNat']
  obtain rfl | rfl | rfl | rfl : i = 0 ∨ i = 1 ∨ i = 2 ∨ i = 3 := by omega
  all_goals
    simp
    omega

end D2xCios.Lib
