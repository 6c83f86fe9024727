import D2xCios.Lib.Words

/-!
# Tables packed into bytes

A table of numbers that lies packed in a byte memory: entries of 16 bits, of the low 28 of 32 bits,
and of 12 bits, of which two share a byte. What they have in common is a pair of a load and a store
that obey the laws of an array, and the bytes that an entry takes part in.
-/

namespace D2xCios.Lib

/-- A way to pack a table. -/
structure Packing where
  get : Mem → Nat → Nat
  put : Mem → Nat → Nat → Mem
  /-- How many values an entry can have. -/
  size : Nat
  /-- The first byte that an entry takes part in, and how many these are. -/
  first : Nat → Nat
  width : Nat
  get_put : ∀ m c v, get (put m c v) c = v % size
  get_put_other : ∀ m v {c d}, d ≠ c → get (put m c v) d = get m d
  put_outside : ∀ m c v {i}, i < first c ∨ first c + width ≤ i → put m c v i = m i
  get_congr : ∀ {m m' c}, (∀ i, first c ≤ i → i < first c + width → m i = m' i) → get m c = get m' c
  get_lt : ∀ m c, get m c < size

/-! ## Little-endian words -/

/-- The little-endian number in two bytes. -/
def le16 (m : Mem) (offset : Nat) : Nat := (m offset).toNat + 256 * (m (offset + 1)).toNat

/-- The little-endian number in four bytes. -/
def le32 (m : Mem) (offset : Nat) : Nat :=
  (m offset).toNat + 256 * (m (offset + 1)).toNat + 65536 * (m (offset + 2)).toNat +
    16777216 * (m (offset + 3)).toNat

/-- The memory once a number is stored in two bytes. -/
def putLe16 (m : Mem) (offset value : Nat) : Mem :=
  (m.write offset (UInt8.ofNat value)).write (offset + 1) (UInt8.ofNat (value / 256))

/-- The memory once a number is stored in four bytes. -/
def putLe32 (m : Mem) (offset value : Nat) : Mem :=
  (((m.write offset (UInt8.ofNat value)).write (offset + 1) (UInt8.ofNat (value / 256))).write
    (offset + 2) (UInt8.ofNat (value / 65536))).write (offset + 3) (UInt8.ofNat (value / 16777216))

theorem le16_lt (m : Mem) (offset : Nat) : le16 m offset < 65536 := by
  have low := (m offset).toNat_lt
  have high := (m (offset + 1)).toNat_lt
  unfold le16
  omega

theorem le32_lt (m : Mem) (offset : Nat) : le32 m offset < 4294967296 := by
  have b0 := (m offset).toNat_lt
  have b1 := (m (offset + 1)).toNat_lt
  have b2 := (m (offset + 2)).toNat_lt
  have b3 := (m (offset + 3)).toNat_lt
  unfold le32
  omega

/-- Other bytes are left alone. -/
theorem putLe16_outside (m : Mem) (offset value : Nat) {i : Nat}
    (outside : i < offset ∨ offset + 2 ≤ i) : putLe16 m offset value i = m i := by
  rw [putLe16, Cells.write_other _ _ (by omega), Cells.write_other _ _ (by omega)]

/-- Other bytes are left alone. -/
theorem putLe32_outside (m : Mem) (offset value : Nat) {i : Nat}
    (outside : i < offset ∨ offset + 4 ≤ i) : putLe32 m offset value i = m i := by
  rw [putLe32, Cells.write_other _ _ (by omega), Cells.write_other _ _ (by omega),
    Cells.write_other _ _ (by omega), Cells.write_other _ _ (by omega)]

/-- What was put is read back. -/
theorem le16_putLe16 (m : Mem) (offset value : Nat) :
    le16 (putLe16 m offset value) offset = value % 65536 := by
  rw [le16, putLe16, Cells.write_other _ _ (by omega), Cells.write_same, Cells.write_same,
    UInt8.toNat_ofNat', UInt8.toNat_ofNat']
  omega

/-- What was put is read back. -/
theorem le32_putLe32 (m : Mem) (offset value : Nat) :
    le32 (putLe32 m offset value) offset = value % 4294967296 := by
  have stored : ∀ i, i < 4 →
      (putLe32 m offset value (offset + i)).toNat = value / 256 ^ i % 256 := by
    intro i i_lt
    obtain rfl | rfl | rfl | rfl : i = 0 ∨ i = 1 ∨ i = 2 ∨ i = 3 := by omega
    all_goals simp [putLe32, Cells.write]
  have b0 := stored 0 (by omega)
  have b1 := stored 1 (by omega)
  have b2 := stored 2 (by omega)
  have b3 := stored 3 (by omega)
  simp only [Nat.add_zero, Nat.pow_zero, Nat.div_one, Nat.pow_one] at b0 b1
  rw [le32, b0, b1, b2, b3]
  omega

theorem le16_congr {m m' : Mem} {offset : Nat}
    (same : ∀ i, offset ≤ i → i < offset + 2 → m i = m' i) : le16 m offset = le16 m' offset := by
  rw [le16, le16, same offset (by omega) (by omega), same (offset + 1) (by omega) (by omega)]

theorem le32_congr {m m' : Mem} {offset : Nat}
    (same : ∀ i, offset ≤ i → i < offset + 4 → m i = m' i) : le32 m offset = le32 m' offset := by
  rw [le32, le32, same offset (by omega) (by omega), same (offset + 1) (by omega) (by omega),
    same (offset + 2) (by omega) (by omega), same (offset + 3) (by omega) (by omega)]

/-- A mask of `k` bits from bit `j` on. -/
theorem and_upperMask (n j k : Nat) :
    n &&& (2 ^ k - 1) * 2 ^ j = n / 2 ^ j % 2 ^ k * 2 ^ j := by
  apply Nat.eq_of_testBit_eq
  intro i
  rw [Nat.testBit_and, Nat.testBit_mul_two_pow, Nat.testBit_mul_two_pow,
    Nat.testBit_two_pow_sub_one, Nat.testBit_mod_two_pow, Nat.testBit_div_two_pow]
  by_cases above : j ≤ i
  · rw [Nat.sub_add_cancel above]
    cases n.testBit i <;> simp [above]
  · simp [above]

/-- All bits but the lowest `k`. -/
theorem and_xor_mask {n w k : Nat} (n_lt : n < 2 ^ w) :
    n &&& (2 ^ w - 1 ^^^ 2 ^ k - 1) = n / 2 ^ k * 2 ^ k := by
  apply Nat.eq_of_testBit_eq
  intro i
  rw [Nat.testBit_and, Nat.testBit_xor, Nat.testBit_two_pow_sub_one, Nat.testBit_two_pow_sub_one,
    Nat.testBit_mul_two_pow, Nat.testBit_div_two_pow]
  by_cases above : k ≤ i
  · rw [Nat.sub_add_cancel above]
    by_cases inside : i < w
    · simp [above, inside, Nat.not_lt.2 above]
    · have none : n.testBit i = false :=
        Nat.testBit_lt_two_pow
          (Nat.lt_of_lt_of_le n_lt (Nat.pow_le_pow_right (by decide) (Nat.not_lt.1 inside)))
      simp [none]
  · have low : i < k := Nat.not_le.1 above
    by_cases inside : i < w
    · simp [above, inside, low]
    · have none : n.testBit i = false :=
        Nat.testBit_lt_two_pow
          (Nat.lt_of_lt_of_le n_lt (Nat.pow_le_pow_right (by decide) (Nat.not_lt.1 inside)))
      simp [above, none]

/-- Bits that do not overlap are added. -/
theorem or_upper {low : Nat} (high : Nat) {j : Nat} (fits : low < 2 ^ j) :
    low ||| high * 2 ^ j = low + high * 2 ^ j := by
  rw [Nat.or_comm, ← Nat.shiftLeft_eq, ← Nat.shiftLeft_add_eq_or_of_lt fits, Nat.add_comm]

/-! ## Entries of 16 bits, and of 28 bits in 32 -/

/-- Entries of 16 bits. -/
def packing16 : Packing where
  get m c := le16 m (2 * c)
  put m c v := putLe16 m (2 * c) v
  size := 65536
  first c := 2 * c
  width := 2
  get_put m c v := le16_putLe16 m (2 * c) v
  get_put_other m v c d other := le16_congr fun i _ _ => putLe16_outside m (2 * c) v (by omega)
  put_outside m c v i outside := putLe16_outside m (2 * c) v outside
  get_congr same := le16_congr same
  get_lt m c := le16_lt m (2 * c)

/-- Entries of 28 bits, each in a word of its own whose upper four bits are not part of it. -/
def packing28 : Packing where
  get m c := le32 m (4 * c) % 268435456
  put m c v := putLe32 m (4 * c) (v % 268435456 + le32 m (4 * c) / 268435456 * 268435456)
  size := 268435456
  first c := 4 * c
  width := 4
  get_put m c v := by
    have word := le32_lt m (4 * c)
    rw [le32_putLe32]
    omega
  get_put_other m v c d other := by
    rw [le32_congr fun i _ _ => putLe32_outside m (4 * c) _ (by omega)]
  put_outside m c v i outside := putLe32_outside m (4 * c) _ outside
  get_congr same := by rw [le32_congr same]
  get_lt m c := Nat.mod_lt _ (by decide)

/-! ## Entries of 12 bits -/

/-- The two bytes that entry `c` takes part in, as a number. -/
def pair12 (m : Mem) (c : Nat) : Nat := le16 m (c + c / 2)

/-- Entry `c`: the upper twelve bits of its two bytes if `c` is odd, and the lower ones if not. -/
def get12 (m : Mem) (c : Nat) : Nat :=
  if c % 2 = 1 then pair12 m c / 16 else pair12 m c % 4096

/-- The two bytes once entry `c` has been stored next to the four bits that are not part of it. -/
def paired12 (pair c v : Nat) : Nat :=
  if c % 2 = 1 then pair % 16 + 16 * (v % 4096) else v % 4096 + 4096 * (pair / 4096)

/-- The memory once entry `c` has been stored. -/
def put12 (m : Mem) (c v : Nat) : Mem := putLe16 m (c + c / 2) (paired12 (pair12 m c) c v)

/-- Bytes other than the two that the entry is in are left alone. -/
theorem put12_outside (m : Mem) (c v : Nat) {i : Nat}
    (outside : i < c + c / 2 ∨ c + c / 2 + 2 ≤ i) :
    put12 m c v i = m i := putLe16_outside m (c + c / 2) _ outside

/-- What was put is read back. -/
theorem get12_put12 (m : Mem) (c v : Nat) : get12 (put12 m c v) c = v % 4096 := by
  have pair := le16_lt m (c + c / 2)
  have stored : pair12 (put12 m c v) c = _ := le16_putLe16 m (c + c / 2) _
  unfold get12
  rw [stored]
  unfold paired12 pair12
  split <;> omega

/-- Entries that share a byte keep apart in it. -/
theorem get12_put12_other (m : Mem) (v : Nat) {c d : Nat} (other : d ≠ c) :
    get12 (put12 m c v) d = get12 m d := by
  have first : (put12 m c v (c + c / 2)).toNat = paired12 (pair12 m c) c v % 256 := by
    rw [put12, putLe16, Cells.write_other _ _ (by omega), Cells.write_same, UInt8.toNat_ofNat']
  have second : (put12 m c v (c + c / 2 + 1)).toNat = paired12 (pair12 m c) c v / 256 % 256 := by
    rw [put12, putLe16, Cells.write_same, UInt8.toNat_ofNat']
  have low := (m (c + c / 2)).toNat_lt
  have high := (m (c + c / 2 + 1)).toNat_lt
  unfold paired12 pair12 le16 at first second
  simp only [get12, pair12, le16]
  by_cases behind : c % 2 = 1 ∧ d + 1 = c
  · -- the second byte of `d` is the first one of `c`, which keeps its lower half
    have place : d + d / 2 + 1 = c + c / 2 := by omega
    rw [if_neg (by omega), if_neg (by omega), place, first, if_pos behind.1,
      put12_outside m c v (by omega)]
    omega
  · by_cases before : c % 2 = 0 ∧ d = c + 1
    · -- the first byte of `d` is the second one of `c`, which keeps its upper half
      have place : d + d / 2 = c + c / 2 + 1 := by omega
      rw [if_pos (by omega), if_pos (by omega), place, second, if_neg (by omega),
        put12_outside m c v (by omega)]
      omega
    · rw [put12_outside m c v (by omega), put12_outside m c v (by omega)]

/-- Entries of 12 bits. -/
def packing12 : Packing where
  get := get12
  put := put12
  size := 4096
  first c := c + c / 2
  width := 2
  get_put := get12_put12
  get_put_other m v _ _ other := get12_put12_other m v other
  put_outside m c v _ outside := put12_outside m c v outside
  get_congr same := by
    simp only [get12, pair12]
    rw [le16_congr same]
  get_lt m c := by
    have pair := le16_lt m (c + c / 2)
    unfold get12 pair12
    split <;> omega

end D2xCios.Lib
