import D2xCios.Lib.Bitmap

/-!
# Runs of values with a bitmap of flags

A sequence of byte strings, stored one behind the other, together with one flag
for each, stored in a bitmap elsewhere in the same memory. Reading the strings
back by their widths, with their flags, yields the sequence (`load_store`), and
nothing outside the run and the bitmap changes (`store_outside`).
-/

namespace D2xCios.Lib

/-- A byte string and its flag. -/
abbrev Flagged := List UInt8 × Bool

namespace Flagged

/-- The byte strings, one behind the other. -/
def run (items : List Flagged) : List UInt8 := items.flatMap fun item => item.1

/-- Store the strings from `pos` on, and the set flags in the bitmap at `bits`
from `index` on. -/
def store (bits : Nat) : List Flagged → (index pos : Nat) → Cells UInt8 → Cells UInt8
  | [], _, _, mem => mem
  | (bytes, flag) :: rest, index, pos, mem =>
    let marked := if flag then Bitmap.setAt mem bits index else mem
    store bits rest (index + 1) (pos + bytes.length) (marked.overlay pos bytes)

/-- Read strings of the given widths back, with their flags. -/
def load (mem : Cells UInt8) (bits : Nat) : (widths : List Nat) → (index pos : Nat) → List Flagged
  | [], _, _ => []
  | width :: rest, index, pos =>
    (mem.window pos width, (Bitmap.mapAt mem bits).test index) ::
      load mem bits rest (index + 1) (pos + width)

/-- The widths of the strings. -/
def widths (items : List Flagged) : List Nat := items.map fun item => item.1.length

/-- Bytes a bitmap of `count` flags takes. -/
def bitmapBytes (count : Nat) : Nat := (count + 7) / 8

@[simp] theorem run_nil : run [] = [] := rfl

@[simp] theorem run_cons_length (item : Flagged) (rest : List Flagged) :
    (run (item :: rest)).length = item.1.length + (run rest).length := by
  simp [run]

theorem run_length (items : List Flagged) : (run items).length = (widths items).sum := by
  induction items with
  | nil => rfl
  | cons item rest ih => simp [widths, ih]

variable {bits : Nat}

/-- Bytes behind neither the run nor the bitmap keep their contents. -/
theorem store_outside (items : List Flagged) (index pos : Nat) (mem : Cells UInt8) {i : Nat}
    (noBit : i < bits + index / 8 ∨ bits + bitmapBytes (index + items.length) ≤ i)
    (noByte : i < pos ∨ pos + (run items).length ≤ i) :
    store bits items index pos mem i = mem i := by
  induction items generalizing index pos mem with
  | nil => rfl
  | cons item rest ih =>
    obtain ⟨bytes, flag⟩ := item
    simp only [List.length_cons, bitmapBytes] at noBit
    rw [run_cons_length] at noByte
    simp only at noByte
    rw [store, ih (index + 1) (pos + bytes.length) _ (by simp only [bitmapBytes]; omega) (by omega),
      Cells.overlay_outside _ _ _ (by omega)]
    cases flag
    · rfl
    · exact Bitmap.setAt_other mem (by omega)

/-- The run and the bitmap do not overlap. -/
def Apart (bits pos : Nat) (items : List Flagged) (index : Nat) : Prop :=
  bits + bitmapBytes (index + items.length) ≤ pos ∨ pos + (run items).length ≤ bits

/-- The items behind the first one lie apart from the bits. -/
theorem Apart.tail {item : Flagged} {rest : List Flagged} {pos index : Nat}
    (apart : Apart bits pos (item :: rest) index) :
    Apart bits (pos + item.1.length) rest (index + 1) := by
  unfold Apart at *
  rw [run_cons_length, List.length_cons] at apart
  simp only [bitmapBytes] at *
  omega

/-- Storing one item sets its flag and no other. -/
theorem mark_test {bytes : List UInt8} {flag : Bool} {rest : List Flagged} {index pos : Nat}
    (mem : Cells UInt8) (apart : Apart bits pos ((bytes, flag) :: rest) index) {j : Nat}
    (inside : j < index + (rest.length + 1)) :
    (Bitmap.mapAt ((if flag then Bitmap.setAt mem bits index else mem).overlay pos bytes) bits).test
        j = (decide (j = index) && flag || (Bitmap.mapAt mem bits).test j) := by
  have kept : (Bitmap.mapAt ((if flag then Bitmap.setAt mem bits index else mem).overlay pos bytes)
      bits).test j =
      (Bitmap.mapAt (if flag then Bitmap.setAt mem bits index else mem) bits).test j := by
    apply Bitmap.test_congr
    apply Cells.overlay_outside
    unfold Apart at apart
    rw [run_cons_length, List.length_cons] at apart
    simp only [bitmapBytes] at apart
    omega
  rw [kept]
  cases flag
  · simp
  · simp [Bitmap.mapAt_setAt, Bitmap.test_set]

/-- Flags before the stored ones stay. -/
theorem store_test_before (items : List Flagged) {index pos : Nat} (mem : Cells UInt8)
    (apart : Apart bits pos items index) {j : Nat} (before : j < index) :
    (Bitmap.mapAt (store bits items index pos mem) bits).test j =
      (Bitmap.mapAt mem bits).test j := by
  induction items generalizing index pos mem with
  | nil => rfl
  | cons item rest ih =>
    obtain ⟨bytes, flag⟩ := item
    rw [store, ih _ apart.tail (Nat.lt_succ_of_lt before), mark_test mem apart (by omega)]
    simp [Nat.ne_of_lt before]

/-- What is stored over a clear bitmap is read back. -/
theorem load_store (items : List Flagged) {index pos : Nat} (mem : Cells UInt8)
    (apart : Apart bits pos items index)
    (clear : ∀ j, index ≤ j → j < index + items.length →
      (Bitmap.mapAt mem bits).test j = false) :
    load (store bits items index pos mem) bits (widths items) index pos = items := by
  induction items generalizing index pos mem with
  | nil => rfl
  | cons item rest ih =>
    obtain ⟨bytes, flag⟩ := item
    let marked := (if flag then Bitmap.setAt mem bits index else mem).overlay pos bytes
    have later := apart.tail
    have stillClear : ∀ j, index + 1 ≤ j → j < index + 1 + rest.length →
        (Bitmap.mapAt marked bits).test j = false := by
      intro j low high
      have other : j ≠ index := by omega
      rw [mark_test mem apart (by omega), clear j (by omega) (by simp; omega)]
      simp [other]
    have string : (store bits rest (index + 1) (pos + bytes.length) marked).window pos
        bytes.length = bytes := by
      have kept : ∀ i, i < bytes.length →
          store bits rest (index + 1) (pos + bytes.length) marked (pos + i) = marked (pos + i) := by
        intro i inside
        apply store_outside rest (index + 1) (pos + bytes.length) marked
        · unfold Apart at apart
          rw [run_cons_length, List.length_cons] at apart
          simp only [bitmapBytes] at *
          omega
        · omega
      rw [Cells.window_congr kept]
      exact Cells.window_overlay _ _ _
    have own : (Bitmap.mapAt (store bits rest (index + 1) (pos + bytes.length) marked) bits).test
        index = flag := by
      rw [store_test_before rest marked later (Nat.lt_succ_self _), mark_test mem apart (by omega),
        clear index (Nat.le_refl _) (by simp)]
      simp
    rw [store]
    change (_, _) :: load _ bits (widths rest) (index + 1) (pos + bytes.length) = _
    rw [ih marked later stillClear, string, own]

/-- Reading depends on the bitmap and the run only. -/
theorem load_congr {left right : Cells UInt8} (widths : List Nat) (index pos : Nat)
    (sameBits : ∀ i, i < bitmapBytes (index + widths.length) → left (bits + i) = right (bits + i))
    (sameRun : ∀ i, i < widths.sum → left (pos + i) = right (pos + i)) :
    load left bits widths index pos = load right bits widths index pos := by
  induction widths generalizing index pos with
  | nil => rfl
  | cons width rest ih =>
    rw [List.sum_cons] at sameRun
    rw [List.length_cons] at sameBits
    have string : left.window pos width = right.window pos width :=
      Cells.window_congr fun i inside => sameRun i (by omega)
    have flag : (Bitmap.mapAt left bits).test index = (Bitmap.mapAt right bits).test index :=
      Bitmap.test_congr (sameBits (index / 8) (by simp only [bitmapBytes]; omega))
    have others := ih (index + 1) (pos + width)
      (fun i inside => sameBits i (by simp only [bitmapBytes] at *; omega))
      (fun i inside => by
        have cell := sameRun (width + i) (by omega)
        rwa [← Nat.add_assoc] at cell)
    simp only [load, string, flag, others]

/-- A cleared byte range is a clear bitmap. -/
theorem clear_of_zero {mem : Cells UInt8} {count : Nat}
    (zero : ∀ i, i < bitmapBytes count → mem (bits + i) = 0) {j : Nat} (inside : j < count) :
    (Bitmap.mapAt mem bits).test j = false := by
  have cell : Bitmap.mapAt mem bits (j / 8) = 0 :=
    zero (j / 8) (by simp only [bitmapBytes]; omega)
  simp [Bitmap.test, cell]

end Flagged

end D2xCios.Lib
