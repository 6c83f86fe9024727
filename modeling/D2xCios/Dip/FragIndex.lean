import D2xCios.Dip.FragLookup

/-!
# The jump table in memory

`frag_idx` is an array of 16-bit words with other statics behind it. `__Frag_Get`
starts its scan at the entry of the chunk its request begins in, which skips only
fragments that end before that chunk, or at the last entry for a request behind the
table. The chunk right behind the table is taken for neither: its entry is loaded from
behind the array.
-/

namespace D2xCios.Dip

open D2xCios.Lib

/-- The entry of `frag_idx` that `__Frag_Get` loads. -/
def fragIdxOff (offset : Nat) : Nat :=
  let idxOff := offset >>> idxShift
  if idxOff > maxIdx then maxIdx - 1 else idxOff

/-- `__Frag_Get` with its scan from fragment `start` on. -/
def fragGetFrom (ff : FragList) (start offset count : Nat) : Except Int FragSpan :=
  match fragScan ff offset count start with
  | some span => .ok span
  | none =>
    if u32 (offset + count) > ff.size then .error (-2)
    else .ok ⟨u32 (offset + count), 0, 0⟩

/-- The memory from `frag_idx` on, in 16-bit words, once `__Frag_OptimizeList` is done. -/
def Indexed (ff : FragList) (loads : Nat → Nat) : Prop :=
  ∀ i, i < maxIdx → loads i = (fragOptimizeList ff).getD i 0

namespace FragList.Sorted

variable {ff : FragList} (sorted : ff.Sorted)

include sorted

/-- An entry of the table skips fragments that end before its chunk. -/
theorem entry_passed {i : Nat} (i_lt : i < maxIdx) :
    sorted.extents.Passed ((fragOptimizeList ff).getD i 0) (i <<< idxShift) := by
  have passed := sorted.fragOptimizeFrom_passed 0 maxIdx 0 i i_lt (Extents.Passed.zero _)
  rwa [Nat.zero_add] at passed

/-- A fragment that ends before the request is passed over. -/
theorem fragScan_succ {offset count i : Nat}
    (ended : i < ff.num → (ff.frag i).offset + (ff.frag i).count ≤ offset) :
    fragScan ff offset count i = fragScan ff offset count (i + 1) := by
  by_cases lt : i < ff.num
  · have stop := ended lt
    have nonempty := sorted.nonempty i lt
    have miss : ¬ ((ff.frag i).offset ≤ offset ∧
        u32 ((ff.frag i).offset + (ff.frag i).count) > offset) := by
      rw [sorted.u32_stop lt]
      omega
    have later : ¬ ((ff.frag i).offset > offset ∧ (ff.frag i).offset < u32 (offset + count)) := by
      omega
    rw [fragScan, if_pos lt, if_neg miss, if_neg later]
  · have done : ¬ i + 1 < ff.num := by omega
    rw [fragScan, if_neg lt, fragScan, if_neg done]

/-- A scan that starts behind fragments that end before the request finds what a scan of
all fragments finds. -/
theorem fragScan_passed {offset count start : Nat} (passed : sorted.extents.Passed start offset) :
    fragScan ff offset count start = fragScan ff offset count 0 := by
  induction start with
  | zero => rfl
  | succ start ih =>
    rw [← sorted.fragScan_succ (passed start (Nat.lt_succ_self start)),
      ih fun j lt => passed j (Nat.lt_succ_of_lt lt)]

/-- The entry that a request loads skips only fragments that end before it. -/
theorem loaded_passed {loads : Nat → Nat} (indexed : Indexed ff loads) {offset : Nat}
    (within : fragIdxOff offset < maxIdx) :
    sorted.extents.Passed (loads (fragIdxOff offset)) offset := by
  rw [indexed _ within]
  refine (sorted.entry_passed within).mono ?_
  have chunk : fragIdxOff offset ≤ offset >>> idxShift := by
    simp only [fragIdxOff]
    split <;> omega
  rw [Nat.shiftRight_eq_div_pow] at chunk
  rw [Nat.shiftLeft_eq]
  exact Nat.le_trans (Nat.mul_le_mul_right _ chunk) (Nat.div_mul_le_self offset _)

end FragList.Sorted

/-- The table is left exactly by the requests that begin in the chunk right behind it. -/
theorem fragIdxOff_lt_iff (offset : Nat) :
    fragIdxOff offset < maxIdx ↔ offset >>> idxShift ≠ maxIdx := by
  have positive : 0 < maxIdx := by decide
  simp only [fragIdxOff]
  split <;> omega

/-- A lookup stays inside the table, and yields what a scan of all fragments yields, unless
the request begins in the chunk right behind the table. -/
theorem fragGet_indexed_iff {ff : FragList} (sorted : ff.Sorted) {loads : Nat → Nat}
    (indexed : Indexed ff loads) (offset count : Nat) :
    (fragIdxOff offset < maxIdx ∧
        fragGetFrom ff (loads (fragIdxOff offset)) offset count =
          fragGetFrom ff 0 offset count) ↔
      offset >>> idxShift ≠ maxIdx := by
  rw [← fragIdxOff_lt_iff]
  refine ⟨fun both => both.1, fun within => ⟨within, ?_⟩⟩
  have passed := sorted.loaded_passed indexed within
  rw [fragGetFrom, fragGetFrom, sorted.fragScan_passed passed]

/-- A disc image in three fragments, the last of them behind a gap. -/
def gappedImage : FragList where
  size := 120000
  num := 3
  frag i :=
    match i with
    | 0 => { offset := 0, sector := 100, count := 40000 }
    | 1 => { offset := 40000, sector := 900000, count := 30000 }
    | _ => { offset := 90000, sector := 500000, count := 2000 }

theorem gappedImage_sorted : gappedImage.Sorted where
  num_le := by decide
  size_lt := by decide
  nonempty := show ∀ i < 3, 0 < (gappedImage.frag i).count by decide
  inside := show ∀ i < 3, (gappedImage.frag i).offset + (gappedImage.frag i).count ≤
    gappedImage.size by decide
  ascending i j lt j_lt := by
    have ascending : ∀ j < 3, ∀ i < j, (gappedImage.frag i).offset + (gappedImage.frag i).count ≤
      (gappedImage.frag j).offset := by decide
    exact ascending j j_lt i lt

/-- The table of that image. -/
def gappedImageLoads (i : Nat) : Nat := (fragOptimizeList gappedImage).getD i 0

/-- A lookup in the gap. It starts behind the first fragment, passes over the second, and yields
the third, which begins inside the request. -/
theorem gappedImage_lookup :
    fragGetFrom gappedImage (gappedImageLoads (fragIdxOff 80000)) 80000 16000 =
      .ok ⟨90000, 500000, 2000⟩ := by
  have indexed : Indexed gappedImage gappedImageLoads := fun _ _ => rfl
  have same := ((fragGet_indexed_iff gappedImage_sorted indexed 80000 16000).mpr (by decide)).2
  have found : fragScan gappedImage 80000 16000 0 = some ⟨90000, 500000, 2000⟩ := by
    rw [fragScan, if_pos (by decide), if_neg (by decide), if_neg (by decide)]
    rw [fragScan, if_pos (by decide), if_neg (by decide), if_neg (by decide)]
    rw [fragScan, if_pos (by decide), if_neg (by decide), if_pos (by decide)]
    decide
  rw [same, fragGetFrom, found]

/-- A disc image in one fragment, which is longer than the table covers. -/
def longImage : FragList where
  size := 21000000
  num := 1
  frag _ := { offset := 0, sector := 100, count := 21000000 }

theorem longImage_sorted : longImage.Sorted where
  num_le := by decide
  size_lt := by decide
  nonempty := by simp [longImage]
  inside := by simp [longImage]
  ascending i j lt j_lt := by
    have one : longImage.num = 1 := rfl
    omega

/-- The table of that image, with a word that is 1 behind it. -/
def longImageLoads (i : Nat) : Nat :=
  if i < maxIdx then (fragOptimizeList longImage).getD i 0 else 1

theorem longImage_indexed : Indexed longImage longImageLoads := fun _ within => if_pos within

/-- The first sector behind the table of that image is loaded from behind the table, and
is taken for sparse. -/
theorem longImage_sector_lost :
    ¬ ∀ (ff : FragList) (loads : Nat → Nat) (offset count : Nat), ff.Sorted → Indexed ff loads →
      offset < 2 ^ 25 → 1 ≤ count →
      fragIdxOff offset < maxIdx ∧
        fragGetFrom ff (loads (fragIdxOff offset)) offset count =
          fragGetFrom ff 0 offset count := by
  intro holds
  obtain ⟨within, same⟩ := holds longImage longImageLoads 20971520 1 longImage_sorted
    longImage_indexed (by decide) (by decide)
  have loaded : longImageLoads (fragIdxOff 20971520) = 1 := by decide
  have skipped : fragScan longImage 20971520 1 1 = none := by
    rw [fragScan, if_neg (by decide)]
  have found : fragScan longImage 20971520 1 0 = some ⟨20971520, 20971620, 1⟩ := by
    rw [fragScan, if_pos (by decide)]
    decide
  rw [loaded, fragGetFrom, fragGetFrom, skipped, found] at same
  exact absurd same (by decide)

end D2xCios.Dip
