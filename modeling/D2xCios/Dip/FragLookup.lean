import D2xCios.Dip.Frag

/-!
# Fragment lookup

The contents of a disc image are a function of its fragment list: an image
sector lies in at most one fragment, and `FragList.source` is the device sector
it is stored in. The jump table never skips a fragment that is still needed, and
`__Frag_Get` yields the next piece of a request: some sparse sectors, followed by
a stored run.
-/

namespace D2xCios.Dip

open D2xCios.Lib

/-- A sum may wrap around before or afterwards. -/
theorem u32_add_left (m n : Nat) : u32 (u32 m + n) = u32 (m + n) := by
  simp [u32, Nat.mod_add_mod]

/-- The sectors the jump table covers. -/
def tableSectors : Nat := 20971520

/-- The fragments are not empty, ascend without overlapping, and lie inside the image. -/
structure FragList.Sorted (ff : FragList) : Prop where
  num_le : ff.num ≤ fragMax
  size_lt : ff.size < 4294967296
  nonempty : ∀ i, i < ff.num → 0 < (ff.frag i).count
  inside : ∀ i, i < ff.num → (ff.frag i).offset + (ff.frag i).count ≤ ff.size
  ascending : ∀ i j, i < j → j < ff.num →
    (ff.frag i).offset + (ff.frag i).count ≤ (ff.frag j).offset

/-- The jump table covers the image too. -/
structure FragList.WellFormed (ff : FragList) : Prop extends ff.Sorted where
  size_le : ff.size ≤ tableSectors

/-- The device sector in which image sector `s` is stored. -/
def FragList.source (ff : FragList) (s : Nat) : Option Nat :=
  ((List.range ff.num).find? fun i =>
    (ff.frag i).offset ≤ s ∧ s < (ff.frag i).offset + (ff.frag i).count).map fun i =>
      u32 ((ff.frag i).sector + (s - (ff.frag i).offset))

namespace FragList.Sorted

variable {ff : FragList}

/-- The image sectors of the fragments. -/
def extents (sorted : ff.Sorted) : Extents where
  num := ff.num
  start i := (ff.frag i).offset
  stop i := (ff.frag i).offset + (ff.frag i).count
  nonempty i lt := Nat.lt_add_of_pos_right (sorted.nonempty i lt)
  apart := sorted.ascending

/-- The end of a fragment does not wrap. -/
theorem u32_stop (sorted : ff.Sorted) {i : Nat} (lt : i < ff.num) :
    u32 ((ff.frag i).offset + (ff.frag i).count) = (ff.frag i).offset + (ff.frag i).count :=
  u32_of_lt (Nat.lt_of_le_of_lt (sorted.inside i lt) sorted.size_lt)

/-- What is skipped ends before the chunk. -/
theorem fragSkip_passed (sorted : ff.Sorted) (off idx : Nat)
    (passed : sorted.extents.Passed idx off) :
    sorted.extents.Passed (fragSkip ff off idx) off := by
  fun_induction fragSkip ff off idx with
  | case1 idx advance ih =>
    obtain ⟨ended, more⟩ := advance
    have lt : idx < ff.num := by omega
    rw [sorted.u32_stop lt] at ended
    exact ih (passed.succ fun _ => ended)
  | case2 => exact passed

/-- The entries of the table skip only fragments that end before their chunk. -/
theorem fragOptimizeFrom_passed (sorted : ff.Sorted) (i left idx k : Nat) (k_lt : k < left)
    (passed : sorted.extents.Passed idx (i <<< idxShift)) :
    sorted.extents.Passed ((fragOptimizeFrom ff i left idx).getD k 0) ((i + k) <<< idxShift) := by
  induction left generalizing i idx k with
  | zero => omega
  | succ left ih =>
    have here := sorted.fragSkip_passed (i <<< idxShift) idx passed
    cases k with
    | zero => simpa [fragOptimizeFrom] using here
    | succ k =>
      have next : i <<< idxShift ≤ (i + 1) <<< idxShift := by
        simp only [Nat.shiftLeft_eq]
        exact Nat.mul_le_mul_right _ (Nat.le_succ i)
      have rest := ih (i + 1) _ k (by omega) (here.mono next)
      rw [show i + (k + 1) = i + 1 + k by omega]
      simpa [fragOptimizeFrom] using rest

/-- The source of a sector is in the fragment that covers it. -/
theorem source_eq (sorted : ff.Sorted) (s : Nat) :
    ff.source s = (sorted.extents.find s).map fun i =>
      u32 ((ff.frag i).sector + (s - (ff.frag i).offset)) := rfl

/-- A sector inside fragment `i` is stored at its place in the fragment's run. -/
theorem source_of_covers (sorted : ff.Sorted) {i s : Nat} (lt : i < ff.num)
    (start : (ff.frag i).offset ≤ s) (stop : s < (ff.frag i).offset + (ff.frag i).count) :
    ff.source s = some (u32 ((ff.frag i).sector + (s - (ff.frag i).offset))) := by
  have covers : sorted.extents.Covers i s := ⟨start, stop⟩
  rw [sorted.source_eq, Extents.find_of_covers lt covers]
  rfl

/-- A sector behind the fragments passed and before the next one is sparse. -/
theorem source_none (sorted : ff.Sorted) {i s : Nat} (passed : sorted.extents.Passed i s)
    (before : i < ff.num → s < (ff.frag i).offset) : ff.source s = none := by
  rw [sorted.source_eq, Extents.find_none_of_passed passed before]
  rfl

end FragList.Sorted

namespace FragList.WellFormed

variable {ff : FragList}

/-! ## The jump table -/

/-- An entry of the table skips fragments that end before the requests that load it. -/
theorem fragOptimizeList_passed (wf : ff.WellFormed) {offset : Nat}
    (covered : offset < tableSectors) :
    wf.extents.Passed ((fragOptimizeList ff).getD (offset >>> idxShift) 0) offset := by
  have chunk : offset >>> idxShift = offset / 32768 := by
    rw [Nat.shiftRight_eq_div_pow]
    rfl
  simp only [tableSectors] at covered
  have passed := wf.toSorted.fragOptimizeFrom_passed 0 maxIdx 0 (offset >>> idxShift)
    (by simp only [chunk, maxIdx]; omega) (Extents.Passed.zero _)
  refine passed.mono ?_
  rw [Nat.zero_add, Nat.shiftLeft_eq, chunk]
  exact Nat.div_mul_le_self offset 32768

end FragList.WellFormed

/-! ## Pieces of a request -/

/-- `span` is the next piece of the request for `count` sectors from `offset` on: it is not
empty, and what it leaves out in front of the stored run is sparse. -/
structure Piece (ff : FragList) (offset count : Nat) (span : FragSpan) : Prop where
  begins : offset ≤ span.offset
  progress : offset < span.offset + span.count
  fits : span.offset + span.count ≤ offset + count
  inside : span.offset + span.count ≤ ff.size
  sparse : ∀ s, offset ≤ s → s < span.offset → ff.source s = none
  stored : ∀ k, k < span.count → ff.source (span.offset + k) = some (u32 (span.sector + k))

variable {ff : FragList}

/-- The run of fragment `i` from a sector inside it on. -/
theorem stored_from (wf : ff.WellFormed) {i s k : Nat} (lt : i < ff.num)
    (start : (ff.frag i).offset ≤ s) (stop : s + k < (ff.frag i).offset + (ff.frag i).count) :
    ff.source (s + k) = some (u32 (u32 ((ff.frag i).sector + (s - (ff.frag i).offset)) + k)) := by
  rw [u32_add_left, wf.source_of_covers lt (by omega) stop, Nat.add_assoc]
  congr 3
  omega

/-- A request that begins inside fragment `i`. -/
theorem piece_of_hit (wf : ff.WellFormed) {offset count i : Nat} (count_pos : 0 < count)
    (lt : i < ff.num) (start : (ff.frag i).offset ≤ offset)
    (stop : offset < (ff.frag i).offset + (ff.frag i).count) :
    Piece ff offset count
      ⟨offset, u32 ((ff.frag i).sector + (offset - (ff.frag i).offset)),
        min ((ff.frag i).count - (offset - (ff.frag i).offset)) count⟩ := by
  have inside := wf.inside i lt
  constructor
  · exact Nat.le_refl _
  · simp only
    omega
  · simp only
    omega
  · simp only
    omega
  · intro s le s_lt
    exact absurd le (Nat.not_le.mpr s_lt)
  · intro k k_lt
    have stop' : offset + k < (ff.frag i).offset + (ff.frag i).count := by
      simp only at k_lt
      omega
    exact stored_from wf lt start stop'

/-- A request that begins before fragment `i`, behind all earlier ones, and reaches into it. -/
theorem piece_of_gap (wf : ff.WellFormed) {offset count i : Nat} (lt : i < ff.num)
    (passed : wf.extents.Passed i offset) (start : offset < (ff.frag i).offset)
    (reach : (ff.frag i).offset < offset + count) :
    Piece ff offset count
      ⟨(ff.frag i).offset, (ff.frag i).sector,
        min (ff.frag i).count (count - ((ff.frag i).offset - offset))⟩ := by
  have nonempty := wf.nonempty i lt
  have inside := wf.inside i lt
  constructor
  · exact Nat.le_of_lt start
  · simp only
    omega
  · simp only
    omega
  · simp only
    omega
  · intro s le s_lt
    exact wf.source_none (passed.mono le) fun _ => s_lt
  · intro k k_lt
    simp only at k_lt
    rw [wf.source_of_covers lt (Nat.le_add_right _ k) (by omega), Nat.add_sub_cancel_left]

/-- The scan finds nothing when what is left begins behind the request. -/
theorem fragScan_none {offset count : Nat}
    (small : offset + count < 4294967296) (i : Nat)
    (behind : ∀ j, i ≤ j → j < ff.num → offset + count ≤ (ff.frag j).offset)
    (count_pos : 0 < count) : fragScan ff offset count i = none := by
  fun_induction fragScan ff offset count i with
  | case1 i lt frag hit =>
    have begins : offset + count ≤ frag.offset := behind i (Nat.le_refl i) lt
    omega
  | case2 i lt frag miss next =>
    have begins : offset + count ≤ frag.offset := behind i (Nat.le_refl i) lt
    rw [u32_of_lt small] at next
    omega
  | case3 i lt frag miss later ih => exact ih fun j le => behind j (by omega)
  | case4 => rfl

/-- The scan yields the next piece of a request, or the request is sparse to its end. -/
theorem fragScan_piece (wf : ff.WellFormed) {offset count : Nat} (count_pos : 0 < count)
    (small : offset + count < 4294967296) (i : Nat) (passed : wf.extents.Passed i offset) :
    (∃ span, fragScan ff offset count i = some span ∧ Piece ff offset count span) ∨
      (fragScan ff offset count i = none ∧
        ∀ s, offset ≤ s → s < offset + count → ff.source s = none) := by
  fun_induction fragScan ff offset count i with
  | case1 i lt frag hit delta =>
    -- the request begins inside fragment `i`
    obtain ⟨start, stop⟩ := hit
    rw [wf.u32_stop lt] at stop
    exact .inl ⟨_, rfl, piece_of_hit wf count_pos lt start stop⟩
  | case2 i lt frag miss next delta =>
    -- fragment `i` begins behind the request's first sector
    obtain ⟨start, reach⟩ := next
    rw [u32_of_lt small] at reach
    exact .inl ⟨_, rfl, piece_of_gap wf lt passed start reach⟩
  | case3 i lt frag miss later ih =>
    have stop_eq : u32 (frag.offset + frag.count) = frag.offset + frag.count := wf.u32_stop lt
    rw [stop_eq] at miss
    rw [u32_of_lt small] at later
    by_cases ended : frag.offset + frag.count ≤ offset
    · exact ih (passed.succ fun _ => ended)
    · -- the fragment begins behind the whole request, and so do all after it
      have behind : offset + count ≤ frag.offset := by
        omega
      refine .inr ⟨fragScan_none small (i + 1) (fun j le j_lt => ?_) count_pos, ?_⟩
      · have later_start := Extents.start_mono (e := wf.extents) (i := i) (j := j) (by omega) j_lt
        exact Nat.le_trans behind later_start
      · exact fun s le s_lt =>
          wf.source_none (passed.mono le) fun _ => Nat.lt_of_lt_of_le s_lt behind
  | case4 i done =>
    exact .inr ⟨rfl, fun s le _ => wf.source_none (passed.mono le) fun lt => absurd lt done⟩

/-- The table as `__Frag_Get` reads it, for a request that the table covers. -/
theorem fragGet_piece (wf : ff.WellFormed) {offset count : Nat} (count_pos : 0 < count)
    (covered : offset < tableSectors) (small : offset + count < 4294967296) :
    (∃ span, fragGet (fragOptimizeList ff) ff offset count = .ok span ∧
        Piece ff offset count span) ∨
      (fragGet (fragOptimizeList ff) ff offset count = .error (-2) ∧ ff.size < offset + count) := by
  have chunk : ¬ offset >>> idxShift > maxIdx := by
    have bound : offset < maxIdx * 2 ^ idxShift := covered
    rw [Nat.shiftRight_eq_div_pow]
    have := (Nat.div_lt_iff_lt_mul (Nat.two_pow_pos idxShift)).mpr bound
    omega
  have passed := wf.fragOptimizeList_passed covered
  simp only [fragGet, if_neg chunk, u32_of_lt small]
  rcases fragScan_piece wf count_pos small _ passed with ⟨span, found, piece⟩ | ⟨missed, sparse⟩
  · exact .inl ⟨span, by rw [found], piece⟩
  · rw [missed]
    by_cases beyond : offset + count > ff.size
    · exact .inr ⟨by simp [beyond], beyond⟩
    · refine .inl ⟨⟨offset + count, 0, 0⟩, by simp [beyond], ?_⟩
      constructor
      · exact Nat.le_add_right _ _
      · exact Nat.lt_add_of_pos_right count_pos
      · exact Nat.le_refl _
      · exact Nat.not_lt.mp beyond
      · exact sparse
      · intro k k_lt
        exact absurd k_lt (Nat.not_lt_zero k)

end D2xCios.Dip
