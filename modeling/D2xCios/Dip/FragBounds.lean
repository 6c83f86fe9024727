import D2xCios.Dip.FragIndex
import Mathlib.Logic.Function.Iterate

/-!
# Fragment lists as they come

`Frag_Init` takes the number of fragments as the list says it. The index that walks the
list while the jump table is made has 16 bits, and the memory behind the list is read
as further fragments where the number goes beyond the array: `optimizeStep` is one round
of these loops, `fragInitRun` is `Frag_Init` with a bound on the rounds, and the reads of
`frag` are kept as a ghost.
-/

namespace D2xCios.Dip

open D2xCios.Lib

/-! ## The loops -/

/-- The list in `fraglist_data`, with what lies behind it. -/
def FragList.inMemory (data behind : Mem) : FragList :=
  .ofMem fun a => if a < fragListSize then data a else behind a

/-- `__Frag_OptimizeList` under way: the chunk it is at, the fragment it is at, the part
of `frag_idx` that is done, and the indices at which it has read `frag`, latest first. -/
structure Optimizing where
  i : Nat
  idx : Nat
  table : List Nat
  reads : List Nat

/-- At the start. -/
def Optimizing.start : Optimizing := ⟨0, 0, [], []⟩

/-- One test of the inner loop's condition, and what follows from it. `idx` is a `u16`. -/
def optimizeStep (ff : FragList) (s : Optimizing) : Optimizing :=
  if s.i < maxIdx then
    if s.i <<< idxShift ≥ u32 ((ff.frag s.idx).offset + (ff.frag s.idx).count) ∧
        s.idx + 1 < ff.num then
      { s with idx := (s.idx + 1) % 65536, reads := s.idx :: s.reads }
    else
      { i := s.i + 1, idx := s.idx, table := s.table ++ [s.idx], reads := s.idx :: s.reads }
  else s

/-- `Frag_Init` in `rounds` rounds of the loops of `__Frag_OptimizeList`, with the reads of
`frag` in them: nothing when they are not done by then. -/
def fragInitRun {σ : Type} (behind : Mem) (rounds : Nat) (storage : Storage σ) (device : Nat)
    (source : Option Mem) (size : Nat) (fs : FragState) (st : σ) :
    Option (List Nat × Int × FragState × σ) :=
  let init := fragInit storage device source size fs st
  if init.1 ≠ 0 then some ([], init)
  else
    let ff := FragList.inMemory init.2.1.fraglistData behind
    let s := (optimizeStep ff)^[rounds] .start
    if s.i < maxIdx then none
    else some (s.reads, 0, { init.2.1 with fragIdx := s.table }, init.2.2)

/-- The indices at which the loop of `__Frag_Get` reads `frag`, from fragment `i` on. -/
def fragScanReads (ff : FragList) (offset count i : Nat) : List Nat :=
  if i < ff.num then
    let frag := ff.frag i
    if frag.offset ≤ offset ∧ u32 (frag.offset + frag.count) > offset then [i]
    else if frag.offset > offset ∧ frag.offset < u32 (offset + count) then [i]
    else i :: fragScanReads ff offset count (i + 1)
  else []
termination_by ff.num - i

/-! ## Lists that fit the index -/

variable {ff : FragList}

/-- The inner loop skips what `fragSkip` skips. -/
theorem optimizeStep_skip (fits : ff.num ≤ 65536) {i : Nat} (i_lt : i < maxIdx) (idx : Nat)
    (table reads : List Nat) : ∃ rounds reads',
      (optimizeStep ff)^[rounds] ⟨i, idx, table, reads⟩ =
        ⟨i + 1, fragSkip ff (i <<< idxShift) idx, table ++ [fragSkip ff (i <<< idxShift) idx],
          reads'⟩ := by
  fun_induction fragSkip ff (i <<< idxShift) idx generalizing reads with
  | case1 idx advance ih =>
    obtain ⟨rounds, reads', done⟩ := ih (idx :: reads)
    have small : (idx + 1) % 65536 = idx + 1 := Nat.mod_eq_of_lt (by omega)
    refine ⟨rounds + 1, reads', ?_⟩
    rw [Function.iterate_succ_apply, optimizeStep, if_pos i_lt, if_pos advance]
    simpa only [small] using done
  | case2 idx stay =>
    refine ⟨1, idx :: reads, ?_⟩
    rw [Function.iterate_one, optimizeStep, if_pos i_lt, if_neg stay]

/-- The loops end, and leave the table of `fragOptimizeFrom`. -/
theorem optimizeStep_from (fits : ff.num ≤ 65536) (left i idx : Nat) (ends : i + left = maxIdx)
    (table reads : List Nat) : ∃ rounds idx' reads',
      (optimizeStep ff)^[rounds] ⟨i, idx, table, reads⟩ =
        ⟨maxIdx, idx', table ++ fragOptimizeFrom ff i left idx, reads'⟩ := by
  induction left generalizing i idx table reads with
  | zero =>
    refine ⟨0, idx, reads, ?_⟩
    rw [Nat.add_zero] at ends
    simp [fragOptimizeFrom, ends]
  | succ left ih =>
    obtain ⟨first, reads', skipped⟩ :=
      optimizeStep_skip fits (i := i) (by omega) idx table reads
    obtain ⟨later, idx', reads'', done⟩ :=
      ih (i + 1) (fragSkip ff (i <<< idxShift) idx) (by omega) _ reads'
    refine ⟨later + first, idx', reads'', ?_⟩
    rw [Function.iterate_add_apply, skipped, done, fragOptimizeFrom]
    simp

/-- The loop ends with the table. -/
theorem optimize_done (fits : ff.num ≤ 65536) : ∃ rounds idx reads,
    (optimizeStep ff)^[rounds] .start = ⟨maxIdx, idx, fragOptimizeList ff, reads⟩ := by
  obtain ⟨rounds, idx, reads, done⟩ :=
    optimizeStep_from fits maxIdx 0 0 (Nat.zero_add _) [] []
  exact ⟨rounds, idx, reads, done⟩

/-! ## Where the array is read -/

/-- The index stays on the list, and so do the reads. -/
structure InArray (ff : FragList) (s : Optimizing) : Prop where
  idx : s.idx = 0 ∨ s.idx < ff.num
  reads : ∀ i ∈ s.reads, i = 0 ∨ i < ff.num

/-- A round stays inside the arrays. -/
theorem InArray.step {s : Optimizing} (inside : InArray ff s) :
    InArray ff (optimizeStep ff s) := by
  have reads : ∀ i ∈ s.idx :: s.reads, i = 0 ∨ i < ff.num :=
    List.forall_mem_cons.mpr ⟨inside.idx, inside.reads⟩
  unfold optimizeStep
  split
  · split
    · rename_i advance
      exact ⟨.inr (Nat.lt_of_le_of_lt (Nat.mod_le _ _) advance.2), reads⟩
    · exact ⟨inside.idx, reads⟩
  · exact inside

/-- The entries made so far have been read. -/
structure EntriesRead (s : Optimizing) : Prop where
  length : s.table.length = s.i
  within : s.i ≤ maxIdx
  read : ∀ idx ∈ s.table, idx ∈ s.reads

/-- A round records the entries that it has read. -/
theorem EntriesRead.step {s : Optimizing} (recorded : EntriesRead s) :
    EntriesRead (optimizeStep ff s) := by
  have kept : ∀ idx ∈ s.table, idx ∈ s.idx :: s.reads := fun idx member =>
    List.mem_cons_of_mem _ (recorded.read idx member)
  unfold optimizeStep
  split
  · rename_i more
    split
    · exact ⟨recorded.length, recorded.within, kept⟩
    · refine ⟨by simp [recorded.length], more, ?_⟩
      intro idx member
      rcases List.mem_append.mp member with member | member
      · exact kept idx member
      · rw [List.mem_singleton.mp member]
        exact List.mem_cons_self
  · exact recorded

/-- A scan reads entries of the list. -/
theorem lt_num_of_mem_reads {offset count start i : Nat}
    (member : i ∈ fragScanReads ff offset count start) : i < ff.num := by
  fun_induction fragScanReads ff offset count start with
  | case1 start lt frag hit => rwa [List.mem_singleton.mp member]
  | case2 start lt frag miss gap => rwa [List.mem_singleton.mp member]
  | case3 start lt frag miss later ih =>
    rcases List.mem_cons.mp member with rfl | member
    · exact lt
    · exact ih member
  | case4 => cases member

/-- No fragment reaches the last sector there is a number for, so the search for it reads
the list to its end. -/
theorem mem_reads_of_last {data : Mem} {start i : Nat} (le : start ≤ i)
    (lt : i < (FragList.ofMem data).num) :
    i ∈ fragScanReads (.ofMem data) 4294967295 1 start := by
  have unreached : ∀ k, ¬ (((FragList.ofMem data).frag k).offset ≤ 4294967295 ∧
      u32 (((FragList.ofMem data).frag k).offset + ((FragList.ofMem data).frag k).count) >
        4294967295) := by
    intro k
    unfold u32
    omega
  have none_later : ∀ k, ¬ (((FragList.ofMem data).frag k).offset > 4294967295 ∧
      ((FragList.ofMem data).frag k).offset < u32 (4294967295 + 1)) := by
    intro k
    unfold u32
    omega
  obtain ⟨left, rfl⟩ := Nat.exists_eq_add_of_le le
  induction left generalizing start with
  | zero =>
    rw [Nat.add_zero] at lt ⊢
    rw [fragScanReads, if_pos lt, if_neg (unreached start), if_neg (none_later start)]
    exact List.mem_cons_self
  | succ left ih =>
    have more : start < (FragList.ofMem data).num := by omega
    have rest := @ih (start + 1) (by omega) (by omega)
    rw [fragScanReads, if_pos more, if_neg (unreached start), if_neg (none_later start)]
    rw [Nat.add_right_comm] at rest
    exact List.mem_cons_of_mem _ rest

/-! ## Safety -/

section Safety

variable {σ : Type} (behind : Mem) (storage : Storage σ) (device : Nat) (source : Option Mem)
  (size : Nat) (fs : FragState) (st : σ)

/-- `Frag_Init` ends, and if it succeeds, neither it nor a later `__Frag_Get` reads `frag`
behind its end. -/
def SafeInit : Prop :=
  ∃ rounds reads ret fs' st',
    fragInitRun behind rounds storage device source size fs st = some (reads, ret, fs', st') ∧
      (ret = 0 → (∀ i ∈ reads, i < fragMax) ∧
        ∀ loads : Nat → Nat, (∀ k, k < maxIdx → loads k = fs'.fragIdx.getD k 0) →
          ∀ offset count, offset < 4294967296 → 0 < count → count < 4294967296 →
            ∀ i ∈ fragScanReads (.inMemory fs'.fraglistData behind) offset count
              (loads (fragIdxOff offset)), i < fragMax)

/-- The number of fragments does not depend on what lies behind the list. -/
theorem inMemory_num (data : Mem) :
    (FragList.inMemory data behind).num = (FragList.ofMem data).num := by
  simp [FragList.inMemory, FragList.ofMem, be32, fragListSize, fragMax]

variable {behind storage device source size fs st}

/-- Reads of a list within the array are within the array. -/
theorem lt_fragMax {i : Nat} (fits : ff.num ≤ fragMax) (inside : i = 0 ∨ i < ff.num) :
    i < fragMax := by
  have positive : 0 < fragMax := by decide
  omega

/-- The loops run on the list that `Frag_Init` has copied. -/
theorem fragInitRun_ok (behind : Mem)
    (succeeded : (fragInit storage device source size fs st).1 = 0) :
    ∃ fs' : FragState, fs'.fraglistData = initData source size fs ∧ ∀ rounds,
      fragInitRun behind rounds storage device source size fs st =
        let s := (optimizeStep (.inMemory (initData source size fs) behind))^[rounds] .start
        if s.i < maxIdx then none
        else some (s.reads, 0, { fs' with fragIdx := s.table },
          (fragInit storage device source size fs st).2.2) := by
  obtain ⟨sectorSize, buf, left⟩ := fragInit_ok succeeded
  have data : (fragInit storage device source size fs st).2.1.fraglistData =
      initData source size fs := by rw [left]
  refine ⟨(fragInit storage device source size fs st).2.1, data, fun rounds => ?_⟩
  rw [fragInitRun, if_neg (not_not_intro succeeded)]
  simp only [data]

/-- Where the list is not reached, there are no rounds. -/
theorem safe_of_failed (failed : (fragInit storage device source size fs st).1 ≠ 0) :
    SafeInit behind storage device source size fs st :=
  ⟨0, [], _, (fragInit storage device source size fs st).2.1, _, if_pos failed,
    fun zero => absurd zero failed⟩

/-- A list that fits the array is safe. -/
theorem safe_of_num_le (succeeded : (fragInit storage device source size fs st).1 = 0)
    (fits : (FragList.ofMem (initData source size fs)).num ≤ fragMax) :
    SafeInit behind storage device source size fs st := by
  obtain ⟨fs', data, ran⟩ := fragInitRun_ok behind succeeded
  rw [← inMemory_num behind] at fits
  obtain ⟨rounds, idx, reads, done⟩ := optimize_done (Nat.le_trans fits (by decide))
  have inside : InArray (.inMemory (initData source size fs) behind)
      ((optimizeStep (.inMemory (initData source size fs) behind))^[rounds] .start) :=
    Function.Iterate.rec _ ⟨.inl rfl, by simp [Optimizing.start]⟩ (fun _ => InArray.step) rounds
  have result := ran rounds
  rw [done] at inside result
  refine ⟨rounds, _, _, _, _, result, fun _ => ⟨?_, ?_⟩⟩
  · exact fun i member => lt_fragMax fits (inside.reads i member)
  · intro loads _ offset count _ _ _ i member
    simp only [data] at member
    exact Nat.lt_of_lt_of_le (lt_num_of_mem_reads member) fits

/-- A list that does not fit the array is not. -/
theorem num_le_of_safe (succeeded : (fragInit storage device source size fs st).1 = 0)
    (safe : SafeInit behind storage device source size fs st) :
    (FragList.ofMem (initData source size fs)).num ≤ fragMax := by
  obtain ⟨fs', data, ran⟩ := fragInitRun_ok behind succeeded
  obtain ⟨rounds, reads, ret, fs'', st', result, safe⟩ := safe
  have recorded : EntriesRead ((optimizeStep (.inMemory (initData source size fs) behind))^[rounds]
      .start) :=
    Function.Iterate.rec _ ⟨rfl, Nat.zero_le _, by simp [Optimizing.start]⟩
      (fun _ => EntriesRead.step) rounds
  rw [ran rounds] at result
  generalize (optimizeStep (.inMemory (initData source size fs) behind))^[rounds]
    .start = s at result recorded
  simp only at result
  split at result
  · cases result
  · rename_i ended
    simp only [Option.some.injEq, Prod.mk.injEq] at result
    obtain ⟨rfl, rfl, rfl, rfl⟩ := result
    obtain ⟨reads_lt, later⟩ := safe rfl
    have full : s.table.length = maxIdx :=
      recorded.length.trans (Nat.le_antisymm recorded.within (Nat.not_lt.mp ended))
    have last_lt : maxIdx - 1 < s.table.length := by
      rw [full]
      decide
    have entry : s.table.getD (maxIdx - 1) 0 ∈ s.table := by
      rw [List.getD_eq_getElem?_getD, List.getElem?_eq_getElem last_lt]
      exact List.getElem_mem last_lt
    have start_lt := reads_lt _ (recorded.read _ entry)
    -- were the number larger, the last search would read on behind the array
    refine Nat.not_lt.mp fun beyond => ?_
    rw [← inMemory_num behind] at beyond
    have off : fragIdxOff 4294967295 = maxIdx - 1 := by decide
    have reached := later (fun k => s.table.getD k 0) (fun k _ => rfl) 4294967295 1 (by decide)
      (by decide) (by decide) fragMax
    simp only [off, data] at reached
    exact Nat.lt_irrefl _ (reached (mem_reads_of_last (Nat.le_of_lt start_lt) beyond))

/-- `Frag_Init` is safe exactly on the lists whose number of fragments is no more than the
array has room for, where it gets as far as the list. -/
theorem fragInit_safe_iff (behind : Mem) (storage : Storage σ) (device : Nat)
    (source : Option Mem) (size : Nat) (fs : FragState) (st : σ) :
    SafeInit behind storage device source size fs st ↔
      (FragInits storage device size st →
        (FragList.ofMem (initData source size fs)).num ≤ fragMax) := by
  rw [← fragInit_eq_zero_iff storage device source size fs st]
  constructor
  · exact fun safe succeeded => num_le_of_safe succeeded safe
  · intro fits
    by_cases succeeded : (fragInit storage device source size fs st).1 = 0
    · exact safe_of_num_le succeeded (fits succeeded)
    · exact safe_of_failed succeeded

end Safety

/-! ## A number of fragments that the index does not reach -/

/-- A card that works, and a heap that is never exhausted. -/
def workingCard : Storage Unit where
  usbstorageInit st := (true, st)
  sdhcInit st := (true, st)
  usbstorageGetSectorSize _ := 512
  usbstorageRead _ count st := (true, List.replicate (512 * count) 0, st)
  sdhcRead _ count st := (true, List.replicate (512 * count) 0, st)
  alloc _ st := (some fun _ => 0, st)

/-- The start of a list of 65537 fragments. -/
def hugeList : Mem := bufferOf [0, 0, 0, 0, 0, 1, 0, 1]

/-- The list in clear memory. -/
def hugeInMemory : FragList := .inMemory (fragCopy hugeList 8) fun _ => 0

/-- The list has one fragment too many. -/
theorem hugeInMemory_num : hugeInMemory.num = 65537 := by decide

/-- Its fragments are empty. -/
theorem hugeInMemory_frag (idx : Nat) : (hugeInMemory.frag idx).offset = 0 ∧
    (hugeInMemory.frag idx).count = 0 := by
  have clear : ∀ a, 8 ≤ a → (if a < fragListSize then fragCopy hugeList 8 a else 0) = 0 := by
    intro a behind
    simp [fragCopy, Nat.not_lt.mpr behind]
  have word : ∀ a, 8 ≤ a →
      (be32 (fun a => if a < fragListSize then fragCopy hugeList 8 a else 0) a).toNat = 0 := by
    intro a behind
    rw [be32, clear a behind, clear (a + 1) (by omega), clear (a + 2) (by omega),
      clear (a + 3) (by omega)]
    rfl
  exact ⟨word _ (by omega), word _ (by omega)⟩

/-- The index wraps around before it gets to the last fragment. -/
theorem hugeInMemory_stuck (rounds : Nat) :
    ((optimizeStep hugeInMemory)^[rounds] .start).i = 0 ∧
      ((optimizeStep hugeInMemory)^[rounds] .start).idx < 65536 := by
  refine Function.Iterate.rec (fun s : Optimizing => s.i = 0 ∧ s.idx < 65536) ⟨rfl, by decide⟩
    (fun s stuck => ?_) rounds
  obtain ⟨chunk, idx_lt⟩ := stuck
  obtain ⟨offset, count⟩ := hugeInMemory_frag s.idx
  have advance : s.i <<< idxShift ≥ u32 ((hugeInMemory.frag s.idx).offset +
      (hugeInMemory.frag s.idx).count) ∧ s.idx + 1 < hugeInMemory.num := by
    rw [offset, count, hugeInMemory_num]
    exact ⟨Nat.zero_le _, by omega⟩
  have more : s.i < maxIdx := by
    rw [chunk]
    decide
  rw [optimizeStep, if_pos more, if_pos advance]
  exact ⟨chunk, Nat.mod_lt _ (by decide)⟩

/-- A list of eight bytes on which `Frag_Init` does not end. -/
theorem hugeList_hangs : ¬ ∀ (source : Option Mem) (size : Nat), 1 ≤ size → size ≤ fragListSize →
    SafeInit (fun _ => 0) workingCard devSdhc source size .boot () := by
  intro holds
  obtain ⟨rounds, reads, ret, fs', st', ended, -⟩ := holds (some hugeList) 8 (by decide) (by decide)
  have succeeded : (fragInit workingCard devSdhc (some hugeList) 8 .boot ()).1 = 0 := by
    simp [fragInit, devSdhc, devUsb, workingCard, Storage.init, fragListSize, fragMax]
  obtain ⟨fs', data, ran⟩ := fragInitRun_ok (fun _ => 0) succeeded
  have stuck : ((optimizeStep (.inMemory (initData (some hugeList) 8 .boot) fun _ => 0))^[rounds]
      .start).i = 0 := (hugeInMemory_stuck rounds).1
  rw [ran rounds] at ended
  simp only [stuck] at ended
  cases ended

end D2xCios.Dip
