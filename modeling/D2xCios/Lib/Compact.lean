import D2xCios.Lib.Cells

/-!
# In-place compaction with a skip cursor

One pass over the first `count` cells of an array drops the cells whose indices
are listed, in ascending order, in a second array. A cursor points at the next
listed index: when the pass meets it the cell is skipped and the cursor moves,
otherwise the cell is copied down to the write position.

`survivors` says which cells remain for a strictly ascending list. The list is
input that may be anything, so `lt_skip_iff` describes the cursor without that
assumption: it has passed entry `m` exactly when the entries up to `m` ascend and
the pass is beyond `m`'s index.
-/

namespace D2xCios.Lib

universe u

/-- The pass after some iterations: the array, both cursors, the list entries
read and the cells stored. -/
structure Compaction (α : Type u) where
  cells : Cells α
  skip : Nat
  writeIdx : Nat
  reads : List Nat
  stores : List Nat

namespace Compaction

variable {α : Type u} (idx : Nat → Nat) (listed : Nat)

/-- Keep cell `i`: copy it down unless it already lies in place. -/
def keep (pass : Compaction α) (i : Nat) : Compaction α :=
  if pass.writeIdx ≠ i then
    { pass with
      cells := pass.cells.write pass.writeIdx (pass.cells i)
      writeIdx := pass.writeIdx + 1
      stores := pass.stores ++ [pass.writeIdx] }
  else { pass with writeIdx := pass.writeIdx + 1 }

/-- One iteration of the pass. -/
def step (pass : Compaction α) (i : Nat) : Compaction α :=
  if pass.skip < listed then
    let pass := { pass with reads := pass.reads ++ [pass.skip] }
    if idx pass.skip = i then { pass with skip := pass.skip + 1 } else pass.keep i
  else pass.keep i

/-- The pass over the first `count` cells. -/
def run (cells : Cells α) (count : Nat) : Compaction α :=
  (List.range count).foldl (step idx listed) ⟨cells, 0, 0, [], []⟩

theorem run_succ (cells : Cells α) (k : Nat) :
    run idx listed cells (k + 1) = step idx listed (run idx listed cells k) k := by
  simp [run, List.range_succ]

@[simp] theorem keep_skip (pass : Compaction α) (i : Nat) : (pass.keep i).skip = pass.skip := by
  unfold keep
  split <;> rfl

@[simp] theorem keep_writeIdx (pass : Compaction α) (i : Nat) :
    (pass.keep i).writeIdx = pass.writeIdx + 1 := by
  unfold keep
  split <;> rfl

@[simp] theorem keep_reads (pass : Compaction α) (i : Nat) : (pass.keep i).reads = pass.reads := by
  unfold keep
  split <;> rfl

/-- Keeping a cell leaves the cell's value at the write position. -/
theorem keep_cells_writeIdx (pass : Compaction α) (i : Nat) :
    (pass.keep i).cells pass.writeIdx = pass.cells i := by
  unfold keep
  split
  · simp
  · rename_i same
    simp [not_not.mp same]

/-- Keeping an element writes one cell. -/
theorem keep_cells_other (pass : Compaction α) {i j : Nat} (other : j ≠ pass.writeIdx) :
    (pass.keep i).cells j = pass.cells j := by
  unfold keep
  split
  · exact Cells.write_other _ _ other
  · rfl

/-- What one iteration does: it skips the listed cell, or keeps the cell. -/
theorem step_cases (pass : Compaction α) (i : Nat) :
    (pass.skip < listed ∧ idx pass.skip = i ∧
      step idx listed pass i =
        { pass with reads := pass.reads ++ [pass.skip], skip := pass.skip + 1 }) ∨
    (pass.skip < listed ∧ idx pass.skip ≠ i ∧
      step idx listed pass i = { pass with reads := pass.reads ++ [pass.skip] }.keep i) ∨
    (¬ pass.skip < listed ∧ step idx listed pass i = pass.keep i) := by
  by_cases more : pass.skip < listed
  · by_cases hit : idx pass.skip = i
    · exact Or.inl ⟨more, hit, by simp [step, more, hit]⟩
    · exact Or.inr (Or.inl ⟨more, hit, by simp [step, more, hit]⟩)
  · exact Or.inr (Or.inr ⟨more, by simp [step, more]⟩)

/-- Every iteration moves exactly one of the two cursors. -/
theorem skip_add_writeIdx (cells : Cells α) (k : Nat) :
    (run idx listed cells k).skip + (run idx listed cells k).writeIdx = k := by
  induction k with
  | zero => rfl
  | succ k ih =>
    rw [run_succ]
    rcases step_cases idx listed (run idx listed cells k) k with
      ⟨_, _, same⟩ | ⟨_, _, same⟩ | ⟨_, same⟩ <;> rw [same]
    · simp only
      omega
    · simp only [keep_skip, keep_writeIdx]
      omega
    · simp only [keep_skip, keep_writeIdx]
      omega

theorem writeIdx_le (cells : Cells α) (k : Nat) : (run idx listed cells k).writeIdx ≤ k := by
  have both := skip_add_writeIdx idx listed cells k
  omega

/-- The pass stores below its own position only. -/
theorem stores_lt (cells : Cells α) (k : Nat) :
    ∀ i ∈ (run idx listed cells k).stores, i < k := by
  induction k with
  | zero =>
    intro i member
    cases member
  | succ k ih =>
    have place := writeIdx_le idx listed cells k
    have kept : ∀ (pass : Compaction α), pass.stores = (run idx listed cells k).stores →
        pass.writeIdx = (run idx listed cells k).writeIdx →
        ∀ i ∈ (pass.keep k).stores, i < k + 1 := by
      intro pass stores writeIdx i member
      unfold keep at member
      split at member
      · rcases List.mem_append.mp member with old | new
        · exact Nat.lt_succ_of_lt (ih i (stores ▸ old))
        · rw [List.mem_singleton.mp new, writeIdx]
          omega
      · exact Nat.lt_succ_of_lt (ih i (stores ▸ member))
    rw [run_succ]
    rcases step_cases idx listed (run idx listed cells k) k with
      ⟨_, _, same⟩ | ⟨_, _, same⟩ | ⟨_, same⟩ <;> rw [same]
    · exact fun i member => Nat.lt_succ_of_lt (ih i member)
    · exact kept _ rfl rfl
    · exact kept _ rfl rfl

/-- Cells the pass has not reached yet are as they were. -/
theorem cells_ahead (cells : Cells α) {k j : Nat} (ahead : k ≤ j) :
    (run idx listed cells k).cells j = cells j := by
  induction k with
  | zero => rfl
  | succ k ih =>
    have before := ih (by omega)
    have place := writeIdx_le idx listed cells k
    rw [run_succ]
    rcases step_cases idx listed (run idx listed cells k) k with
      ⟨_, _, same⟩ | ⟨_, _, same⟩ | ⟨_, same⟩ <;> rw [same]
    · exact before
    · rw [keep_cells_other _ (by simp only; omega)]
      exact before
    · rw [keep_cells_other _ (by omega)]
      exact before

/-- The first `n` listed indices ascend strictly. -/
def Ascending (n : Nat) : Prop :=
  ∀ a b, a < b → b < n → idx a < idx b

variable {idx} in
theorem Ascending.mono {n m : Nat} (ascending : Ascending idx n) (le : m ≤ n) :
    Ascending idx m :=
  fun a b lt bound => ascending a b lt (by omega)

variable {idx} in
/-- A larger index behind ascending ones. -/
theorem Ascending.snoc {n : Nat} (ascending : Ascending idx (n + 1))
    (above : idx n < idx (n + 1)) : Ascending idx (n + 2) := by
  intro a b lt bound
  rcases Nat.lt_or_ge b (n + 1) with inner | last
  · exact ascending a b lt inner
  · have b_eq : b = n + 1 := by omega
    subst b_eq
    rcases Nat.lt_or_ge a n with before | same
    · exact Nat.lt_trans (ascending a n before (by omega)) above
    · have a_eq : a = n := by omega
      exact a_eq ▸ above

/-- The cursor has passed entry `m` exactly when `m` is listed, the entries up to
`m` ascend, and the pass is beyond the index entry `m` names. -/
theorem lt_skip_iff (cells : Cells α) (k m : Nat) :
    m < (run idx listed cells k).skip ↔
      m < listed ∧ Ascending idx (m + 1) ∧ idx m < k := by
  induction k generalizing m with
  | zero =>
    constructor
    · intro impossible
      exact absurd impossible (Nat.not_lt_zero m)
    · rintro ⟨_, _, impossible⟩
      exact absurd impossible (Nat.not_lt_zero _)
  | succ k ih =>
    -- An entry passed at this very iteration must be the cursor's own entry.
    have fresh : ∀ {m}, ¬ m < (run idx listed cells k).skip → m < listed →
        Ascending idx (m + 1) → idx m < k + 1 →
        m = (run idx listed cells k).skip ∧ idx m = k := by
      intro m notBefore more ascending reached
      have here : idx m = k := by
        have notBelow : ¬ idx m < k := fun below =>
          notBefore ((ih m).mpr ⟨more, ascending, below⟩)
        omega
      refine ⟨?_, here⟩
      by_contra different
      have earlier : (run idx listed cells k).skip < m := by omega
      have below := ascending _ m earlier (by omega)
      have passed := (ih (run idx listed cells k).skip).mpr
        ⟨by omega, ascending.mono (by omega), by omega⟩
      omega
    rw [run_succ]
    rcases step_cases idx listed (run idx listed cells k) k with
      ⟨more, hit, same⟩ | ⟨more, miss, same⟩ | ⟨done, same⟩ <;> rw [same]
    · show m < (run idx listed cells k).skip + 1 ↔ _
      constructor
      · intro lt
        rcases Nat.lt_or_ge m (run idx listed cells k).skip with old | new
        · obtain ⟨inside, ascending, below⟩ := (ih m).mp old
          exact ⟨inside, ascending, by omega⟩
        · have m_eq : m = (run idx listed cells k).skip := by omega
          subst m_eq
          refine ⟨more, ?_, by omega⟩
          cases cursor : (run idx listed cells k).skip with
          | zero =>
            intro a b lt bound
            omega
          | succ prior =>
            obtain ⟨_, ascending, below⟩ := (ih prior).mp (by omega)
            rw [cursor] at hit
            exact ascending.snoc (by omega)
      · rintro ⟨inside, ascending, below⟩
        by_contra notPassed
        have found := fresh (by omega) inside ascending below
        omega
    · rw [keep_skip]
      constructor
      · intro lt
        obtain ⟨inside, ascending, below⟩ := (ih m).mp lt
        exact ⟨inside, ascending, by omega⟩
      · rintro ⟨inside, ascending, below⟩
        by_contra notPassed
        obtain ⟨m_eq, here⟩ := fresh notPassed inside ascending below
        exact miss (m_eq ▸ here)
    · rw [keep_skip]
      constructor
      · intro lt
        obtain ⟨inside, ascending, below⟩ := (ih m).mp lt
        exact ⟨inside, ascending, by omega⟩
      · rintro ⟨inside, ascending, below⟩
        by_contra notPassed
        obtain ⟨m_eq, _⟩ := fresh notPassed inside ascending below
        exact done (m_eq ▸ inside)

/-- The entries read are the cursor's positions at each iteration with listed
entries left. -/
theorem mem_reads_iff (cells : Cells α) (k m : Nat) :
    m ∈ (run idx listed cells k).reads ↔
      m < listed ∧ ∃ i, i < k ∧ (run idx listed cells i).skip = m := by
  induction k with
  | zero => simp [run]
  | succ k ih =>
    have split_last : (∃ i, i < k + 1 ∧ (run idx listed cells i).skip = m) ↔
        (∃ i, i < k ∧ (run idx listed cells i).skip = m) ∨
          (run idx listed cells k).skip = m := by
      constructor
      · rintro ⟨i, lt, at_i⟩
        rcases Nat.lt_or_ge i k with before | last
        · exact Or.inl ⟨i, before, at_i⟩
        · have i_eq : i = k := by omega
          exact Or.inr (i_eq ▸ at_i)
      · rintro (⟨i, lt, at_i⟩ | at_k)
        · exact ⟨i, by omega, at_i⟩
        · exact ⟨k, by omega, at_k⟩
    rw [run_succ, split_last]
    rcases step_cases idx listed (run idx listed cells k) k with
      ⟨more, _, same⟩ | ⟨more, _, same⟩ | ⟨done, same⟩ <;> rw [same]
    · simp only [List.mem_append, List.mem_singleton, ih]
      grind
    · simp only [keep_reads, List.mem_append, List.mem_singleton, ih]
      grind
    · simp only [keep_reads, ih]
      grind

/-- The cells that survive the removal of the listed indices. -/
def survivors (drop : List Nat) (values : List α) : List α :=
  (values.zipIdx.filter fun entry => entry.2 ∉ drop).map Prod.fst

/-- Survivors of an array's window, by index. -/
theorem survivors_window (drop : List Nat) (cells : Cells α) (count : Nat) :
    survivors drop (cells.window 0 count) =
      ((List.range count).filter (· ∉ drop)).map cells := by
  have zipped : (cells.window 0 count).zipIdx = (List.range count).map fun i => (cells i, i) := by
    apply List.ext_getElem (by simp)
    intro i _ _
    simp
  rw [survivors, zipped, List.filter_map, List.map_map]
  rfl

/-- For a strictly ascending list of indices inside the array, the pass leaves the
survivors, in order, below the write position. -/
theorem run_window (cells : Cells α) (count : Nat) {drop : List Nat}
    (entries : ∀ m (h : m < drop.length), idx m = drop[m])
    (ascending : drop.Pairwise (· < ·)) :
    (run idx drop.length cells count).cells.window 0
        (run idx drop.length cells count).writeIdx =
      survivors drop (cells.window 0 count) := by
  have idxAscending : Ascending idx drop.length := by
    intro a b lt bound
    rw [entries a (by omega), entries b bound]
    exact List.pairwise_iff_getElem.mp ascending a b (by omega) bound lt
  have listed_iff : ∀ i, i ∈ drop ↔ ∃ m, m < drop.length ∧ idx m = i := by
    intro i
    constructor
    · intro member
      obtain ⟨m, bound, here⟩ := List.getElem_of_mem member
      exact ⟨m, bound, (entries m bound).trans here⟩
    · rintro ⟨m, bound, here⟩
      rw [← here, entries m bound]
      exact List.getElem_mem bound
  rw [survivors_window]
  induction count with
  | zero => rfl
  | succ k ih =>
    have place := writeIdx_le idx drop.length cells k
    have here := cells_ahead idx drop.length cells (Nat.le_refl k)
    -- The iteration skips cell `k` exactly when `k` is listed.
    have skips : ((run idx drop.length cells k).skip < drop.length ∧
        idx (run idx drop.length cells k).skip = k) ↔ k ∈ drop := by
      rw [listed_iff]
      constructor
      · rintro ⟨more, hit⟩
        exact ⟨_, more, hit⟩
      · rintro ⟨m, bound, at_k⟩
        have notPassed : ¬ m < (run idx drop.length cells k).skip := fun passed => by
          have below := ((lt_skip_iff idx drop.length cells k m).mp passed).2.2
          omega
        have notLater : ¬ (run idx drop.length cells k).skip < m := fun earlier => by
          have below := idxAscending _ m earlier bound
          have passed :=
            (lt_skip_iff idx drop.length cells k (run idx drop.length cells k).skip).mpr
            ⟨by omega, idxAscending.mono (by omega), by omega⟩
          omega
        have m_eq : m = (run idx drop.length cells k).skip := by omega
        exact m_eq ▸ ⟨bound, at_k⟩
    have kept : ∀ (pass : Compaction α),
        pass.cells = (run idx drop.length cells k).cells →
        pass.writeIdx = (run idx drop.length cells k).writeIdx → k ∉ drop →
        (pass.keep k).cells.window 0 (pass.keep k).writeIdx =
          ((List.range (k + 1)).filter (· ∉ drop)).map cells := by
      intro pass sameCells sameIdx unlisted
      rw [keep_writeIdx, Cells.window_succ, List.range_succ, List.filter_append, List.map_append,
        ← ih, Nat.zero_add, keep_cells_writeIdx]
      congr 1
      · rw [sameIdx]
        apply Cells.window_congr
        intro i lt
        rw [keep_cells_other _ (by omega), sameCells]
      · simp [unlisted, sameCells, here]
    rw [run_succ]
    rcases step_cases idx drop.length (run idx drop.length cells k) k with
      ⟨more, hit, same⟩ | ⟨more, miss, same⟩ | ⟨done, same⟩ <;> rw [same]
    · have member := skips.mp ⟨more, hit⟩
      simpa [List.range_succ, member] using ih
    · exact kept _ rfl rfl fun member => miss (skips.mpr member).2
    · exact kept _ rfl rfl fun member => done (skips.mpr member).1

end Compaction

end D2xCios.Lib
