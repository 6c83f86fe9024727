import D2xCios.Ra.ChainWalk
import D2xCios.Ra.Fetch
import Mathlib.Tactic.SplitIfs

/-!
# Accepted chain tables

Whatever the link delivers, the table the fetch takes over is well formed:
every node was validated in place, and a failed or repeated chunk overwrites
only slots that are not part of the table yet. `Accepted` is what later results
need of a fetched table, and `raFetchChainTable_accepted` provides it.
-/

namespace D2xCios.Ra

open D2xCios.Lib

/-- A node that passes the structural check at its slot. -/
def WellPlaced (node : ChainNode) (slot : Nat) : Prop :=
  (∀ p, node.parentSlot = some p → p < slot) ∧ (ChainOp.ofCode node.opCode).isSome

/-- The codes the check lets through are all known. -/
theorem ofCode_isSome {code : UInt8} (numbered : code = raCnOpNone ∨ code = raCnOpDeref ∨
    raCnOpMult ≤ code ∧ code ≤ raCnOpSubAcc) : (ChainOp.ofCode code).isSome := by
  have listed : ∀ n, n < 18 → 6 ≤ n → (ChainOp.ofCode (UInt8.ofNat n)).isSome := by decide
  have range : 6 ≤ code.toNat ∧ code.toNat < 18 := by
    simp only [raCnOpNone, raCnOpDeref, raCnOpMult, raCnOpSubAcc, UInt8.le_iff_toNat_le,
      ← UInt8.toNat_inj, UInt8.reduceToNat] at numbered
    omega
  have known := listed code.toNat range.2 range.1
  rwa [UInt8.ofNat_toNat] at known

/-- A node that passes the checks is well placed. -/
theorem wellPlaced_of_nodeFault {node : ChainNode} {slot : Nat} (small : slot < 65536)
    (passed : nodeFault node slot = none) : WellPlaced node slot := by
  unfold nodeFault at passed
  split at passed
  · cases passed
  · rename_i parentOk
    split at passed
    · cases passed
    · rename_i opOk
      constructor
      · intro p child
        have named : node.parent ≠ raChainParentNone := fun none => by
          simp [ChainNode.parentSlot, none] at child
        have before : node.parent < UInt16.ofNat slot :=
          UInt16.not_le.mp fun beyond => parentOk ⟨named, beyond⟩
        simp only [ChainNode.parentSlot, named, if_false, Option.some.injEq] at child
        rw [UInt16.lt_iff_toNat_lt, UInt16.toNat_ofNat_of_lt' small] at before
        omega
      · apply ofCode_isSome
        by_cases immediate : node.opCode = raCnOpNone
        · exact Or.inl immediate
        · by_cases deref : node.opCode = raCnOpDeref
          · exact Or.inr (Or.inl deref)
          · refine Or.inr (Or.inr ⟨UInt8.not_lt.mp fun low => ?_, UInt8.not_lt.mp fun high => ?_⟩)
            · exact opOk ⟨immediate, deref, Or.inl low⟩
            · exact opOk ⟨immediate, deref, Or.inr high⟩

/-! ## The chunk loop -/

/-- The first `base` nodes are a well-formed table. -/
structure ValidUpTo (nodes : Cells ChainNode) (base : Nat) : Prop where
  bounded : base ≤ raMaxChainNodes
  placed : ∀ i, i < base → WellPlaced (nodes i) i

/-- The fetch stores nodes and nothing else of the walk state. -/
def NodesOnly {σ : Type} (off : ChainStatics) (sys : Sys σ) : Prop :=
  ∃ nodes, sys.chain = { off with nodes := nodes }

section Fetch

variable {σ : Type} {port : Port σ} {off : ChainStatics}

/-- The exchange of a chunk leaves the chain. -/
theorem chunkExchange_chain (port : Port σ) (command : UInt8) (chunkIndex : UInt16) (sys : Sys σ) :
    (chunkExchange port command chunkIndex sys).2.chain = sys.chain := rfl

/-- A chunk that is accepted fits the table. -/
theorem readChainChunk_bounded {chunkIndex : UInt16} {base : Nat} {rx : Mem} {chunk : ChainChunk}
    (accepted : readChainChunk chunkIndex base rx = .ok chunk) :
    base + chunk.nodeCount ≤ raMaxChainNodes := by
  simp only [readChainChunk] at accepted
  split_ifs at accepted with magic count index total room crc
  cases accepted
  exact Nat.le_trans (Nat.not_lt.mp room) (Nat.not_lt.mp total)

/-- Storing a chunk behind `base` leaves the table so far alone. -/
theorem ValidUpTo.fill {nodes : Cells ChainNode} {base : Nat} (valid : ValidUpTo nodes base)
    (count : Nat) (source : Nat → ChainNode) : ValidUpTo (nodes.fill base count source) base := by
  refine ⟨valid.bounded, fun i below => ?_⟩
  rw [Cells.fill_eq_overlay, Cells.overlay_outside _ _ _ (Or.inl below)]
  exact valid.placed i below

/-- A chunk without a fault extends the table. -/
theorem ValidUpTo.extend {nodes : Cells ChainNode} {base count : Nat}
    (valid : ValidUpTo nodes base) (bounded : base + count ≤ raMaxChainNodes)
    (clean : firstFault nodes base count = none) : ValidUpTo nodes (base + count) := by
  refine ⟨bounded, fun i below => ?_⟩
  by_cases old : i < base
  · exact valid.placed i old
  · obtain ⟨j, rfl⟩ : ∃ j, i = base + j := ⟨i - base, by omega⟩
    have passed := List.findSome?_eq_none_iff.mp clean j (List.mem_range.mpr (by omega))
    rw [Option.map_eq_none_iff] at passed
    refine wellPlaced_of_nodeFault ?_ passed
    simp only [raMaxChainNodes] at bounded
    omega

/-- A chunk attempt keeps what has been fetched, and a successful one extends it. -/
theorem raFetchChainChunk_outcome (chunkIndex : UInt16) (base : Nat) {sys : Sys σ}
    (only : NodesOnly off sys) (valid : ValidUpTo sys.chain.nodes base) :
    Outcome (fun (result : Bool × Nat) after =>
        NodesOnly off after ∧ ValidUpTo after.chain.nodes result.2)
      (fun after => NodesOnly off after ∧ ValidUpTo after.chain.nodes base)
      (raFetchChainChunk port chunkIndex base sys) := by
  unfold raFetchChainChunk
  have unchanged := chunkExchange_chain port raCmdGetChainChunk chunkIndex sys
  rcases exchanged : chunkExchange port raCmdGetChainChunk chunkIndex sys with ⟨ret, after⟩
  rw [exchanged] at unchanged
  have kept : NodesOnly off after ∧ ValidUpTo after.chain.nodes base := by
    rw [NodesOnly, unchanged]
    exact ⟨only, valid⟩
  cases ret with
  | error error => exact kept
  | ok rx =>
    cases read : readChainChunk chunkIndex base rx with
    | error error => simpa [read] using kept
    | ok chunk =>
      have bounded := readChainChunk_bounded read
      have stored := kept.2.fill chunk.nodeCount fun j =>
        ChainNode.read rx (chainChunkNodes + j * raChainNodeSize)
      obtain ⟨nodes, same⟩ := kept.1
      simp only [read]
      split
      · exact ⟨⟨_, by rw [raChainDumpBadNode, raDebugSendAlways_chain, same]⟩, stored⟩
      · rename_i clean
        exact ⟨⟨_, by rw [same]⟩, stored.extend bounded clean⟩

/-- The chunk loop arrives at a table that is valid as far as it reaches. -/
theorem fetchChainChunks_valid (port : Port σ) (off : ChainStatics) (left : Nat)
    (chunkIdx : UInt16) (base : Nat) (sys : Sys σ) (only : NodesOnly off sys)
    (valid : ValidUpTo sys.chain.nodes base) :
    NodesOnly off (fetchChainChunks port left chunkIdx base sys).2 ∧
      ∀ count, (fetchChainChunks port left chunkIdx base sys).1 = some count →
        ValidUpTo (fetchChainChunks port left chunkIdx base sys).2.chain.nodes count := by
  induction left generalizing chunkIdx base sys with
  | zero => exact ⟨only, fun count reached => by cases reached; exact valid⟩
  | succ left ih =>
    have outcome := retry_outcome (raReportChunkRetry port "C" chunkIdx)
      (raFetchChainChunk port chunkIdx base)
      (fun s (kept : NodesOnly off s ∧ ValidUpTo s.chain.nodes base) =>
        raFetchChainChunk_outcome chunkIdx base kept.1 kept.2)
      (fun _ _ _ done => done) raChunkFetchAttempts 0 (-1) ⟨only, valid⟩
    rw [fetchChainChunks]
    rcases attempts : retry (raReportChunkRetry port "C" chunkIdx)
      (raFetchChainChunk port chunkIdx base) raChunkFetchAttempts 0 (-1) sys with ⟨ret, after⟩
    rw [attempts] at outcome
    match ret, outcome with
    | .error error, failed => exact ⟨failed.1, fun _ reached => by cases reached⟩
    | .ok (true, reached), done =>
      exact ⟨done.1, fun count same => by cases same; exact done.2⟩
    | .ok (false, reached), done => exact ih (chunkIdx + 1) reached after done.1 done.2

/-! ## Adopting the table -/

/-- The statics hold a table together with the two lists derived from it. -/
structure Carries (table : ChainTable) (s : ChainStatics) : Prop where
  loaded : Loaded table s
  shipNode : s.shipNode = table.shipNodes
  dp_mem : ∀ entry, entry ∈ s.dp ↔ ∃ i, i < table.count ∧ (table.node i).dpEdge = some entry
  dp_length : s.dp.length ≤ raMaxDpParents

/-- What the fetch leaves: a table before its first walk. -/
structure Accepted (table : ChainTable) (s : ChainStatics) : Prop where
  carries : Carries table s
  rest : AtRest table [] s

/-- One node's edge joins the list unless it is there already. -/
theorem addDpEntry_mem {list longer : List DpEntry} {node : ChainNode}
    (added : addDpEntry list node = some longer) (entry : DpEntry) :
    entry ∈ longer ↔ entry ∈ list ∨ node.dpEdge = some entry := by
  unfold addDpEntry at added
  cases edge : node.dpEdge with
  | none =>
    simp only [edge, Option.some.injEq] at added
    simp [added]
  | some own =>
    simp only [edge] at added
    split at added
    · rename_i known
      cases added
      constructor
      · exact Or.inl
      · rintro (old | same)
        · exact old
        · cases same
          exact known
    · split at added
      · cases added
      · cases added
        simp [eq_comm]

theorem addDpEntry_length {list longer : List DpEntry} {node : ChainNode}
    (added : addDpEntry list node = some longer) (short : list.length ≤ raMaxDpParents) :
    longer.length ≤ raMaxDpParents := by
  unfold addDpEntry at added
  split at added
  · cases added
    exact short
  · split at added
    · cases added
      exact short
    · split at added
      · cases added
      · rename_i room
        cases added
        rw [List.length_append]
        exact Nat.lt_of_not_ge room

/-- The scan collects exactly the history edges of the table. -/
theorem dpList_spec {nodes : Cells ChainNode} {count : Nat} {list : List DpEntry}
    (scanned : dpList nodes count = some list) :
    (∀ entry, entry ∈ list ↔ ∃ i, i < count ∧ (nodes i).dpEdge = some entry) ∧
      list.length ≤ raMaxDpParents := by
  induction count generalizing list with
  | zero =>
    cases scanned
    simp
  | succ count ih =>
    have split : (dpList nodes count).bind (addDpEntry · (nodes count)) = some list := by
      simpa [dpList, List.range_succ, List.foldlM_append] using scanned
    obtain ⟨before, collected, added⟩ := Option.bind_eq_some_iff.mp split
    obtain ⟨members, short⟩ := ih collected
    refine ⟨fun entry => ?_, addDpEntry_length added short⟩
    rw [addDpEntry_mem added, members]
    constructor
    · rintro (⟨i, below, edge⟩ | edge)
      · exact ⟨i, Nat.lt_succ_of_lt below, edge⟩
      · exact ⟨count, Nat.lt_succ_self _, edge⟩
    · rintro ⟨i, below, edge⟩
      rcases Nat.lt_succ_iff_lt_or_eq.mp below with old | rfl
      · exact Or.inl ⟨i, old, edge⟩
      · exact Or.inr edge

/-- The table without nodes. -/
def ChainTable.empty : ChainTable where
  node := fun _ => ⟨0, 0, 0, 0⟩
  count := 0
  bounded := Nat.zero_le _
  earlier := fun _ below => absurd below (Nat.not_lt_zero _)
  known := fun _ below => absurd below (Nat.not_lt_zero _)

/-- Without nodes nothing is left to accept. -/
theorem accepted_empty {s : ChainStatics} (count : s.nodeCount = 0) (shipNode : s.shipNode = [])
    (dp : s.dp = []) : Accepted .empty s := by
  have loaded : Loaded .empty s := ⟨count, fun _ below => absurd below (Nat.not_lt_zero _)⟩
  refine ⟨⟨loaded, by simp [shipNode, ChainTable.shipNodes, ChainTable.empty], by simp [dp,
    ChainTable.empty],
    by simp [dp]⟩, ⟨loaded, ?_, ?_, ?_, ?_⟩⟩
  all_goals exact fun _ below => absurd below (Nat.not_lt_zero _)

/-- The table of a valid node array. -/
def ValidUpTo.table {nodes : Cells ChainNode} {count : Nat} (valid : ValidUpTo nodes count) :
    ChainTable where
  node := nodes
  count := count
  bounded := valid.bounded
  earlier := fun i below => (valid.placed i below).1
  known := fun i below => (valid.placed i below).2

/-- Adopting a valid table at power-on. -/
theorem adopt_accepted {s : ChainStatics} {count : Nat} (valid : ValidUpTo s.nodes count)
    (invalid : s.nodeValid = fun _ => 0) :
    ∃ table, Accepted table (s.adopt count) := by
  have cleared : ∀ (cells : Cells UInt32) i, i < count →
      cells.fill 0 count (fun _ => 0) i = 0 := by
    intro cells i below
    have stored := Cells.overlay_inside cells 0 ((List.range count).map fun _ => (0 : UInt32))
      (i := i) (by simpa using below)
    simpa [Cells.fill_eq_overlay] using stored
  unfold ChainStatics.adopt
  cases scanned : dpList s.nodes count with
  | none => exact ⟨.empty, accepted_empty rfl rfl rfl⟩
  | some list =>
    obtain ⟨members, short⟩ := dpList_spec scanned
    have loaded : ∀ t : ChainStatics, t.nodeCount = count → t.nodes = s.nodes →
        Loaded valid.table t :=
      fun t counted same => ⟨counted, fun i _ => congrFun same i⟩
    refine ⟨valid.table, ⟨loaded _ rfl rfl, rfl, members, short⟩, loaded _ rfl rfl, ?_, ?_, ?_, ?_⟩
    · intro i below
      refine ⟨rfl, cleared _ i below, fun now => ?_⟩
      simp only [cleared _ i below]
      split <;> rfl
    · exact fun i below => cleared _ i below
    · intro i _
      simp [invalid, ChainTable.validAt]
    · intro i _
      simp [ChainTable.validAt]

/-- Whatever the link delivers, the fetch at power-on leaves an accepted table. -/
theorem raFetchChainTable_accepted (port : Port σ) (sys : Sys σ) :
    ∃ table, Accepted table (raFetchChainTable port { sys with chain := .boot }).chain := by
  have empty : ValidUpTo ChainStatics.boot.nodes 0 :=
    ⟨Nat.zero_le _, fun _ below => absurd below (Nat.not_lt_zero _)⟩
  have fetched := fetchChainChunks_valid port .boot chainChunkCap 0 0
    { sys with chain := .boot } ⟨_, rfl⟩ empty
  unfold raFetchChainTable
  rcases chunks : fetchChainChunks port chainChunkCap 0 0 { sys with chain := .boot }
    with ⟨reached, after⟩
  rw [chunks] at fetched
  obtain ⟨⟨nodes, only⟩, valid⟩ := fetched
  have off : ({ ChainStatics.boot with nodeCount := 0, shipNode := [], winNext := 0 } :
    ChainStatics) = .boot := rfl
  simp only [off, chunks]
  cases reached with
  | none =>
    exact ⟨.empty, accepted_empty (by rw [only]; rfl) (by rw [only]; rfl) (by rw [only]; rfl)⟩
  | some base =>
    exact adopt_accepted (valid base rfl) (by rw [only]; rfl)

end Fetch

end D2xCios.Ra
