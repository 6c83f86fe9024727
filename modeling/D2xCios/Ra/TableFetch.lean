import D2xCios.Ra.ChainRuns
import D2xCios.Ra.ChunkReplies

/-!
# Fetching the chain table

Which chunk replies turn the chain walker on, and what table it then has. Every
accepted chunk is checked on its own, but nothing is checked of the whole: the loop
takes over what has arrived when it runs out of rounds, the announced number of nodes
is not compared with the number that arrived, and an edge of the undefined history
kind passes. `raFetchChainTable_iff` says which replies the fetch handles right.
-/

namespace D2xCios.Ra

open D2xCios.Lib

/-! ## Replies -/

/-- The numbers of nodes in a chunk reply, and in the whole table. -/
def chainNodeCount (rx : Mem) : Nat := (be16 rx (chunkPad + EspHeader.size + 2)).toNat
def chainTotalNodes (rx : Mem) : Nat := (be16 rx (chunkPad + EspHeader.size + 4)).toNat

/-- The `j`-th node of a chunk reply. -/
def chainNodeAt (rx : Mem) (j : Nat) : ChainNode :=
  ChainNode.read rx (chainChunkNodes + j * raChainNodeSize)

/-- The nodes of a chunk reply. -/
def chunkNodes (rx : Mem) : List ChainNode := (List.range (chainNodeCount rx)).map (chainNodeAt rx)

/-- A chunk reply's last-chunk flag. -/
def lastChainChunk (rx : Mem) : Bool := rx (chunkPad + EspHeader.size + 6) != 0

/-- Bytes the checksum of a chunk reply covers. -/
def chainPayload (rx : Mem) : Nat := EspHeader.size + 8 + chainNodeCount rx * raChainNodeSize

/-- A valid reply behind `base` nodes: header and checksum are right, and every node is
well formed at its slot. -/
def ValidChainChunk (k base : Nat) (rx : Mem) : Prop :=
  ((EspHeader.read rx chunkPad).magic = raMagicEspToGc ∧
      chainNodeCount rx ≤ raChainChunkNodes ∧
      be16 rx (chunkPad + EspHeader.size) = UInt16.ofNat k ∧
      chainTotalNodes rx ≤ raMaxChainNodes ∧ base + chainNodeCount rx ≤ chainTotalNodes rx ∧
      be32 rx (chunkPad + chainPayload rx) = raCrc32 (rx.window chunkPad (chainPayload rx))) ∧
    ∀ j ∈ List.range (chainNodeCount rx), nodeFault (chainNodeAt rx j) (base + j) = none

instance (k base : Nat) (rx : Mem) : Decidable (ValidChainChunk k base rx) := by
  unfold ValidChainChunk
  infer_instance

/-- The valid reply that an exchange brought, if it did. -/
def validChainReply (k base : Nat) : Except Int Mem → Option Mem
  | .error _ => none
  | .ok rx => if ValidChainChunk k base rx then some rx else none

/-- The nodes of the chunks collected so far, and their number. -/
def tableNodes (chunks : List Mem) : List ChainNode := chunks.flatMap chunkNodes
def tableBase (chunks : List Mem) : Nat := (tableNodes chunks).length

@[simp] theorem tableBase_append (before : List Mem) (rx : Mem) :
    tableBase (before ++ [rx]) = tableBase before + chainNodeCount rx := by
  simp [tableBase, tableNodes, chunkNodes]

/-- Chain chunks as a chunked transfer. -/
def chainTransfer : ChunkedTransfer (Except Int Mem) Mem where
  accept before := validChainReply before.length (tableBase before)
  isLast := lastChainChunk
  attempts := raChunkFetchAttempts

/-- The header checks let exactly the valid headers through. -/
theorem readChainChunk_eq (k base : Nat) (rx : Mem) :
    (ValidChainChunk k base rx →
        readChainChunk (UInt16.ofNat k) base rx = .ok ⟨chainNodeCount rx, lastChainChunk rx⟩) ∧
      ∀ chunk, readChainChunk (UInt16.ofNat k) base rx = .ok chunk →
        chunk = ⟨chainNodeCount rx, lastChainChunk rx⟩ ∧
          ((∀ j ∈ List.range (chainNodeCount rx),
            nodeFault (chainNodeAt rx j) (base + j) = none) → ValidChainChunk k base rx) := by
  constructor
  · rintro ⟨⟨magic, count, index, total, room, crc⟩, _⟩
    simp only [chainNodeCount, chainTotalNodes, chainPayload] at count total room crc
    simp only [readChainChunk, magic, index, ne_eq, not_true_eq_false, if_false,
      Nat.not_lt.mpr count, Nat.not_lt.mpr total, Nat.not_lt.mpr room, crc]
    rfl
  · intro chunk accepted
    simp only [readChainChunk] at accepted
    split_ifs at accepted with magic count index total room crc
    cases accepted
    exact ⟨rfl, fun clean => ⟨⟨not_not.mp magic, Nat.not_lt.mp count, not_not.mp index,
      Nat.not_lt.mp total, Nat.not_lt.mp room, not_not.mp crc⟩, clean⟩⟩

/-- A chunk that was just stored is free of faults if its nodes are. -/
theorem firstFault_stored (nodes : Cells ChainNode) (base : Nat) (rx : Mem) :
    firstFault (nodes.fill base (chainNodeCount rx) (chainNodeAt rx)) base (chainNodeCount rx) =
        none ↔
      ∀ j ∈ List.range (chainNodeCount rx), nodeFault (chainNodeAt rx j) (base + j) = none := by
  rw [firstFault, List.findSome?_eq_none_iff]
  refine forall₂_congr fun j member => ?_
  have stored : nodes.fill base (chainNodeCount rx) (chainNodeAt rx) (base + j) =
      chainNodeAt rx j := by
    have inside := Cells.overlay_inside nodes base
      ((List.range (chainNodeCount rx)).map (chainNodeAt rx)) (i := j) (by simpa using member)
    simpa [Cells.fill_eq_overlay] using inside
  rw [stored, Option.map_eq_none_iff]

/-! ## The fetch collects the accepted replies -/

/-- The node array starts with the chunks collected so far, and nothing else of the
chain state has changed. -/
structure Holding (off : ChainStatics) (before : List Mem) (chain : ChainStatics) : Prop where
  only : ∃ nodes, chain = { off with nodes := nodes }
  front : chain.nodes.window 0 (tableBase before) = tableNodes before

namespace Holding

variable {off chain : ChainStatics} {before : List Mem}

/-- Storing behind the chunks so far leaves them alone. -/
theorem fill (holding : Holding off before chain) (count : Nat) (source : Nat → ChainNode) :
    Holding off before
      { chain with nodes := chain.nodes.fill (tableBase before) count source } := by
  obtain ⟨nodes, same⟩ := holding.only
  refine ⟨⟨_, by rw [same]⟩, ?_⟩
  rw [← holding.front, Cells.fill_eq_overlay]
  exact Cells.window_overlay_disjoint _ (Or.inl (by omega))

/-- A stored chunk extends the table. -/
theorem extend (holding : Holding off before chain) (rx : Mem) :
    Holding off (before ++ [rx])
      { chain with
        nodes := chain.nodes.fill (tableBase before) (chainNodeCount rx) (chainNodeAt rx) } := by
  refine ⟨(holding.fill _ _).only, ?_⟩
  rw [tableBase_append]
  have grown := Cells.window_fill chain.nodes (tableBase before) (chainNodeCount rx)
    (chainNodeAt rx)
  simp only [grown, holding.front, tableNodes, List.flatMap_append, List.flatMap_singleton]
  rfl

end Holding

section Fetch

variable (image : PpcImage) (replies : ChunkReplies) {off : ChainStatics}

/-- One attempt takes the next reply. -/
theorem raFetchChainChunk_perChunk {before : List Mem} (small : before.length < 65536)
    {sys : Sys (Nat → Nat)} (holding : Holding off before sys.chain) :
    let k := before.length
    let reply := validChainReply k (tableBase before) (replies k (sys.io k))
    Outcome
      (fun result after => ∃ rx, reply = some rx ∧
        result = (lastChainChunk rx, tableBase (before ++ [rx])) ∧
          Holding off (before ++ [rx]) after.chain ∧ ∀ i, i ≠ k → after.io i = sys.io i)
      (fun after => reply = none ∧
        (Holding off before after.chain ∧ ∀ i, i ≠ k → after.io i = sys.io i) ∧
          after.io k = sys.io k + 1)
      (raFetchChainChunk (.perChunk image replies) (UInt16.ofNat k) (tableBase before) sys) := by
  intro k reply
  obtain ⟨received, counted, others⟩ :=
    chunkExchange_perChunk image replies raCmdGetChainChunk sys small
  have kept := chunkExchange_chain (.perChunk image replies) raCmdGetChainChunk (UInt16.ofNat k) sys
  unfold raFetchChainChunk
  rcases exchanged : chunkExchange (.perChunk image replies) raCmdGetChainChunk (UInt16.ofNat k) sys
    with ⟨error | rx, after⟩
  · rw [exchanged] at received counted others kept
    have missing : reply = none := by
      simp only [reply, validChainReply, k]
      rw [← received]
    exact ⟨missing, ⟨kept ▸ holding, others⟩, counted⟩
  · rw [exchanged] at received counted others kept
    have brought : reply = if ValidChainChunk k (tableBase before) rx then some rx else none := by
      simp only [reply, k]
      rw [← received]
      rfl
    have still : Holding off before after.chain := kept ▸ holding
    obtain ⟨accepts, accepted⟩ := readChainChunk_eq k (tableBase before) rx
    cases read : readChainChunk (UInt16.ofNat k) (tableBase before) rx with
    | error error =>
      have invalid : ¬ ValidChainChunk k (tableBase before) rx := fun valid => by
        rw [accepts valid] at read
        cases read
      simp only [read]
      exact ⟨by rw [brought, if_neg invalid], ⟨still, others⟩, counted⟩
    | ok chunk =>
      obtain ⟨rfl, validIf⟩ := accepted chunk read
      have clean := firstFault_stored after.chain.nodes (tableBase before) rx
      simp only [read]
      split
      · rename_i slot error fault
        have invalid : ¬ ValidChainChunk k (tableBase before) rx := fun valid => by
          have none := clean.mpr valid.2
          exact absurd (none.symm.trans fault) (by simp)
        exact ⟨by rw [brought, if_neg invalid], ⟨still.fill _ _, others⟩, counted⟩
      · rename_i fault
        have valid := validIf (clean.mp fault)
        refine ⟨rx, by rw [brought, if_pos valid], ?_, still.extend rx, others⟩
        rw [tableBase_append]

/-- The attempts store the accepted chunk. -/
theorem raFetchChainChunk_attempts {before : List Mem} (small : before.length < 65536)
    {sys : Sys (Nat → Nat)} (fresh : sys.io before.length = 0)
    (holding : Holding off before sys.chain) :
    let k := before.length
    let chunk := chainTransfer.chunk replies before
    Outcome
      (fun result after => ∃ rx, chunk = some rx ∧
        result = (lastChainChunk rx, tableBase (before ++ [rx])) ∧
          Holding off (before ++ [rx]) after.chain ∧ ∀ i, i ≠ k → after.io i = sys.io i)
      (fun after => chunk = none ∧ Holding off before after.chain)
      (retry (raReportChunkRetry (.perChunk image replies) "C" (UInt16.ofNat k))
        (raFetchChainChunk (.perChunk image replies) (UInt16.ofNat k) (tableBase before))
        raChunkFetchAttempts 0 (-1) sys) := by
  intro k chunk
  have attempts := Outcome.retry_first
    (raReportChunkRetry (.perChunk image replies) "C" (UInt16.ofNat k))
    (raFetchChainChunk (.perChunk image replies) (UInt16.ofNat k) (tableBase before))
    (fun s => s.io k) (fun j => validChainReply k (tableBase before) (replies k j))
    (fun rx result after => result = (lastChainChunk rx, tableBase (before ++ [rx])) ∧
      Holding off (before ++ [rx]) after.chain ∧ ∀ i, i ≠ k → after.io i = sys.io i)
    (fun s => Holding off before s.chain ∧ ∀ i, i ≠ k → s.io i = sys.io i)
    ?_ (fun _ _ _ _ done => done) raChunkFetchAttempts 0 (-1) ⟨holding, fun _ _ => rfl⟩
  · rw [show sys.io k = 0 from fresh] at attempts
    exact attempts.mono (fun _ _ done => done) fun _ failed => ⟨failed.1, failed.2.1⟩
  · rintro earlier ⟨still, others⟩
    refine (raFetchChainChunk_perChunk image replies small still).mono ?_ ?_
    · rintro result after ⟨rx, valid, same, longer, untouched⟩
      exact ⟨rx, valid, same, longer, fun i other => (untouched i other).trans (others i other)⟩
    · rintro after ⟨invalid, ⟨unchanged, untouched⟩, counted⟩
      exact ⟨invalid, ⟨unchanged, fun i other =>
        (untouched i other).trans (others i other)⟩, counted⟩

/-- The chunk loop collects the accepted replies. -/
theorem fetchChainChunks_perChunk (left : Nat) (before : List Mem) (sys : Sys (Nat → Nat))
    (small : before.length + left < 65536) (fresh : ∀ i, before.length ≤ i → sys.io i = 0)
    (holding : Holding off before sys.chain) :
    let collected := chainTransfer.collect replies left before
    let fetched := fetchChainChunks (.perChunk image replies) left (UInt16.ofNat before.length)
      (tableBase before) sys
    fetched.1 = (if collected.2 = .failed then none else some (tableBase collected.1)) ∧
      Holding off collected.1 fetched.2.chain := by
  induction left generalizing before sys with
  | zero => exact ⟨rfl, holding⟩
  | succ left ih =>
    have chunk := raFetchChainChunk_attempts image replies (by omega) (fresh _ (Nat.le_refl _))
      holding
    simp only at chunk
    rw [fetchChainChunks, ChunkedTransfer.collect]
    rcases fetched : retry (raReportChunkRetry (.perChunk image replies) "C"
        (UInt16.ofNat before.length)) (raFetchChainChunk (.perChunk image replies)
        (UInt16.ofNat before.length) (tableBase before)) raChunkFetchAttempts 0 (-1) sys
      with ⟨error | ⟨last, base⟩, after⟩
    · rw [fetched] at chunk
      obtain ⟨missing, still⟩ := chunk
      simp only [missing]
      exact ⟨rfl, still⟩
    · rw [fetched] at chunk
      obtain ⟨rx, accepted, same, longer, untouched⟩ := chunk
      obtain ⟨rfl, rfl⟩ := Prod.mk.inj same
      simp only [accepted]
      cases closed : lastChainChunk rx with
      | true =>
        have flag : chainTransfer.isLast rx = true := closed
        simp only [flag, if_true]
        exact ⟨rfl, longer⟩
      | false =>
        have flag : chainTransfer.isLast rx = false := closed
        have length : (before ++ [rx]).length = before.length + 1 := List.length_append
        have rest := ih (before ++ [rx]) after (by omega)
          (fun i behind => (untouched i (by omega)).trans (fresh i (by omega))) longer
        have next : UInt16.ofNat (before ++ [rx]).length = UInt16.ofNat before.length + 1 := by
          rw [length]
          exact UInt16.ofNat_add ..
        rw [next] at rest
        simp only [flag, Bool.false_eq_true, if_false]
        exact rest

end Fetch

/-! ## The derived lists -/

/-- The history edges of a table, in table order. -/
def historyEdges (nodes : List ChainNode) : List DpEntry := nodes.filterMap ChainNode.dpEdge

theorem historyEdges_append (nodes : List ChainNode) (node : ChainNode) :
    historyEdges (nodes ++ [node]) = historyEdges nodes ++ node.dpEdge.toList := by
  rw [historyEdges, List.filterMap_append, historyEdges]
  cases edge : node.dpEdge <;> simp [edge]

/-- One node's edge joins the distinct edges so far, if there is room. -/
theorem addDpEntry_eq (nodes : List ChainNode) (node : ChainNode)
    (fits : (historyEdges nodes).eraseDups.length ≤ raMaxDpParents) :
    addDpEntry (historyEdges nodes).eraseDups node =
      if (historyEdges (nodes ++ [node])).eraseDups.length ≤ raMaxDpParents then
        some (historyEdges (nodes ++ [node])).eraseDups
      else none := by
  rw [historyEdges_append, List.eraseDups_append]
  unfold addDpEntry
  cases edge : node.dpEdge with
  | none => simp [List.removeAll, fits]
  | some entry =>
    have single : [entry].eraseDups = [entry] := rfl
    by_cases known : entry ∈ historyEdges nodes
    · simp [List.removeAll, known, fits]
    · by_cases room : raMaxDpParents ≤ (historyEdges nodes).eraseDups.length
      · have full : ¬ (historyEdges nodes).eraseDups.length + 1 ≤ raMaxDpParents :=
          Nat.not_le.mpr (Nat.lt_succ_of_le room)
        simp [List.removeAll, known, room, single, full, -Nat.not_le, -not_le]
      · simp [List.removeAll, known, room, single, Nat.succ_le_of_lt (Nat.not_le.mp room)]

/-- The scan yields the distinct history edges in table order, if they fit. -/
theorem dpList_eq (nodes : Cells ChainNode) (count : Nat) :
    dpList nodes count =
      if (historyEdges (nodes.window 0 count)).eraseDups.length ≤ raMaxDpParents then
        some (historyEdges (nodes.window 0 count)).eraseDups
      else none := by
  induction count with
  | zero => rfl
  | succ count ih =>
    have split : dpList nodes (count + 1) =
        (dpList nodes count).bind (addDpEntry · (nodes count)) := by
      simp [dpList, List.range_succ, List.foldlM_append]
    have grown : nodes.window 0 (count + 1) = nodes.window 0 count ++ [nodes count] := by
      simp [Cells.window, List.range_succ]
    rw [split, ih, grown]
    by_cases fits : (historyEdges (nodes.window 0 count)).eraseDups.length ≤ raMaxDpParents
    · rw [if_pos fits, Option.bind_some, addDpEntry_eq _ _ fits]
    · have longer : (historyEdges (nodes.window 0 count)).eraseDups.length ≤
          (historyEdges (nodes.window 0 count ++ [nodes count])).eraseDups.length := by
        rw [historyEdges_append, List.eraseDups_append, List.length_append]
        exact Nat.le_add_right _ _
      rw [if_neg fits, if_neg fun short => fits (Nat.le_trans longer short), Option.bind_none]

/-! ## What the fetch should leave, and when it does -/

/-- A complete, well-formed table of accepted replies, with the lists derived from it. -/
structure CompleteTable (replies : ChunkReplies) (s : ChainStatics) : Prop where
  /-- The chunks up to one flagged as the last arrived, each announcing the number of
  nodes there are, and the table is their nodes. -/
  arrived : ∃ chunks, chainTransfer.Complete replies chunks ∧ chunks.length ≤ chainChunkCap ∧
    (∀ rx ∈ chunks, chainTotalNodes rx = s.nodeCount) ∧
      s.nodes.window 0 s.nodeCount = tableNodes chunks
  parents : ∀ i, i < s.nodeCount → ∀ p, (s.nodes i).parentSlot = some p → p < i
  ops : ∀ i, i < s.nodeCount → (ChainOp.ofCode (s.nodes i).opCode).isSome
  kinds : ∀ i, i < s.nodeCount → EdgeKind.ofCode (s.nodes i).dpKind ≠ .undefined
  shipNode : s.shipNode = (List.range s.nodeCount).filter fun i => (s.nodes i).shipped
  dp : s.dp = ((List.range s.nodeCount).filterMap fun i => (s.nodes i).dpEdge).eraseDups

/-- Chain resolution is on with a complete table, or off with everything empty. -/
def CompleteOrOff (replies : ChunkReplies) (s : ChainStatics) : Prop :=
  CompleteTable replies s ∨ (s.nodeCount = 0 ∧ s.shipNode = [] ∧ s.dp = [])

/-- What the replies must be like. A chunk without a valid reply is no harm over an
empty verification list. Otherwise the accepted replies carry no node or too many
history edges, or they end with the last chunk, announce what they carry, and have no
edge of the undefined kind. -/
def RepliesHandled (replies : ChunkReplies) (s : ChainStatics) : Prop :=
  let collected := chainTransfer.collect replies chainChunkCap []
  let nodes := tableNodes collected.1
  if collected.2 = .failed then s.dp = []
  else nodes = [] ∨ raMaxDpParents < (historyEdges nodes).eraseDups.length ∨
    (collected.2 = .last ∧ (∀ rx ∈ collected.1, chainTotalNodes rx = nodes.length) ∧
      ∀ node ∈ nodes, EdgeKind.ofCode node.dpKind ≠ .undefined)

section Table

variable {replies : ChunkReplies}

/-- An empty table is adopted without lists, and so is one with too many history edges. -/
theorem adopt_off (s : ChainStatics) {base : Nat}
    (dropped : base = 0 ∨ raMaxDpParents <
      (historyEdges (s.nodes.window 0 base)).eraseDups.length) :
    (s.adopt base).nodeCount = 0 ∧ (s.adopt base).shipNode = [] ∧ (s.adopt base).dp = [] := by
  unfold ChainStatics.adopt
  rw [dpList_eq]
  rcases dropped with rfl | overflow
  · exact ⟨rfl, rfl, rfl⟩
  · rw [if_neg (Nat.not_le.mpr overflow)]
    exact ⟨rfl, rfl, rfl⟩

/-- A table whose history edges fit is adopted with the lists derived from it. -/
theorem adopt_fits (s : ChainStatics) {base : Nat}
    (fits : (historyEdges (s.nodes.window 0 base)).eraseDups.length ≤ raMaxDpParents) :
    (s.adopt base).nodeCount = base ∧ (s.adopt base).nodes = s.nodes ∧
      (s.adopt base).shipNode = shipList s.nodes base ∧
      (s.adopt base).dp = (historyEdges (s.nodes.window 0 base)).eraseDups := by
  unfold ChainStatics.adopt
  rw [dpList_eq, if_pos fits]
  exact ⟨rfl, rfl, rfl, rfl⟩

/-- A fetch either stops at a missing chunk, with the table off, or adopts the nodes of
the accepted replies. -/
theorem raFetchChainTable_perChunk (image : PpcImage) (replies : ChunkReplies)
    (sys : Sys (Nat → Nat)) :
    let collected := chainTransfer.collect replies chainChunkCap []
    let s := (raFetchChainTable (.perChunk image replies) { sys with io := fun _ => 0 }).chain
    (collected.2 = .failed → s.nodeCount = 0 ∧ s.shipNode = [] ∧ s.dp = sys.chain.dp) ∧
      (collected.2 ≠ .failed → ∃ arrived : ChainStatics, s = arrived.adopt (tableBase collected.1) ∧
        arrived.nodes.window 0 (tableBase collected.1) = tableNodes collected.1 ∧
          ValidUpTo arrived.nodes (tableBase collected.1)) := by
  intro collected s
  let off : ChainStatics := { sys.chain with nodeCount := 0, shipNode := [], winNext := 0 }
  have unfetched : Holding off [] off := ⟨⟨_, rfl⟩, rfl⟩
  have fetched := fetchChainChunks_perChunk image replies chainChunkCap []
    { sys with io := fun _ => 0, chain := off } (by decide) (fun _ _ => rfl) unfetched
  have valid := fetchChainChunks_valid (.perChunk image replies) off chainChunkCap 0 0
    { sys with io := fun _ => 0, chain := off } ⟨_, rfl⟩
    ⟨Nat.zero_le _, fun _ below => absurd below (Nat.not_lt_zero _)⟩
  simp only at fetched
  have base : tableBase [] = 0 := rfl
  have index : UInt16.ofNat ([] : List Mem).length = 0 := rfl
  rw [base, index] at fetched
  obtain ⟨reached, holding⟩ := fetched
  have result : s = (raFetchChainTable (.perChunk image replies)
    { sys with io := fun _ => 0 }).chain := rfl
  unfold raFetchChainTable at result
  simp only at result
  rcases loop : fetchChainChunks (.perChunk image replies) chainChunkCap 0 0
    { sys with io := fun _ => 0, chain := off } with ⟨found, after⟩
  rw [loop] at reached holding valid
  rw [show ({ sys.chain with nodeCount := 0, shipNode := [], winNext := 0 } : ChainStatics) = off
    from rfl, loop] at result
  constructor
  · intro failed
    rw [if_pos failed] at reached
    cases reached
    obtain ⟨nodes, same⟩ := holding.only
    have still : s = { off with nodes := nodes } := result.trans same
    rw [still]
    exact ⟨rfl, rfl, rfl⟩
  · intro arrived
    rw [if_neg arrived] at reached
    cases reached
    exact ⟨after.chain, result, holding.front, valid.2 _ rfl⟩

/-- A table is complete only if the loop ended with its last chunk. -/
theorem CompleteTable.ended {s : ChainStatics} (complete : CompleteTable replies s) :
    let collected := chainTransfer.collect replies chainChunkCap []
    collected.2 = .last ∧ (∀ rx ∈ collected.1, chainTotalNodes rx = s.nodeCount) ∧
      s.nodes.window 0 s.nodeCount = tableNodes collected.1 := by
  obtain ⟨chunks, transferred, short, totals, nodes⟩ := complete.arrived
  have ended := ChunkedTransfer.collect_eq_iff.mpr ⟨transferred, short⟩
  intro collected
  rw [show collected = (chunks, .last) from ended]
  exact ⟨rfl, totals, nodes⟩

/-- The nodes of a window are its members. -/
theorem mem_window {nodes : Cells ChainNode} {count i : Nat} (inside : i < count) :
    nodes i ∈ nodes.window 0 count :=
  List.mem_map.mpr ⟨i, List.mem_range.mpr inside, by rw [Nat.zero_add]⟩

/-- Replies of a complete table, adopted. -/
theorem completeTable_adopt {chunks : List Mem} {arrived : ChainStatics}
    (complete : chainTransfer.Complete replies chunks) (short : chunks.length ≤ chainChunkCap)
    (front : arrived.nodes.window 0 (tableBase chunks) = tableNodes chunks)
    (valid : ValidUpTo arrived.nodes (tableBase chunks))
    (fits : (historyEdges (tableNodes chunks)).eraseDups.length ≤ raMaxDpParents)
    (totals : ∀ rx ∈ chunks, chainTotalNodes rx = (tableNodes chunks).length)
    (kinds : ∀ node ∈ tableNodes chunks, EdgeKind.ofCode node.dpKind ≠ .undefined) :
    CompleteTable replies (arrived.adopt (tableBase chunks)) := by
  obtain ⟨count, nodes, shipNode, dp⟩ := adopt_fits arrived (front.symm ▸ fits)
  refine ⟨⟨chunks, complete, short, ?_, ?_⟩, ?_, ?_, ?_, ?_, ?_⟩
  · rw [count]
    exact totals
  · rw [count, nodes, front]
  · rw [count, nodes]
    exact fun i inside => (valid.placed i inside).1
  · rw [count, nodes]
    exact fun i inside => (valid.placed i inside).2
  · rw [count, nodes]
    exact fun i inside => kinds _ (front ▸ mem_window inside)
  · rw [shipNode, count, nodes]
    rfl
  · rw [dp, count, nodes, historyEdges, Cells.window, List.filterMap_map]
    simp

end Table

/-- Chain resolution comes on with a complete, well-formed table or stays off exactly when
the accepted replies are such as the fetch handles. -/
theorem raFetchChainTable_iff (image : PpcImage) (replies : ChunkReplies)
    (sys : Sys (Nat → Nat)) :
    CompleteOrOff replies
        (raFetchChainTable (.perChunk image replies) { sys with io := fun _ => 0 }).chain ↔
      RepliesHandled replies sys.chain := by
  obtain ⟨stopped, adopted⟩ := raFetchChainTable_perChunk image replies sys
  generalize (raFetchChainTable (.perChunk image replies) { sys with io := fun _ => 0 }).chain = s
    at stopped adopted ⊢
  unfold RepliesHandled
  rcases collected : chainTransfer.collect replies chainChunkCap [] with ⟨chunks, ending⟩
  rw [collected] at stopped adopted
  simp only at stopped adopted ⊢
  by_cases failed : ending = .failed
  · obtain ⟨count, shipNode, dp⟩ := stopped failed
    rw [if_pos failed, ← dp]
    constructor
    · rintro (complete | ⟨_, _, empty⟩)
      · have ended := complete.ended.1
        rw [collected] at ended
        exact absurd (failed.symm.trans ended) (by decide)
      · exact empty
    · exact fun empty => Or.inr ⟨count, shipNode, empty⟩
  · obtain ⟨arrived, rfl, front, valid⟩ := adopted failed
    have base : tableBase chunks = (tableNodes chunks).length := rfl
    rw [if_neg failed]
    constructor
    · intro handled
      by_cases dropped : tableNodes chunks = [] ∨
          raMaxDpParents < (historyEdges (tableNodes chunks)).eraseDups.length
      · exact dropped.imp id Or.inl
      · obtain ⟨some, fits⟩ := not_or.mp dropped
        obtain ⟨count, nodes, _, _⟩ := adopt_fits arrived
          (front.symm ▸ Nat.not_lt.mp fits)
        have positive : 0 < tableBase chunks := List.length_pos_iff.mpr some
        rcases handled with complete | ⟨off, _⟩
        · obtain ⟨last, totals, whole⟩ := complete.ended
          rw [collected] at last totals whole
          refine Or.inr (Or.inr ⟨last, fun rx member => ?_, fun node member => ?_⟩)
          · rw [totals rx member, count, base]
          · have kinds := complete.kinds
            rw [count, nodes] at kinds
            rw [← front] at member
            obtain ⟨i, inside, same⟩ := List.mem_map.mp member
            rw [Nat.zero_add] at same
            rw [← same]
            exact kinds i (List.mem_range.mp inside)
        · omega
    · rintro (empty | overflow | ⟨last, totals, kinds⟩)
      · exact Or.inr (adopt_off arrived (Or.inl (by rw [base, empty]; rfl)))
      · exact Or.inr (adopt_off arrived (Or.inr (by rwa [front])))
      · obtain ⟨complete, short⟩ :=
          ChunkedTransfer.collect_eq_iff.mp (collected.trans (by rw [last]))
        by_cases fits : (historyEdges (tableNodes chunks)).eraseDups.length ≤ raMaxDpParents
        · exact Or.inl (completeTable_adopt complete short front valid fits totals kinds)
        · exact Or.inr (adopt_off arrived (Or.inr (by rw [front]; exact Nat.not_le.mp fits)))

/-- A reply that is flagged as the last one, announces two nodes and carries one. -/
def oneOfTwoReply : Mem :=
  let payload := [raMagicEspToGc, 0, 0, 0, 0, 0] ++
    (bytes16 0 ++ bytes16 1 ++ bytes16 2 ++ [1, 0]) ++
    (ChainNode.mk 0x100 raChainParentNone 0x91 0).bytes
  bufferOf (List.replicate chunkPad 0 ++ payload ++ bytes32 (raCrc32 payload))

/-- The fetch takes half of the table over. -/
theorem announced_node_missing :
    ¬ CompleteOrOff (fun _ _ => .ok oneOfTwoReply) (raFetchChainTable
      (.perChunk (fun _ => 0) fun _ _ => .ok oneOfTwoReply) (.boot fun _ => 0)).chain := by
  have count : (raFetchChainTable (.perChunk (fun _ => 0) fun _ _ => .ok oneOfTwoReply)
      (.boot fun _ => 0)).chain.nodeCount = 1 := by decide +kernel
  have announced : (chainTransfer.collect (fun _ _ => .ok oneOfTwoReply) chainChunkCap []).1.map
      chainTotalNodes = [2] := by decide +kernel
  rintro (complete | ⟨off, _⟩)
  · obtain ⟨rx, member, two⟩ := List.mem_map.mp (announced ▸ List.mem_singleton_self 2)
    have totals := complete.ended.2.1 rx member
    rw [two, count] at totals
    cases totals
  · rw [count] at off
    cases off

end D2xCios.Ra
