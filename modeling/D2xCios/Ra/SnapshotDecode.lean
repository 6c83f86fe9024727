import D2xCios.Ra.ChainFetch
import D2xCios.Ra.Snapshot

/-!
# Snapshot round trip

`decodeSnapshot` reads a message the way the protocol header describes it, with
the slot widths taken from the chain table. `RoundTrips` says that this yields
what the console read: the flat bytes, the window slots and the verification
entries, by the meaning of the table and not by the walker's arrays.

A slot of an invalid node is to be zero-filled. Invalid dereferences and combines
have the value 0, but an immediate keeps its operand when its parent does not
resolve: `roundTrips_iff` says that the message is right exactly when no such
operand is in the window.
-/

namespace D2xCios.Ra

open D2xCios.Lib

/-- A message as read by the adapter. -/
structure DecodedSnapshot where
  magic : UInt8
  command : UInt8
  payloadLen : Nat
  header : SnapshotHeader
  flat : List UInt8
  slots : List Flagged
  dp : List (UInt32 × Bool)
  /-- Payload bytes the sections took. -/
  consumed : Nat

/-- Read a message; `width` gives the widths of the table's shipped slots. -/
def decodeSnapshot (width : Nat → Nat) (mem : Mem) : DecodedSnapshot :=
  let header := SnapshotHeader.read mem gcHeaderSize
  let addrCount := header.addrCount.toNat
  let chainCount := header.chainCount.toNat
  let dpCount := header.dpCount.toNat
  let widths := (List.range chainCount).map fun j => width (header.chainFirst.toNat + j)
  let bm := gcHeaderSize + SnapshotHeader.size + addrCount
  let blob := bm + Flagged.bitmapBytes chainCount
  let dp := blob + widths.sum
  let dpv := dp + dpCount * 4
  { magic := mem 0
    command := mem 1
    payloadLen := (be16 mem 2).toNat
    header := header
    flat := mem.window (gcHeaderSize + SnapshotHeader.size) addrCount
    slots := Flagged.load mem bm widths 0 blob
    dp := (Flagged.load mem dpv (List.replicate dpCount 4) 0 dp).map fun item =>
      (be32 (bufferOf item.1) 0, item.2)
    consumed := dpv + Flagged.bitmapBytes dpCount - gcHeaderSize }

/-- Width of the table's `slot`-th shipped slot. -/
def ChainTable.slotWidth (table : ChainTable) (slot : Nat) : Nat :=
  (table.node ((table.shipNodes[slot]?).getD 0)).width

/-- What is to be shipped for a node: its value truncated to its width, or zeros. -/
def ChainTable.shippedSlot (table : ChainTable) (ppc : PpcImage) (past : Past) (node : Nat) :
    Flagged :=
  let resolved := table.resolve ppc past node
  let width := (table.node node).width
  (if resolved.valid then leBytes width resolved.value else List.replicate width 0,
    resolved.valid)

/-- What is to be shipped for a verification entry: the parent's value of the entry's
kind, and whether the parent resolved at the previous walk. -/
def ChainTable.verification (table : ChainTable) (ppc : PpcImage) (s : ChainStatics)
    (entry : DpEntry) : UInt32 × Bool :=
  (if entry.kind = raCnDpPrior then
      s.past.lastDifferent entry.node (table.resolve ppc s.past entry.node).value
    else s.past.prev entry.node,
    s.nodeValid.test entry.node)

/-- The message means what the console read, in the state before the walk. -/
structure RoundTrips (table : ChainTable) (ra : RaState) (chain : ChainStatics)
    (frame : UInt32) (ppc : PpcImage) (message : List UInt8) (d : DecodedSnapshot) : Prop where
  magic : d.magic = raMagicGcToEsp
  command : d.command = raCmdSnapshot
  length : message.length = gcHeaderSize + d.payloadLen
  consumed : d.consumed = d.payloadLen
  frame : d.header.frameCounter = frame
  wlSeq : d.header.wlSeq = ra.wlSeq
  blobLen : d.header.chainBlobLen.toNat = (Flagged.run d.slots).length
  flat : d.flat = ra.watchlist.addrs.map (raReadPpcByte ppc)
  slots : d.slots = ((table.shipNodes.drop d.header.chainFirst.toNat).take
    d.header.chainCount.toNat).map (table.shippedSlot ppc chain.past)
  dp : d.dp = chain.dp.map (table.verification ppc chain)

/-- A node whose operand is shipped although the node is invalid. -/
def ChainTable.LeaksOperand (table : ChainTable) (ppc : PpcImage) (past : Past) (node : Nat) :
    Prop :=
  ChainOp.ofCode (table.node node).opCode = some .immediate ∧
    table.edge ppc past node = .broken ∧
    (table.node node).operand.toNat % 256 ^ (table.node node).width ≠ 0

/-! ## The window -/

/-- The greedy loop takes a front of the slots, and that front fits. -/
theorem fillWindow_spec (width : Nat → Nat) (avail : Nat) (nodes : List Nat)
    (winCount blobLen : Nat)
    (fits : (winCount + 7) / 8 + blobLen ≤ avail) :
    ∃ n, n ≤ nodes.length ∧ fillWindow width avail nodes winCount blobLen =
        (winCount + n, blobLen + ((nodes.take n).map width).sum) ∧
      (winCount + n + 7) / 8 + (blobLen + ((nodes.take n).map width).sum) ≤ avail := by
  induction nodes generalizing winCount blobLen with
  | nil => exact ⟨0, by simp, by simp [fillWindow], by simpa using fits⟩
  | cons node rest ih =>
    rw [fillWindow]
    split
    · exact ⟨0, by simp, by simp, by simpa using fits⟩
    · rename_i room
      obtain ⟨n, short, taken, within⟩ := ih (winCount + 1) (blobLen + width node) (by omega)
      refine ⟨n + 1, by simpa using short, ?_, ?_⟩
      · rw [taken]
        simp [Nat.add_assoc, Nat.add_comm 1]
      · simp only [List.take_succ_cons, List.map_cons, List.sum_cons]
        omega

/-- What the window of a snapshot satisfies. -/
structure WindowFits (build : LinkBuild) (s : ChainStatics) (count : Nat)
    (window : ChainWindow) : Prop where
  inside : window.first + window.count ≤ s.shipNode.length
  blobLen : window.blobLen = ((window.slots s).map fun node => (s.nodes node).width).sum
  room : Flagged.bitmapBytes window.count + window.blobLen ≤ windowBudget build count s.dp.length

/-- The window fits the budget of the snapshot. -/
theorem chainWindow_fits (build : LinkBuild) (s : ChainStatics) (count : Nat) :
    WindowFits build s count (chainWindow build s count) := by
  unfold chainWindow
  split
  · rename_i table
    obtain ⟨first, cursor, below⟩ : ∃ first,
        (if s.winNext < s.shipNode.length then s.winNext else 0) = first ∧
          first < s.shipNode.length := by
      split
      · exact ⟨_, rfl, ‹_›⟩
      · exact ⟨_, rfl, table.2⟩
    obtain ⟨n, short, taken, within⟩ := fillWindow_spec (fun node => (s.nodes node).width)
      (windowBudget build count s.dp.length) (s.shipNode.drop first) 0 0 (by simp)
    rw [List.length_drop] at short
    simp only [cursor, taken, Nat.zero_add] at *
    exact ⟨by simp only; omega, rfl, within⟩
  · exact ⟨by simp, by simp [ChainWindow.slots], by simp [Flagged.bitmapBytes]⟩

theorem WindowFits.slots_length {build : LinkBuild} {s : ChainStatics} {count : Nat}
    {window : ChainWindow} (fits : WindowFits build s count window) :
    (window.slots s).length = window.count := by
  have inside := fits.inside
  simp [ChainWindow.slots]
  omega

/-! ## The sections in memory -/

section Body

variable {layout : SnapshotLayout} {byte : Nat → UInt8} {slots dp : List Flagged} {buf : Mem}

/-- The stored sections have the sizes the layout gives them. -/
structure Sized (layout : SnapshotLayout) (slots dp : List Flagged) : Prop where
  winCount : slots.length = layout.winCount
  blobLen : (Flagged.run slots).length = layout.blobLen
  dpCount : dp.length = layout.dpCount
  words : (Flagged.run dp).length = layout.dpCount * 4

/-- The history section is stored behind the others. -/
theorem body_before_dp (sized : Sized layout slots dp) {i : Nat} (before : i < layout.dp) :
    snapshotBody layout byte slots dp buf i =
      Flagged.store layout.bm slots 0 layout.blob
        ((buf.fill SnapshotLayout.values layout.count byte).fill layout.bm
          (Flagged.bitmapBytes layout.winCount) fun _ => 0) i := by
  have words := sized.words
  have behind : layout.dp ≤ layout.dpv := Nat.le_add_right _ _
  rw [snapshotBody, Flagged.store_outside _ _ _ _ (Or.inl (by omega)) (Or.inl before),
    Cells.fill_eq_overlay, Cells.overlay_outside _ _ _ (Or.inl (by omega))]

/-- The flat bytes of a snapshot. -/
theorem body_flat (sized : Sized layout slots dp) :
    (snapshotBody layout byte slots dp buf).window SnapshotLayout.values layout.count =
      (List.range layout.count).map byte := by
  have blob := sized.blobLen
  have order : layout.bm = SnapshotLayout.values + layout.count ∧ layout.bm ≤ layout.blob ∧
      layout.blob ≤ layout.dp := ⟨rfl, Nat.le_add_right _ _, Nat.le_add_right _ _⟩
  have kept : ∀ i, i < layout.count → snapshotBody layout byte slots dp buf
      (SnapshotLayout.values + i) =
      buf.fill SnapshotLayout.values layout.count byte (SnapshotLayout.values + i) := by
    intro i inside
    rw [body_before_dp sized (by omega),
      Flagged.store_outside _ _ _ _ (Or.inl (by omega)) (Or.inl (by omega)),
      Cells.fill_eq_overlay, Cells.overlay_outside _ _ _ (Or.inl (by omega))]
  rw [Cells.window_congr kept, Cells.fill_eq_overlay]
  have whole := Cells.window_overlay buf SnapshotLayout.values ((List.range layout.count).map byte)
  simpa using whole

/-- The slots of a snapshot are read back as they were. -/
theorem body_slots (sized : Sized layout slots dp) :
    Flagged.load (snapshotBody layout byte slots dp buf) layout.bm (Flagged.widths slots) 0
      layout.blob = slots := by
  have blob := sized.blobLen
  have count := sized.winCount
  have order : layout.blob = layout.bm + Flagged.bitmapBytes layout.winCount ∧
      layout.dp = layout.blob + layout.blobLen := ⟨rfl, rfl⟩
  rw [Flagged.load_congr (Flagged.widths slots) 0 layout.blob
    (fun i inside => body_before_dp sized (by
      rw [Flagged.widths, List.length_map, Nat.zero_add, count] at inside
      omega))
    (fun i inside => body_before_dp sized (by
      rw [← Flagged.run_length] at inside
      omega))]
  apply Flagged.load_store
  · exact Or.inl (by rw [Nat.zero_add, count]; omega)
  · intro j _ inside
    refine Flagged.clear_of_zero (fun i below => ?_) (Nat.zero_add slots.length ▸ inside)
    rw [Cells.fill_eq_overlay, Cells.overlay_inside _ _ _ (by simpa [count] using below)]
    simp

/-- The verification section of a snapshot is read back as it was. -/
theorem body_dp (sized : Sized layout slots dp) :
    Flagged.load (snapshotBody layout byte slots dp buf) layout.dpv (Flagged.widths dp) 0
      layout.dp = dp := by
  have count := sized.dpCount
  apply Flagged.load_store
  · exact Or.inr (by rw [sized.words]; exact Nat.le_refl _)
  · intro j _ inside
    refine Flagged.clear_of_zero (fun i below => ?_) (Nat.zero_add dp.length ▸ inside)
    rw [Cells.fill_eq_overlay, Cells.overlay_inside _ _ _ (by simpa [count] using below)]
    simp

/-- A memory that holds header and sections is read as them. -/
theorem decode_of_agrees (received : Mem) (width : Nat → Nat) (header : SnapshotHeader)
    (byte : Nat → UInt8) (buf : Mem) (sized : Sized layout slots dp)
    (head : received.window 0 (gcHeaderSize + SnapshotHeader.size) =
      raFillHeader raCmdSnapshot (UInt16.ofNat (layout.txLen - gcHeaderSize)) ++ header.bytes)
    (same : ∀ i, SnapshotLayout.values ≤ i → i < layout.txLen →
      received i = snapshotBody layout byte slots dp buf i)
    (addrCount : header.addrCount.toNat = layout.count)
    (chainCount : header.chainCount.toNat = layout.winCount)
    (dpCount : header.dpCount.toNat = layout.dpCount)
    (slotWidths : (List.range layout.winCount).map
      (fun j => width (header.chainFirst.toNat + j)) = Flagged.widths slots)
    (dpWidths : List.replicate layout.dpCount 4 = Flagged.widths dp)
    (small : layout.txLen < 65536) :
    decodeSnapshot width received =
      { magic := raMagicGcToEsp
        command := raCmdSnapshot
        payloadLen := layout.txLen - gcHeaderSize
        header := header
        flat := (List.range layout.count).map byte
        slots := slots
        dp := dp.map fun item => (be32 (bufferOf item.1) 0, item.2)
        consumed := layout.txLen - gcHeaderSize } := by
  have order : layout.bm = SnapshotLayout.values + layout.count ∧
      layout.blob = layout.bm + Flagged.bitmapBytes layout.winCount ∧
      layout.dp = layout.blob + layout.blobLen ∧ layout.dpv = layout.dp + layout.dpCount * 4 ∧
      layout.txLen = layout.dpv + Flagged.bitmapBytes layout.dpCount :=
    ⟨rfl, rfl, rfl, rfl, rfl⟩
  obtain ⟨command, fields⟩ := Cells.window_split 4 16 head rfl
  have read : SnapshotHeader.read received gcHeaderSize = header :=
    SnapshotHeader.read_of_bytes fields
  have halves : received.window 0 (2 + 2) = [raMagicGcToEsp, raCmdSnapshot] ++
      bytes16 (UInt16.ofNat (layout.txLen - gcHeaderSize)) := command
  obtain ⟨start, payload⟩ := Cells.window_split 2 2 halves rfl
  have cells : [received 0, received 1] = [raMagicGcToEsp, raCmdSnapshot] := start
  simp only [List.cons.injEq, and_true] at cells
  have payloadLen : (be16 received 2).toNat = layout.txLen - gcHeaderSize := by
    have word := be16_of_bytes payload
    rw [Nat.zero_add] at word
    rw [word, UInt16.toNat_ofNat_of_lt' (Nat.lt_of_le_of_lt (Nat.sub_le _ _) small)]
  have blobLen : (Flagged.widths slots).sum = layout.blobLen := by
    rw [← Flagged.run_length, sized.blobLen]
  have flat : received.window SnapshotLayout.values layout.count =
      (List.range layout.count).map byte := by
    have agrees := Cells.window_congr fun i (inside : i < layout.count) =>
      same (SnapshotLayout.values + i) (by omega) (by omega)
    exact agrees.trans (body_flat sized)
  have slotRun : Flagged.load received layout.bm (Flagged.widths slots) 0 layout.blob = slots := by
    rw [Flagged.load_congr (Flagged.widths slots) 0 layout.blob
      (fun i inside => same _ (by omega) (by
        rw [Flagged.widths, List.length_map, Nat.zero_add, sized.winCount] at inside
        omega))
      (fun i inside => same _ (by omega) (by omega))]
    exact body_slots sized
  have dpRun : Flagged.load received layout.dpv (Flagged.widths dp) 0 layout.dp = dp := by
    have words := sized.words
    rw [Flagged.run_length] at words
    rw [Flagged.load_congr (Flagged.widths dp) 0 layout.dp
      (fun i inside => same _ (by omega) (by
        rw [Flagged.widths, List.length_map, Nat.zero_add, sized.dpCount] at inside
        omega))
      (fun i inside => same _ (by omega) (by omega))]
    exact body_dp sized
  simp only [decodeSnapshot, read, addrCount, chainCount, dpCount, slotWidths, blobLen, dpWidths,
    cells, payloadLen]
  simp only [SnapshotLayout.values, SnapshotLayout.bm, SnapshotLayout.blob, SnapshotLayout.dp,
    SnapshotLayout.dpv, SnapshotLayout.txLen] at flat slotRun dpRun ⊢
  rw [flat, slotRun, dpRun]

end Body

/-! ## The message -/

section Message

variable {table : ChainTable} {walked : ChainStatics}

/-- A slot's item has the width of its node. -/
theorem slotItem_bytes (s : ChainStatics) (node : Nat) :
    (slotItem s node).1 = leBytes (s.nodes node).width (s.values node) := by
  refine List.map_congr_left fun k member => shiftRight_toUInt8 ?_ (s.values node)
  exact Nat.lt_of_lt_of_le (List.mem_range.mp member) (ChainNode.width_le _)

/-- The slots are as wide as their nodes. -/
theorem slotItem_widths (s : ChainStatics) (nodes : List Nat) :
    Flagged.widths (nodes.map (slotItem s)) = nodes.map fun node => (s.nodes node).width := by
  rw [Flagged.widths, List.map_map]
  exact List.map_congr_left fun node _ => by simp [slotItem_bytes]

/-- The entries of the verification section are four bytes wide. -/
theorem dpItem_widths (s : ChainStatics) (entries : List DpEntry) :
    Flagged.widths (entries.map (dpItem s)) = List.replicate entries.length 4 := by
  rw [Flagged.widths, List.map_map]
  exact List.map_eq_replicate_iff.mpr fun _ _ => rfl

/-- The slots are the nodes that are shipped. -/
theorem mem_shipNodes {node : Nat} : node ∈ table.shipNodes ↔
    node < table.count ∧ (table.node node).shipped := by
  simp [ChainTable.shipNodes]

/-- The adapter derives the slots' widths from the table. -/
theorem slots_widths (carries : Carries table walked) {window : ChainWindow}
    (inside : window.first + window.count ≤ walked.shipNode.length) :
    (window.slots walked).map (fun node => (walked.nodes node).width) =
      (List.range window.count).map fun j => table.slotWidth (window.first + j) := by
  apply List.ext_getElem
  · simp [ChainWindow.slots]
    omega
  · intro j short _
    simp only [List.length_map, ChainWindow.slots, List.length_take, List.length_drop] at short
    have listed : window.first + j < table.shipNodes.length := by
      rw [← carries.shipNode]
      omega
    have node := mem_shipNodes.mp (List.getElem_mem listed)
    simp [ChainWindow.slots, ChainTable.slotWidth, carries.shipNode, listed,
      carries.loaded.node _ node.1]

variable {build : LinkBuild} {ra : RaState}

/-- The sections of a snapshot have the sizes of its layout. -/
theorem snapshot_sized (build : LinkBuild) (ra : RaState) (walked : ChainStatics) :
    Sized (snapshotLayout build ra walked)
      (((chainWindow build walked ra.watchlist.count).slots walked).map (slotItem walked))
      (walked.dp.map (dpItem walked)) := by
  have fits := chainWindow_fits build walked ra.watchlist.count
  refine ⟨(List.length_map _).trans fits.slots_length, ?_, by simp [snapshotLayout], ?_⟩
  · rw [Flagged.run_length, slotItem_widths]
    exact fits.blobLen.symm
  · rw [Flagged.run_length, dpItem_widths]
    simp [snapshotLayout]

/-- The lists derived from a table fit into their arrays. -/
structure ListsFit (s : ChainStatics) : Prop where
  shipNode : s.shipNode.length ≤ raMaxChainNodes
  dp : s.dp.length ≤ raMaxDpParents

/-- The lists of an accepted table fit their arrays. -/
theorem Carries.listsFit {s : ChainStatics} (carries : Carries table s) : ListsFit s := by
  have listed : table.shipNodes.length ≤ table.count := by
    simpa [ChainTable.shipNodes] using List.length_filter_le _ (List.range table.count)
  rw [← carries.shipNode] at listed
  exact ⟨Nat.le_trans listed table.bounded, carries.dp_length⟩

/-- The message stays within the budget of its link. -/
theorem snapshot_txLen_le (build : LinkBuild) (ra : RaState) (fit : ListsFit walked) :
    (snapshotLayout build ra walked).txLen ≤ raSnapTxBudget build := by
  have room := (chainWindow_fits build walked ra.watchlist.count).room
  have listed := ra.watchlist.fits
  have entries := fit.dp
  have budget : 8191 ≤ raSnapTxBudget build := by cases build <;> decide
  simp only [raMaxWatchAddrs, raMaxDpParents] at listed entries
  simp only [windowBudget, Flagged.bitmapBytes] at room
  simp only [SnapshotLayout.txLen, SnapshotLayout.dpv, SnapshotLayout.dp, SnapshotLayout.blob,
    SnapshotLayout.bm, SnapshotLayout.values, snapshotLayout, gcHeaderSize, SnapshotHeader.size,
    Flagged.bitmapBytes] at *
  omega

/-- Every count of a snapshot fits its header field. -/
theorem snapshotHeader_fields (build : LinkBuild) (ra : RaState) (fit : ListsFit walked)
    (frame : UInt32) (wlSeq : UInt16) :
    let window := chainWindow build walked ra.watchlist.count
    let layout := snapshotLayout build ra walked
    let header := snapshotHeader layout frame wlSeq window.first
    header.addrCount.toNat = layout.count ∧ header.chainFirst.toNat = window.first ∧
      header.chainCount.toNat = window.count ∧ header.chainBlobLen.toNat = window.blobLen ∧
      header.dpCount.toNat = layout.dpCount := by
  intro window layout header
  have txLen_le : layout.txLen ≤ raSnapTxBudget build := snapshot_txLen_le build ra fit
  have budget : raSnapTxBudget build ≤ 8192 := by cases build <;> decide
  have order : layout.txLen = SnapshotLayout.values + layout.count +
      Flagged.bitmapBytes window.count + window.blobLen + layout.dpCount * 4 +
      Flagged.bitmapBytes layout.dpCount := rfl
  have slots : window.first + window.count ≤ raMaxChainNodes :=
    Nat.le_trans (chainWindow_fits build walked ra.watchlist.count).inside fit.shipNode
  simp only [raMaxChainNodes] at slots
  have field : ∀ n, n ≤ 8192 → (UInt16.ofNat n).toNat = n := fun n small =>
    UInt16.toNat_ofNat_of_lt' (Nat.lt_of_le_of_lt small (by decide))
  exact ⟨field _ (show layout.count ≤ 8192 by omega), field _ (show window.first ≤ 8192 by omega),
    field _ (show window.count ≤ 8192 by omega), field _ (show window.blobLen ≤ 8192 by omega),
    field _ (show layout.dpCount ≤ 8192 by omega)⟩

/-- The sections as the message's buffer holds them. -/
def builtBody (build : LinkBuild) (ra : RaState) (chain : ChainStatics) (ppc : PpcImage)
    (buf : Mem) : Mem :=
  let walked := walkedChain ppc chain
  snapshotBody (snapshotLayout build ra walked) (fun i => raReadPpcByte ppc (ra.watchlist.cells i))
    (((chainWindow build walked ra.watchlist.count).slots walked).map (slotItem walked))
    (walked.dp.map (dpItem walked)) buf

/-- The fixed part of the message. -/
def builtHeader (build : LinkBuild) (ra : RaState) (chain : ChainStatics) (frame : UInt32)
    (ppc : PpcImage) : SnapshotHeader :=
  let walked := walkedChain ppc chain
  snapshotHeader (snapshotLayout build ra walked) frame ra.wlSeq
    (chainWindow build walked ra.watchlist.count).first

/-- The flat bytes are inside the message. -/
theorem values_le_txLen (layout : SnapshotLayout) :
    SnapshotLayout.values + layout.count ≤ layout.txLen := by
  simp only [SnapshotLayout.txLen, SnapshotLayout.dpv, SnapshotLayout.dp, SnapshotLayout.blob,
    SnapshotLayout.bm]
  omega

section Received

variable (build : LinkBuild) (ra : RaState) (chain : ChainStatics) (frame : UInt32)
  (ppc : PpcImage) (buf : Mem)

/-- The message starts with the two headers. -/
theorem message_head :
    (bufferOf (buildSnapshot build ra chain frame ppc buf).message).window 0
        SnapshotLayout.values =
      raFillHeader raCmdSnapshot (UInt16.ofNat
        ((snapshotLayout build ra (walkedChain ppc chain)).txLen - gcHeaderSize)) ++
        (builtHeader build ra chain frame ppc).bytes := by
  have inside := values_le_txLen (snapshotLayout build ra (walkedChain ppc chain))
  have same : (bufferOf (buildSnapshot build ra chain frame ppc buf).message).window 0
      SnapshotLayout.values =
      (buildSnapshot build ra chain frame ppc buf).mem.window 0 SnapshotLayout.values :=
    Cells.window_congr fun i below => bufferOf_window _ (by
      rw [Nat.zero_add]
      exact Nat.lt_of_lt_of_le below (Nat.le_trans (Nat.le_add_right _ _) inside))
  exact same.trans (Cells.window_overlay (builtBody build ra chain ppc buf) 0 _)

/-- The fixed part of the payload, as read from the message. -/
theorem message_header :
    SnapshotHeader.read (bufferOf (buildSnapshot build ra chain frame ppc buf).message)
      gcHeaderSize = builtHeader build ra chain frame ppc :=
  SnapshotHeader.read_of_bytes
    (Cells.window_split 4 16 (message_head build ra chain frame ppc buf) rfl).2

/-- Behind them lie the sections. -/
theorem message_behind {i : Nat} (behind : SnapshotLayout.values ≤ i)
    (inside : i < (snapshotLayout build ra (walkedChain ppc chain)).txLen) :
    bufferOf (buildSnapshot build ra chain frame ppc buf).message i =
      builtBody build ra chain ppc buf i :=
  (bufferOf_window _ inside).trans (Cells.overlay_outside _ 0 _ (Or.inr behind))

/-- The list's sequence number and its bytes, as read from a message. -/
def snapshotEcho (message : List UInt8) : UInt16 × List UInt8 :=
  let header := SnapshotHeader.read (bufferOf message) gcHeaderSize
  (header.wlSeq, (bufferOf message).window SnapshotLayout.values header.addrCount.toNat)

/-- Every snapshot echoes the list it was built from. -/
theorem snapshot_echo :
    snapshotEcho (buildSnapshot build ra chain frame ppc buf).message =
      (ra.wlSeq, ra.watchlist.addrs.map (raReadPpcByte ppc)) := by
  have inside := values_le_txLen (snapshotLayout build ra (walkedChain ppc chain))
  have listed := ra.watchlist.fits
  simp only [raMaxWatchAddrs] at listed
  have header := message_header build ra chain frame ppc buf
  have addrCount : (builtHeader build ra chain frame ppc).addrCount.toNat = ra.watchlist.count :=
    UInt16.toNat_ofNat_of_lt' (Nat.lt_of_le_of_lt listed (by decide))
  have flat : (builtBody build ra chain ppc buf).window SnapshotLayout.values ra.watchlist.count =
      (List.range ra.watchlist.count).map fun i => raReadPpcByte ppc (ra.watchlist.cells i) :=
    body_flat (snapshot_sized build ra (walkedChain ppc chain))
  have same : (bufferOf (buildSnapshot build ra chain frame ppc buf).message).window
      SnapshotLayout.values ra.watchlist.count =
      (builtBody build ra chain ppc buf).window SnapshotLayout.values ra.watchlist.count :=
    Cells.window_congr fun i below =>
      message_behind build ra chain frame ppc buf (Nat.le_add_right _ _)
        (Nat.lt_of_lt_of_le (Nat.add_lt_add_left below _) inside)
  simp only [snapshotEcho, header, addrCount, same, flat]
  refine Prod.ext rfl ?_
  simp [Watchlist.addrs, Cells.window, Function.comp_def]

end Received

/-- What the adapter reads of a snapshot, in terms of the walker's arrays. -/
theorem decode_built (build : LinkBuild) (ra : RaState) (chain : ChainStatics) (frame : UInt32)
    (ppc : PpcImage) (buf : Mem) (carries : Carries table (walkedChain ppc chain)) :
    let walked := walkedChain ppc chain
    let window := chainWindow build walked ra.watchlist.count
    let layout := snapshotLayout build ra walked
    decodeSnapshot table.slotWidth
        (bufferOf (buildSnapshot build ra chain frame ppc buf).message) =
      { magic := raMagicGcToEsp
        command := raCmdSnapshot
        payloadLen := layout.txLen - gcHeaderSize
        header := snapshotHeader layout frame ra.wlSeq window.first
        flat := ra.watchlist.addrs.map (raReadPpcByte ppc)
        slots := (window.slots walked).map (slotItem walked)
        dp := walked.dp.map fun entry => (dpWord walked entry, walked.validPrev.test entry.node)
        consumed := layout.txLen - gcHeaderSize } := by
  intro walked window layout
  have sized := snapshot_sized build ra walked
  have fits := chainWindow_fits build walked ra.watchlist.count
  have txLen_le : layout.txLen ≤ raSnapTxBudget build := snapshot_txLen_le build ra carries.listsFit
  have budget : raSnapTxBudget build ≤ 8192 := by cases build <;> decide
  obtain ⟨addrCount, first, chainCount, _, dpCount⟩ :=
    snapshotHeader_fields build ra carries.listsFit frame ra.wlSeq
  have decoded := decode_of_agrees
    (bufferOf (buildSnapshot build ra chain frame ppc buf).message) table.slotWidth
    (builtHeader build ra chain frame ppc)
    (fun i => raReadPpcByte ppc (ra.watchlist.cells i)) buf sized
    (message_head build ra chain frame ppc buf)
    (fun i behind inside => message_behind build ra chain frame ppc buf behind inside)
    addrCount chainCount dpCount
    (by
      rw [slotItem_widths, slots_widths carries fits.inside]
      simp only [builtHeader, first]
      rfl)
    (by
      rw [dpItem_widths]
      rfl)
    (Nat.lt_of_le_of_lt txLen_le (by omega))
  rw [decoded]
  simp only [DecodedSnapshot.mk.injEq, true_and]
  refine ⟨rfl, rfl, ?_, rfl, ?_, rfl⟩
  · simp [Watchlist.addrs, Cells.window, snapshotLayout, Function.comp_def]
  · rw [List.map_map]
    refine List.map_congr_left fun entry _ => ?_
    have word : be32 (bufferOf (bytes32 (dpWord walked entry))) 0 = dpWord walked entry :=
      be32_of_bytes rfl
    simp [dpItem, word]

end Message

/-! ## What the slots mean -/

section Meaning

variable {table : ChainTable} {chain : ChainStatics} {ppc : PpcImage}

/-- A walk leaves the table. -/
theorem walkedChain_sameTable (ppc : PpcImage) (chain : ChainStatics) :
    SameTable chain (walkedChain ppc chain) := by
  unfold walkedChain
  split
  · exact walk_sameTable ppc chain
  · exact ⟨rfl, rfl, rfl, rfl, rfl⟩

/-- A table is still carried behind a walk. -/
theorem Carries.walked (carries : Carries table chain) (ppc : PpcImage) :
    Carries table (walkedChain ppc chain) := by
  have same := walkedChain_sameTable ppc chain
  refine ⟨⟨same.nodeCount.trans carries.loaded.count, fun i inside => ?_⟩,
    same.shipNode.trans carries.shipNode, fun entry => ?_, ?_⟩
  · rw [same.nodes, carries.loaded.node i inside]
  · rw [same.dp, carries.dp_mem]
  · rw [same.dp]
    exact carries.dp_length

/-- The lists still fit behind a walk. -/
theorem ListsFit.walked (fit : ListsFit chain) (ppc : PpcImage) :
    ListsFit (walkedChain ppc chain) := by
  have same := walkedChain_sameTable ppc chain
  constructor
  · rw [same.shipNode]
    exact fit.shipNode
  · rw [same.dp]
    exact fit.dp

/-- A node of the table is settled in the state that is shipped. -/
theorem walkedChain_settles (carries : Carries table chain) (ppc : PpcImage) {node : Nat}
    (inside : node < table.count) :
    walkedChain ppc chain = (raChainWalk ppc chain).statics ∧
      Settled table chain.past ppc (raChainWalk ppc chain) node
        (table.resolve ppc chain.past node) := by
  have some : 0 < chain.nodeCount := by
    rw [carries.loaded.count]
    omega
  exact ⟨if_pos some,
    walk_settles ppc carries.loaded (fun i _ => remembers_past chain i) inside⟩

/-- Only an immediate keeps a value when it is invalid. -/
theorem resolveNode_invalid {node : ChainNode} {edge : Edge}
    (known : (ChainOp.ofCode node.opCode).isSome)
    (invalid : (resolveNode ppc node edge).valid = false) :
    (resolveNode ppc node edge).value = 0 ∨
      ChainOp.ofCode node.opCode = some .immediate ∧ edge = .broken ∧
        (resolveNode ppc node edge).value = node.operand := by
  obtain ⟨op, decoded⟩ := Option.isSome_iff_exists.mp known
  by_cases immediate : op = .immediate
  · subst immediate
    rw [resolveNode_immediate decoded] at invalid ⊢
    refine Or.inr ⟨decoded, ?_, rfl⟩
    cases edge with
    | broken => rfl
    | root => cases invalid
    | carries raw => cases invalid
  · left
    by_cases deref : op = .deref
    · subst deref
      rw [resolveNode_deref decoded] at invalid ⊢
      split at invalid
      · cases invalid
      · rename_i outside
        rw [if_neg outside]
    · rw [resolveNode_combine decoded immediate deref] at invalid ⊢
      simp only at invalid
      simp [invalid]

/-- The shipped slot means its node unless it leaks an operand. -/
theorem slotItem_eq_iff (carries : Carries table chain) {node : Nat}
    (inside : node < table.count) :
    slotItem (walkedChain ppc chain) node = table.shippedSlot ppc chain.past node ↔
      ¬ table.LeaksOperand ppc chain.past node := by
  obtain ⟨walked, settled⟩ := walkedChain_settles carries ppc inside
  have resolved := table.resolve_eq ppc chain.past inside
  have item : slotItem (walkedChain ppc chain) node =
      (leBytes (table.node node).width (table.resolve ppc chain.past node).value,
        (table.resolve ppc chain.past node).valid) := by
    refine Prod.ext ?_ ?_
    · rw [slotItem_bytes, (carries.walked ppc).loaded.node node inside, walked, settled.value]
    · change (walkedChain ppc chain).nodeValid.test node = _
      rw [walked, settled.valid]
  rw [item, ChainTable.shippedSlot]
  by_cases valid : (table.resolve ppc chain.past node).valid = true
  · have intact : ¬ table.LeaksOperand ppc chain.past node := by
      rintro ⟨immediate, broken, _⟩
      rw [resolved, broken, resolveNode_immediate immediate] at valid
      cases valid
    simp [valid, intact]
  · have invalid := Bool.eq_false_iff.mpr valid
    simp only [invalid, Bool.false_eq_true, if_false, Prod.mk.injEq, and_true, leBytes_eq_zeros]
    rw [resolved] at invalid ⊢
    have known := table.known node inside
    rcases resolveNode_invalid known invalid with zero | ⟨immediate, broken, operand⟩
    · simp only [zero, UInt32.toNat_zero, Nat.zero_mod, true_iff]
      rintro ⟨immediate, _, shipped⟩
      rw [resolveNode_immediate immediate] at zero
      simp only at zero
      simp [zero] at shipped
    · rw [operand]
      simp [ChainTable.LeaksOperand, immediate, broken]

/-- The verification entries mean the parents' history. -/
theorem dpItem_eq (carries : Carries table chain) {entry : DpEntry} (listed : entry ∈ chain.dp) :
    (dpWord (walkedChain ppc chain) entry,
        (walkedChain ppc chain).validPrev.test entry.node) =
      table.verification ppc chain entry := by
  obtain ⟨i, inside, edge⟩ := (carries.dp_mem entry).mp listed
  have parent : (table.node i).parentSlot = some entry.node := by
    unfold ChainNode.dpEdge at edge
    split at edge
    · cases edge
    · rename_i used
      cases edge
      simp only [not_or] at used
      simp [ChainNode.parentSlot, used.2]
  have below := Nat.lt_trans (table.earlier i inside _ parent) inside
  obtain ⟨walked, settled⟩ := walkedChain_settles carries ppc below
  rw [walked, walk_validPrev]
  simp [dpWord, ChainTable.verification, settled.prior, settled.valuesPrev]

/-- The slots of the next window; the walk has no say in them. -/
def windowSlots (build : LinkBuild) (chain : ChainStatics) (count : Nat) : List Nat :=
  (chainWindow build chain count).slots chain

/-- A walk does not change how many slots fit. -/
theorem windowSlots_walked (build : LinkBuild) (chain : ChainStatics) (count : Nat)
    (ppc : PpcImage) : windowSlots build (walkedChain ppc chain) count =
      windowSlots build chain count := by
  have same := walkedChain_sameTable ppc chain
  simp only [windowSlots, ChainWindow.slots, chainWindow, same.nodes, same.nodeCount,
    same.shipNode, same.winNext, same.dp]

/-- The message means what the console read exactly when no slot of its window
leaks an operand. -/
theorem roundTrips_iff (carries : Carries table chain) (build : LinkBuild) (ra : RaState)
    (frame : UInt32) (ppc : PpcImage) (buf : Mem) :
    RoundTrips table ra chain frame ppc (buildSnapshot build ra chain frame ppc buf).message
        (decodeSnapshot table.slotWidth
          (bufferOf (buildSnapshot build ra chain frame ppc buf).message)) ↔
      ∀ node ∈ windowSlots build chain ra.watchlist.count,
        ¬ table.LeaksOperand ppc chain.past node := by
  have walked := carries.walked ppc
  have sized := snapshot_sized build ra (walkedChain ppc chain)
  have nodes : ∀ node ∈ windowSlots build chain ra.watchlist.count, node < table.count := by
    intro node member
    have listed := List.mem_of_mem_drop (List.mem_of_mem_take member)
    rw [carries.shipNode] at listed
    exact (mem_shipNodes.mp listed).1
  have low : gcHeaderSize ≤ (snapshotLayout build ra (walkedChain ppc chain)).txLen := by
    simp only [SnapshotLayout.txLen, SnapshotLayout.dpv, SnapshotLayout.dp, SnapshotLayout.blob,
      SnapshotLayout.bm, SnapshotLayout.values]
    omega
  obtain ⟨_, first, chainCount, blobLen, _⟩ :=
    snapshotHeader_fields build ra walked.listsFit frame ra.wlSeq
  have decoded := decode_built build ra chain frame ppc buf walked
  have window := windowSlots_walked build chain ra.watchlist.count ppc
  have shipped : ((table.shipNodes.drop
      (chainWindow build (walkedChain ppc chain) ra.watchlist.count).first).take
      (chainWindow build (walkedChain ppc chain) ra.watchlist.count).count) =
      windowSlots build chain ra.watchlist.count := by
    rw [← window, ← walked.shipNode]
    rfl
  simp only at decoded
  rw [decoded]
  constructor
  · intro trips node member
    have slots := trips.slots
    simp only [first, chainCount, shipped] at slots
    rw [← slotItem_eq_iff carries (nodes node member)]
    have same : (windowSlots build chain ra.watchlist.count).map
      (slotItem (walkedChain ppc chain)) =
        (windowSlots build chain ra.watchlist.count).map (table.shippedSlot ppc chain.past) := by
      rw [← slots, ← window]
      rfl
    exact List.map_inj_left.mp same node member
  · intro clean
    refine ⟨rfl, rfl, ?_, rfl, rfl, rfl, ?_, rfl, ?_, ?_⟩
    · simp only [Snapshot.message, Cells.window_length]
      exact (Nat.add_sub_of_le low).symm
    · exact blobLen.trans sized.blobLen.symm
    · simp only [first, chainCount, shipped]
      rw [← window] at clean nodes ⊢
      exact List.map_congr_left fun node member =>
        (slotItem_eq_iff carries (nodes node member)).mpr (clean node member)
    · simp only [(walkedChain_sameTable ppc chain).dp]
      exact List.map_congr_left fun entry listed => dpItem_eq carries listed

end Meaning

end D2xCios.Ra
