import D2xCios.Ra.Loop
import D2xCios.Ra.ChainRuns

/-!
# Bounds of the lists, and the arithmetic of a snapshot

Six places of the module let a list or a table grow, and a snapshot subtracts their
sizes from its budget in 32-bit words without a check of its own. The counts of the
watchlist and of the pending query stay within their arrays by construction; the
verification list does because a table is only adopted with one that fits. After
every sequence of calls the sizes therefore leave room for the snapshot, and its
words and header fields carry the numbers themselves.
-/

namespace D2xCios.Ra

open D2xCios.Lib

/-! ## The arithmetic as the code does it -/

/-- `avail`, the window's room, in the code's unsigned words. -/
def snapshotAvail (build : LinkBuild) (count dpCount : Nat) : UInt32 :=
  UInt32.ofNat (raSnapTxBudget build) - UInt32.ofNat gcHeaderSize -
    UInt32.ofNat SnapshotHeader.size - UInt32.ofNat count - UInt32.ofNat dpCount * 4 -
    (UInt32.ofNat dpCount + 7) / 8

/-- A snapshot's words carry the numbers they stand for. -/
structure SnapshotExact (build : LinkBuild) (ra : RaState) (chain : ChainStatics)
    (frame : UInt32) (ppc : PpcImage) (buf : Mem) : Prop where
  /-- What is subtracted from the budget is no more than the budget. -/
  noUnderflow : gcHeaderSize + SnapshotHeader.size + ra.watchlist.count + chain.dp.length * 4 +
    (chain.dp.length + 7) / 8 ≤ raSnapTxBudget build
  /-- The word subtractions yield that difference. -/
  avail : (snapshotAvail build ra.watchlist.count chain.dp.length).toNat =
    windowBudget build ra.watchlist.count chain.dp.length
  /-- The message fits the link. -/
  txLen : (buildSnapshot build ra chain frame ppc buf).txLen ≤ raSnapTxBudget build
  /-- The header names the length of what follows it. -/
  payloadLen : (be16 (bufferOf (buildSnapshot build ra chain frame ppc buf).message) 2).toNat =
    (buildSnapshot build ra chain frame ppc buf).txLen - gcHeaderSize
  /-- So do its counters, of the lists and of the window filled from them. -/
  counters :
    let header := SnapshotHeader.read
      (bufferOf (buildSnapshot build ra chain frame ppc buf).message) gcHeaderSize
    let window := chainWindow build (walkedChain ppc chain) ra.watchlist.count
    header.addrCount.toNat = ra.watchlist.count ∧ header.chainFirst.toNat = window.first ∧
      header.chainCount.toNat = window.count ∧ header.chainBlobLen.toNat = window.blobLen ∧
      header.dpCount.toNat = chain.dp.length ∧ window.first + window.count < 65536

/-- What is left for the window does not wrap. -/
theorem snapshotAvail_toNat (build : LinkBuild) {count dpCount : Nat}
    (listed : count ≤ raMaxWatchAddrs) (entries : dpCount ≤ raMaxDpParents) :
    gcHeaderSize + SnapshotHeader.size + count + dpCount * 4 + (dpCount + 7) / 8 ≤
        raSnapTxBudget build ∧
      (snapshotAvail build count dpCount).toNat = windowBudget build count dpCount := by
  have budget : 8191 ≤ raSnapTxBudget build ∧ raSnapTxBudget build ≤ 8192 := by
    cases build <;> decide
  simp only [raMaxWatchAddrs, raMaxDpParents] at listed entries
  have word : ∀ n, n ≤ 8192 → (UInt32.ofNat n).toNat = n := fun n small =>
    UInt32.toNat_ofNat_of_lt' (Nat.lt_of_le_of_lt small (by decide))
  have entryWords : (UInt32.ofNat dpCount * 4).toNat = dpCount * 4 := by
    simp only [UInt32.toNat_mul, word dpCount (by omega), UInt32.reduceToNat]
    omega
  have bitmap : ((UInt32.ofNat dpCount + 7) / 8).toNat = (dpCount + 7) / 8 := by
    simp only [UInt32.toNat_div, UInt32.toNat_add, word dpCount (by omega), UInt32.reduceToNat]
    omega
  have room : gcHeaderSize + SnapshotHeader.size + count + dpCount * 4 + (dpCount + 7) / 8 ≤
      raSnapTxBudget build := by
    simp only [gcHeaderSize, SnapshotHeader.size]
    omega
  refine ⟨room, ?_⟩
  have listWord := word count (by omega)
  have sub {x y : UInt32} {a b : Nat} (minuend : x.toNat = a) (subtrahend : y.toNat = b)
      (le : b ≤ a) : (x - y).toNat = a - b := by
    rw [UInt32.toNat_sub_of_le x y (UInt32.le_iff_toNat_le.mpr (by omega)), minuend, subtrahend]
  exact sub (sub (sub (sub (sub (word _ budget.2) rfl (by omega)) rfl (by omega)) listWord
    (by omega)) entryWords (by omega)) bitmap (by omega)

/-- Lists that fit make the whole snapshot exact. -/
theorem snapshot_exact (build : LinkBuild) (ra : RaState) {chain : ChainStatics}
    (fit : ListsFit chain) (frame : UInt32) (ppc : PpcImage) (buf : Mem) :
    SnapshotExact build ra chain frame ppc buf := by
  have same := walkedChain_sameTable ppc chain
  have walked := fit.walked ppc
  have budget : raSnapTxBudget build ≤ 8192 := by cases build <;> decide
  have txLen : (buildSnapshot build ra chain frame ppc buf).txLen ≤ raSnapTxBudget build :=
    snapshot_txLen_le build ra walked
  obtain ⟨room, avail⟩ := snapshotAvail_toNat build ra.watchlist.fits fit.dp
  refine ⟨room, avail, txLen, ?_, ?_⟩
  · have head : (bufferOf (buildSnapshot build ra chain frame ppc buf).message).window 0 (2 + 2) =
        [raMagicGcToEsp, raCmdSnapshot] ++ bytes16
          (UInt16.ofNat ((buildSnapshot build ra chain frame ppc buf).txLen - gcHeaderSize)) :=
      (Cells.window_split 4 16 (message_head build ra chain frame ppc buf) rfl).1
    have length := (Cells.window_split 2 2 head rfl).2
    rw [be16_of_bytes length]
    exact UInt16.toNat_ofNat_of_lt' (Nat.lt_of_le_of_lt (Nat.sub_le _ _)
      (Nat.lt_of_le_of_lt (Nat.le_trans txLen budget) (by decide)))
  · intro header window
    have fields := snapshotHeader_fields build ra walked frame ra.wlSeq
    have inside := (chainWindow_fits build (walkedChain ppc chain) ra.watchlist.count).inside
    have slots := walked.shipNode
    obtain ⟨addrCount, first, chainCount, blobLen, dpCount⟩ := fields
    have dpLength : (snapshotLayout build ra (walkedChain ppc chain)).dpCount = chain.dp.length :=
      congrArg List.length same.dp
    rw [dpLength] at dpCount
    have built : header = builtHeader build ra chain frame ppc := message_header ..
    rw [built]
    refine ⟨addrCount, first, chainCount, blobLen, dpCount, ?_⟩
    simp only [raMaxChainNodes] at slots
    simp only [window]
    omega

/-! ## What the main program calls -/

/-- A call that may change the statics. -/
inductive Call where
  /-- `ra_fetch_watchlist_chunk` -/
  | fetchWatchlistChunk (chunkIndex : UInt16)
  /-- `ra_fetch_watchlist` -/
  | fetchWatchlist
  /-- `ra_fetch_chain_table` -/
  | fetchChainTable
  /-- `ra_parse_response` -/
  | parseResponse (reply : Mem)
  /-- `ra_send_addr_response` -/
  | sendAddrResponse
  /-- `ra_do_resync` -/
  | doResync
  /-- `ra_send_snapshot` of a blocking build -/
  | sendSnapshot (build : LinkBuild)
  /-- `ra_send_snapshot` of the pipelined build -/
  | postSnapshot
  /-- `ra_snap_collect` -/
  | snapCollect

section Calls

variable {σ : Type} (port : Port σ)

/-- One call. -/
def Call.run (sys : Sys σ) : Call → Sys σ
  | .fetchWatchlistChunk chunkIndex => (raFetchWatchlistChunk port chunkIndex sys).2
  | .fetchWatchlist => (raFetchWatchlist port sys).2
  | .fetchChainTable => raFetchChainTable port sys
  | .parseResponse reply => sys.parse reply
  | .sendAddrResponse => raSendAddrResponse port sys
  | .doResync => raDoResync port sys
  | .sendSnapshot build => raSendSnapshot port build sys
  | .postSnapshot => raPostSnapshot port sys
  | .snapCollect => (raSnapCollect port sys).2

/-- The statics after a sequence of calls from power-on. -/
def afterCalls (io : σ) (calls : List Call) : Sys σ := calls.foldl (Call.run port) (.boot io)

/-! ### What leaves the chain alone -/

/-- One attempt at a chunk of the watchlist leaves the chain. -/
theorem raFetchWatchlistChunkOnce_chain (chunkIndex : UInt16) (sys : Sys σ) :
    (raFetchWatchlistChunkOnce port chunkIndex sys).2.chain = sys.chain := by
  have exchange := chunkExchange_chain port raCmdGetWatchlistChunk chunkIndex sys
  unfold raFetchWatchlistChunkOnce
  split
  · rename_i error after result
    rwa [result] at exchange
  · rename_i rx after result
    rw [result] at exchange
    split
    · exact exchange
    · exact exchange

/-- A chunk of the watchlist leaves the chain. -/
theorem raFetchWatchlistChunk_chain (chunkIndex : UInt16) (sys : Sys σ) :
    (raFetchWatchlistChunk port chunkIndex sys).2.chain = sys.chain :=
  retry_keeps (fun after : Sys σ => after.chain = sys.chain)
    (raReportChunkRetry port "W" chunkIndex) _
    (fun before kept => (raFetchWatchlistChunkOnce_chain port chunkIndex before).trans kept)
    (fun _ _ kept => kept) _ _ _ rfl

/-- The chunks of the watchlist leave the chain. -/
theorem fetchWatchlistChunks_chain (left : Nat) (chunkIdx : UInt16) (sys : Sys σ) :
    (fetchWatchlistChunks port left chunkIdx sys).2.chain = sys.chain := by
  induction left generalizing chunkIdx sys with
  | zero => rfl
  | succ left ih =>
    have chunk := raFetchWatchlistChunk_chain port chunkIdx sys
    rw [fetchWatchlistChunks]
    split
    · rename_i error after result
      rwa [result] at chunk
    · rename_i after result
      rwa [result] at chunk
    · rename_i after result
      rw [result] at chunk
      exact (ih (chunkIdx + 1) after).trans chunk

/-- The fetch of the watchlist leaves the chain. -/
theorem raFetchWatchlist_chain (sys : Sys σ) :
    (raFetchWatchlist port sys).2.chain = sys.chain :=
  fetchWatchlistChunks_chain port _ _ _

/-- A resync leaves the chain. -/
theorem raDoResync_chain (sys : Sys σ) : (raDoResync port sys).chain = sys.chain := by
  have fetched := raFetchWatchlist_chain port (beginResync sys)
  unfold raDoResync
  split
  · rfl
  · split
    · rename_i after result
      rwa [result] at fetched
    · rename_i error after result
      rwa [result] at fetched

/-- An answer to a query leaves the chain. -/
theorem raSendAddrResponse_chain (sys : Sys σ) :
    (raSendAddrResponse port sys).chain = sys.chain := by
  unfold raSendAddrResponse
  split
  · rfl
  · simp only
    split
    · rename_i error after result
      exact congrArg (fun answered => answered.2.chain) result.symm
    · rename_i reply after result
      exact congrArg (fun answered => answered.2.chain) result.symm

/-! ### What keeps the lists within their arrays -/

/-- A table is only adopted with lists that fit, and a failed fetch leaves the old
verification list, without a table. -/
theorem raFetchChainTable_listsFit {sys : Sys σ} (fit : ListsFit sys.chain) :
    ListsFit (raFetchChainTable port sys).chain := by
  have fetched := fetchChainChunks_valid port
    { sys.chain with nodeCount := 0, shipNode := [], winNext := 0 } chainChunkCap 0 0
    { sys with chain := { sys.chain with nodeCount := 0, shipNode := [], winNext := 0 } }
    ⟨_, rfl⟩ ⟨Nat.zero_le _, fun _ below => absurd below (Nat.not_lt_zero _)⟩
  unfold raFetchChainTable
  simp only
  split
  · rename_i after result
    rw [result] at fetched
    obtain ⟨⟨nodes, same⟩, _⟩ := fetched
    rw [same]
    exact ⟨Nat.zero_le _, fit.dp⟩
  · rename_i base after result
    rw [result] at fetched
    have valid := fetched.2 base rfl
    unfold ChainStatics.adopt
    split
    · rename_i list scanned
      refine ⟨?_, (dpList_spec scanned).2⟩
      refine Nat.le_trans (List.length_filter_le _ _) ?_
      rw [List.length_range]
      exact valid.bounded
    · exact ⟨Nat.zero_le _, Nat.zero_le _⟩

/-- A snapshot walks the table and moves the cursor. -/
theorem prepareSnapshot_listsFit (build : LinkBuild) {sys : Sys σ} (fit : ListsFit sys.chain) :
    ListsFit (prepareSnapshot port build sys).2.chain := by
  have walked := fit.walked (port.ppc (port.store .snapTx sys.io)).1
  exact ⟨walked.shipNode, walked.dp⟩

/-- Sending a snapshot leaves the chain as its preparation has left it. -/
theorem raSendSnapshot_chain (build : LinkBuild) (sys : Sys σ) :
    (raSendSnapshot port build sys).chain = (prepareSnapshot port build sys).2.chain := by
  unfold raSendSnapshot
  simp only
  split
  · rename_i error after result
    exact congrArg (fun answered => answered.2.chain) result.symm
  · rename_i reply after result
    exact congrArg (fun answered => answered.2.chain) result.symm

/-- Collecting a reply leaves the chain. -/
theorem raSnapCollect_chain (sys : Sys σ) : (raSnapCollect port sys).2.chain = sys.chain := by
  unfold raSnapCollect
  simp only
  split
  · rfl
  · split <;> rfl

/-- Every call keeps the derived lists within their arrays. -/
theorem Call.run_listsFit {sys : Sys σ} (fit : ListsFit sys.chain) (call : Call) :
    ListsFit (call.run port sys).chain := by
  cases call with
  | fetchWatchlistChunk chunkIndex =>
    exact (raFetchWatchlistChunk_chain port chunkIndex sys).symm ▸ fit
  | fetchWatchlist => exact (raFetchWatchlist_chain port sys).symm ▸ fit
  | fetchChainTable => exact raFetchChainTable_listsFit port fit
  | parseResponse reply => exact fit
  | sendAddrResponse => exact (raSendAddrResponse_chain port sys).symm ▸ fit
  | doResync => exact (raDoResync_chain port sys).symm ▸ fit
  | sendSnapshot build =>
    exact (raSendSnapshot_chain port build sys).symm ▸ prepareSnapshot_listsFit port build fit
  | postSnapshot => exact prepareSnapshot_listsFit port .usb fit
  | snapCollect => exact (raSnapCollect_chain port sys).symm ▸ fit

/-- The lists fit their arrays behind any calls. -/
theorem calls_listsFit {sys : Sys σ} (fit : ListsFit sys.chain) (calls : List Call) :
    ListsFit (calls.foldl (Call.run port) sys).chain := by
  induction calls generalizing sys with
  | nil => exact fit
  | cons call calls ih => exact ih (call.run_listsFit port fit)

/-- After any sequence of calls from power-on, on any link, the counts are within their
arrays, and the next snapshot computes with the numbers themselves. -/
theorem counts_within_arrays (io : σ) (calls : List Call) :
    let sys := afterCalls port io calls
    (sys.ra.watchlist.count ≤ 6144 ∧ sys.ra.pending.count ≤ 512 ∧
        sys.chain.dp.length ≤ 128) ∧
      ∀ (build : LinkBuild) (frame : UInt32) (ppc : PpcImage) (buf : Mem),
        SnapshotExact build sys.ra sys.chain frame ppc buf := by
  intro sys
  have fit : ListsFit sys.chain :=
    calls_listsFit port ⟨Nat.zero_le _, Nat.zero_le _⟩ calls
  exact ⟨⟨sys.ra.watchlist.fits, sys.ra.pending.fits, fit.dp⟩,
    fun build frame ppc buf => snapshot_exact build sys.ra fit frame ppc buf⟩

end Calls

end D2xCios.Ra
