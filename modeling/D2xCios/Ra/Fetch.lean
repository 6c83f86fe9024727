import D2xCios.Lib.Retry
import D2xCios.Ra.Port

/-!
# Chunk fetches

The watchlist and the chain table are fetched in chunks. A chunk's reply is
checked against its request and its checksum before anything is stored, and a
failed attempt is repeated. `raFetchWatchlist` builds the list in place, chunk
by chunk; `raFetchChainTable` takes the table over only once all of it has
arrived and been validated.
-/

namespace D2xCios.Ra

open D2xCios.Lib

/-- Attempts for each chunk. -/
def raChunkFetchAttempts : Nat := 3

/-- Bytes the adapter prepends to a chunk reply, as many as the request has. -/
def chunkPad : Nat := 6

/-! ## Checksum -/

/-- One bit of the reflected polynomial division. -/
def crcBit (crc : UInt32) : UInt32 := (crc >>> 1) ^^^ (0xEDB88320 &&& (0 - (crc &&& 1)))

def crcByte (crc : UInt32) (byte : UInt8) : UInt32 :=
  forRange (fun crc _ => crcBit crc) 8 (crc ^^^ byte.toUInt32)

/-- `ra_crc32`. -/
def raCrc32 (bytes : List UInt8) : UInt32 := ~~~(bytes.foldl crcByte 0xFFFFFFFF)

/-! ## Requests and retries -/

/-- A chunk request. -/
def chunkRequest (command : UInt8) (chunkIndex : UInt16) : List UInt8 :=
  raFillHeader command 2 ++ bytes16 chunkIndex

section Fetch

variable {σ : Type} (port : Port σ)

/-- `ra_report_chunk_retry`. -/
def raReportChunkRetry (tag : String) (idx : UInt16) (att : Nat) (sys : Sys σ) : Sys σ :=
  raDebugSendAlways port
    (ascii "RTY " ++ ascii tag ++ ascii " i=" ++ raDbgU16Dec idx ++ ascii " a=" ++
      raDbgU16Dec (UInt16.ofNat att)) sys

/-- Clear the chunk buffer, send the request and wait for the reply. -/
def chunkExchange (command : UInt8) (chunkIndex : UInt16) (sys : Sys σ) :
    Except Int Mem × Sys σ :=
  ((sys.begins port .chunkRx).store port .chunkRx).phaseB port (chunkRequest command chunkIndex)
    .chunkRx

/-! ## Watchlist -/

/-- The fields of a watchlist chunk header the fetch goes on with. -/
structure WatchlistChunk where
  addrCount : Nat
  isLast : Bool

/-- Offset of the addresses in the reply. -/
def watchlistChunkAddrs : Nat := chunkPad + EspHeader.size + 6

/-- The checks on a watchlist chunk's reply. -/
def readWatchlistChunk (chunkIndex : UInt16) (rx : Mem) : Except Int WatchlistChunk :=
  let chunkAt := chunkPad + EspHeader.size
  let addrCount := (be16 rx (chunkAt + 2)).toNat
  if (EspHeader.read rx chunkPad).magic ≠ raMagicEspToGc then .error (-100)
  else if addrCount > raWatchlistChunkAddrs then .error (-101)
  else if be16 rx chunkAt ≠ chunkIndex then .error (-102)
  else
    let pl := EspHeader.size + 6 + addrCount * 4
    if be32 rx (chunkPad + pl) ≠ raCrc32 (rx.window chunkPad pl) then .error (-103)
    else .ok { addrCount := addrCount, isLast := rx (chunkAt + 4) != 0 }

/-- The append loop: all addresses of the chunk, or as many as the list has room for. -/
def Watchlist.appendChunk (watchlist : Watchlist) (addrCount : Nat) (rx : Mem) : Watchlist :=
  watchlist.append (min addrCount (raMaxWatchAddrs - watchlist.count))
    (addrAt rx watchlistChunkAddrs) (by have := watchlist.fits; omega)

/-- `ra_fetch_watchlist_chunk_once`: whether this was the last chunk. -/
def raFetchWatchlistChunkOnce (chunkIndex : UInt16) (sys : Sys σ) : Except Int Bool × Sys σ :=
  match chunkExchange port raCmdGetWatchlistChunk chunkIndex sys with
  | (.error error, sys) => (.error error, sys)
  | (.ok rx, sys) =>
    match readWatchlistChunk chunkIndex rx with
    | .error error => (.error error, sys)
    | .ok chunk =>
      (.ok chunk.isLast,
        { sys with ra :=
          { sys.ra with watchlist := sys.ra.watchlist.appendChunk chunk.addrCount rx } })

/-- `ra_fetch_watchlist_chunk`. -/
def raFetchWatchlistChunk (chunkIndex : UInt16) (sys : Sys σ) : Except Int Bool × Sys σ :=
  retry (raReportChunkRetry port "W" chunkIndex) (raFetchWatchlistChunkOnce port chunkIndex)
    raChunkFetchAttempts 0 (-1) sys

/-- The chunk loop of `ra_fetch_watchlist`, with `left` rounds before its cap. -/
def fetchWatchlistChunks : (left : Nat) → (chunkIdx : UInt16) → Sys σ → Except Int Unit × Sys σ
  | 0, _, sys => (.error (-200), sys)
  | left + 1, chunkIdx, sys =>
    match raFetchWatchlistChunk port chunkIdx sys with
    | (.error error, sys) =>
      (.error error, raDebugSendAlways port
        (ascii "WLC err=" ++ raDbgU16Dec (UInt16.ofInt (-error))) sys)
    | (.ok true, sys) => (.ok (), sys)
    | (.ok false, sys) => fetchWatchlistChunks left (chunkIdx + 1) sys

/-- Most chunks a watchlist fetch asks for. -/
def watchlistChunkCap : Nat := 32

/-- `ra_fetch_watchlist`. -/
def raFetchWatchlist (sys : Sys σ) : Except Int Unit × Sys σ :=
  let cleared : Watchlist := { sys.ra.watchlist with count := 0, fits := Nat.zero_le _ }
  fetchWatchlistChunks port watchlistChunkCap 0
    { sys with ra := { sys.ra with watchlist := cleared } }

/-! ## Chain table -/

/-- The fields of a chain chunk header the fetch goes on with. -/
structure ChainChunk where
  nodeCount : Nat
  isLast : Bool

/-- Offset of the nodes in the reply. -/
def chainChunkNodes : Nat := chunkPad + EspHeader.size + 8

/-- The checks on a chain chunk's reply, with `base` nodes fetched so far. -/
def readChainChunk (chunkIndex : UInt16) (base : Nat) (rx : Mem) : Except Int ChainChunk :=
  let chunkAt := chunkPad + EspHeader.size
  let nodeCount := (be16 rx (chunkAt + 2)).toNat
  let totalNodes := (be16 rx (chunkAt + 4)).toNat
  if (EspHeader.read rx chunkPad).magic ≠ raMagicEspToGc then .error (-100)
  else if nodeCount > raChainChunkNodes then .error (-101)
  else if be16 rx chunkAt ≠ chunkIndex then .error (-102)
  else if totalNodes > raMaxChainNodes then .error (-103)
  else if base + nodeCount > totalNodes then .error (-104)
  else
    let pl := EspHeader.size + 8 + nodeCount * raChainNodeSize
    if be32 rx (chunkPad + pl) ≠ raCrc32 (rx.window chunkPad pl) then .error (-107)
    else .ok { nodeCount := nodeCount, isLast := rx (chunkAt + 6) != 0 }

/-- Copy a node out of a byte buffer. -/
def ChainNode.read (buf : Mem) (offset : Nat) : ChainNode where
  operand := be32 buf offset
  parent := be16 buf (offset + 4)
  op := buf (offset + 6)
  psize := buf (offset + 7)

/-- A node as bytes. -/
def ChainNode.bytes (node : ChainNode) : List UInt8 :=
  bytes32 node.operand ++ bytes16 node.parent ++ [node.op, node.psize]

/-- The structural check of one node: parents come earlier, operators are known. -/
def nodeFault (node : ChainNode) (slot : Nat) : Option Int :=
  if node.parent ≠ raChainParentNone ∧ node.parent ≥ UInt16.ofNat slot then some (-105)
  else if node.opCode ≠ raCnOpNone ∧ node.opCode ≠ raCnOpDeref ∧
      (node.opCode < raCnOpMult ∨ node.opCode > raCnOpSubAcc) then some (-106)
  else none

/-- The first fault among the nodes of a chunk, with the slot it is at. -/
def firstFault (nodes : Cells ChainNode) (base count : Nat) : Option (Nat × Int) :=
  (List.range count).findSome? fun i =>
    (nodeFault (nodes (base + i)) (base + i)).map fun error => (base + i, error)

/-- `ra_chain_dump_bad_node`. -/
def raChainDumpBadNode (idx : Nat) (node : ChainNode) (sys : Sys σ) : Sys σ :=
  raDebugSendAlways port
    (ascii "CHN i=" ++ raDbgU16Dec (UInt16.ofNat idx) ++ ascii " b=" ++
      raDbgHexBytes node.bytes) sys

/-- `ra_fetch_chain_chunk`: whether this was the last chunk, and the new node count. -/
def raFetchChainChunk (chunkIndex : UInt16) (base : Nat) (sys : Sys σ) :
    Except Int (Bool × Nat) × Sys σ :=
  match chunkExchange port raCmdGetChainChunk chunkIndex sys with
  | (.error error, sys) => (.error error, sys)
  | (.ok rx, sys) =>
    match readChainChunk chunkIndex base rx with
    | .error error => (.error error, sys)
    | .ok chunk =>
      let nodes := sys.chain.nodes.fill base chunk.nodeCount fun j =>
        ChainNode.read rx (chainChunkNodes + j * raChainNodeSize)
      let stored := { sys with chain := { sys.chain with nodes := nodes } }
      match firstFault nodes base chunk.nodeCount with
      | some (slot, error) => (.error error, raChainDumpBadNode port slot (nodes slot) stored)
      | none => (.ok (chunk.isLast, base + chunk.nodeCount), stored)

/-- The chunk loop of `ra_fetch_chain_table`: the node count it arrives at. -/
def fetchChainChunks : (left : Nat) → (chunkIdx : UInt16) → (base : Nat) → Sys σ →
    Option Nat × Sys σ
  -- the loop runs out without a last chunk: the table is what has arrived
  | 0, _, base, sys => (some base, sys)
  | left + 1, chunkIdx, base, sys =>
    match retry (raReportChunkRetry port "C" chunkIdx) (raFetchChainChunk port chunkIdx base)
        raChunkFetchAttempts 0 (-1) sys with
    | (.error error, sys) =>
      (none, raDebugSendAlways port
        (ascii "CHN err=" ++ raDbgU16Dec (UInt16.ofInt (-error))) sys)
    | (.ok (true, base), sys) => (some base, sys)
    | (.ok (false, base), sys) => fetchChainChunks left (chunkIdx + 1) base sys

/-- Rounds of that loop. -/
def chainChunkCap : Nat := raMaxChainNodes / raChainChunkNodes + 1

/-- The slots whose value is shipped, in table order. -/
def shipList (nodes : Cells ChainNode) (count : Nat) : List Nat :=
  (List.range count).filter fun i => (nodes i).shipped

/-- Take one node's edge into the verification list; `none` is an overflow. -/
def addDpEntry (list : List DpEntry) (node : ChainNode) : Option (List DpEntry) :=
  match node.dpEdge with
  | none => some list
  | some entry =>
    if entry ∈ list then some list
    else if list.length ≥ raMaxDpParents then none
    else some (list ++ [entry])

/-- The verification list: distinct (parent, kind) pairs in table-scan order. -/
def dpList (nodes : Cells ChainNode) (count : Nat) : Option (List DpEntry) :=
  (List.range count).foldlM (fun list i => addDpEntry list (nodes i)) []

/-- Adopt `base` fetched nodes: derive both lists and reset the history. -/
def ChainStatics.adopt (s : ChainStatics) (base : Nat) : ChainStatics :=
  let reset : ChainStatics :=
    { s with
      nodeCount := base
      shipNode := shipList s.nodes base
      havePrev := false
      values := s.values.fill 0 base fun _ => 0
      valuesPrev := s.valuesPrev.fill 0 base fun _ => 0
      prior := s.prior.fill 0 base fun _ => 0
      validPrev := fun _ => 0 }
  match dpList s.nodes base with
  | some list => { reset with dp := list }
  -- more entries than the adapter may emit: the table is corrupt and dropped
  | none => { reset with nodeCount := 0, shipNode := [], dp := [] }

/-- `ra_fetch_chain_table`. -/
def raFetchChainTable (sys : Sys σ) : Sys σ :=
  let off : ChainStatics := { sys.chain with nodeCount := 0, shipNode := [], winNext := 0 }
  match fetchChainChunks port chainChunkCap 0 0 { sys with chain := off } with
  | (none, sys) => sys
  | (some base, sys) => { sys with chain := sys.chain.adopt base }

end Fetch

end D2xCios.Ra
