import D2xCios.Lib.Flagged
import D2xCios.Ra.Chain
import D2xCios.Ra.State
import D2xCios.Usb.Link

/-!
# Building a snapshot

`buildSnapshot` is the part of `ra_send_snapshot` before the link: it reads the
watchlist's bytes, walks the chain table and writes the message into the shared
transmit buffer. Behind the header lie the flat bytes, the window of shipped
chain slots with its validity bitmap, and the history verification section with
its own. The buffer keeps whatever it held behind the message.
-/

namespace D2xCios.Ra

open D2xCios.Lib

/-- The link a build of the module is for. -/
inductive LinkBuild where
  | exi
  | usb
  deriving DecidableEq

/-- `RA_SNAP_TX_BUDGET`. On the USB link one byte more would need a framing pad. -/
def raSnapTxBudget : LinkBuild → Nat
  | .exi => 8192
  | .usb => Usb.raUsbTxMax

/-- Bytes of the command header. -/
def gcHeaderSize : Nat := 4

/-- The snapshot payload's fixed part. -/
structure SnapshotHeader where
  frameCounter : UInt32
  addrCount : UInt16
  wlSeq : UInt16
  chainFirst : UInt16
  chainCount : UInt16
  chainBlobLen : UInt16
  dpCount : UInt16
  deriving DecidableEq

namespace SnapshotHeader

/-- Bytes the header takes on the wire. -/
def size : Nat := 16

def bytes (header : SnapshotHeader) : List UInt8 :=
  bytes32 header.frameCounter ++ (bytes16 header.addrCount ++ (bytes16 header.wlSeq ++
    (bytes16 header.chainFirst ++ (bytes16 header.chainCount ++
      (bytes16 header.chainBlobLen ++ bytes16 header.dpCount)))))

def read (mem : Mem) (offset : Nat) : SnapshotHeader where
  frameCounter := be32 mem offset
  addrCount := be16 mem (offset + 4)
  wlSeq := be16 mem (offset + 6)
  chainFirst := be16 mem (offset + 8)
  chainCount := be16 mem (offset + 10)
  chainBlobLen := be16 mem (offset + 12)
  dpCount := be16 mem (offset + 14)

@[simp] theorem bytes_length (header : SnapshotHeader) : header.bytes.length = size := rfl

/-- Reading where a header's bytes lie yields the header. -/
theorem read_of_bytes {mem : Mem} {offset : Nat} {header : SnapshotHeader}
    (stored : mem.window offset size = header.bytes) : read mem offset = header := by
  obtain ⟨frame, rest⟩ := Cells.window_split 4 12 stored rfl
  obtain ⟨addrCount, rest⟩ := Cells.window_split 2 10 rest rfl
  obtain ⟨wlSeq, rest⟩ := Cells.window_split 2 8 rest rfl
  obtain ⟨first, rest⟩ := Cells.window_split 2 6 rest rfl
  obtain ⟨count, rest⟩ := Cells.window_split 2 4 rest rfl
  obtain ⟨blobLen, dpCount⟩ := Cells.window_split 2 2 rest rfl
  simp only [read, be32_of_bytes frame, be16_of_bytes addrCount, be16_of_bytes wlSeq,
    be16_of_bytes first, be16_of_bytes count, be16_of_bytes blobLen, be16_of_bytes dpCount]

end SnapshotHeader

/-! ## The chain window -/

/-- Which shipped slots a snapshot carries, and where the next one starts. -/
structure ChainWindow where
  first : Nat
  count : Nat
  blobLen : Nat
  next : Nat

/-- The greedy loop: take slots while bitmap and bytes fit into `avail`. -/
def fillWindow (width : Nat → Nat) (avail : Nat) :
    List Nat → (winCount blobLen : Nat) → Nat × Nat
  | [], winCount, blobLen => (winCount, blobLen)
  | node :: rest, winCount, blobLen =>
    if (winCount + 1 + 7) / 8 + blobLen + width node > avail then (winCount, blobLen)
    else fillWindow width avail rest (winCount + 1) (blobLen + width node)

/-- Bytes left for the window once header, flat bytes and history section are placed. -/
def windowBudget (build : LinkBuild) (count dpCount : Nat) : Nat :=
  raSnapTxBudget build - gcHeaderSize - SnapshotHeader.size - count - dpCount * 4 -
    (dpCount + 7) / 8

/-- The window of this snapshot. -/
def chainWindow (build : LinkBuild) (s : ChainStatics) (count : Nat) : ChainWindow :=
  if 0 < s.nodeCount ∧ 0 < s.shipNode.length then
    let first := if s.winNext < s.shipNode.length then s.winNext else 0
    let filled := fillWindow (fun node => (s.nodes node).width)
      (windowBudget build count s.dp.length) (s.shipNode.drop first) 0 0
    { first := first
      count := filled.1
      blobLen := filled.2
      next := if first + filled.1 ≥ s.shipNode.length then 0 else first + filled.1 }
  else { first := 0, count := 0, blobLen := 0, next := s.winNext }

/-- The nodes of the window's slots. -/
def ChainWindow.slots (window : ChainWindow) (s : ChainStatics) : List Nat :=
  (s.shipNode.drop window.first).take window.count

/-- A slot's low bytes, and whether its node is valid. -/
def slotItem (s : ChainStatics) (node : Nat) : Flagged :=
  ((List.range (s.nodes node).width).map fun k =>
      (s.values node >>> UInt32.ofNat (8 * k)).toUInt8,
    s.nodeValid.test node)

/-! ## The history section -/

/-- The word shipped for a verification entry. -/
def dpWord (s : ChainStatics) (entry : DpEntry) : UInt32 :=
  if entry.kind = raCnDpPrior then s.prior entry.node else s.valuesPrev entry.node

/-- An entry's word, and whether its node resolved at the previous walk. -/
def dpItem (s : ChainStatics) (entry : DpEntry) : Flagged :=
  (bytes32 (dpWord s entry), s.validPrev.test entry.node)

/-! ## The message -/

/-- The transmit buffer with a message at its start, and the chain state behind it. -/
structure Snapshot where
  mem : Mem
  txLen : Nat
  chain : ChainStatics

/-- The bytes that go to the link. -/
def Snapshot.message (snapshot : Snapshot) : List UInt8 := snapshot.mem.window 0 snapshot.txLen

/-- Offsets of the sections in the transmit buffer. -/
structure SnapshotLayout where
  count : Nat
  winCount : Nat
  blobLen : Nat
  dpCount : Nat

namespace SnapshotLayout

variable (layout : SnapshotLayout)

def values : Nat := gcHeaderSize + SnapshotHeader.size
def bm : Nat := values + layout.count
def blob : Nat := layout.bm + Flagged.bitmapBytes layout.winCount
def dp : Nat := layout.blob + layout.blobLen
def dpv : Nat := layout.dp + layout.dpCount * 4
def txLen : Nat := layout.dpv + Flagged.bitmapBytes layout.dpCount

end SnapshotLayout

/-- The chain state a snapshot ships: walked, if there is a table. -/
def walkedChain (ppc : PpcImage) (s : ChainStatics) : ChainStatics :=
  if 0 < s.nodeCount then (raChainWalk ppc s).statics else s

/-- Where the sections of this snapshot lie. -/
def snapshotLayout (build : LinkBuild) (ra : RaState) (walked : ChainStatics) : SnapshotLayout :=
  let window := chainWindow build walked ra.watchlist.count
  { count := ra.watchlist.count
    winCount := window.count
    blobLen := window.blobLen
    dpCount := walked.dp.length }

/-- The sections behind the header, stored into the transmit buffer. -/
def snapshotBody (layout : SnapshotLayout) (byte : Nat → UInt8) (slots dp : List Flagged)
    (buf : Mem) : Mem :=
  let flat := buf.fill SnapshotLayout.values layout.count byte
  let withWindow := Flagged.store layout.bm slots 0 layout.blob
    (flat.fill layout.bm (Flagged.bitmapBytes layout.winCount) fun _ => 0)
  Flagged.store layout.dpv dp 0 layout.dp
    (withWindow.fill layout.dpv (Flagged.bitmapBytes layout.dpCount) fun _ => 0)

/-- The fixed part of the payload. -/
def snapshotHeader (layout : SnapshotLayout) (frame : UInt32) (wlSeq : UInt16) (first : Nat) :
    SnapshotHeader where
  frameCounter := frame
  addrCount := UInt16.ofNat layout.count
  wlSeq := wlSeq
  chainFirst := UInt16.ofNat first
  chainCount := UInt16.ofNat layout.winCount
  chainBlobLen := UInt16.ofNat layout.blobLen
  dpCount := UInt16.ofNat layout.dpCount

/-- The message part of `ra_send_snapshot`. The header fields, stored at several
places of the source, are stored at once. -/
def buildSnapshot (build : LinkBuild) (ra : RaState) (chain : ChainStatics) (frame : UInt32)
    (ppc : PpcImage) (buf : Mem) : Snapshot :=
  let walked := walkedChain ppc chain
  let window := chainWindow build walked ra.watchlist.count
  let layout := snapshotLayout build ra walked
  let body := snapshotBody layout (fun i => raReadPpcByte ppc (ra.watchlist.cells i))
    ((window.slots walked).map (slotItem walked)) (walked.dp.map (dpItem walked)) buf
  { mem := body.overlay 0
      (raFillHeader raCmdSnapshot (UInt16.ofNat (layout.txLen - gcHeaderSize)) ++
        (snapshotHeader layout frame ra.wlSeq window.first).bytes)
    txLen := layout.txLen
    chain := { walked with winNext := window.next } }

end D2xCios.Ra
