import D2xCios.Lib.Bitmap
import D2xCios.Lib.ForwardPass
import D2xCios.Ra.Protocol

/-!
# Chain walker

The table of pointer-chain nodes and `ra_chain_walk`, which resolves every node
in one forward pass over the table and updates the per-node history in the same
pass. `walkNode` is what the loop body computes for one node, `walkStore` what
it then stores. Next to the statics a walk records which raw parent value each
edge used and which addresses were read.
-/

namespace D2xCios.Ra

open D2xCios.Lib

/-! ## Console memory -/

/-- Physical memory of the game processor, as one pass over it sees it. -/
abbrev PpcImage := UInt32 → UInt8

/-- Last byte of MEM1. -/
def raMem1Hi : UInt32 := 0x017FFFFF

/-- First byte of MEM2, and the exclusive bound of what the game can own there. -/
def raMem2Lo : UInt32 := 0x10000000
def raMem2SafeHi : UInt32 := 0x13400000

/-- `ra_read_ppc_byte`: only game memory is dereferenced. -/
def raReadPpcByte (ppc : PpcImage) (addr : UInt32) : UInt8 :=
  if addr ≤ raMem1Hi then ppc addr
  else if raMem2Lo ≤ addr ∧ addr < raMem2SafeHi then ppc addr
  else 0

/-! ## Nodes -/

/-- Maximum number of chain nodes, nodes per chunk, and distinct history entries. -/
def raMaxChainNodes : Nat := 3072
def raChainChunkNodes : Nat := 512
def raMaxDpParents : Nat := 128

/-- Bytes of a node on the wire. -/
def raChainNodeSize : Nat := 8

/-- Parent of a node that has none. -/
def raChainParentNone : UInt16 := 0xFFFF

/-- Operator codes. -/
def raCnOpNone : UInt8 := 6
def raCnOpMult : UInt8 := 7
def raCnOpDiv : UInt8 := 8
def raCnOpAnd : UInt8 := 9
def raCnOpXor : UInt8 := 10
def raCnOpMod : UInt8 := 11
def raCnOpAdd : UInt8 := 12
def raCnOpSub : UInt8 := 13
def raCnOpSubParent : UInt8 := 14
def raCnOpAddAcc : UInt8 := 15
def raCnOpSubAcc : UInt8 := 16
def raCnOpDeref : UInt8 := 17

/-- Transform codes of a parent edge. -/
def raCnSz8 : UInt8 := 0
def raCnSz16 : UInt8 := 1
def raCnSz24 : UInt8 := 2
def raCnSz32 : UInt8 := 3
def raCnSz16Be : UInt8 := 15
def raCnSz24Be : UInt8 := 16
def raCnSz32Be : UInt8 := 17

/-- Which of the parent's values an edge reads. -/
def raCnDpCur : UInt8 := 0
def raCnDpDelta : UInt8 := 1
def raCnDpPrior : UInt8 := 2

/-- An entry of the history verification list: `ra_chain_dp_node`, `ra_chain_dp_kind`. -/
structure DpEntry where
  node : Nat
  kind : UInt8
  deriving DecidableEq

/-- A chain node, with its fields packed as on the wire. -/
structure ChainNode where
  operand : UInt32
  parent : UInt16
  op : UInt8
  psize : UInt8
  deriving DecidableEq

namespace ChainNode

/-- Operator code, `op & 0x1F`. -/
def opCode (node : ChainNode) : UInt8 := node.op &&& 0x1F

/-- Number of raw bytes a dereference reads. -/
def width (node : ChainNode) : Nat := ((node.op >>> 5) &&& 3).toNat + 1

/-- The node's value is shipped to the adapter. -/
def shipped (node : ChainNode) : Bool := node.op &&& 0x80 != 0

/-- History kind of the parent edge. -/
def dpKind (node : ChainNode) : UInt8 := node.psize >>> 6

/-- Transform code of the parent edge. -/
def memSize (node : ChainNode) : UInt8 := node.psize &&& 0x3F

/-- Slot of the parent, if the node has one. -/
def parentSlot (node : ChainNode) : Option Nat :=
  if node.parent = raChainParentNone then none else some node.parent.toNat

/-- The history a node's edge reads, if it does: the parent's slot and the kind. -/
def dpEdge (node : ChainNode) : Option DpEntry :=
  if node.dpKind = raCnDpCur ∨ node.parent = raChainParentNone then none
  else some ⟨node.parent.toNat, node.dpKind⟩

theorem width_pos (node : ChainNode) : 0 < node.width := Nat.succ_pos _

theorem width_le (node : ChainNode) : node.width ≤ 4 := by
  have masked : ((node.op >>> 5) &&& 3).toNat ≤ 3 := by
    rw [UInt8.toNat_and]
    exact Nat.and_le_right
  exact Nat.succ_le_succ masked

end ChainNode

/-- `ra_chain_xform`. -/
def raChainXform (v : UInt32) (psize : UInt8) : UInt32 :=
  if psize = raCnSz32 then v
  else if psize = raCnSz32Be then
    ((v &&& 0xFF000000) >>> 24) ||| ((v &&& 0x00FF0000) >>> 8) |||
      ((v &&& 0x0000FF00) <<< 8) ||| ((v &&& 0x000000FF) <<< 24)
  else if psize = raCnSz8 then v &&& 0x000000FF
  else if psize = raCnSz16 then v &&& 0x0000FFFF
  else if psize = raCnSz24 then v &&& 0x00FFFFFF
  else if psize = raCnSz16Be then ((v &&& 0xFF00) >>> 8) ||| ((v &&& 0x00FF) <<< 8)
  else if psize = raCnSz24Be then
    ((v &&& 0xFF0000) >>> 16) ||| (v &&& (0x00FF00 : UInt32)) ||| ((v &&& 0x0000FF) <<< 16)
  else v

/-- `ra_chain_combine`. -/
def raChainCombine (pv o : UInt32) (op : UInt8) : UInt32 :=
  if op = raCnOpAnd then pv &&& o
  else if op = raCnOpAdd then pv + o
  else if op = raCnOpSub then pv - o
  else if op = raCnOpMult then pv * o
  else if op = raCnOpDiv then if o ≠ 0 then pv / o else 0
  else if op = raCnOpXor then pv ^^^ o
  else if op = raCnOpMod then if o ≠ 0 then pv % o else 0
  else if op = raCnOpSubParent then o - pv
  else if op = raCnOpAddAcc then pv + o
  else if op = raCnOpSubAcc then pv - o
  else 0

/-- `ra_chain_addr_ok`: the `w` bytes from `addr` on are game memory. -/
def raChainAddrOk (addr : UInt32) (w : Nat) : Bool :=
  let last := addr + UInt32.ofNat w - 1
  if last < addr then false
  else if last ≤ raMem1Hi then true
  else addr ≥ raMem2Lo && last < raMem2SafeHi

/-! ## The walk -/

/-- The chain table and the per-frame walk state. The two lists derived from the
table at the fetch, `ra_chain_ship_node` and the verification list, carry their
counts as their lengths. -/
structure ChainStatics where
  nodes : Cells ChainNode
  nodeCount : Nat
  values : Cells UInt32
  valuesPrev : Cells UInt32
  prior : Cells UInt32
  nodeValid : Bitmap
  validPrev : Bitmap
  havePrev : Bool
  shipNode : List Nat
  winNext : Nat
  dp : List DpEntry

/-- The statics at power-on. -/
def ChainStatics.boot : ChainStatics where
  nodes := fun _ => ⟨0, 0, 0, 0⟩
  nodeCount := 0
  values := fun _ => 0
  valuesPrev := fun _ => 0
  prior := fun _ => 0
  nodeValid := fun _ => 0
  validPrev := fun _ => 0
  havePrev := false
  shipNode := []
  winNext := 0
  dp := []

/-- What the loop body finds out about one node. -/
structure WalkedNode where
  value : UInt32
  valid : Bool
  /-- The raw parent value the edge used. -/
  used : Option UInt32
  /-- The addresses that were read. -/
  reads : List UInt32

/-- Resolve a node's parent edge: whether the node may still be valid, and the
raw parent value its transform is applied to. -/
def walkEdge (s : ChainStatics) (n : ChainNode) : Bool × Option UInt32 :=
  if n.parent ≠ raChainParentNone then
    let parent := n.parent.toNat
    if !s.nodeValid.test parent then (false, none)
    else if n.dpKind ≠ raCnDpCur ∧ !s.havePrev then (false, none)
    else (true, some (if n.dpKind = raCnDpDelta then s.valuesPrev parent
      else if n.dpKind = raCnDpPrior then s.prior parent
      else s.values parent))
  else (true, none)

/-- The loop body of `ra_chain_walk` up to the history update. -/
def walkNode (ppc : PpcImage) (s : ChainStatics) (n : ChainNode) : WalkedNode :=
  let edge := walkEdge s n
  let pv := edge.2.elim 0 fun praw => raChainXform praw n.memSize
  if n.opCode = raCnOpNone then ⟨n.operand, edge.1, edge.2, []⟩
  else if n.opCode = raCnOpDeref then
    let addr := if n.parent = raChainParentNone then n.operand else pv + n.operand
    if edge.1 && raChainAddrOk addr n.width then
      ⟨orShiftLoop n.width fun k => raReadPpcByte ppc (addr + UInt32.ofNat k), true, edge.2,
        (List.range n.width).map fun k => addr + UInt32.ofNat k⟩
    else ⟨0, false, edge.2, []⟩
  else ⟨if edge.1 then raChainCombine pv n.operand n.opCode else 0, edge.1, edge.2, []⟩

/-- The stores of the loop body: history first, then value and validity. -/
def walkStore (s : ChainStatics) (i : Nat) (v : UInt32) (valid : Bool) : ChainStatics :=
  let old := s.values i
  { s with
    valuesPrev := s.valuesPrev.write i old
    prior := if v ≠ old then s.prior.write i old else s.prior
    values := s.values.write i v
    nodeValid := s.nodeValid.put i valid }

/-- The statics after some rounds of the walk, with the nodes walked so far. -/
structure Walk where
  statics : ChainStatics
  walked : Cells WalkedNode

/-- One round of the walk. -/
def walkRound (ppc : PpcImage) (w : Walk) (i : Nat) : Walk :=
  let result := walkNode ppc w.statics (w.statics.nodes i)
  ⟨walkStore w.statics i result.value result.valid, w.walked.write i result⟩

/-- What no node has been walked to yet. -/
def WalkedNode.untouched : WalkedNode := ⟨0, false, none, []⟩

/-- `ra_chain_walk`. -/
def raChainWalk (ppc : PpcImage) (s : ChainStatics) : Walk :=
  let start : Walk := ⟨{ s with validPrev := s.nodeValid }, fun _ => .untouched⟩
  let pass := forRange (walkRound ppc) s.nodeCount start
  { pass with statics := { pass.statics with havePrev := true } }

end D2xCios.Ra
