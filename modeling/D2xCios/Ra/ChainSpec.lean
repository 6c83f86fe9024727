import D2xCios.Ra.Chain

/-!
# Meaning of a chain table

The node semantics of the protocol header, as a recursion from a node to its
parent: `ChainTable.resolve` gives every node its value and validity in one walk
over a memory image, relative to the values of the earlier walks. `ChainTable`
carries the proof that parents precede their children, so the recursion is
total. `walk_resolves` says that the module's forward pass computes it.
-/

namespace D2xCios.Ra

open D2xCios.Lib

/-! ## Operators, transforms and addresses -/

/-- The operators of the protocol. -/
inductive ChainOp where
  | immediate
  | mult
  | div
  | and
  | xor
  | mod
  | add
  | sub
  | subParent
  | addAcc
  | subAcc
  | deref
  deriving DecidableEq

namespace ChainOp

/-- The code of an operator, as in the achievement engine. -/
def code : ChainOp → UInt8
  | .immediate => 6
  | .mult => 7
  | .div => 8
  | .and => 9
  | .xor => 10
  | .mod => 11
  | .add => 12
  | .sub => 13
  | .subParent => 14
  | .addAcc => 15
  | .subAcc => 16
  | .deref => 17

def all : List ChainOp :=
  [.immediate, .mult, .div, .and, .xor, .mod, .add, .sub, .subParent, .addAcc, .subAcc, .deref]

/-- The operator of a code. -/
def ofCode (code : UInt8) : Option ChainOp := all.find? fun op => op.code == code

/-- An operation has one code. -/
theorem ofCode_eq_some {code : UInt8} {op : ChainOp} : ofCode code = some op ↔ code = op.code := by
  constructor
  · intro found
    have same := List.find?_some found
    exact (beq_iff_eq.mp same).symm
  · rintro rfl
    cases op <;> rfl

/-- 32-bit arithmetic on a parent value and an operand; division by zero yields 0. -/
def combine (parent operand : UInt32) : ChainOp → UInt32
  | .mult => parent * operand
  | .div => if operand = 0 then 0 else parent / operand
  | .and => parent &&& operand
  | .xor => parent ^^^ operand
  | .mod => if operand = 0 then 0 else parent % operand
  | .add | .addAcc => parent + operand
  | .sub | .subAcc => parent - operand
  | .subParent => operand - parent
  | .immediate | .deref => 0

end ChainOp

/-- Which of the parent's values an edge names. The header defines three kinds;
the two bits of the field have a fourth value. -/
inductive EdgeKind where
  | current
  | delta
  | prior
  | undefined
  deriving DecidableEq

def EdgeKind.ofCode (code : UInt8) : EdgeKind :=
  if code = 0 then .current
  else if code = 1 then .delta
  else if code = 2 then .prior
  else .undefined

/-- The code of an edge to the current value. -/
theorem EdgeKind.ofCode_current {code : UInt8} : EdgeKind.ofCode code = .current ↔ code = 0 := by
  unfold EdgeKind.ofCode
  grind

/-- The value an edge passes on: the low bytes of the parent's value, in the same
or in the opposite order. -/
def transform (value : UInt32) (size : UInt8) : UInt32 :=
  if size = raCnSz8 then leWord (leBytes 1 value)
  else if size = raCnSz16 then leWord (leBytes 2 value)
  else if size = raCnSz24 then leWord (leBytes 3 value)
  else if size = raCnSz16Be then leWord (leBytes 2 value).reverse
  else if size = raCnSz24Be then leWord (leBytes 3 value).reverse
  else if size = raCnSz32Be then leWord (leBytes 4 value).reverse
  else value

/-- Memory a chain may read: MEM1, and the part of MEM2 the game can own. -/
def InGameMemory (addr : UInt32) : Prop :=
  addr ≤ 0x017FFFFF ∨ 0x10000000 ≤ addr ∧ addr ≤ 0x133FFFFF

instance (addr : UInt32) : Decidable (InGameMemory addr) := by
  unfold InGameMemory
  infer_instance

/-- The addresses of `width` bytes from `addr` on. -/
def span (addr : UInt32) (width : Nat) : List UInt32 :=
  (List.range width).map fun k => addr + UInt32.ofNat k

/-! ## What a walk knows of the earlier ones -/

/-- The past of a walk: whether there is one, each node's value at the previous
walk, and its value at the latest earlier walk where it was not `now`. -/
structure Past where
  started : Bool
  prev : Nat → UInt32
  lastDifferent : Nat → (now : UInt32) → UInt32

/-- The value of every node at each earlier walk, latest walk first. -/
abbrev History := List (Nat → UInt32)

namespace History

/-- The value at the previous walk; 0 before the first. -/
def prev (history : History) (slot : Nat) : UInt32 :=
  match history with
  | [] => 0
  | walk :: _ => walk slot

/-- The value at the latest earlier walk that differs from `now`; 0 if there is none. -/
def lastDifferent (history : History) (slot : Nat) (now : UInt32) : UInt32 :=
  ((history.map fun walk => walk slot).find? fun value => decide (value ≠ now)).getD 0

/-- The past that a sequence of walks leaves. -/
def past (history : History) : Past where
  started := decide (history ≠ [])
  prev := history.prev
  lastDifferent := history.lastDifferent

/-- The last different value moves only when the value does. -/
theorem lastDifferent_eq (history : History) (slot : Nat) (now : UInt32) :
    history.lastDifferent slot now =
      if now ≠ history.prev slot then history.prev slot
      else lastDifferent history.tail slot (history.prev slot) := by
  cases history with
  | nil => by_cases zero : now = 0 <;> simp [zero, lastDifferent, prev]
  | cons walk rest =>
    by_cases same : walk slot = now
    · simp [lastDifferent, prev, same]
    · simp [lastDifferent, prev, same, Ne.symm same]

end History

/-! ## Resolving a table -/

/-- Value and validity of a node in one walk. -/
structure Resolved where
  value : UInt32
  valid : Bool

/-- What a node's parent edge contributes. -/
inductive Edge where
  /-- The node has no parent. -/
  | root
  /-- The parent did not resolve, or the edge reads a history that does not exist yet. -/
  | broken
  /-- The raw parent value the edge names. -/
  | carries (raw : UInt32)
  deriving DecidableEq

namespace Edge

def intact : Edge → Bool
  | .broken => false
  | _ => true

/-- The parent value behind the transform. -/
def passed (edge : Edge) (size : UInt8) : UInt32 :=
  match edge with
  | .carries raw => transform raw size
  | _ => 0

def raw? : Edge → Option UInt32
  | .carries raw => some raw
  | _ => none

end Edge

/-- A chain table as the walker requires it. -/
structure ChainTable where
  node : Nat → ChainNode
  count : Nat
  bounded : count ≤ raMaxChainNodes
  earlier : ∀ i, i < count → ∀ p, (node i).parentSlot = some p → p < i
  known : ∀ i, i < count → (ChainOp.ofCode (node i).opCode).isSome

/-- The parent edge of a node, given how the parent resolved. -/
def edgeOf (past : Past) (node : ChainNode) (parent : Option Resolved) : Edge :=
  match node.parentSlot, parent with
  | some slot, some resolved =>
    if !resolved.valid then .broken
    else match EdgeKind.ofCode node.dpKind with
      | .current => .carries resolved.value
      | .delta => if past.started then .carries (past.prev slot) else .broken
      | .prior =>
        if past.started then .carries (past.lastDifferent slot resolved.value) else .broken
      -- not defined by the header; the walker reads the current value
      | .undefined => if past.started then .carries resolved.value else .broken
  | _, _ => .root

/-- The address a dereference starts at. -/
def derefAddr (node : ChainNode) (edge : Edge) : UInt32 :=
  match edge with
  | .carries _ => edge.passed node.memSize + node.operand
  | _ => node.operand

/-- Addresses are checked one by one, not against all of memory. -/
instance (priority := high) (addrs : List UInt32) :
    Decidable (∀ addr ∈ addrs, InGameMemory addr) :=
  List.decidableBAll InGameMemory addrs

/-- One step of the recursion: a node from its parent edge. -/
def resolveNode (ppc : PpcImage) (node : ChainNode) (edge : Edge) : Resolved :=
  match ChainOp.ofCode node.opCode with
  | some .immediate => ⟨node.operand, edge.intact⟩
  | some .deref =>
    let bytes := span (derefAddr node edge) node.width
    if edge.intact ∧ ∀ addr ∈ bytes, InGameMemory addr then ⟨leWord (bytes.map ppc), true⟩
    else ⟨0, false⟩
  | some op =>
    ⟨if edge.intact then op.combine (edge.passed node.memSize) node.operand else 0, edge.intact⟩
  | none => ⟨0, edge.intact⟩

section Steps

variable {ppc : PpcImage} {node : ChainNode} {edge : Edge}

/-- An immediate resolves to its operand. -/
theorem resolveNode_immediate (decoded : ChainOp.ofCode node.opCode = some .immediate) :
    resolveNode ppc node edge = ⟨node.operand, edge.intact⟩ := by
  simp [resolveNode, decoded]

/-- A dereference resolves to the memory it points to, if that can be read. -/
theorem resolveNode_deref (decoded : ChainOp.ofCode node.opCode = some .deref) :
    resolveNode ppc node edge =
      if edge.intact ∧ ∀ addr ∈ span (derefAddr node edge) node.width, InGameMemory addr then
        ⟨leWord ((span (derefAddr node edge) node.width).map ppc), true⟩
      else ⟨0, false⟩ := by
  simp [resolveNode, decoded]

/-- Any other operation combines the value of its parent with the operand. -/
theorem resolveNode_combine {op : ChainOp} (decoded : ChainOp.ofCode node.opCode = some op)
    (notImmediate : op ≠ .immediate) (notDeref : op ≠ .deref) :
    resolveNode ppc node edge =
      ⟨if edge.intact then op.combine (edge.passed node.memSize) node.operand else 0,
        edge.intact⟩ := by
  cases op <;> simp_all [resolveNode]

end Steps

/-- The addresses a node reads: all bytes of a valid dereference, else none. -/
def readsOf (ppc : PpcImage) (node : ChainNode) (edge : Edge) : List UInt32 :=
  if ChainOp.ofCode node.opCode = some .deref ∧ (resolveNode ppc node edge).valid then
    span (derefAddr node edge) node.width
  else []

namespace ChainTable

variable (table : ChainTable)

/-- The slots whose value is shipped, in table order. -/
def shipNodes : List Nat := (List.range table.count).filter fun i => (table.node i).shipped

/-- The table as a family of values that depend on earlier ones. -/
def dag (ppc : PpcImage) (past : Past) : Dag Resolved where
  parent i := if i < table.count then (table.node i).parentSlot else none
  earlier i p child := by
    split at child
    · exact table.earlier i ‹_› p child
    · cases child
  node i parent := resolveNode ppc (table.node i) (edgeOf past (table.node i) parent)

/-- Value and validity of a node in a walk over `ppc`. -/
def resolve (ppc : PpcImage) (past : Past) (i : Nat) : Resolved :=
  (table.dag ppc past).value i

/-- The parent edge of a node in that walk. -/
def edge (ppc : PpcImage) (past : Past) (i : Nat) : Edge :=
  edgeOf past (table.node i) ((table.node i).parentSlot.map (table.resolve ppc past))

/-- The recursion. -/
theorem resolve_eq (ppc : PpcImage) (past : Past) {i : Nat} (inside : i < table.count) :
    table.resolve ppc past i = resolveNode ppc (table.node i) (table.edge ppc past i) := by
  have unfolded := (table.dag ppc past).value_eq i
  have parent : (table.dag ppc past).parent i = (table.node i).parentSlot := by
    simp [dag, inside]
  rw [parent] at unfolded
  exact unfolded

/-- The values of a sequence of walks over the given images, latest first. -/
def history : List PpcImage → History
  | [] => []
  | ppc :: earlier =>
    (fun i => (table.resolve ppc (history earlier).past i).value) :: history earlier

/-- The past after these walks. -/
def past (images : List PpcImage) : Past := (table.history images).past

/-- The validity of a node at the last of these walks; invalid before the first. -/
def validAt (images : List PpcImage) (i : Nat) : Bool :=
  match images with
  | [] => false
  | ppc :: earlier => (table.resolve ppc (table.past earlier) i).valid

@[simp] theorem history_eq_nil {images : List PpcImage} :
    table.history images = [] ↔ images = [] := by
  cases images <;> simp [history]

@[simp] theorem history_tail (images : List PpcImage) :
    (table.history images).tail = table.history images.tail := by
  cases images <;> rfl

@[simp] theorem past_started (images : List PpcImage) :
    (table.past images).started = decide (images ≠ []) := by
  simp [past, History.past]

end ChainTable

end D2xCios.Ra
