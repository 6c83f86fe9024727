import D2xCios.Ra.ChainSpec

/-!
# The forward pass computes the meaning of the table

The helpers of `ra_chain_walk` agree with the operators, transforms and address
ranges of the header, and one round of the loop with one step of the recursion.
A pass from any walk state resolves the table relative to the past that state
remembers (`walk_settles`). `AtRest` says that this past is the history of the
walks so far, and a walk leads from rest to rest (`walk_atRest`).
-/

namespace D2xCios.Ra

open D2xCios.Lib

/-! ## Helpers -/

/-- Two bytes in the opposite order. -/
theorem swap2_eq (v : UInt32) :
    ((v &&& 0xFF00) >>> 8) ||| ((v &&& 0x00FF) <<< 8) = leWord (leBytes 2 v).reverse := by
  have byte1 := mask_shiftDown 0xFF00 1 0 rfl (by omega) (by omega) v
  have byte0 := mask_shiftUp 0x00FF 0 1 rfl (by omega) (by omega) v
  have loop := orShiftLoop_eq_leWord 2 (by omega) fun k => byteAt v (1 - k)
  simp only [Nat.reduceSub, Nat.reduceMul, UInt32.reduceOfNat] at byte1 byte0
  rw [byte1, byte0]
  simpa [orShiftLoop, leBytes, List.range_succ] using loop

/-- Three bytes in the opposite order; the middle one stays. -/
theorem swap3_eq (v : UInt32) :
    ((v &&& 0xFF0000) >>> 16) ||| (v &&& (0x00FF00 : UInt32)) ||| ((v &&& 0x0000FF) <<< 16) =
      leWord (leBytes 3 v).reverse := by
  have byte2 := mask_shiftDown 0xFF0000 2 0 rfl (by omega) (by omega) v
  have byte1 := mask_shiftDown 0x00FF00 1 1 rfl (by omega) (by omega) v
  have byte0 := mask_shiftUp 0x0000FF 0 2 rfl (by omega) (by omega) v
  have loop := orShiftLoop_eq_leWord 3 (by omega) fun k => byteAt v (2 - k)
  simp only [Nat.reduceSub, Nat.reduceMul, UInt32.reduceOfNat, UInt32.shiftRight_zero]
    at byte2 byte1 byte0
  rw [byte2, byte1, byte0]
  simpa [orShiftLoop, leBytes, List.range_succ] using loop

/-- Four bytes in the opposite order. -/
theorem swap4_eq (v : UInt32) :
    ((v &&& 0xFF000000) >>> 24) ||| ((v &&& 0x00FF0000) >>> 8) |||
      ((v &&& 0x0000FF00) <<< 8) ||| ((v &&& 0x000000FF) <<< 24) =
      leWord (leBytes 4 v).reverse := by
  have byte3 := mask_shiftDown 0xFF000000 3 0 rfl (by omega) (by omega) v
  have byte2 := mask_shiftDown 0x00FF0000 2 1 rfl (by omega) (by omega) v
  have byte1 := mask_shiftUp 0x0000FF00 1 2 rfl (by omega) (by omega) v
  have byte0 := mask_shiftUp 0x000000FF 0 3 rfl (by omega) (by omega) v
  have loop := orShiftLoop_eq_leWord 4 (by omega) fun k => byteAt v (3 - k)
  simp only [Nat.reduceSub, Nat.reduceMul, UInt32.reduceOfNat] at byte3 byte2 byte1 byte0
  rw [byte3, byte2, byte1, byte0]
  simpa [orShiftLoop, leBytes, List.range_succ] using loop

/-- Masks and shifts take low bytes and reverse them. -/
theorem raChainXform_eq (v : UInt32) (size : UInt8) : raChainXform v size = transform v size := by
  have low1 := and_low_eq_leWord 0x000000FF 1 rfl v
  have low2 := and_low_eq_leWord 0x0000FFFF 2 rfl v
  have low3 := and_low_eq_leWord 0x00FFFFFF 3 rfl v
  rw [raChainXform, swap2_eq, swap3_eq, swap4_eq, low1, low2, low3]
  by_cases word : size = raCnSz32
  · subst word
    rfl
  · by_cases swapped : size = raCnSz32Be
    · subst swapped
      rfl
    · simp [transform, word, swapped]

/-- The combine chain is the arithmetic of the operator the code stands for. -/
theorem raChainCombine_eq {code : UInt8} {op : ChainOp} (decoded : ChainOp.ofCode code = some op)
    (pv o : UInt32) : raChainCombine pv o code = op.combine pv o := by
  obtain rfl := ChainOp.ofCode_eq_some.mp decoded
  cases op with
  | div =>
    change (if o ≠ 0 then pv / o else 0) = if o = 0 then 0 else pv / o
    rw [ite_not]
  | mod =>
    change (if o ≠ 0 then pv % o else 0) = if o = 0 then 0 else pv % o
    rw [ite_not]
  | _ => rfl

/-- The range check accepts exactly the runs that lie in game memory. -/
theorem raChainAddrOk_iff {addr : UInt32} {w : Nat} (w_pos : 0 < w) (w_le : w ≤ 4) :
    raChainAddrOk addr w = true ↔ ∀ a ∈ span addr w, InGameMemory a := by
  have bound := addr.toNat_lt
  have last : (addr + UInt32.ofNat w - 1).toNat = (addr.toNat + (w - 1)) % 2 ^ 32 := by
    simp only [UInt32.toNat_sub, UInt32.toNat_add, UInt32.toNat_ofNat', UInt32.reduceToNat]
    omega
  have byte : ∀ k, k < w → (addr + UInt32.ofNat k).toNat = (addr.toNat + k) % 2 ^ 32 := by
    intro k k_lt
    simp only [UInt32.toNat_add, UInt32.toNat_ofNat']
    omega
  have code : raChainAddrOk addr w = true ↔
      ¬ (addr.toNat + (w - 1)) % 2 ^ 32 < addr.toNat ∧
        ((addr.toNat + (w - 1)) % 2 ^ 32 ≤ 0x017FFFFF ∨
          0x10000000 ≤ addr.toNat ∧ (addr.toNat + (w - 1)) % 2 ^ 32 < 0x13400000) := by
    simp only [raChainAddrOk, UInt32.lt_iff_toNat_lt, UInt32.le_iff_toNat_le, last, raMem1Hi,
      raMem2Lo, raMem2SafeHi, UInt32.reduceToNat, ge_iff_le]
    split
    case isTrue wraps =>
      exact ⟨fun broken => absurd broken Bool.false_ne_true, fun both => absurd wraps both.1⟩
    split
    case isTrue ordered first => exact ⟨fun _ => ⟨ordered, .inl first⟩, fun _ => rfl⟩
    case isFalse ordered beyond =>
      simp only [Bool.and_eq_true, decide_eq_true_eq]
      omega
  have inMemory : (∀ a ∈ span addr w, InGameMemory a) ↔
      ∀ k, k < w → (addr.toNat + k) % 2 ^ 32 ≤ 0x017FFFFF ∨
        0x10000000 ≤ (addr.toNat + k) % 2 ^ 32 ∧ (addr.toNat + k) % 2 ^ 32 ≤ 0x133FFFFF := by
    simp only [span, List.forall_mem_map, List.mem_range, InGameMemory, UInt32.le_iff_toNat_le,
      UInt32.reduceToNat]
    exact forall₂_congr fun k k_lt => by rw [byte k k_lt]
  rw [code, inMemory]
  constructor
  · rintro ⟨noWrap, inside⟩ k k_lt
    omega
  · intro inside
    have first := inside 0 w_pos
    have final := inside (w - 1) (by omega)
    omega

/-- Inside game memory a byte is dereferenced. -/
theorem raReadPpcByte_eq {ppc : PpcImage} {addr : UInt32} (inside : InGameMemory addr) :
    raReadPpcByte ppc addr = ppc addr := by
  simp only [InGameMemory, UInt32.le_iff_toNat_le, UInt32.reduceToNat] at inside
  simp only [raReadPpcByte, raMem1Hi, raMem2Lo, raMem2SafeHi, UInt32.le_iff_toNat_le,
    UInt32.lt_iff_toNat_lt, UInt32.reduceToNat]
  rcases inside with mem1 | ⟨low, high⟩
  · rw [if_pos mem1]
  · rw [if_neg (by omega), if_pos (by omega)]

/-! ## One node -/

section Node

variable {s : ChainStatics} {n : ChainNode} {past : Past} {resolved : Nat → Resolved}

/-- The statics hold what a node may read of its parent. -/
structure ParentReady (s : ChainStatics) (past : Past) (resolved : Nat → Resolved)
    (slot : Nat) : Prop where
  value : s.values slot = (resolved slot).value
  valid : s.nodeValid.test slot = (resolved slot).valid
  valuesPrev : s.valuesPrev slot = past.prev slot
  prior : s.prior slot = past.lastDifferent slot (resolved slot).value

/-- The code's edge is the edge of the recursion. -/
theorem walkEdge_eq (s : ChainStatics) (n : ChainNode) (past : Past) (resolved : Nat → Resolved)
    (havePrev : s.havePrev = past.started)
    (ready : ∀ slot, n.parentSlot = some slot → ParentReady s past resolved slot) :
    walkEdge s n = ((edgeOf past n (n.parentSlot.map resolved)).intact,
      (edgeOf past n (n.parentSlot.map resolved)).raw?) := by
  by_cases root : n.parent = raChainParentNone
  · simp [walkEdge, edgeOf, ChainNode.parentSlot, root, Edge.intact, Edge.raw?]
  · have parent := ready n.parent.toNat (by simp [ChainNode.parentSlot, root])
    simp only [walkEdge, edgeOf, ChainNode.parentSlot, root, ne_eq, not_false_eq_true, if_true,
      if_false, Option.map_some, parent.value, parent.valid, parent.valuesPrev, parent.prior,
      havePrev]
    cases (resolved n.parent.toNat).valid
    · simp [Edge.intact, Edge.raw?]
    · by_cases current : n.dpKind = raCnDpCur
      · simp [current, EdgeKind.ofCode, Edge.intact, Edge.raw?, raCnDpCur, raCnDpDelta,
          raCnDpPrior]
      · cases past.started
        · have reads : EdgeKind.ofCode n.dpKind ≠ .current := fun same =>
            current (EdgeKind.ofCode_current.mp same)
          cases kind : EdgeKind.ofCode n.dpKind <;> simp_all [Edge.intact, Edge.raw?]
        · by_cases delta : n.dpKind = raCnDpDelta
          · simp [delta, EdgeKind.ofCode, Edge.intact, Edge.raw?, raCnDpDelta]
          · by_cases prior : n.dpKind = raCnDpPrior
            · simp [prior, EdgeKind.ofCode, Edge.intact, Edge.raw?, raCnDpDelta, raCnDpPrior]
            · have undefined : EdgeKind.ofCode n.dpKind = .undefined := by
                simp only [raCnDpCur, raCnDpDelta, raCnDpPrior] at current delta prior
                simp [EdgeKind.ofCode, current, delta, prior]
              simp [undefined, delta, prior, Edge.intact, Edge.raw?]

/-- An edge is missing exactly where there is no parent. -/
theorem edgeOf_eq_root :
    edgeOf past n (n.parentSlot.map resolved) = .root ↔ n.parent = raChainParentNone := by
  by_cases root : n.parent = raChainParentNone
  · simp [edgeOf, ChainNode.parentSlot, root]
  · simp only [edgeOf, ChainNode.parentSlot, root, if_false, Option.map_some, iff_false]
    split
    · simp
    · split
      · simp
      · split <;> simp
      · split <;> simp
      · split <;> simp

/-- The parent value the code goes on with is the one behind the transform. -/
theorem pv_eq (edge : Edge) (size : UInt8) :
    (edge.raw?.elim 0 fun praw => raChainXform praw size) = edge.passed size := by
  cases edge with
  | root => rfl
  | broken => rfl
  | carries raw => exact raChainXform_eq raw size

/-- One round computes one step of the recursion. -/
theorem walkNode_eq (ppc : PpcImage) {edge : Edge}
    (sameEdge : walkEdge s n = (edge.intact, edge.raw?))
    (shape : edge = .root ↔ n.parent = raChainParentNone)
    (known : (ChainOp.ofCode n.opCode).isSome) :
    walkNode ppc s n = ⟨(resolveNode ppc n edge).value, (resolveNode ppc n edge).valid,
      edge.raw?, readsOf ppc n edge⟩ := by
  obtain ⟨op, decoded⟩ := Option.isSome_iff_exists.mp known
  have code := ChainOp.ofCode_eq_some.mp decoded
  have addr : edge.intact = true → (if n.parent = raChainParentNone then n.operand
      else edge.passed n.memSize + n.operand) = derefAddr n edge := by
    intro intact
    cases edge with
    | root => simp [derefAddr, shape.mp rfl]
    | broken => cases intact
    | carries raw =>
      have parent : n.parent ≠ raChainParentNone := fun none => by cases shape.mpr none
      simp [derefAddr, parent]
  simp only [walkNode, sameEdge, pv_eq]
  by_cases immediate : op = .immediate
  · subst immediate
    have numbered : n.opCode = raCnOpNone := code
    rw [if_pos numbered]
    simp [resolveNode_immediate decoded, readsOf, decoded]
  · have notNone : n.opCode ≠ raCnOpNone := fun none =>
      immediate (Option.some.inj (decoded.symm.trans (ChainOp.ofCode_eq_some.mpr none)))
    by_cases deref : op = .deref
    · subst deref
      have numbered : n.opCode = raCnOpDeref := code
      simp only [readsOf, resolveNode_deref decoded, decoded, true_and]
      rw [if_neg notNone, if_pos numbered]
      by_cases intact : edge.intact = true
      · rw [addr intact]
        by_cases inside : ∀ a ∈ span (derefAddr n edge) n.width, InGameMemory a
        · have ok := (raChainAddrOk_iff n.width_pos n.width_le).mpr inside
          have packed : (orShiftLoop n.width fun k =>
              raReadPpcByte ppc (derefAddr n edge + UInt32.ofNat k)) =
              leWord ((span (derefAddr n edge) n.width).map ppc) := by
            rw [orShiftLoop_eq_leWord n.width n.width_le, span, List.map_map]
            congr 1
            exact List.map_congr_left fun k member =>
              raReadPpcByte_eq (inside _ (List.mem_map_of_mem member))
          rw [if_pos (by simp [intact, ok]), if_pos ⟨intact, inside⟩]
          simp [packed, span]
        · have bad : raChainAddrOk (derefAddr n edge) n.width = false :=
            Bool.eq_false_iff.mpr fun ok =>
              inside ((raChainAddrOk_iff n.width_pos n.width_le).mp ok)
          rw [if_neg (by simp [bad]), if_neg (fun both => inside both.2)]
          simp
      · rw [if_neg (by simp [intact]), if_neg (fun both => intact both.1)]
        simp
    · have notDeref : n.opCode ≠ raCnOpDeref := fun same =>
        deref (Option.some.inj (decoded.symm.trans (ChainOp.ofCode_eq_some.mpr same)))
      rw [if_neg notNone, if_neg notDeref, raChainCombine_eq decoded]
      simp [resolveNode_combine decoded immediate deref, readsOf, decoded, deref]

end Node

/-! ## The whole pass -/

/-- The statics hold the table's nodes. -/
structure Loaded (table : ChainTable) (s : ChainStatics) : Prop where
  count : s.nodeCount = table.count
  node : ∀ i, i < table.count → s.nodes i = table.node i

/-- The statics remember of node `i` what the past says. -/
structure Remembers (past : Past) (s : ChainStatics) (i : Nat) : Prop where
  started : s.havePrev = past.started
  value : s.values i = past.prev i
  prior : ∀ now, past.lastDifferent i now = if now ≠ s.values i then s.values i else s.prior i

/-- The past a walk state stands for. -/
def ChainStatics.past (s : ChainStatics) : Past where
  started := s.havePrev
  prev := s.values
  lastDifferent := fun i now => if now ≠ s.values i then s.values i else s.prior i

/-- The statics remember their own past. -/
theorem remembers_past (s : ChainStatics) (i : Nat) : Remembers s.past s i :=
  ⟨rfl, rfl, fun _ => rfl⟩

section Pass

variable {table : ChainTable} {past : Past} {ppc : PpcImage}

/-- The pass has not come to node `i`. -/
structure Waiting (table : ChainTable) (past : Past) (w : Walk) (i : Nat) : Prop where
  node : w.statics.nodes i = table.node i
  remembers : Remembers past w.statics i

/-- The pass has resolved node `i`. -/
structure Settled (table : ChainTable) (past : Past) (ppc : PpcImage) (w : Walk)
    (i : Nat) (r : Resolved) : Prop where
  value : w.statics.values i = r.value
  valid : w.statics.nodeValid.test i = r.valid
  valuesPrev : w.statics.valuesPrev i = past.prev i
  prior : w.statics.prior i = past.lastDifferent i r.value
  walked : w.walked i = ⟨r.value, r.valid, (table.edge ppc past i).raw?,
    readsOf ppc (table.node i) (table.edge ppc past i)⟩

/-- Storing a value leaves the others. -/
theorem walkStore_prior_other (s : ChainStatics) {i j : Nat} (apart : j ≠ i) (v : UInt32)
    (valid : Bool) : (walkStore s i v valid).prior j = s.prior j := by
  simp only [walkStore]
  split
  · exact Cells.write_other _ _ apart
  · rfl

/-- A later node still waits. -/
theorem Waiting.round {w : Walk} {i j : Nat} (other : i < j)
    (waiting : Waiting table past w j) : Waiting table past (walkRound ppc w i) j := by
  have apart : j ≠ i := Nat.ne_of_gt other
  have value : (walkRound ppc w i).statics.values j = w.statics.values j :=
    Cells.write_other _ _ apart
  refine ⟨waiting.node, waiting.remembers.started, ?_, ?_⟩
  · rw [value, waiting.remembers.value]
  · intro now
    rw [value, waiting.remembers.prior now]
    congr 1
    exact (walkStore_prior_other _ apart _ _).symm

/-- An earlier node stays settled. -/
theorem Settled.round {w : Walk} {i j : Nat} {r : Resolved} (other : j < i)
    (settled : Settled table past ppc w j r) :
    Settled table past ppc (walkRound ppc w i) j r := by
  have apart : j ≠ i := Nat.ne_of_lt other
  refine ⟨?_, ?_, ?_, ?_, ?_⟩
  · simp [walkRound, walkStore, Cells.write_other _ _ apart, settled.value]
  · simp [walkRound, walkStore, Bitmap.test_put, apart, settled.valid]
  · simp [walkRound, walkStore, Cells.write_other _ _ apart, settled.valuesPrev]
  · rw [← settled.prior]
    exact walkStore_prior_other _ apart _ _
  · simp [walkRound, Cells.write_other _ _ apart, settled.walked]

/-- A round settles its node once the parent is settled. -/
theorem Waiting.settle {w : Walk} {i : Nat} (inside : i < table.count)
    (waiting : Waiting table past w i)
    (parents : ∀ p, (table.node i).parentSlot = some p →
      Settled table past ppc w p (table.resolve ppc past p)) :
    Settled table past ppc (walkRound ppc w i) i (table.resolve ppc past i) := by
  have sameEdge := walkEdge_eq w.statics (table.node i) past (table.resolve ppc past)
    waiting.remembers.started
    (fun p child => ⟨(parents p child).value, (parents p child).valid,
      (parents p child).valuesPrev, (parents p child).prior⟩)
  have result := walkNode_eq ppc sameEdge edgeOf_eq_root (table.known i inside)
  have resolved := table.resolve_eq ppc past inside
  simp only [ChainTable.edge] at resolved
  rw [← resolved] at result
  refine ⟨?_, ?_, ?_, ?_, ?_⟩
  · simp [walkRound, walkStore, waiting.node, result]
  · simp [walkRound, walkStore, Bitmap.test_put, waiting.node, result]
  · simp [walkRound, walkStore, waiting.remembers.value]
  · rw [waiting.remembers.prior]
    simp only [walkRound, walkStore, waiting.node, result]
    split <;> simp
  · simp [walkRound, waiting.node, result, ChainTable.edge]

/-- Two states share the table and everything derived from it at the fetch. -/
structure SameTable (s t : ChainStatics) : Prop where
  nodes : t.nodes = s.nodes
  nodeCount : t.nodeCount = s.nodeCount
  shipNode : t.shipNode = s.shipNode
  winNext : t.winNext = s.winNext
  dp : t.dp = s.dp

/-- The rounds of a walk change values, history and validity only. -/
theorem walkRounds_frame (ppc : PpcImage) (count : Nat) (w : Walk) :
    SameTable w.statics (forRange (walkRound ppc) count w).statics ∧
      (forRange (walkRound ppc) count w).statics.validPrev = w.statics.validPrev :=
  forRange_invariant (walkRound ppc) count w
    (fun _ (t : Walk) =>
      SameTable w.statics t.statics ∧ t.statics.validPrev = w.statics.validPrev)
    ⟨⟨rfl, rfl, rfl, rfl, rfl⟩, rfl⟩
    fun _ _ _ ⟨same, validPrev⟩ =>
      ⟨⟨same.nodes, same.nodeCount, same.shipNode, same.winNext, same.dp⟩, validPrev⟩

/-- A walk leaves the table. -/
theorem walk_sameTable (ppc : PpcImage) (s : ChainStatics) :
    SameTable s (raChainWalk ppc s).statics := by
  have same := (walkRounds_frame ppc s.nodeCount
    ⟨{ s with validPrev := s.nodeValid }, fun _ => .untouched⟩).1
  exact ⟨same.nodes, same.nodeCount, same.shipNode, same.winNext, same.dp⟩

/-- The validity of the previous walk is the one this walk started from. -/
theorem walk_validPrev (ppc : PpcImage) (s : ChainStatics) :
    (raChainWalk ppc s).statics.validPrev = s.nodeValid :=
  (walkRounds_frame ppc s.nodeCount
    ⟨{ s with validPrev := s.nodeValid }, fun _ => .untouched⟩).2

/-- A walk resolves every node relative to the past its state remembers. -/
theorem walk_settles (ppc : PpcImage) {s : ChainStatics} (loaded : Loaded table s)
    (remembers : ∀ i, i < table.count → Remembers past s i) {i : Nat}
    (inside : i < table.count) :
    Settled table past ppc (raChainWalk ppc s) i (table.resolve ppc past i) := by
  have settled := (table.dag ppc past).forRange_computes
    (walkRound ppc) table.count ⟨{ s with validPrev := s.nodeValid }, fun _ => .untouched⟩
    (Waiting table past) (Settled table past ppc)
    (fun j below => ⟨loaded.node j below, (remembers j below).started, (remembers j below).value,
      (remembers j below).prior⟩)
    (fun _ _ _ other _ waiting => waiting.round other)
    (fun _ _ _ _ other _ done => done.round other)
    (fun w j below waiting parents => waiting.settle below fun p child =>
      parents p (by simp [ChainTable.dag, below, child]))
    i inside
  rw [← loaded.count] at settled
  exact ⟨settled.value, settled.valid, settled.valuesPrev, settled.prior, settled.walked⟩

end Pass

/-! ## Runs of walks -/

/-- The walk state between walks, after walks over the given images. -/
structure AtRest (table : ChainTable) (images : List PpcImage) (s : ChainStatics) : Prop where
  loaded : Loaded table s
  remembers : ∀ i, i < table.count → Remembers (table.past images) s i
  valuesPrev : ∀ i, i < table.count → s.valuesPrev i = (table.past images.tail).prev i
  valid : ∀ i, i < table.count → s.nodeValid.test i = table.validAt images i
  validPrev : ∀ i, i < table.count → s.validPrev.test i = table.validAt images.tail i

/-- A walk leads from rest to rest, with its own values on top. -/
theorem walk_atRest {table : ChainTable} {images : List PpcImage} {ppc : PpcImage}
    {s : ChainStatics} (rest : AtRest table images s) :
    AtRest table (ppc :: images) (raChainWalk ppc s).statics := by
  have same := walk_sameTable ppc s
  have settled := fun i (inside : i < table.count) =>
    walk_settles ppc rest.loaded rest.remembers inside
  refine ⟨⟨same.nodeCount.trans rest.loaded.count, fun i inside => ?_⟩, fun i inside => ?_, ?_, ?_,
    fun i inside => ?_⟩
  · rw [same.nodes, rest.loaded.node i inside]
  · refine ⟨by simp [raChainWalk], (settled i inside).value, fun now => ?_⟩
    rw [(settled i inside).value, (settled i inside).prior]
    exact History.lastDifferent_eq (table.history (ppc :: images)) i now
  · exact fun i inside => (settled i inside).valuesPrev
  · exact fun i inside => (settled i inside).valid
  · rw [walk_validPrev, rest.valid i inside, List.tail_cons]

/-- The statics after walks over the given images, latest first. -/
def chainWalks (s : ChainStatics) : List PpcImage → ChainStatics
  | [] => s
  | ppc :: earlier => (raChainWalk ppc (chainWalks s earlier)).statics

/-- Walks keep the lists derived from the table. -/
theorem chainWalks_sameTable (s : ChainStatics) (images : List PpcImage) :
    SameTable s (chainWalks s images) := by
  induction images with
  | nil => exact ⟨rfl, rfl, rfl, rfl, rfl⟩
  | cons ppc earlier ih =>
    have step := walk_sameTable ppc (chainWalks s earlier)
    exact ⟨step.nodes.trans ih.nodes, step.nodeCount.trans ih.nodeCount,
      step.shipNode.trans ih.shipNode, step.winNext.trans ih.winNext, step.dp.trans ih.dp⟩

/-- Walks keep the state at rest. -/
theorem chainWalks_atRest {table : ChainTable} {s : ChainStatics} (rest : AtRest table [] s)
    (images : List PpcImage) : AtRest table images (chainWalks s images) := by
  induction images with
  | nil => exact rest
  | cons ppc earlier ih => exact walk_atRest ih

end D2xCios.Ra
