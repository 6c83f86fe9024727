import D2xCios.Ra.SnapshotDecode

/-!
# Runs over a fetched chain table

The results about the walker and the snapshot for the tables the module really
walks: those that the fetch at power-on accepted, whatever the link delivered.
Walks compute the meaning of the table (`chain_walk_resolves`), the history
arrays hold the earlier walks (`chain_history_iff`), and a snapshot can be read
back (`snapshot_roundTrips_iff`).

The last two hold under a condition each. An edge of the undefined history kind
reads the parent's current value, while the verification section ships the
previous one; and an immediate whose parent did not resolve ships its operand.
-/

namespace D2xCios.Ra

open D2xCios.Lib

section Runs

variable {σ : Type} (port : Port σ) (sys : Sys σ)

/-- The chain state that the fetch at power-on leaves. -/
def fetchedChain : ChainStatics := (raFetchChainTable port { sys with chain := .boot }).chain

/-- The chain that was fetched has been accepted. -/
theorem fetchedChain_accepted : ∃ table, Accepted table (fetchedChain port sys) :=
  raFetchChainTable_accepted port sys

/-- In every walk over a fetched table, every node has the value and validity of the
table's meaning, and only valid dereferences read memory. -/
theorem chain_walk_resolves :
    ∃ table, Loaded table (fetchedChain port sys) ∧
      ∀ (earlier : List PpcImage) (ppc : PpcImage) (i : Nat), i < table.count →
        let walk := raChainWalk ppc (chainWalks (fetchedChain port sys) earlier)
        let meaning := table.resolve ppc (table.past earlier) i
        walk.statics.values i = meaning.value ∧
          walk.statics.nodeValid.test i = meaning.valid ∧
          (walk.walked i).reads =
            if ChainOp.ofCode (table.node i).opCode = some .deref ∧ meaning.valid then
              span (derefAddr (table.node i) (table.edge ppc (table.past earlier) i))
                (table.node i).width
            else [] := by
  obtain ⟨table, accepted⟩ := fetchedChain_accepted port sys
  refine ⟨table, accepted.carries.loaded, fun earlier ppc i inside => ?_⟩
  have rest := chainWalks_atRest accepted.rest earlier
  have settled := walk_settles ppc rest.loaded rest.remembers inside
  refine ⟨settled.value, settled.valid, ?_⟩
  have resolved := table.resolve_eq ppc (table.past earlier) inside
  simp only [settled.walked, readsOf, resolved]

/-! ## History -/

/-- The history arrays after a walk hold the values of the earlier walks. -/
def HistoryKept (table : ChainTable) (earlier : List PpcImage) (ppc : PpcImage)
    (s : ChainStatics) : Prop :=
  ∀ i, i < table.count →
    s.valuesPrev i = (table.past earlier).prev i ∧
      s.prior i = (table.past earlier).lastDifferent i
        (table.resolve ppc (table.past earlier) i).value ∧
      s.validPrev.test i = table.validAt earlier i

/-- Every word of the verification section is the raw parent value that the edges of
its entry used in the walk. -/
def WordsUsed (table : ChainTable) (walk : Walk) : Prop :=
  ∀ entry ∈ walk.statics.dp, ∀ i, i < table.count → (table.node i).dpEdge = some entry →
    ∀ raw, (walk.walked i).used = some raw → dpWord walk.statics entry = raw

/-- Every usable edge of the undefined history kind has a parent whose value is the
one of the previous walk. -/
def UndefinedEdgesSteady (table : ChainTable) (earlier : List PpcImage) (ppc : PpcImage) : Prop :=
  ∀ i, i < table.count → EdgeKind.ofCode (table.node i).dpKind = .undefined →
    ∀ p, (table.node i).parentSlot = some p →
      (table.resolve ppc (table.past earlier) p).valid →
        (table.resolve ppc (table.past earlier) p).value = (table.past earlier).prev p

/-- The parent and the kind of a history edge. -/
theorem dpEdge_eq_some {node : ChainNode} {entry : DpEntry} :
    node.dpEdge = some entry ↔
      node.dpKind = entry.kind ∧ entry.kind ≠ raCnDpCur ∧ node.parentSlot = some entry.node := by
  obtain ⟨slot, kind⟩ := entry
  unfold ChainNode.dpEdge ChainNode.parentSlot
  by_cases root : node.parent = raChainParentNone
  · simp [root]
  · by_cases current : node.dpKind = raCnDpCur
    · simp only [current, root, or_false, if_true, reduceCtorEq, if_false, false_iff]
      rintro ⟨same, other, _⟩
      exact other same.symm
    · simp only [current, root, or_self, if_false, Option.some.injEq, DpEntry.mk.injEq]
      constructor
      · rintro ⟨rfl, rfl⟩
        exact ⟨rfl, current, rfl⟩
      · rintro ⟨rfl, _, rfl⟩
        exact ⟨rfl, rfl⟩

/-- What a history edge of a later walk uses, beside the word shipped for it. -/
theorem used_and_word {table : ChainTable} {earlier : List PpcImage} (ppc : PpcImage)
    {s : ChainStatics} (rest : AtRest table earlier s) (later : earlier ≠ []) {i : Nat}
    (inside : i < table.count) {entry : DpEntry} (edge : (table.node i).dpEdge = some entry) :
    let parent := table.resolve ppc (table.past earlier) entry.node
    let shipped := if entry.kind = raCnDpPrior then
        (table.past earlier).lastDifferent entry.node parent.value
      else (table.past earlier).prev entry.node
    dpWord (raChainWalk ppc s).statics entry = shipped ∧
      ((raChainWalk ppc s).walked i).used =
        if parent.valid then
          some (if EdgeKind.ofCode entry.kind = .undefined then parent.value else shipped)
        else none := by
  intro parent shipped
  obtain ⟨kind, notCurrent, child⟩ := dpEdge_eq_some.mp edge
  have below := Nat.lt_trans (table.earlier i inside _ child) inside
  have settled := walk_settles ppc rest.loaded rest.remembers inside
  have parentSettled := walk_settles ppc rest.loaded rest.remembers below
  constructor
  · simp only [dpWord, parentSettled.prior, parentSettled.valuesPrev]
    rfl
  · rw [settled.walked]
    have started : (table.past earlier).started = true := by simp [later]
    have resolved : table.resolve ppc (table.past earlier) entry.node = parent := rfl
    simp only [ChainTable.edge, edgeOf, child, Option.map_some, kind, started, if_true, resolved]
    cases parent.valid
    · rfl
    · by_cases delta : entry.kind = raCnDpDelta
      · have named : EdgeKind.ofCode entry.kind = .delta := by rw [delta]; rfl
        have notPrior : entry.kind ≠ raCnDpPrior := by rw [delta]; decide
        simp [named, notPrior, shipped, Edge.raw?]
      · by_cases prior : entry.kind = raCnDpPrior
        · have named : EdgeKind.ofCode entry.kind = .prior := by rw [prior]; rfl
          simp only [named, shipped, if_pos prior, reduceCtorEq, if_false]
          rfl
        · have named : EdgeKind.ofCode entry.kind = .undefined := by
            simp only [raCnDpCur, raCnDpDelta, raCnDpPrior] at notCurrent delta prior
            simp [EdgeKind.ofCode, notCurrent, delta, prior]
          simp [named, Edge.raw?]

/-- The arrays always hold the history; the shipped words are the used ones exactly
when no usable edge of the undefined kind has a parent that just changed. -/
theorem chain_history_iff :
    ∃ table, Loaded table (fetchedChain port sys) ∧
      ∀ (earlier : List PpcImage) (ppc : PpcImage),
        let walk := raChainWalk ppc (chainWalks (fetchedChain port sys) earlier)
        (HistoryKept table earlier ppc walk.statics ∧ (earlier ≠ [] → WordsUsed table walk)) ↔
          (earlier ≠ [] → UndefinedEdgesSteady table earlier ppc) := by
  obtain ⟨table, accepted⟩ := fetchedChain_accepted port sys
  refine ⟨table, accepted.carries.loaded, fun earlier ppc => ?_⟩
  have rest := chainWalks_atRest accepted.rest earlier
  have kept : HistoryKept table earlier ppc
      (raChainWalk ppc (chainWalks (fetchedChain port sys) earlier)).statics := by
    intro i inside
    have settled := walk_settles ppc rest.loaded rest.remembers inside
    refine ⟨settled.valuesPrev, settled.prior, ?_⟩
    rw [walk_validPrev]
    exact rest.valid i inside
  have entries : ∀ entry, entry ∈ (raChainWalk ppc
      (chainWalks (fetchedChain port sys) earlier)).statics.dp ↔
      ∃ i, i < table.count ∧ (table.node i).dpEdge = some entry := by
    intro entry
    rw [(walk_sameTable ppc _).dp, (chainWalks_sameTable _ earlier).dp]
    exact accepted.carries.dp_mem entry
  simp only [kept, true_and]
  refine forall_congr' fun later => ?_
  constructor
  · intro words i inside undefined p child valid
    have edge : (table.node i).dpEdge = some ⟨p, (table.node i).dpKind⟩ := by
      refine dpEdge_eq_some.mpr ⟨rfl, fun current => ?_, child⟩
      simp only at current
      rw [current] at undefined
      cases undefined
    obtain ⟨word, used⟩ := used_and_word ppc rest later inside edge
    have notPrior : (table.node i).dpKind ≠ raCnDpPrior := fun prior => by
      rw [prior] at undefined
      cases undefined
    have same := words _ ((entries _).mpr ⟨i, inside, edge⟩) i inside edge _ (by
      rw [used, if_pos valid, if_pos undefined])
    rw [word] at same
    simpa [notPrior] using same.symm
  · intro steady entry _ i inside edge raw carried
    obtain ⟨kind, _, child⟩ := dpEdge_eq_some.mp edge
    obtain ⟨word, used⟩ := used_and_word ppc rest later inside edge
    rw [used] at carried
    rw [word]
    split at carried
    · rename_i valid
      cases carried
      by_cases undefined : EdgeKind.ofCode entry.kind = .undefined
      · have notPrior : entry.kind ≠ raCnDpPrior := fun prior => by
          rw [prior] at undefined
          cases undefined
        have same := steady i inside (kind ▸ undefined) _ child valid
        simp [undefined, notPrior, same]
      · rw [if_neg undefined]
    · cases carried

end Runs

/-- A chain chunk reply with two nodes, as it lies in the chunk buffer. -/
def twoNodeReply (first second : ChainNode) : Mem :=
  let payload := [raMagicEspToGc, 0, 0, 0, 0, 0] ++
    (bytes16 0 ++ bytes16 2 ++ bytes16 2 ++ [1, 0]) ++ first.bytes ++ second.bytes
  bufferOf (List.replicate chunkPad 0 ++ payload ++ bytes32 (raCrc32 payload))

/-- The chain state after fetching two nodes in one chunk. -/
def fetchedPair (first second : ChainNode) : ChainStatics :=
  fetchedChain (.scripted fun _ => 0) (.boot [.ok (twoNodeReply first second)])

/-- A byte at 0x100, and its low bits by an edge of kind 3. -/
def undefinedEdgeChain : ChainStatics :=
  fetchedPair ⟨0x100, raChainParentNone, 0x11, 0⟩ ⟨0xFF, 0, 0x09, 0xC3⟩

/-- The byte changes from 1 to 2: the edge uses 2, the verification section ships 1. -/
theorem undefined_edge_ships_other_value :
    ¬ ∃ table, Loaded table undefinedEdgeChain ∧
      ∀ (earlier : List PpcImage) (ppc : PpcImage),
        let walk := raChainWalk ppc (chainWalks undefinedEdgeChain earlier)
        HistoryKept table earlier ppc walk.statics ∧ (earlier ≠ [] → WordsUsed table walk) := by
  rintro ⟨table, loaded, claimed⟩
  have words := (claimed [fun _ => 1] fun _ => 2).2 (by simp)
  have count : table.count = 2 := by
    rw [← loaded.count]
    decide +kernel
  have inside : 1 < table.count := by omega
  have edge : (table.node 1).dpEdge = some ⟨0, 3⟩ := by
    rw [← loaded.node 1 inside]
    decide +kernel
  have shipped := words ⟨0, 3⟩ (by decide +kernel) 1 inside edge 2 (by decide +kernel)
  revert shipped
  decide +kernel

/-! ## Snapshots -/

/-- In every walk state over a fetched table, at every window cursor, a snapshot reads
back as what the console read exactly when no slot of its window is an immediate
with operand bytes under a parent that does not resolve. -/
theorem snapshot_roundTrips_iff {σ : Type} (port : Port σ) (sys : Sys σ) :
    ∃ table, Carries table (fetchedChain port sys) ∧
      ∀ (build : LinkBuild) (ra : RaState) (frame : UInt32) (ppc : PpcImage) (buf : Mem)
        (values valuesPrev prior : Cells UInt32) (nodeValid validPrev : Bitmap)
        (havePrev : Bool) (winNext : Nat),
        let chain : ChainStatics :=
          { fetchedChain port sys with
            values := values, valuesPrev := valuesPrev, prior := prior, nodeValid := nodeValid,
            validPrev := validPrev, havePrev := havePrev, winNext := winNext }
        let message := (buildSnapshot build ra chain frame ppc buf).message
        RoundTrips table ra chain frame ppc message
            (decodeSnapshot table.slotWidth (bufferOf message)) ↔
          ∀ node ∈ windowSlots build chain ra.watchlist.count,
            ¬ table.LeaksOperand ppc chain.past node := by
  obtain ⟨table, accepted⟩ := fetchedChain_accepted port sys
  obtain ⟨⟨count, node⟩, shipNode, dp_mem, dp_length⟩ := accepted.carries
  refine ⟨table, accepted.carries, ?_⟩
  intro build ra frame ppc buf values valuesPrev prior nodeValid validPrev havePrev winNext chain
  have carries : Carries table chain := ⟨⟨count, node⟩, shipNode, dp_mem, dp_length⟩
  exact roundTrips_iff carries build ra frame ppc buf

/-- A byte outside of game memory, and an immediate 42 below it that is shipped. -/
def leakyChain : ChainStatics :=
  fetchedPair ⟨0xFFFFFFFF, raChainParentNone, 0x11, 0⟩ ⟨42, 0, 0x86, 3⟩

/-- The immediate's slot is invalid and carries 42. -/
theorem invalid_immediate_ships_operand :
    ¬ ∃ table, Carries table leakyChain ∧
      ∀ (build : LinkBuild) (ra : RaState) (frame : UInt32) (ppc : PpcImage) (buf : Mem),
        let message := (buildSnapshot build ra leakyChain frame ppc buf).message
        RoundTrips table ra leakyChain frame ppc message
          (decodeSnapshot table.slotWidth (bufferOf message)) := by
  rintro ⟨table, carries, claimed⟩
  have trips := claimed .usb .boot 0 (fun _ => 0) (fun _ => 0)
  have clean := (roundTrips_iff carries .usb .boot 0 (fun _ => 0) (fun _ => 0)).mp trips
  have count : table.count = 2 := by
    rw [← carries.loaded.count]
    decide +kernel
  have parent : table.node 0 = ⟨0xFFFFFFFF, raChainParentNone, 0x11, 0⟩ := by
    rw [← carries.loaded.node 0 (by omega)]
    decide +kernel
  have child : table.node 1 = ⟨42, 0, 0x86, 3⟩ := by
    rw [← carries.loaded.node 1 (by omega)]
    decide +kernel
  have root : table.edge (fun _ => 0) leakyChain.past 0 = .root := by
    rw [ChainTable.edge, parent]
    rfl
  have broken : table.resolve (fun _ => 0) leakyChain.past 0 = ⟨0, false⟩ := by
    rw [table.resolve_eq _ _ (by omega), parent, root, resolveNode_deref (by decide),
      if_neg (by decide +kernel)]
  refine clean 1 (by decide +kernel) ⟨?_, ?_, ?_⟩
  · rw [child]
    rfl
  · have slot : (table.node 1).parentSlot = some 0 := by
      rw [child]
      rfl
    simp [ChainTable.edge, edgeOf, slot, broken]
  · rw [child]
    decide

end D2xCios.Ra
