import D2xCios.Lib.Rotation
import D2xCios.Ra.ChainRuns

/-!
# The rotating chain window

A snapshot carries as many shipped slots as its budget leaves room for, and the
next one resumes behind them. The budget changes with the watchlist from frame to
frame, but even beside the longest watchlist and a full verification section 363
slots of the widest kind fit, so no slot waits longer than one round of windows
of that width.
-/

namespace D2xCios.Ra

open D2xCios.Lib

/-! ## The narrowest window -/

/-- Slots of the widest kind that fit beside the longest watchlist and a full
verification section. -/
def leastWindow : Nat := 363

/-- The budget has room for 363 slots of the widest kind. -/
theorem windowBudget_ge (build : LinkBuild) {count dpCount : Nat} (listed : count ≤ raMaxWatchAddrs)
    (entries : dpCount ≤ raMaxDpParents) :
    (leastWindow + 7) / 8 + 4 * leastWindow ≤ windowBudget build count dpCount := by
  have budget : 8191 ≤ raSnapTxBudget build := by cases build <;> decide
  simp only [raMaxWatchAddrs, raMaxDpParents] at listed entries
  simp only [windowBudget, leastWindow, gcHeaderSize, SnapshotHeader.size]
  omega

/-- The greedy loop stops at the end of the slots or with `least` of them taken, if
that many of the widest kind fit. -/
theorem fillWindow_wide {width : Nat → Nat} (narrow : ∀ node, width node ≤ 4) {least avail : Nat}
    (room : (least + 7) / 8 + 4 * least ≤ avail) (nodes : List Nat) (winCount blobLen : Nat)
    (small : blobLen ≤ 4 * winCount) :
    (fillWindow width avail nodes winCount blobLen).1 = winCount + nodes.length ∨
      least ≤ (fillWindow width avail nodes winCount blobLen).1 := by
  induction nodes generalizing winCount blobLen with
  | nil => exact Or.inl rfl
  | cons node rest ih =>
    have own := narrow node
    rw [fillWindow]
    split
    · -- A slot that does not fit finds at least as many taken as fit at full width.
      exact Or.inr (show least ≤ winCount by omega)
    · rcases ih (winCount + 1) (blobLen + width node) (by omega) with ended | taken
      · left
        rw [ended, List.length_cons]
        omega
      · exact Or.inr taken

/-- What the window of one snapshot looks like, and where it leaves the cursor. -/
structure WindowTurn (s : ChainStatics) (window : ChainWindow) : Prop where
  first : window.first = if s.winNext < s.shipNode.length then s.winNext else 0
  started : window.first < s.shipNode.length
  inside : window.first + window.count ≤ s.shipNode.length
  wide : window.first + window.count = s.shipNode.length ∨ leastWindow ≤ window.count
  next : window.next =
    if window.first + window.count = s.shipNode.length then 0 else window.first + window.count

/-- The cursor never points behind the last slot. -/
theorem WindowTurn.next_lt {s : ChainStatics} {window : ChainWindow} (turn : WindowTurn s window) :
    window.next < s.shipNode.length := by
  have started := turn.started
  have inside := turn.inside
  rw [turn.next]
  split_ifs
  · omega
  · exact Nat.lt_of_le_of_ne inside ‹_›

/-- A window takes its turn. -/
theorem chainWindow_turn (build : LinkBuild) {table : ChainTable} {s : ChainStatics}
    (carries : Carries table s) (shipped : 0 < s.shipNode.length) {count : Nat}
    (listed : count ≤ raMaxWatchAddrs) : WindowTurn s (chainWindow build s count) := by
  have some : 0 < s.nodeCount ∧ 0 < s.shipNode.length := by
    refine ⟨?_, shipped⟩
    obtain ⟨node, member⟩ := List.exists_mem_of_length_pos shipped
    rw [carries.shipNode] at member
    have below := (mem_shipNodes.mp member).1
    rw [carries.loaded.count]
    omega
  have inside := (chainWindow_fits build s count).inside
  obtain ⟨first, cursor, below⟩ : ∃ first,
      (if s.winNext < s.shipNode.length then s.winNext else 0) = first ∧
        first < s.shipNode.length := by
    split
    · exact ⟨_, rfl, ‹_›⟩
    · exact ⟨_, rfl, shipped⟩
  have wide := fillWindow_wide (fun node => (s.nodes node).width_le)
    (windowBudget_ge build listed carries.dp_length) (s.shipNode.drop first) 0 0 (Nat.zero_le _)
  rw [List.length_drop] at wide
  simp only [chainWindow, if_pos some, cursor] at inside ⊢
  refine ⟨cursor.symm, below, inside, ?_, ?_⟩
  · exact wide.imp (fun ended => by simp only [ended]; omega) id
  · simp only
    split_ifs <;> omega

/-! ## Runs of snapshots -/

/-- What a snapshot is taken with besides the chain state. -/
structure SnapshotInput where
  ra : RaState
  frame : UInt32
  ppc : PpcImage
  buf : Mem

/-- The snapshot of a chain state. -/
def SnapshotInput.take (input : SnapshotInput) (build : LinkBuild) (chain : ChainStatics) :
    Snapshot :=
  buildSnapshot build input.ra chain input.frame input.ppc input.buf

/-- The window it fills, and the cursor it leaves. -/
def SnapshotInput.chainWindow (input : SnapshotInput) (build : LinkBuild)
    (chain : ChainStatics) : ChainWindow :=
  Ra.chainWindow build (walkedChain input.ppc chain) input.ra.watchlist.count

/-- The slots of that window. -/
def SnapshotInput.window (input : SnapshotInput) (build : LinkBuild) (chain : ChainStatics) :
    Window :=
  ⟨(input.chainWindow build chain).first, (input.chainWindow build chain).count⟩

section Run

variable (build : LinkBuild) (start : ChainStatics) (inputs : Nat → SnapshotInput)

/-- The chain state before the `k`-th snapshot of a run. -/
def chainBefore : Nat → ChainStatics
  | 0 => start
  | k + 1 => ((inputs k).take build (chainBefore k)).chain

/-- The window a message announces in its header. -/
def announcedWindow (message : List UInt8) : Window :=
  let header := SnapshotHeader.read (bufferOf message) gcHeaderSize
  ⟨header.chainFirst.toNat, header.chainCount.toNat⟩

/-- The window of the `k`-th snapshot. -/
def sentWindow (k : Nat) : Window :=
  announcedWindow ((inputs k).take build (chainBefore build start inputs k)).message

variable {build start inputs} {table : ChainTable}

/-- The header announces the window that the greedy loop filled. -/
theorem announcedWindow_eq (carries : Carries table start) (input : SnapshotInput) :
    announcedWindow (input.take build start).message = input.window build start := by
  have header : SnapshotHeader.read (bufferOf (input.take build start).message) gcHeaderSize =
      builtHeader build input.ra start input.frame input.ppc := message_header ..
  obtain ⟨_, first, count, _, _⟩ := snapshotHeader_fields build input.ra
    (carries.walked input.ppc).listsFit input.frame input.ra.wlSeq
  unfold announcedWindow
  rw [header]
  exact congrArg₂ Window.mk first count

/-- The walk has no say in the window. -/
theorem SnapshotInput.turn (input : SnapshotInput) (carries : Carries table start)
    (shipped : 0 < start.shipNode.length) :
    WindowTurn start (input.chainWindow build start) := by
  have walked := carries.walked input.ppc
  have slots : (walkedChain input.ppc start).shipNode = start.shipNode :=
    walked.shipNode.trans carries.shipNode.symm
  have cursor : (walkedChain input.ppc start).winNext = start.winNext :=
    (walkedChain_sameTable input.ppc start).winNext
  obtain ⟨first, started, inside, wide, next⟩ := chainWindow_turn build walked
    (by rw [slots]; exact shipped) input.ra.watchlist.fits
  rw [slots] at first started inside wide next
  rw [cursor] at first
  exact ⟨first, started, inside, wide, next⟩

/-- A snapshot leaves the table alone. -/
theorem Carries.take (carries : Carries table start) (input : SnapshotInput) :
    Carries table (input.take build start).chain := by
  obtain ⟨⟨count, node⟩, shipNode, dp_mem, dp_length⟩ := carries.walked input.ppc
  exact ⟨⟨count, node⟩, shipNode, dp_mem, dp_length⟩

/-- The table is carried through the run. -/
theorem chainBefore_carries (carries : Carries table start) (k : Nat) :
    Carries table (chainBefore build start inputs k) := by
  induction k with
  | zero => exact carries
  | succ k ih => exact ih.take (inputs k)

/-- The windows of every run go round the shipped slots. -/
theorem sentWindow_rotates (carries : Carries table start) (shipped : 0 < start.shipNode.length) :
    Rotates start.shipNode.length leastWindow (sentWindow build start inputs) := by
  have before : ∀ k, Carries table (chainBefore build start inputs k) :=
    chainBefore_carries carries
  have slots : ∀ k, (chainBefore build start inputs k).shipNode.length =
      start.shipNode.length := fun k => by
    rw [(before k).shipNode, carries.shipNode]
  have turn : ∀ k, WindowTurn (chainBefore build start inputs k)
      ((inputs k).chainWindow build (chainBefore build start inputs k)) := fun k =>
    (inputs k).turn (before k) (by rwa [slots])
  have same : ∀ k, sentWindow build start inputs k =
      (inputs k).window build (chainBefore build start inputs k) := fun k =>
    announcedWindow_eq (before k) (inputs k)
  constructor
  · intro k
    have wide := (turn k).wide
    have started := (turn k).started
    rw [same k]
    simp only [leastWindow] at wide
    simp only [SnapshotInput.window]
    omega
  · intro k
    rw [same k, ← slots k]
    exact (turn k).inside
  · intro k
    rw [same k, ← slots k]
    exact (turn k).wide
  · intro k
    have cursor : (chainBefore build start inputs (k + 1)).winNext =
        ((inputs k).chainWindow build (chainBefore build start inputs k)).next := rfl
    have resumed := (turn (k + 1)).first
    rw [cursor, if_pos (by rw [slots, ← slots k]; exact (turn k).next_lt), (turn k).next,
      slots] at resumed
    rw [same k, same (k + 1)]
    exact resumed

/-- Rotation starves no slot: in every run of snapshots over an accepted table, with
any watchlists, the windows go round the shipped slots, and every slot is in one of
any `⌈s / 363⌉ + 1` consecutive windows. -/
theorem no_slot_starves (build : LinkBuild) {table : ChainTable} {start : ChainStatics}
    (carries : Carries table start) (shipped : 0 < start.shipNode.length)
    (inputs : Nat → SnapshotInput) :
    let s := start.shipNode.length
    let window := sentWindow build start inputs
    (∀ k, 0 < (window k).count ∧ (window k).stop ≤ s ∧
        (window (k + 1)).first = if (window k).stop = s then 0 else (window k).stop) ∧
      ∀ slot, slot < s → ∀ a, ∃ k, a ≤ k ∧ k < a + ((s + 363 - 1) / 363 + 1) ∧
        (window k).first ≤ slot ∧ slot < (window k).stop := by
  intro s window
  have rotates : Rotates s 363 window := sentWindow_rotates carries shipped
  exact ⟨fun k => ⟨rotates.nonempty k, rotates.inside k, rotates.next k⟩,
    fun slot below a => rotates.covered (by decide) below a⟩

end Run

/-- A byte of the console's memory that every snapshot ships. -/
def wideNode : ChainNode := ⟨0x100, raChainParentNone, 0x91, 0⟩

/-- 400 shipped bytes, more than there are in one window. -/
def wideTable : ChainTable where
  node _ := wideNode
  count := 400
  bounded := by decide
  earlier _ _ _ parent := by
    rw [show wideNode.parentSlot = none from rfl] at parent
    cases parent
  known _ _ := by decide

def wideChain : ChainStatics :=
  { ChainStatics.boot with
    nodes := wideTable.node, nodeCount := wideTable.count, shipNode := wideTable.shipNodes }

theorem wideTable_shipNodes_length : wideTable.shipNodes.length = 400 := by
  have shipped : ∀ i ∈ List.range wideTable.count, (wideTable.node i).shipped = true :=
    fun i _ => show wideNode.shipped = true by decide
  rw [ChainTable.shipNodes, List.filter_eq_self.2 shipped, List.length_range]
  rfl

theorem wideChain_carries : Carries wideTable wideChain where
  loaded := by
    constructor
    · rfl
    · intro i _
      rfl
  shipNode := by rw [wideChain]
  dp_mem entry := by
    have none : wideChain.dp = [] := by rw [wideChain, ChainStatics.boot]
    rw [none]
    refine iff_of_false List.not_mem_nil ?_
    rintro ⟨i, -, edge⟩
    rw [show (wideTable.node i).dpEdge = Option.none from
      show wideNode.dpEdge = Option.none by decide] at edge
    cases edge
  dp_length := by
    rw [wideChain, ChainStatics.boot]
    exact Nat.zero_le _

/-- The last of its 400 slots is in one of any three consecutive windows. -/
theorem wideChain_slot_sent :
    wideChain.shipNode.length = 400 ∧ ∀ inputs a, ∃ k, a ≤ k ∧ k < a + 3 ∧
      (sentWindow .usb wideChain inputs k).first ≤ 399 ∧
      399 < (sentWindow .usb wideChain inputs k).stop := by
  have slots : wideChain.shipNode.length = 400 := by
    rw [wideChain_carries.shipNode, wideTable_shipNodes_length]
  refine ⟨slots, fun inputs a => ?_⟩
  have covered := (no_slot_starves .usb wideChain_carries (by rw [slots]; decide) inputs).2 399
    (by rw [slots]; decide) a
  rwa [slots] at covered

end D2xCios.Ra
