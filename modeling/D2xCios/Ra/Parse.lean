import D2xCios.Lib.Compact
import D2xCios.Ra.State

/-!
# Response parser

`raParseResponse` translates `ra_parse_response`, one definition for each event
branch. Besides the new state every branch yields the bytes of the reply buffer
it read and the array cells it stored, in the order the code touches them. The
buffer argument is the memory from `ra_snap_rx_buf` on: offsets from
`raSnapRxBufSz` up are whatever the linker placed behind the buffer.

The diagnostic texts the parser assembles go to a sender that is compiled out;
only the buffer bytes they quote are kept here.
-/

namespace D2xCios.Ra

open D2xCios.Lib

/-- One memory access of the parser. -/
inductive Access where
  /-- `length` bytes of the reply buffer from `offset` on are read. -/
  | read (offset length : Nat)
  /-- `ra_watchlist[index]` is stored. -/
  | storeWatch (index : Nat)
  /-- `ra_pending_query_addrs[index]` is stored. -/
  | storeQuery (index : Nat)
  deriving DecidableEq

/-- The access stays inside the array it names. -/
def Access.InBounds : Access → Prop
  | .read offset length => offset + length ≤ raSnapRxBufSz
  | .storeWatch index => index < raMaxWatchAddrs
  | .storeQuery index => index < raAddrQueryMax

/-- The state a response leaves behind, and what parsing it touched. -/
structure Parsed where
  state : RaState
  accesses : List Access

/-- Offset of the event payload behind the header. -/
def payloadAt : Nat := EspHeader.size

/-- The `j`-th 32-bit address of a list that starts at `offset`. -/
def addrAt (buf : Mem) (offset j : Nat) : UInt32 := be32 buf (offset + j * 4)

/-- `RA_EVT_ADDR_QUERY`: remember the query, and append it to the watchlist when it fits. -/
def parseAddrQuery (s : RaState) (buf : Mem) : Parsed :=
  let addrCount := (be16 buf payloadAt).toNat
  let src := payloadAt + 2
  let accepted : RaState × List Access :=
    if bounded : 0 < addrCount ∧ addrCount ≤ raAddrQueryMax then
      let pending : PendingQuery :=
        { cells := s.pending.cells.fill 0 addrCount (addrAt buf src)
          count := addrCount
          fits := bounded.2 }
      let copied := (List.range addrCount).flatMap fun j =>
        [Access.read (src + j * 4) 4, Access.storeQuery j]
      if room : s.watchlist.count + addrCount ≤ raMaxWatchAddrs then
        ({ s with
            pending := pending
            watchlist := s.watchlist.append addrCount pending.cells room },
          copied ++ (List.range addrCount).map fun j =>
            Access.storeWatch (s.watchlist.count + j))
      else ({ s with pending := pending }, copied)
    else (s, [])
  ⟨accepted.1, .read 0 EspHeader.size :: .read payloadAt 2 :: accepted.2⟩

/-- `RA_EVT_WATCHLIST_APPEND`: applied iff its seq is the next one. -/
def parseWatchlistAppend (s : RaState) (buf : Mem) : Parsed :=
  let seq := be16 buf payloadAt
  let addrCount := (be16 buf (payloadAt + 2)).toNat
  let src := payloadAt + 4
  let applied : RaState × List Access :=
    if seq ≠ s.wlSeq + 1 then (s, [])
    else if room : 0 < addrCount ∧ s.watchlist.count + addrCount ≤ raMaxWatchAddrs then
      ({ s with
          watchlist := s.watchlist.append addrCount (addrAt buf src) room.2
          wlSeq := seq },
        (List.range addrCount).flatMap fun j =>
          [Access.read (src + j * 4) 4, Access.storeWatch (s.watchlist.count + j)])
    -- the rejected append's diagnostic quotes the seq bytes
    else (s, [.read payloadAt 2])
  ⟨applied.1, .read 0 EspHeader.size :: .read payloadAt 4 :: applied.2⟩

/-- The compaction pass of `RA_EVT_WATCHLIST_REMOVE_IDX` over the whole list. -/
def removePass (s : RaState) (buf : Mem) (idxCount : Nat) : Compaction UInt32 :=
  Compaction.run (fun m => (be16 buf (payloadAt + 4 + m * 2)).toNat) idxCount
    s.watchlist.cells s.watchlist.count

/-- The list the pass leaves. -/
def removed (s : RaState) (buf : Mem) (idxCount : Nat) : Watchlist where
  cells := (removePass s buf idxCount).cells
  count := (removePass s buf idxCount).writeIdx
  fits := Nat.le_trans (Compaction.writeIdx_le _ _ _ _) s.watchlist.fits

/-- `RA_EVT_WATCHLIST_REMOVE_IDX`: applied iff its seq is the next one. -/
def parseWatchlistRemoveIdx (s : RaState) (buf : Mem) : Parsed :=
  let seq := be16 buf payloadAt
  let idxCount := (be16 buf (payloadAt + 2)).toNat
  let applied : RaState × List Access :=
    if seq ≠ s.wlSeq + 1 then (s, [])
    else if 0 < idxCount ∧ idxCount ≤ s.watchlist.count then
      ({ s with watchlist := removed s buf idxCount, wlSeq := seq },
        (removePass s buf idxCount).reads.map (fun m => Access.read (payloadAt + 4 + m * 2) 2) ++
          (removePass s buf idxCount).stores.map Access.storeWatch)
    else (s, [])
  ⟨applied.1, .read 0 EspHeader.size :: .read payloadAt 4 :: applied.2⟩

/-- `RA_EVT_WATCHLIST_UPDATE`: remember the requested resync for the main loop. -/
def parseWatchlistUpdate (s : RaState) (buf : Mem) : Parsed :=
  ⟨{ s with resyncSeq := be16 buf (payloadAt + 4), resyncPending := true },
    [.read 0 EspHeader.size, .read payloadAt 6]⟩

/-- Fires an unlock celebration lasts. -/
def celebrateFires : Nat := 54

/-- `ra_parse_response`. -/
def raParseResponse (s : RaState) (buf : Mem) : Parsed :=
  let resp := EspHeader.read buf 0
  if resp.magic ≠ raMagicEspToGc then
    -- the bad-magic diagnostic dumps the first 16 bytes
    ⟨s, [.read 0 EspHeader.size, .read 0 16]⟩
  else if resp.eventType = raEvtAddrQuery then parseAddrQuery s buf
  else if resp.eventType = raEvtWatchlistAppend then parseWatchlistAppend s buf
  else if resp.eventType = raEvtWatchlistRemoveIdx then parseWatchlistRemoveIdx s buf
  else if resp.eventType = raEvtWatchlistUpdate then parseWatchlistUpdate s buf
  else if resp.eventType = raEvtAchievement then
    ⟨{ s with ledCelebrate := celebrateFires }, [.read 0 EspHeader.size]⟩
  else ⟨s, [.read 0 EspHeader.size]⟩

/-! ## Which branch a response takes -/

section Branches

variable {s : RaState} {buf : Mem}

/-- A message without the magic is ignored. -/
theorem parse_badMagic (bad : buf 0 ≠ raMagicEspToGc) :
    (raParseResponse s buf).state = s := by
  simp [raParseResponse, EspHeader.read, bad]

/-- An address query goes to its handler. -/
theorem parse_addrQuery (magic : buf 0 = raMagicEspToGc) (event : buf 2 = raEvtAddrQuery) :
    raParseResponse s buf = parseAddrQuery s buf := by
  simp [raParseResponse, EspHeader.read, magic, event]

/-- An append to the watchlist goes to its handler. -/
theorem parse_append (magic : buf 0 = raMagicEspToGc) (event : buf 2 = raEvtWatchlistAppend) :
    raParseResponse s buf = parseWatchlistAppend s buf := by
  simp [raParseResponse, EspHeader.read, magic, event, raEvtWatchlistAppend, raEvtAddrQuery]

/-- A removal from the watchlist goes to its handler. -/
theorem parse_removeIdx (magic : buf 0 = raMagicEspToGc)
    (event : buf 2 = raEvtWatchlistRemoveIdx) :
    raParseResponse s buf = parseWatchlistRemoveIdx s buf := by
  simp [raParseResponse, EspHeader.read, magic, event, raEvtWatchlistRemoveIdx,
    raEvtWatchlistAppend, raEvtAddrQuery]

/-- An update of the watchlist goes to its handler. -/
theorem parse_update (magic : buf 0 = raMagicEspToGc) (event : buf 2 = raEvtWatchlistUpdate) :
    raParseResponse s buf = parseWatchlistUpdate s buf := by
  simp [raParseResponse, EspHeader.read, magic, event, raEvtWatchlistUpdate,
    raEvtWatchlistRemoveIdx, raEvtWatchlistAppend, raEvtAddrQuery]

/-- An event that touches neither list, query nor resync request. -/
def UnrelatedEvent (event : UInt8) : Prop :=
  event ≠ raEvtAddrQuery ∧ event ≠ raEvtWatchlistAppend ∧
    event ≠ raEvtWatchlistRemoveIdx ∧ event ≠ raEvtWatchlistUpdate

/-- Any other event changes the lights at most. -/
theorem parse_unrelated (event : UnrelatedEvent (buf 2)) :
    ∃ led, (raParseResponse s buf).state = { s with ledCelebrate := led } := by
  obtain ⟨notQuery, notAppend, notRemove, notUpdate⟩ := event
  by_cases magic : buf 0 = raMagicEspToGc
  · by_cases unlocked : buf 2 = raEvtAchievement
    · refine ⟨celebrateFires, ?_⟩
      simp [raParseResponse, EspHeader.read, magic, unlocked, raEvtAchievement, raEvtAddrQuery,
        raEvtWatchlistAppend, raEvtWatchlistRemoveIdx, raEvtWatchlistUpdate]
    · refine ⟨s.ledCelebrate, ?_⟩
      simp [raParseResponse, EspHeader.read, magic, notQuery, notAppend, notRemove, notUpdate,
        unlocked]
  · exact ⟨s.ledCelebrate, parse_badMagic magic⟩

end Branches

/-! ## What each branch does to the lists -/

section Effects

variable (s : RaState) (buf : Mem)

/-- A message out of sequence changes nothing. -/
theorem parseWatchlistAppend_outOfSeq (other : be16 buf payloadAt ≠ s.wlSeq + 1) :
    (parseWatchlistAppend s buf).state = s := by
  simp [parseWatchlistAppend, other]

/-- A removal out of sequence is ignored. -/
theorem parseWatchlistRemoveIdx_outOfSeq (other : be16 buf payloadAt ≠ s.wlSeq + 1) :
    (parseWatchlistRemoveIdx s buf).state = s := by
  simp [parseWatchlistRemoveIdx, other]

/-- The next append, when it fits, extends the list by the addresses it carries. -/
theorem parseWatchlistAppend_next {addrCount : Nat} (next : be16 buf payloadAt = s.wlSeq + 1)
    (counted : (be16 buf (payloadAt + 2)).toNat = addrCount) (some : 0 < addrCount)
    (room : s.watchlist.count + addrCount ≤ raMaxWatchAddrs) :
    (parseWatchlistAppend s buf).state.watchlist.addrs =
        s.watchlist.addrs ++ (List.range addrCount).map (addrAt buf (payloadAt + 4)) ∧
      (parseWatchlistAppend s buf).state.wlSeq = s.wlSeq + 1 := by
  subst counted
  constructor
  · simp [parseWatchlistAppend, next, some, room, Watchlist.append_addrs]
  · simp [parseWatchlistAppend, next, some, room]

/-- The next removal of strictly ascending indices keeps exactly the survivors. -/
theorem parseWatchlistRemoveIdx_next {drop : List Nat}
    (next : be16 buf payloadAt = s.wlSeq + 1)
    (counted : (be16 buf (payloadAt + 2)).toNat = drop.length)
    (entries : ∀ m (h : m < drop.length), (be16 buf (payloadAt + 4 + m * 2)).toNat = drop[m])
    (ascending : drop.Pairwise (· < ·)) (some : 0 < drop.length)
    (bounded : drop.length ≤ s.watchlist.count) :
    (parseWatchlistRemoveIdx s buf).state.watchlist.addrs =
        Compaction.survivors drop s.watchlist.addrs ∧
      (parseWatchlistRemoveIdx s buf).state.wlSeq = s.wlSeq + 1 := by
  constructor
  · have pass := Compaction.run_window
      (fun m => (be16 buf (payloadAt + 4 + m * 2)).toNat) s.watchlist.cells
      s.watchlist.count entries ascending
    simpa [parseWatchlistRemoveIdx, next, counted, some, bounded, removed, removePass,
      Watchlist.addrs] using pass
  · simp [parseWatchlistRemoveIdx, next, counted, some, bounded]

/-- The addresses an address query asks for, if the parser accepts it. -/
def acceptedQuery : Option (List UInt32) :=
  if buf 0 = raMagicEspToGc ∧ buf 2 = raEvtAddrQuery ∧
      0 < (be16 buf payloadAt).toNat ∧ (be16 buf payloadAt).toNat ≤ raAddrQueryMax then
    some ((List.range (be16 buf payloadAt).toNat).map (addrAt buf (payloadAt + 2)))
  else none

end Effects

end D2xCios.Ra
