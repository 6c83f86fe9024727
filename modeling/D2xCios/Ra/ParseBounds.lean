import D2xCios.Ra.Parse

/-!
# Memory accesses of the response parser

The stores of every branch stay inside their arrays. The reads stay inside the
reply buffer in every branch that bounds its count by the size of a query; an
append and a removal bound theirs by the capacity of the watchlist instead, and
`parse_inBounds_iff` says exactly which replies make them run past the buffer:
an append of more than `appendBufferMax` addresses, and a removal that finds
`removeBufferMax` listed positions and still looks for another.
-/

namespace D2xCios.Ra

open D2xCios.Lib

/-- Addresses of an append that end inside the reply buffer. -/
def appendBufferMax : Nat := (raSnapRxBufSz - payloadAt - 4) / 4

/-- Indices of a removal that end inside the reply buffer. -/
def removeBufferMax : Nat := (raSnapRxBufSz - payloadAt - 4) / 2

/-- The `m`-th index of a removal. -/
def removeIndex (buf : Mem) (m : Nat) : Nat := (be16 buf (payloadAt + 4 + m * 2)).toNat

/-- Parsing the reply reads only the reply buffer and stores only into the
watchlist and the pending query. -/
def AccessesInBounds (s : RaState) (buf : Mem) : Prop :=
  ∀ access ∈ (raParseResponse s buf).accesses, access.InBounds

/-- An in-sequence append that the list has room for but the buffer does not hold. -/
def OverlongAppend (s : RaState) (buf : Mem) : Prop :=
  buf 0 = raMagicEspToGc ∧ buf 2 = raEvtWatchlistAppend ∧ be16 buf payloadAt = s.wlSeq + 1 ∧
    appendBufferMax < (be16 buf (payloadAt + 2)).toNat ∧
    s.watchlist.count + (be16 buf (payloadAt + 2)).toNat ≤ raMaxWatchAddrs

/-- An in-sequence removal with more indices than the buffer holds, all of whose
indices in the buffer are met before the end of the list. -/
def OverlongRemoval (s : RaState) (buf : Mem) : Prop :=
  buf 0 = raMagicEspToGc ∧ buf 2 = raEvtWatchlistRemoveIdx ∧
    be16 buf payloadAt = s.wlSeq + 1 ∧
    removeBufferMax < (be16 buf (payloadAt + 2)).toNat ∧
    (be16 buf (payloadAt + 2)).toNat ≤ s.watchlist.count ∧
    Compaction.Ascending (removeIndex buf) removeBufferMax ∧
    removeIndex buf (removeBufferMax - 1) + 1 < s.watchlist.count

section Branches

variable (s : RaState) (buf : Mem)

/-- The header is inside the buffer. -/
theorem header_inBounds : (Access.read 0 EspHeader.size).InBounds := by
  simp [Access.InBounds, EspHeader.size, raSnapRxBufSz, raAddrQueryMax]

/-- A short payload is inside the buffer. -/
theorem payload_inBounds {length : Nat} (short : length ≤ 10) :
    (Access.read payloadAt length).InBounds := by
  simp only [Access.InBounds, payloadAt, EspHeader.size, raSnapRxBufSz, raAddrQueryMax]
  omega

/-- A query's count is bounded by the size the buffer was made for. -/
theorem addrQuery_inBounds : ∀ access ∈ (parseAddrQuery s buf).accesses, access.InBounds := by
  intro access member
  have copied : ∀ n, n ≤ raAddrQueryMax →
      ∀ access ∈ (List.range n).flatMap fun j =>
        [Access.read (payloadAt + 2 + j * 4) 4, Access.storeQuery j], access.InBounds := by
    intro n bounded access member
    obtain ⟨j, inside, touched⟩ := List.mem_flatMap.mp member
    have lt := List.mem_range.mp inside
    simp only [List.mem_cons, List.not_mem_nil, or_false] at touched
    rcases touched with rfl | rfl
    · simp only [Access.InBounds, payloadAt, EspHeader.size, raSnapRxBufSz, raAddrQueryMax]
        at bounded ⊢
      omega
    · exact Nat.lt_of_lt_of_le lt bounded
  simp only [parseAddrQuery, List.mem_cons] at member
  rcases member with rfl | rfl | member
  · exact header_inBounds
  · exact payload_inBounds (by omega)
  · split at member
    · rename_i bounded
      split at member
      · rename_i room
        rcases List.mem_append.mp member with query | watch
        · exact copied _ bounded.2 access query
        · obtain ⟨j, inside, rfl⟩ := List.mem_map.mp watch
          have lt := List.mem_range.mp inside
          simp only [Access.InBounds]
          omega
      · exact copied _ bounded.2 access member
    · cases member

/-- An append bounds its count by the room in the list only. -/
theorem append_inBounds_iff :
    (∀ access ∈ (parseWatchlistAppend s buf).accesses, access.InBounds) ↔
      ¬ (be16 buf payloadAt = s.wlSeq + 1 ∧
        appendBufferMax < (be16 buf (payloadAt + 2)).toNat ∧
        s.watchlist.count + (be16 buf (payloadAt + 2)).toNat ≤ raMaxWatchAddrs) := by
  have sizes : payloadAt = 6 ∧ raSnapRxBufSz = 2080 ∧ appendBufferMax = 517 := by decide
  obtain ⟨payload, buffer, most⟩ := sizes
  constructor
  · rintro inBounds ⟨next, long, room⟩
    have some : 0 < (be16 buf (payloadAt + 2)).toNat := by omega
    have last := inBounds
      (.read (payloadAt + 4 + ((be16 buf (payloadAt + 2)).toNat - 1) * 4) 4) (by
        simp only [parseWatchlistAppend, next, ne_eq, not_true_eq_false, if_false, some, room,
          and_self, dite_true, List.mem_cons, List.mem_flatMap, List.mem_range]
        exact Or.inr (Or.inr ⟨_, by omega, Or.inl rfl⟩))
    simp only [Access.InBounds] at last
    omega
  · intro short access member
    simp only [parseWatchlistAppend, List.mem_cons] at member
    rcases member with rfl | rfl | member
    · exact header_inBounds
    · exact payload_inBounds (by omega)
    · split at member
      · cases member
      · rename_i next
        split at member
        · rename_i room
          obtain ⟨j, inside, touched⟩ := List.mem_flatMap.mp member
          have lt := List.mem_range.mp inside
          have fits : ¬ appendBufferMax < (be16 buf (payloadAt + 2)).toNat := fun long =>
            short ⟨not_not.mp next, long, room.2⟩
          simp only [List.mem_cons, List.not_mem_nil, or_false] at touched
          rcases touched with rfl | rfl
          · simp only [Access.InBounds]
            omega
          · simp only [Access.InBounds]
            omega
        · rw [List.mem_singleton.mp member]
          exact payload_inBounds (by omega)

/-- The pass reads an entry behind the buffer exactly when it has met every index
inside the buffer and has both list and indices left. -/
theorem removePass_reads_iff {idxCount : Nat} :
    (∃ m ∈ (removePass s buf idxCount).reads, removeBufferMax ≤ m) ↔
      removeBufferMax < idxCount ∧ Compaction.Ascending (removeIndex buf) removeBufferMax ∧
        removeIndex buf (removeBufferMax - 1) + 1 < s.watchlist.count := by
  obtain ⟨last, size⟩ : ∃ last, removeBufferMax = last + 1 := ⟨1034, by decide⟩
  rw [size, Nat.add_sub_cancel]
  have passed := Compaction.lt_skip_iff (removeIndex buf) idxCount s.watchlist.cells
  have reads := Compaction.mem_reads_iff (removeIndex buf) idxCount s.watchlist.cells
    s.watchlist.count
  constructor
  · rintro ⟨m, member, far⟩
    obtain ⟨listed, i, inside, rfl⟩ := (reads m).mp member
    obtain ⟨_, ascending, below⟩ := (passed i last).mp (by omega)
    exact ⟨by omega, ascending, by omega⟩
  · rintro ⟨listed, ascending, left⟩
    have met := (passed (removeIndex buf last + 1) last).mpr
      ⟨by omega, ascending, Nat.lt_succ_self _⟩
    have notNext : ¬ last + 1 < (Compaction.run (removeIndex buf) idxCount s.watchlist.cells
        (removeIndex buf last + 1)).skip := fun further => by
      obtain ⟨_, longer, below⟩ := (passed _ (last + 1)).mp further
      have above := longer last (last + 1) (by omega) (by omega)
      omega
    exact ⟨last + 1, (reads (last + 1)).mpr ⟨by omega, _, left, by omega⟩, Nat.le_refl _⟩

/-- A removal bounds its count by the length of the list only. -/
theorem removeIdx_inBounds_iff :
    (∀ access ∈ (parseWatchlistRemoveIdx s buf).accesses, access.InBounds) ↔
      ¬ (be16 buf payloadAt = s.wlSeq + 1 ∧
        removeBufferMax < (be16 buf (payloadAt + 2)).toNat ∧
        (be16 buf (payloadAt + 2)).toNat ≤ s.watchlist.count ∧
        Compaction.Ascending (removeIndex buf) removeBufferMax ∧
        removeIndex buf (removeBufferMax - 1) + 1 < s.watchlist.count) := by
  have sizes : payloadAt = 6 ∧ raSnapRxBufSz = 2080 ∧ removeBufferMax = 1035 := by decide
  obtain ⟨payload, buffer, most⟩ := sizes
  constructor
  · rintro inBounds ⟨next, long, bounded, ascending, left⟩
    have some : 0 < (be16 buf (payloadAt + 2)).toNat := by omega
    obtain ⟨m, member, far⟩ := (removePass_reads_iff s buf).mpr ⟨long, ascending, left⟩
    have last := inBounds (.read (payloadAt + 4 + m * 2) 2) (by
      simp only [parseWatchlistRemoveIdx, next, ne_eq, not_true_eq_false, if_false, some, bounded,
        and_self, if_true, List.mem_cons, List.mem_append, List.mem_map]
      exact Or.inr (Or.inr (Or.inl ⟨m, member, rfl⟩)))
    simp only [Access.InBounds] at last
    omega
  · intro short access member
    simp only [parseWatchlistRemoveIdx, List.mem_cons] at member
    rcases member with rfl | rfl | member
    · exact header_inBounds
    · exact payload_inBounds (by omega)
    · split at member
      · cases member
      · rename_i next
        split at member
        · rename_i bounded
          rcases List.mem_append.mp member with read | store
          · obtain ⟨m, cursor, rfl⟩ := List.mem_map.mp read
            have near : ¬ removeBufferMax ≤ m := fun far => by
              obtain ⟨long, ascending, left⟩ := (removePass_reads_iff s buf).mp ⟨m, cursor, far⟩
              exact short ⟨not_not.mp next, long, bounded.2, ascending, left⟩
            simp only [Access.InBounds]
            omega
          · obtain ⟨i, stored, rfl⟩ := List.mem_map.mp store
            have lt := Compaction.stores_lt _ _ _ _ i stored
            exact Nat.lt_of_lt_of_le lt s.watchlist.fits
        · cases member

end Branches

/-- Parsing a reply stays inside the arrays exactly when the reply is neither an
overlong append nor an overlong removal for the state. -/
theorem parse_inBounds_iff (s : RaState) (buf : Mem) :
    AccessesInBounds s buf ↔ ¬ OverlongAppend s buf ∧ ¬ OverlongRemoval s buf := by
  by_cases magic : buf 0 = raMagicEspToGc
  · by_cases query : buf 2 = raEvtAddrQuery
    · have inBounds := addrQuery_inBounds s buf
      simp [AccessesInBounds, parse_addrQuery magic query, OverlongAppend, OverlongRemoval, query,
        raEvtAddrQuery, raEvtWatchlistAppend, raEvtWatchlistRemoveIdx]
      exact inBounds
    · by_cases append : buf 2 = raEvtWatchlistAppend
      · have branch := append_inBounds_iff s buf
        rw [AccessesInBounds, parse_append magic append, branch]
        simp [OverlongAppend, OverlongRemoval, magic, append, raEvtWatchlistAppend,
          raEvtWatchlistRemoveIdx]
      · by_cases removal : buf 2 = raEvtWatchlistRemoveIdx
        · have branch := removeIdx_inBounds_iff s buf
          rw [AccessesInBounds, parse_removeIdx magic removal, branch]
          simp [OverlongAppend, OverlongRemoval, magic, removal, raEvtWatchlistAppend,
            raEvtWatchlistRemoveIdx]
        · have harmless : AccessesInBounds s buf := by
            intro access member
            simp only [raParseResponse, EspHeader.read, magic, query, append, removal, ne_eq,
              not_true_eq_false, if_false, Nat.zero_add] at member
            split at member
            · simp only [parseWatchlistUpdate, List.mem_cons, List.not_mem_nil, or_false] at member
              rcases member with rfl | rfl
              · exact header_inBounds
              · exact payload_inBounds (by omega)
            · split at member
              · rw [List.mem_singleton.mp member]
                exact header_inBounds
              · rw [List.mem_singleton.mp member]
                exact header_inBounds
          simp [harmless, OverlongAppend, OverlongRemoval, append, removal]
  · have harmless : AccessesInBounds s buf := by
      intro access member
      simp only [raParseResponse, EspHeader.read, magic, ne_eq, not_false_eq_true, if_true,
        List.mem_cons, List.not_mem_nil, or_false] at member
      rcases member with rfl | rfl
      · exact header_inBounds
      · simp [Access.InBounds, raSnapRxBufSz, raAddrQueryMax]
    simp [harmless, OverlongAppend, OverlongRemoval, magic]

/-- The first append of a session that announces 518 addresses. -/
def overlongReply : Mem :=
  bufferOf [raMagicEspToGc, 0x07, raEvtWatchlistAppend, 0x01, 0x00, 0x00, 0x00, 0x01, 0x02, 0x06]

/-- With an empty list such an append is accepted and read past the reply buffer. -/
theorem overlong_append_reads_past_buffer : ¬ AccessesInBounds .boot overlongReply := by
  rw [AccessesInBounds, parse_append rfl rfl, append_inBounds_iff]
  intro short
  exact short ⟨by decide, by decide, by decide⟩

end D2xCios.Ra
