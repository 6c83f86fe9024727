import D2xCios.Ra.ChunkReplies
import D2xCios.Ra.Resync

/-!
# Fetching the watchlist

Which replies make a fetch succeed, and what it then leaves: a reply is valid if it
passes the four checks, the first valid one of a chunk's attempts is accepted, and
the list is the addresses of the accepted replies, whatever the other attempts were.
`watchlistChunkReads` are the bytes of the chunk buffer that an attempt looks at.
-/

namespace D2xCios.Ra

open D2xCios.Lib

/-! ## Replies -/

/-- The number of addresses a chunk reply announces. -/
def chunkAddrCount (rx : Mem) : Nat := (be16 rx (chunkPad + EspHeader.size + 2)).toNat

/-- The addresses of a chunk reply. -/
def chunkAddrs (rx : Mem) : List UInt32 :=
  (List.range (chunkAddrCount rx)).map (addrAt rx watchlistChunkAddrs)

/-- A chunk reply's last-chunk flag. -/
def lastChunk (rx : Mem) : Bool := rx (chunkPad + EspHeader.size + 4) != 0

/-- Bytes the checksum of a chunk reply covers. -/
def chunkPayload (rx : Mem) : Nat := EspHeader.size + 6 + chunkAddrCount rx * 4

/-- A valid reply: magic, index echo, count and checksum are right. -/
def ValidChunk (k : Nat) (rx : Mem) : Prop :=
  (EspHeader.read rx chunkPad).magic = raMagicEspToGc ∧
    be16 rx (chunkPad + EspHeader.size) = UInt16.ofNat k ∧
    chunkAddrCount rx ≤ raWatchlistChunkAddrs ∧
    be32 rx (chunkPad + chunkPayload rx) = raCrc32 (rx.window chunkPad (chunkPayload rx))

instance (k : Nat) (rx : Mem) : Decidable (ValidChunk k rx) := by
  unfold ValidChunk
  infer_instance

/-- The valid reply that an exchange brought, if it did. -/
def validReply (k : Nat) : Except Int Mem → Option Mem
  | .error _ => none
  | .ok rx => if ValidChunk k rx then some rx else none

/-- The checks let exactly the valid replies through. -/
theorem chunkOf_eq (k : Nat) (reply : Except Int Mem) :
    chunkOf (UInt16.ofNat k) reply =
      (validReply k reply).map fun rx => (chunkAddrs rx, lastChunk rx) := by
  cases reply with
  | error error => rfl
  | ok rx =>
    by_cases valid : ValidChunk k rx
    · obtain ⟨magic, index, count, crc⟩ := id valid
      simp only [chunkAddrCount, chunkPayload] at count crc
      simp only [chunkOf, readWatchlistChunk, validReply, if_pos valid, magic, index, ne_eq,
        not_true_eq_false, if_false, Nat.not_lt.mpr count, crc]
      rfl
    · have rejected : ∃ error, readWatchlistChunk (UInt16.ofNat k) rx = .error error := by
        unfold readWatchlistChunk
        simp only
        split_ifs with magic count index crc
        · exact ⟨_, rfl⟩
        · exact ⟨_, rfl⟩
        · exact ⟨_, rfl⟩
        · exact ⟨_, rfl⟩
        · exact absurd ⟨not_not.mp magic, not_not.mp index, Nat.not_lt.mp count, not_not.mp crc⟩
            valid
      obtain ⟨error, rejected⟩ := rejected
      simp [chunkOf, validReply, valid, rejected]

/-- Watchlist chunks as a chunked transfer. -/
def watchlistTransfer : ChunkedTransfer (Except Int Mem) Mem where
  accept before := validReply before.length
  isLast := lastChunk
  attempts := raChunkFetchAttempts

/-- The reply that is accepted for a chunk: the first valid one of its attempts. -/
def acceptedReply (replies : ChunkReplies) (k : Nat) : Option Mem :=
  firstResult raChunkFetchAttempts 0 fun j => validReply k (replies k j)

/-- A chunk of the transfer is the reply that was accepted for it. -/
theorem watchlistTransfer_chunk (replies : ChunkReplies) (before : List Mem) :
    watchlistTransfer.chunk replies before = acceptedReply replies before.length := rfl

/-! ## The fetch collects the accepted replies -/

section Fetch

variable (image : PpcImage) (replies : ChunkReplies)

/-- One attempt takes the next reply. -/
theorem raFetchWatchlistChunkOnce_perChunk {k : Nat} (small : k < 65536) (sys : Sys (Nat → Nat)) :
    Outcome
      (fun last after => ∃ rx, validReply k (replies k (sys.io k)) = some rx ∧
        last = lastChunk rx ∧ Extends sys.ra after.ra (chunkAddrs rx) ∧
          ∀ i, i ≠ k → after.io i = sys.io i)
      (fun after => validReply k (replies k (sys.io k)) = none ∧
        (after.ra = sys.ra ∧ ∀ i, i ≠ k → after.io i = sys.io i) ∧ after.io k = sys.io k + 1)
      (raFetchWatchlistChunkOnce (.perChunk image replies) (UInt16.ofNat k) sys) := by
  obtain ⟨reply, counted, others⟩ :=
    chunkExchange_perChunk image replies raCmdGetWatchlistChunk sys small
  refine (raFetchWatchlistChunkOnce_outcome (.perChunk image replies) _ sys).mono ?_ ?_
  · rintro last after ⟨addrs, passed, io, grown⟩
    rw [reply, chunkOf_eq, Option.map_eq_some_iff] at passed
    obtain ⟨rx, valid, same⟩ := passed
    cases same
    exact ⟨rx, valid, rfl, grown, by rw [io]; exact others⟩
  · rintro after ⟨passed, io, same⟩
    rw [reply, chunkOf_eq, Option.map_eq_none_iff] at passed
    exact ⟨passed, ⟨same, by rw [io]; exact others⟩, by rw [io]; exact counted⟩

/-- The attempts append the accepted reply. -/
theorem raFetchWatchlistChunk_perChunk {k : Nat} (small : k < 65536) {sys : Sys (Nat → Nat)}
    (fresh : sys.io k = 0) :
    Outcome
      (fun last after => ∃ rx, acceptedReply replies k = some rx ∧
        last = lastChunk rx ∧ Extends sys.ra after.ra (chunkAddrs rx) ∧
          ∀ i, i ≠ k → after.io i = sys.io i)
      (fun after => acceptedReply replies k = none ∧
        (after.ra = sys.ra ∧ ∀ i, i ≠ k → after.io i = sys.io i))
      (raFetchWatchlistChunk (.perChunk image replies) (UInt16.ofNat k) sys) := by
  have attempts := Outcome.retry_first
    (raReportChunkRetry (.perChunk image replies) "W" (UInt16.ofNat k))
    (raFetchWatchlistChunkOnce (.perChunk image replies) (UInt16.ofNat k))
    (fun s => s.io k) (fun j => validReply k (replies k j))
    (fun rx last after => last = lastChunk rx ∧ Extends sys.ra after.ra (chunkAddrs rx) ∧
      ∀ i, i ≠ k → after.io i = sys.io i)
    (fun s => s.ra = sys.ra ∧ ∀ i, i ≠ k → s.io i = sys.io i)
    ?_ (fun _ _ _ _ done => done) raChunkFetchAttempts 0 (-1) ⟨rfl, fun _ _ => rfl⟩
  · rwa [fresh] at attempts
  · rintro before ⟨same, others⟩
    refine (raFetchWatchlistChunkOnce_perChunk image replies small before).mono ?_ ?_
    · rintro last after ⟨rx, valid, flag, grown, untouched⟩
      rw [same] at grown
      exact ⟨rx, valid, flag, grown, fun i other => (untouched i other).trans (others i other)⟩
    · rintro after ⟨invalid, ⟨unchanged, untouched⟩, counted⟩
      exact ⟨invalid, ⟨unchanged.trans same, fun i other =>
        (untouched i other).trans (others i other)⟩, counted⟩

/-- The addresses of the chunks collected so far. -/
def collectedAddrs (chunks : List Mem) : List UInt32 := chunks.flatMap chunkAddrs

/-- The chunk loop collects the accepted replies. -/
theorem fetchWatchlistChunks_perChunk (start : RaState) (left : Nat) (before : List Mem)
    (sys : Sys (Nat → Nat)) (small : before.length + left < 65536)
    (fresh : ∀ i, before.length ≤ i → sys.io i = 0)
    (grown : Extends start sys.ra (collectedAddrs before)) :
    let collected := watchlistTransfer.collect replies left before
    Outcome
      (fun _ after => collected.2 = .last ∧ Extends start after.ra (collectedAddrs collected.1))
      (fun _ => collected.2 ≠ .last)
      (fetchWatchlistChunks (.perChunk image replies) left (UInt16.ofNat before.length) sys) := by
  induction left generalizing before sys with
  | zero => exact fun impossible => by cases impossible
  | succ left ih =>
    have chunk := raFetchWatchlistChunk_perChunk image replies (k := before.length) (by omega)
      (fresh _ (Nat.le_refl _))
    rw [fetchWatchlistChunks, ChunkedTransfer.collect, watchlistTransfer_chunk]
    rcases fetched : raFetchWatchlistChunk (.perChunk image replies)
      (UInt16.ofNat before.length) sys with ⟨error | last, after⟩
    case error =>
      rw [fetched] at chunk
      obtain ⟨missing, _⟩ := chunk
      simp only [missing]
      exact fun impossible => by cases impossible
    case ok =>
      rw [fetched] at chunk
      obtain ⟨rx, accepted, flag, more, untouched⟩ := chunk
      have longer : Extends start after.ra (collectedAddrs (before ++ [rx])) := by
        have both := grown.trans more
        simpa [collectedAddrs] using both
      simp only [accepted]
      cases last with
      | true =>
        have closed : watchlistTransfer.isLast rx = true := flag.symm
        simp only [closed, if_true]
        exact ⟨trivial, longer⟩
      | false =>
        have open_ : watchlistTransfer.isLast rx = false := flag.symm
        have length : (before ++ [rx]).length = before.length + 1 := List.length_append
        have rest := ih (before ++ [rx]) after (by omega)
          (fun i behind => (untouched i (by omega)).trans (fresh i (by omega))) longer
        have next : UInt16.ofNat (before ++ [rx]).length = UInt16.ofNat before.length + 1 := by
          rw [length]
          exact UInt16.ofNat_add ..
        rw [next] at rest
        simp only [open_, Bool.false_eq_true, if_false]
        exact rest

end Fetch

/-! ## When the fetch succeeds -/

/-- Chunks `0..n` have a valid reply among their attempts, and `n` is the first whose
accepted reply is flagged as the last. -/
structure FetchedUpTo (replies : ChunkReplies) (n : Nat) : Prop where
  within : n < 32
  answered : ∀ k, k ≤ n → ∃ j, j < 3 ∧ (validReply k (replies k j)).isSome
  last : ∀ k, k ≤ n → ((acceptedReply replies k).any lastChunk = true ↔ k = n)

/-- The addresses a chunk delivers. -/
def deliveredAddrs (replies : ChunkReplies) (k : Nat) : List UInt32 :=
  (acceptedReply replies k).elim [] chunkAddrs

section Complete

variable {replies : ChunkReplies}

/-- A chunk has an accepted reply if one of its attempts brings a valid one. -/
theorem acceptedReply_isSome {k : Nat} : (acceptedReply replies k).isSome ↔
    ∃ j, j < 3 ∧ (validReply k (replies k j)).isSome := by
  have attempts : ∀ j, j ∈ List.range' 0 raChunkFetchAttempts ↔ j < 3 := fun j => by
    rw [List.mem_range'_1, raChunkFetchAttempts]
    omega
  simp only [acceptedReply, firstResult, List.findSome?_isSome_iff, attempts]

/-- The accepted replies of a successful fetch are a complete transfer. -/
theorem FetchedUpTo.complete {n : Nat} (fetched : FetchedUpTo replies n) :
    ∃ chunks, watchlistTransfer.Complete replies chunks ∧ chunks.length = n + 1 ∧
      collectedAddrs chunks = (List.range (n + 1)).flatMap (deliveredAddrs replies) := by
  obtain ⟨source, accepted⟩ : ∃ source : Nat → Mem,
      ∀ k, k ≤ n → acceptedReply replies k = some (source k) := by
    refine ⟨fun k => (acceptedReply replies k).getD fun _ => 0, fun k inside => ?_⟩
    obtain ⟨rx, accepted⟩ := Option.isSome_iff_exists.mp
      (acceptedReply_isSome.mpr (fetched.answered k inside))
    simp only [accepted, Option.getD_some]
  have arrived : ∀ k, k ≤ n →
      watchlistTransfer.chunk replies ((List.range k).map source) = some (source k) := by
    intro k inside
    rw [watchlistTransfer_chunk, List.length_map, List.length_range, accepted k inside]
  have flag : ∀ k, k ≤ n → (lastChunk (source k) = true ↔ k = n) := by
    intro k inside
    have last := fetched.last k inside
    rwa [accepted k inside, Option.any_some] at last
  refine ⟨(List.range n).map source ++ [source n], ?_, by simp, ?_⟩
  · refine .last (ChunkedTransfer.underway_range fun k below => ?_) (arrived n (Nat.le_refl _))
      ((flag n (Nat.le_refl _)).mpr rfl)
    refine ⟨arrived k (Nat.le_of_lt below), Bool.eq_false_iff.mpr fun last => ?_⟩
    exact Nat.ne_of_lt below ((flag k (Nat.le_of_lt below)).mp last)
  · rw [← List.map_singleton, ← List.map_append, ← List.range_succ, collectedAddrs,
      List.flatMap_map]
    refine List.flatMap_congr fun k member => ?_
    have inside : k ≤ n := Nat.lt_succ_iff.mp (List.mem_range.mp member)
    rw [deliveredAddrs, accepted k inside, Option.elim_some]

/-- A complete transfer is one of accepted replies. -/
theorem fetchedUpTo_of_complete {chunks : List Mem}
    (complete : watchlistTransfer.Complete replies chunks)
    (short : chunks.length ≤ watchlistChunkCap) : ∃ n, FetchedUpTo replies n := by
  simp only [watchlistChunkCap] at short
  cases complete with
  | @last before a underway arrived closed =>
    rw [List.length_append, List.length_singleton] at short
    have accepted : ∀ k, k ≤ before.length → ∃ rx, acceptedReply replies k = some rx ∧
        (lastChunk rx = true ↔ k = before.length) := by
      intro k inside
      rcases Nat.lt_or_eq_of_le inside with below | rfl
      · obtain ⟨chunk, open_⟩ := underway.arrived below
        rw [watchlistTransfer_chunk, List.length_take, Nat.min_eq_left inside] at chunk
        refine ⟨_, chunk, ?_⟩
        have unflagged : lastChunk before[k] = false := open_
        rw [unflagged]
        exact ⟨fun impossible => (by cases impossible),
          fun same => absurd same (Nat.ne_of_lt below)⟩
      · exact ⟨a, arrived, fun _ => rfl, fun _ => closed⟩
    refine ⟨before.length, by omega, fun k inside => ?_, fun k inside => ?_⟩
    · obtain ⟨rx, some, _⟩ := accepted k inside
      exact acceptedReply_isSome.mp (by rw [some]; rfl)
    · obtain ⟨rx, some, flag⟩ := accepted k inside
      rw [some, Option.any_some]
      exact flag

/-- Only the accepted replies matter. -/
theorem FetchedUpTo.congr {n : Nat} (fetched : FetchedUpTo replies n) {others : ChunkReplies}
    (same : ∀ k, k ≤ n → acceptedReply others k = acceptedReply replies k) :
    FetchedUpTo others n := by
  refine ⟨fetched.within, fun k inside => ?_, fun k inside => ?_⟩
  · rw [← acceptedReply_isSome, same k inside, acceptedReply_isSome]
    exact fetched.answered k inside
  · rw [same k inside]
    exact fetched.last k inside

/-- What a fetch returns, and what it leaves when it succeeds. -/
theorem raFetchWatchlist_perChunk (image : PpcImage) (replies : ChunkReplies)
    (sys : Sys (Nat → Nat)) :
    Outcome
      (fun _ after => ∃ chunks, watchlistTransfer.Complete replies chunks ∧
        chunks.length ≤ watchlistChunkCap ∧
          after.ra.watchlist.addrs = (collectedAddrs chunks).take raMaxWatchAddrs)
      (fun _ => ∀ chunks, watchlistTransfer.Complete replies chunks →
        ¬ chunks.length ≤ watchlistChunkCap)
      (raFetchWatchlist (.perChunk image replies) { sys with io := fun _ => 0 }) := by
  let start : Sys (Nat → Nat) := { sys with
    io := fun _ => 0
    ra := { sys.ra with
      watchlist := { sys.ra.watchlist with count := 0, fits := Nat.zero_le _ } } }
  have fetched := fetchWatchlistChunks_perChunk image replies start.ra watchlistChunkCap []
    start (by decide) (fun _ _ => rfl) (.refl _)
  refine fetched.mono ?_ ?_
  · rintro _ after ⟨last, _, grown⟩
    obtain ⟨complete, within⟩ := ChunkedTransfer.collect_eq_iff.mp (Prod.ext rfl last)
    exact ⟨_, complete, within, grown⟩
  · intro after notLast chunks complete within
    rw [ChunkedTransfer.collect_eq_iff.mpr ⟨complete, within⟩] at notLast
    exact notLast rfl

end Complete

/-! ## What an attempt reads -/

/-- Bytes of `ra_chunk_rx_buf`. -/
def raChunkRxBufSz : Nat := 6 + 6 + 8 + raWatchlistChunkAddrs * 4 + 4

/-- The runs of the chunk buffer that an attempt reads, by offset and length, with
`room` entries left in the list. -/
def watchlistChunkReads (chunkIndex : UInt16) (room : Nat) (rx : Mem) : List (Nat × Nat) :=
  let header := (chunkPad, EspHeader.size)
  let chunk := (chunkPad + EspHeader.size, 6)
  let trailer := (chunkPad + chunkPayload rx, 4)
  let payload := (chunkPad, chunkPayload rx)
  if (EspHeader.read rx chunkPad).magic ≠ raMagicEspToGc then [header]
  else if chunkAddrCount rx > raWatchlistChunkAddrs ∨
      be16 rx (chunkPad + EspHeader.size) ≠ chunkIndex then [header, chunk]
  else if be32 rx (chunkPad + chunkPayload rx) ≠
      raCrc32 (rx.window chunkPad (chunkPayload rx)) then [header, chunk, trailer, payload]
  else [header, chunk, trailer, payload] ++
    (List.range (min (chunkAddrCount rx) room)).map fun i => (watchlistChunkAddrs + i * 4, 4)

/-- Every byte an attempt reads lies in the chunk buffer. -/
theorem watchlistChunkReads_inside (chunkIndex : UInt16) (room : Nat) (rx : Mem) :
    ∀ run ∈ watchlistChunkReads chunkIndex room rx, run.1 + run.2 ≤ raChunkRxBufSz := by
  have sizes : raChunkRxBufSz = 4120 ∧ chunkPad = 6 ∧ EspHeader.size = 6 ∧
      watchlistChunkAddrs = 18 ∧ raWatchlistChunkAddrs = 1024 := by decide
  obtain ⟨buffer, pad, esp, addrs, most⟩ := sizes
  intro run member
  unfold watchlistChunkReads at member
  simp only [chunkPayload, buffer, pad, esp, addrs, most] at member ⊢
  split_ifs at member with magic fields crc
  · simp only [List.mem_cons, List.not_mem_nil, or_false] at member
    rcases member with rfl
    simp
  · simp only [List.mem_cons, List.not_mem_nil, or_false] at member
    rcases member with rfl | rfl <;> simp
  · simp only [List.mem_cons, List.not_mem_nil, or_false] at member
    rcases member with rfl | rfl | rfl | rfl <;> simp only <;> omega
  · rcases List.mem_append.mp member with checked | taken
    · simp only [List.mem_cons, List.not_mem_nil, or_false] at checked
      rcases checked with rfl | rfl | rfl | rfl <;> simp only <;> omega
    · obtain ⟨i, inside, rfl⟩ := List.mem_map.mp taken
      have below := List.mem_range.mp inside
      simp only
      omega

/-- Two buffers hold the same bytes in these runs. -/
def AgreeOn (runs : List (Nat × Nat)) (rx other : Mem) : Prop :=
  ∀ run ∈ runs, ∀ i, i < run.2 → other (run.1 + i) = rx (run.1 + i)

theorem be16_congr {rx other : Mem} {offset : Nat}
    (same : ∀ i, i < 2 → other (offset + i) = rx (offset + i)) :
    be16 other offset = be16 rx offset := by
  have first := same 0 (by decide)
  have second := same 1 (by decide)
  rw [Nat.add_zero] at first
  simp only [be16, first, second]

theorem be32_congr {rx other : Mem} {offset : Nat}
    (same : ∀ i, i < 4 → other (offset + i) = rx (offset + i)) :
    be32 other offset = be32 rx offset := by
  have first := same 0 (by decide)
  have second := same 1 (by decide)
  have third := same 2 (by decide)
  have fourth := same 3 (by decide)
  rw [Nat.add_zero] at first
  simp only [be32, first, second, third, fourth]

/-- What an attempt accepts and appends depends on the bytes it reads and no others. -/
theorem readWatchlistChunk_congr {chunkIndex : UInt16} {room : Nat} {rx other : Mem}
    (agree : AgreeOn (watchlistChunkReads chunkIndex room rx) rx other) :
    readWatchlistChunk chunkIndex other = readWatchlistChunk chunkIndex rx ∧
      ∀ chunk, readWatchlistChunk chunkIndex rx = .ok chunk → ∀ i, i < min chunk.addrCount room →
        addrAt other watchlistChunkAddrs i = addrAt rx watchlistChunkAddrs i := by
  have header : (EspHeader.read other chunkPad).magic = (EspHeader.read rx chunkPad).magic :=
    agree (chunkPad, EspHeader.size) (by unfold watchlistChunkReads; simp only; split_ifs <;> simp)
      0 (by decide)
  unfold readWatchlistChunk
  simp only [header]
  by_cases magic : (EspHeader.read rx chunkPad).magic ≠ raMagicEspToGc
  · simp only [if_pos magic]
    exact ⟨trivial, fun _ impossible => by cases impossible⟩
  · have fields : ∀ i, i < 6 → other (chunkPad + EspHeader.size + i) =
        rx (chunkPad + EspHeader.size + i) :=
      agree (chunkPad + EspHeader.size, 6)
        (by unfold watchlistChunkReads; simp only [if_neg magic]; split_ifs <;> simp)
    have index : be16 other (chunkPad + EspHeader.size) = be16 rx (chunkPad + EspHeader.size) :=
      be16_congr fun i below => fields i (by omega)
    have count : be16 other (chunkPad + EspHeader.size + 2) =
        be16 rx (chunkPad + EspHeader.size + 2) := be16_congr fun i below => by
      simpa [Nat.add_assoc] using fields (2 + i) (by omega)
    have flag : other (chunkPad + EspHeader.size + 4) = rx (chunkPad + EspHeader.size + 4) :=
      fields 4 (by decide)
    simp only [if_neg magic, index, count, flag]
    by_cases bounded : (be16 rx (chunkPad + EspHeader.size + 2)).toNat > raWatchlistChunkAddrs
    · simp only [if_pos bounded]
      exact ⟨trivial, fun _ impossible => by cases impossible⟩
    · by_cases echo : be16 rx (chunkPad + EspHeader.size) ≠ chunkIndex
      · simp only [if_neg bounded, if_pos echo]
        exact ⟨trivial, fun _ impossible => by cases impossible⟩
      · have passed : ¬ (chunkAddrCount rx > raWatchlistChunkAddrs ∨
            be16 rx (chunkPad + EspHeader.size) ≠ chunkIndex) := not_or.mpr ⟨bounded, echo⟩
        unfold watchlistChunkReads at agree
        simp only [if_neg magic, if_neg passed] at agree
        have trailer : be32 other (chunkPad + chunkPayload rx) =
            be32 rx (chunkPad + chunkPayload rx) :=
          be32_congr (agree (chunkPad + chunkPayload rx, 4) (by split_ifs <;> simp))
        have payload : other.window chunkPad (chunkPayload rx) =
            rx.window chunkPad (chunkPayload rx) :=
          Cells.window_congr (agree (chunkPad, chunkPayload rx) (by split_ifs <;> simp))
        simp only [chunkPayload, chunkAddrCount] at trailer payload
        simp only [if_neg bounded, if_neg echo, trailer, payload]
        refine ⟨trivial, fun chunk accepted i inside => ?_⟩
        split_ifs at accepted with crc
        cases accepted
        have intact : ¬ be32 rx (chunkPad + chunkPayload rx) ≠
            raCrc32 (rx.window chunkPad (chunkPayload rx)) := crc
        simp only [if_neg intact] at agree
        refine be32_congr (agree (watchlistChunkAddrs + i * 4, 4) ?_)
        exact List.mem_append_right _ (List.mem_map.mpr ⟨i, List.mem_range.mpr inside, rfl⟩)

/-- On any link that answers the requests, whatever the failed attempts bring: a fetch
succeeds exactly when the chunks up to the first accepted last one all have a valid
reply, and leaves the addresses of the accepted replies. An attempt stays in its buffer, and what it
comes to depends on no other bytes than those it reads. -/
theorem raFetchWatchlist_iff (image : PpcImage) (replies : ChunkReplies)
    (sys : Sys (Nat → Nat)) :
    let fetch := fun replies : ChunkReplies =>
      raFetchWatchlist (.perChunk image replies) { sys with io := fun _ => 0 }
    ((fetch replies).1 = .ok () ↔ ∃ n, FetchedUpTo replies n) ∧
      (∀ n, FetchedUpTo replies n →
        (fetch replies).2.ra.watchlist.addrs =
            ((List.range (n + 1)).flatMap (deliveredAddrs replies)).take 6144 ∧
          ∀ others : ChunkReplies,
            (∀ k, k ≤ n → acceptedReply others k = acceptedReply replies k) →
              (fetch others).2.ra.watchlist.addrs = (fetch replies).2.ra.watchlist.addrs) ∧
      ∀ (chunkIndex : UInt16) (room : Nat) (rx : Mem),
        (∀ run ∈ watchlistChunkReads chunkIndex room rx, run.1 + run.2 ≤ raChunkRxBufSz) ∧
          ∀ other, AgreeOn (watchlistChunkReads chunkIndex room rx) rx other →
            readWatchlistChunk chunkIndex other = readWatchlistChunk chunkIndex rx ∧
              ∀ chunk, readWatchlistChunk chunkIndex rx = .ok chunk →
                ∀ i, i < min chunk.addrCount room →
                  addrAt other watchlistChunkAddrs i = addrAt rx watchlistChunkAddrs i := by
  intro fetch
  have left : ∀ (replies : ChunkReplies) n, FetchedUpTo replies n → (fetch replies).1 = .ok () ∧
      (fetch replies).2.ra.watchlist.addrs =
        ((List.range (n + 1)).flatMap (deliveredAddrs replies)).take 6144 := by
    intro replies n fetchedUpTo
    obtain ⟨chunks, complete, length, addrs⟩ := fetchedUpTo.complete
    have within : chunks.length ≤ watchlistChunkCap := length ▸ fetchedUpTo.within
    have outcome := raFetchWatchlist_perChunk image replies sys
    rcases result : fetch replies with ⟨error | _, after⟩
    · rw [show raFetchWatchlist _ _ = _ from result] at outcome
      exact absurd within (outcome chunks complete)
    · rw [show raFetchWatchlist _ _ = _ from result] at outcome
      obtain ⟨others, also, short, watched⟩ := outcome
      have same := ChunkedTransfer.collect_eq_iff.mpr ⟨complete, within⟩
      rw [ChunkedTransfer.collect_eq_iff.mpr ⟨also, short⟩] at same
      cases same
      exact ⟨rfl, by rw [watched, addrs]; rfl⟩
  refine ⟨⟨fun succeeded => ?_, fun ⟨n, fetched⟩ => (left replies n fetched).1⟩, ?_,
    fun chunkIndex room rx => ⟨watchlistChunkReads_inside chunkIndex room rx,
      fun _ => readWatchlistChunk_congr⟩⟩
  · have outcome := raFetchWatchlist_perChunk image replies sys
    rcases result : fetch replies with ⟨error | _, after⟩
    · rw [result] at succeeded
      cases succeeded
    · rw [show raFetchWatchlist _ _ = _ from result] at outcome
      obtain ⟨chunks, complete, within, _⟩ := outcome
      exact fetchedUpTo_of_complete complete within
  · intro n fetched
    refine ⟨(left replies n fetched).2, fun others same => ?_⟩
    rw [(left others n (fetched.congr same)).2, (left replies n fetched).2]
    have delivered : (List.range (n + 1)).flatMap (deliveredAddrs others) =
        (List.range (n + 1)).flatMap (deliveredAddrs replies) :=
      List.flatMap_congr fun k member => by
        rw [deliveredAddrs, deliveredAddrs, same k (Nat.lt_succ_iff.mp (List.mem_range.mp member))]
    rw [delivered]

end D2xCios.Ra
