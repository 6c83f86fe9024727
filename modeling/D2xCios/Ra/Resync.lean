import D2xCios.Ra.Loop
import D2xCios.Ra.SnapshotDecode

/-!
# Resync

A resync fetches the watchlist anew, in place. `arrivals` says which addresses a
sequence of chunk replies delivers and whether the last chunk is among them, by
the checks on a reply alone; `raDoResync_spec` says that the resync leaves these
addresses in the list, and takes over the announced sequence number if the list
is complete.

So an incomplete fetch leaves a part of the new list under the old number.
`resync_atomic_iff` says which replies make a resync all or nothing.
-/

namespace D2xCios.Ra

open D2xCios.Lib

/-- The replies of the link, one for each exchange. -/
abbrev Script := List (Except Int Mem)

/-! ## What a sequence of replies delivers -/

/-- The addresses of the chunks that arrived, and whether the last chunk did. -/
structure Arrivals where
  addrs : List UInt32
  complete : Bool
  deriving DecidableEq

/-- The addresses of a chunk reply that passes the checks, and its last-chunk flag. -/
def chunkOf (chunkIndex : UInt16) (reply : Except Int Mem) : Option (List UInt32 × Bool) :=
  match reply with
  | .error _ => none
  | .ok rx =>
    match readWatchlistChunk chunkIndex rx with
    | .error _ => none
    | .ok chunk =>
      some ((List.range chunk.addrCount).map (addrAt rx watchlistChunkAddrs), chunk.isLast)

/-- The first of `attempts` replies that passes, and the replies behind it. -/
def firstChunk (chunkIndex : UInt16) :
    (attempts : Nat) → Script → Option (List UInt32 × Bool) × Script
  | 0, script => (none, script)
  | attempts + 1, script =>
    match chunkOf chunkIndex (script.headD (.error raUsbEtimeout)) with
    | some chunk => (some chunk, script.tail)
    | none => firstChunk chunkIndex attempts script.tail

/-- What arrives when at most `left` chunks are asked for, from `chunkIdx` on. -/
def arrivals : (left : Nat) → (chunkIdx : UInt16) → Script → Arrivals
  | 0, _, _ => ⟨[], false⟩
  | left + 1, chunkIdx, script =>
    match firstChunk chunkIdx raChunkFetchAttempts script with
    | (none, _) => ⟨[], false⟩
    | (some (addrs, true), _) => ⟨addrs, true⟩
    | (some (addrs, false), script) =>
      let rest := arrivals left (chunkIdx + 1) script
      ⟨addrs ++ rest.addrs, rest.complete⟩

/-! ## The list grows by what arrives -/

/-- Only the list differs, and it has grown by `addrs`, as far as there was room. -/
structure Extends (before after : RaState) (addrs : List UInt32) : Prop where
  frame : after = { before with watchlist := after.watchlist }
  grown : after.watchlist.addrs = (before.watchlist.addrs ++ addrs).take raMaxWatchAddrs

namespace Extends

variable {first second third : RaState} {early late : List UInt32}

theorem refl (s : RaState) : Extends s s [] := by
  refine ⟨rfl, ?_⟩
  rw [List.append_nil, List.take_of_length_le (by simpa using s.watchlist.fits)]

theorem trans (grow : Extends first second early) (more : Extends second third late) :
    Extends first third (early ++ late) := by
  refine ⟨by rw [more.frame, grow.frame], ?_⟩
  have room : raMaxWatchAddrs - min raMaxWatchAddrs (first.watchlist.addrs ++ early).length =
      raMaxWatchAddrs - (first.watchlist.addrs ++ early).length := by omega
  rw [more.grown, grow.grown, ← List.append_assoc]
  generalize first.watchlist.addrs ++ early = list at room ⊢
  rw [List.take_append, List.take_append, List.take_take, Nat.min_self, List.length_take, room]

end Extends

/-- A chunk appends its addresses, as far as there is room. -/
theorem appendChunk_addrs (watchlist : Watchlist) (addrCount : Nat) (rx : Mem) :
    (watchlist.appendChunk addrCount rx).addrs = (watchlist.addrs ++
      (List.range addrCount).map (addrAt rx watchlistChunkAddrs)).take raMaxWatchAddrs := by
  rw [Watchlist.appendChunk, Watchlist.append_addrs, List.take_append, Watchlist.addrs_length,
    List.take_of_length_le (by simpa using watchlist.fits), ← List.map_take, List.take_range,
    Nat.min_comm]

/-- On any link an attempt appends the chunk if its reply passes. -/
theorem raFetchWatchlistChunkOnce_outcome {σ : Type} (port : Port σ) (chunkIndex : UInt16)
    (sys : Sys σ) :
    let exchanged := chunkExchange port raCmdGetWatchlistChunk chunkIndex sys
    Outcome
      (fun last after => ∃ addrs, chunkOf chunkIndex exchanged.1 = some (addrs, last) ∧
        after.io = exchanged.2.io ∧ Extends sys.ra after.ra addrs)
      (fun after => chunkOf chunkIndex exchanged.1 = none ∧
        after.io = exchanged.2.io ∧ after.ra = sys.ra)
      (raFetchWatchlistChunkOnce port chunkIndex sys) := by
  intro exchanged
  have same : exchanged.2.ra = sys.ra := rfl
  unfold raFetchWatchlistChunkOnce
  rcases exchange : chunkExchange port raCmdGetWatchlistChunk chunkIndex sys with
    ⟨error | rx, after⟩
  · rw [show exchanged = _ from exchange] at same ⊢
    exact ⟨rfl, rfl, same⟩
  · rw [show exchanged = _ from exchange] at same ⊢
    simp only [chunkOf]
    cases passed : readWatchlistChunk chunkIndex rx with
    | error error => exact ⟨rfl, rfl, same⟩
    | ok chunk =>
      refine ⟨_, rfl, rfl, by rw [← same], ?_⟩
      rw [← same]
      exact appendChunk_addrs _ _ _

section Scripted

variable (image : PpcImage)

/-- A chunk is appended when its reply passes. -/
theorem raFetchWatchlistChunkOnce_scripted (chunkIndex : UInt16) (sys : Sys Script) :
    Outcome
      (fun last after => ∃ addrs,
        chunkOf chunkIndex (sys.io.headD (.error raUsbEtimeout)) = some (addrs, last) ∧
          after.io = sys.io.tail ∧ Extends sys.ra after.ra addrs)
      (fun after => chunkOf chunkIndex (sys.io.headD (.error raUsbEtimeout)) = none ∧
        after.io = sys.io.tail ∧ after.ra = sys.ra)
      (raFetchWatchlistChunkOnce (.scripted image) chunkIndex sys) :=
  raFetchWatchlistChunkOnce_outcome (.scripted image) chunkIndex sys

/-- The attempts for a chunk append the first reply that passes. -/
theorem raFetchWatchlistChunk_scripted (chunkIndex : UInt16) (left att : Nat) (error : Int)
    (sys : Sys Script) :
    Outcome
      (fun last after => ∃ addrs,
        firstChunk chunkIndex left sys.io = (some (addrs, last), after.io) ∧
          Extends sys.ra after.ra addrs)
      (fun after => firstChunk chunkIndex left sys.io = (none, after.io) ∧ after.ra = sys.ra)
      (retry (raReportChunkRetry (.scripted image) "W" chunkIndex)
        (raFetchWatchlistChunkOnce (.scripted image) chunkIndex) left att error sys) := by
  induction left generalizing att error sys with
  | zero => exact ⟨rfl, rfl⟩
  | succ left ih =>
    have once := raFetchWatchlistChunkOnce_scripted image chunkIndex sys
    rw [retry, firstChunk]
    rcases attempt : raFetchWatchlistChunkOnce (.scripted image) chunkIndex sys with
      ⟨failed | last, after⟩
    case ok =>
      rw [attempt] at once
      obtain ⟨addrs, passed, io, grown⟩ := once
      rw [passed]
      by_cases first : att = 0
      · simpa [Outcome, first, io] using grown
      · simpa [Outcome, first, io, raReportChunkRetry, raDebugSendAlways, Sys.note,
          Port.scripted] using grown
    case error =>
      rw [attempt] at once
      obtain ⟨passed, io, same⟩ := once
      have rest := ih (att + 1) failed after
      rw [io, same] at rest
      rw [passed]
      exact rest

/-- The chunk loop leaves what arrived in the list. -/
theorem fetchWatchlistChunks_scripted (left : Nat) (chunkIdx : UInt16) (sys : Sys Script) :
    Outcome
      (fun _ after => (arrivals left chunkIdx sys.io).complete = true ∧
        Extends sys.ra after.ra (arrivals left chunkIdx sys.io).addrs)
      (fun after => (arrivals left chunkIdx sys.io).complete = false ∧
        Extends sys.ra after.ra (arrivals left chunkIdx sys.io).addrs)
      (fetchWatchlistChunks (.scripted image) left chunkIdx sys) := by
  induction left generalizing chunkIdx sys with
  | zero => exact ⟨rfl, .refl _⟩
  | succ left ih =>
    have chunk := raFetchWatchlistChunk_scripted image chunkIdx raChunkFetchAttempts 0 (-1) sys
    rw [fetchWatchlistChunks, arrivals, raFetchWatchlistChunk]
    match fetched : retry (raReportChunkRetry (.scripted image) "W" chunkIdx)
        (raFetchWatchlistChunkOnce (.scripted image) chunkIdx) raChunkFetchAttempts 0 (-1) sys with
    | (.error error, after) =>
      rw [fetched] at chunk
      obtain ⟨first, same⟩ := chunk
      simp only [first]
      refine ⟨trivial, ?_⟩
      rw [raDebugSendAlways_ra, same]
      exact .refl _
    | (.ok true, after) =>
      rw [fetched] at chunk
      obtain ⟨addrs, first, grown⟩ := chunk
      simp only [first]
      exact ⟨trivial, grown⟩
    | (.ok false, after) =>
      rw [fetched] at chunk
      obtain ⟨addrs, first, grown⟩ := chunk
      have rest := ih (chunkIdx + 1) after
      simp only [first]
      match loop : fetchWatchlistChunks (.scripted image) left (chunkIdx + 1) after with
      | (.ok (), final) =>
        rw [loop] at rest
        exact ⟨rest.1, grown.trans rest.2⟩
      | (.error error, final) =>
        rw [loop] at rest
        exact ⟨rest.1, grown.trans rest.2⟩

/-- A fetch replaces the list by what arrived. -/
theorem raFetchWatchlist_scripted (sys : Sys Script) :
    let fetched := arrivals watchlistChunkCap 0 sys.io
    let replaced := fun after : Sys Script =>
      after.ra = { sys.ra with watchlist := after.ra.watchlist } ∧
        after.ra.watchlist.addrs = fetched.addrs.take raMaxWatchAddrs
    Outcome (fun _ after => fetched.complete = true ∧ replaced after)
      (fun after => fetched.complete = false ∧ replaced after)
      (raFetchWatchlist (.scripted image) sys) := by
  intro fetched replaced
  refine (fetchWatchlistChunks_scripted image watchlistChunkCap 0 _).mono ?_ ?_
  · rintro _ after ⟨complete, frame, grown⟩
    exact ⟨complete, by rw [frame], grown⟩
  · rintro after ⟨cut, frame, grown⟩
    exact ⟨cut, by rw [frame], grown⟩

/-- What a requested resync leaves behind. -/
theorem raDoResync_spec {sys : Sys Script} (requested : sys.ra.resyncPending = true) :
    let fetched := arrivals watchlistChunkCap 0 sys.io
    let after := (raDoResync (.scripted image) sys).ra
    after.watchlist.addrs = fetched.addrs.take raMaxWatchAddrs ∧
      after.wlSeq = if fetched.complete then sys.ra.resyncSeq else sys.ra.wlSeq := by
  simp only [raDoResync, requested, Bool.not_true, Bool.false_eq_true, if_false]
  have fetch := raFetchWatchlist_scripted image (beginResync sys)
  split
  · rename_i final fetched
    rw [fetched] at fetch
    obtain ⟨complete, frame, replaced⟩ := fetch
    refine ⟨replaced, ?_⟩
    rw [if_pos (show (arrivals watchlistChunkCap 0 sys.io).complete = true from complete)]
    have announced := congrArg RaState.resyncSeq frame
    exact announced
  · rename_i final fetched
    rw [fetched] at fetch
    obtain ⟨cut, frame, replaced⟩ := fetch
    refine ⟨replaced, ?_⟩
    rw [show (arrivals watchlistChunkCap 0 sys.io).complete = false from cut]
    have kept := congrArg RaState.wlSeq frame
    exact kept

/-! ## All or nothing -/

/-- A resync replaces the list by the complete new one and takes over its number, or
it fails and changes neither. -/
def ResyncAtomic (before after : RaState) (fetched : Arrivals) : Prop :=
  fetched.complete = true ∧ after.watchlist.addrs = fetched.addrs ∧
      after.wlSeq = before.resyncSeq ∨
    fetched.complete = false ∧ after.watchlist.addrs = before.watchlist.addrs ∧
      after.wlSeq = before.wlSeq

/-- Every snapshot that is built next carries the bytes of the list its number names. -/
def EchoesNamedList (before after : RaState) (fetched : Arrivals) : Prop :=
  ∀ (build : LinkBuild) (chain : ChainStatics) (frame : UInt32) (ppc : PpcImage) (buf : Mem),
    let echo := snapshotEcho (buildSnapshot build after chain frame ppc buf).message
    fetched.complete = true ∧ echo = (before.resyncSeq, fetched.addrs.map (raReadPpcByte ppc)) ∨
      echo = (before.wlSeq, before.watchlist.addrs.map (raReadPpcByte ppc))

/-- The replies deliver a whole list that fits, or fail after exactly the old one. -/
def DeliversAllOrNothing (before : RaState) (fetched : Arrivals) : Prop :=
  if fetched.complete then fetched.addrs.length ≤ raMaxWatchAddrs
  else fetched.addrs.take raMaxWatchAddrs = before.watchlist.addrs

/-- A requested resync is atomic, and the next snapshots are labelled right, exactly
when its replies deliver all or nothing. -/
theorem resync_atomic_iff {sys : Sys Script} (requested : sys.ra.resyncPending = true) :
    let fetched := arrivals watchlistChunkCap 0 sys.io
    let after := (raDoResync (.scripted image) sys).ra
    (ResyncAtomic sys.ra after fetched ∧ EchoesNamedList sys.ra after fetched) ↔
      DeliversAllOrNothing sys.ra fetched := by
  intro fetched after
  obtain ⟨addrs, wlSeq⟩ : after.watchlist.addrs = fetched.addrs.take raMaxWatchAddrs ∧
      after.wlSeq = if fetched.complete then sys.ra.resyncSeq else sys.ra.wlSeq :=
    raDoResync_spec image requested
  constructor
  · rintro ⟨⟨complete, whole, _⟩ | ⟨cut, kept, _⟩, _⟩
    · rw [DeliversAllOrNothing, if_pos complete]
      have length := congrArg List.length (whole.symm.trans addrs)
      rw [List.length_take] at length
      omega
    · rw [DeliversAllOrNothing, if_neg (by simp [cut]), ← addrs, kept]
  · intro delivered
    cases complete : fetched.complete with
    | true =>
      rw [DeliversAllOrNothing, if_pos complete] at delivered
      rw [List.take_of_length_le delivered] at addrs
      rw [complete] at wlSeq
      refine ⟨Or.inl ⟨complete, addrs, wlSeq⟩, fun build chain frame ppc buf => Or.inl
        ⟨complete, ?_⟩⟩
      rw [snapshot_echo, addrs, wlSeq]
      rfl
    | false =>
      rw [DeliversAllOrNothing, if_neg (by simp [complete])] at delivered
      rw [delivered] at addrs
      rw [complete] at wlSeq
      refine ⟨Or.inr ⟨complete, addrs, wlSeq⟩, fun build chain frame ppc buf => Or.inr ?_⟩
      rw [snapshot_echo, addrs, wlSeq]
      rfl

end Scripted

/-- A list of one address, and a resync requested behind it. -/
def oneAddressBehindResync : RaState :=
  let append := bufferOf
    [raMagicEspToGc, 0, raEvtWatchlistAppend, 1, 0, 0, 0, 1, 0, 1, 0, 0, 0x10, 0]
  let update := bufferOf [raMagicEspToGc, 0, raEvtWatchlistUpdate, 1, 0, 0, 0, 0, 0, 0, 0, 9]
  (raParseResponse (raParseResponse .boot append).state update).state

/-- The module in this state, and a link that times out. -/
def timedOutResync : Sys Script := { Sys.boot [] with ra := oneAddressBehindResync }

theorem resync_atomic_iff_timedOut :
    let fetched := arrivals watchlistChunkCap 0 timedOutResync.io
    let after := (raDoResync (.scripted fun _ => 0) timedOutResync).ra
    (ResyncAtomic timedOutResync.ra after fetched ∧
        EchoesNamedList timedOutResync.ra after fetched) ↔
      DeliversAllOrNothing timedOutResync.ra fetched :=
  resync_atomic_iff (fun _ => 0) rfl

/-- The resync fails, and the empty list goes under the old number. -/
theorem failed_resync_empties_list :
    ¬ ∀ sys : Sys Script, sys.ra.resyncPending = true →
      let fetched := arrivals watchlistChunkCap 0 sys.io
      let after := (raDoResync (.scripted fun _ => 0) sys).ra
      ResyncAtomic sys.ra after fetched ∧ EchoesNamedList sys.ra after fetched := by
  intro claimed
  obtain ⟨⟨complete, _⟩ | ⟨_, kept, _⟩, _⟩ := claimed timedOutResync rfl
  · revert complete
    decide
  · revert kept
    decide

end D2xCios.Ra
