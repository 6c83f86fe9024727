import D2xCios.Ra.Loop
import Mathlib.Logic.Relation

/-!
# Steps of a run

All that a run of the main loop can do, once for the replicated state and once for
the outside. `ReplicaStep` is what happens to list and query, with its entries in
the trace; `OutsideStep` is a use of the port. `runLoop_advances` takes a run apart
into such steps, function by function, so that an invariant has to be shown for
the steps only.
-/

namespace D2xCios.Ra

open D2xCios.Lib

/-- An event that concerns neither query nor list. -/
def Event.Quiet : Event → Prop
  | .begins _ _ | .request _ _ => True
  | _ => False

/-- What a run can do to the query and the list. -/
inductive ReplicaStep : RaState × List Event → RaState × List Event → Prop where
  | quiet {s trace event} (silent : Event.Quiet event) : ReplicaStep (s, trace) (s, event :: trace)
  | parse {s trace} (reply : Mem) :
    ReplicaStep (s, trace) ((raParseResponse s reply).state, .parsed s reply :: trace)
  | answer {s trace} (waiting : s.pending.count ≠ 0) :
    ReplicaStep (s, trace)
      ({ s with pending := s.pending.consumed }, .answered s.pending.addrs :: trace)
  | resync {s trace after sent} (silent : ∀ event ∈ sent, Event.Quiet event)
    (kept : after.pending = s.pending) :
    ReplicaStep (s, trace) (after,
      .refetched after.watchlist.addrs :: (sent ++ .refetch s.pending.addrs :: trace))
  | celebrate {s trace} (led : Nat) : ReplicaStep (s, trace) ({ s with ledCelebrate := led }, trace)

/-- The stores of a function that builds a request with its reply in `rx`. -/
def buildStores {σ : Type} (port : Port σ) (rx : Buffer) (io : σ) : σ :=
  match rx with
  | .chunkRx => port.store .chunkRx io
  | _ => port.store .snapRx (port.ppc (port.store .snapTx io)).2

/-- What a run can do to the outside; snapshots are posted by the pipelined loop only. -/
inductive OutsideStep {σ : Type} (port : Port σ) (loop : MainLoop) :
    σ × List Event → σ × List Event → Prop where
  | build {io trace} (rx : Buffer) (reply : rx ≠ .snapTx) :
    OutsideStep port loop (io, trace)
      (buildStores port rx io, .begins rx (port.inFlight io) :: trace)
  | exchange {io trace} (view : View) (tx : List UInt8) (rx : Buffer) (reply : rx ≠ .snapTx) :
    OutsideStep port loop (io, trace) ((port.phaseB tx rx io).2, .request view tx :: trace)
  | send {io trace} (view : View) (tx : List UInt8) (rxLen : Nat) :
    OutsideStep port loop (io, trace) ((port.send tx rxLen io).2, .request view tx :: trace)
  | debug {io trace} (view : View) (tx : List UInt8) :
    OutsideStep port loop (io, trace) (port.debug tx io, .request view tx :: trace)
  | post {io trace} (view : View) (tx : List UInt8) (order : loop = .pipelined) :
    OutsideStep port loop (io, trace) ((port.post tx io).2, .request view tx :: trace)
  | reap {io trace} (order : loop = .pipelined) :
    OutsideStep port loop (io, trace) ((port.reap io).2, trace)
  | note {io trace event} (other : ¬ Event.Quiet event) :
    OutsideStep port loop (io, trace) (io, event :: trace)

section Runs

variable {σ : Type} (port : Port σ) (loop : MainLoop)

/-- One state leads to the other by such steps. -/
structure Advances (before after : Sys σ) : Prop where
  replica : Relation.ReflTransGen ReplicaStep (before.ra, before.trace) (after.ra, after.trace)
  outside : Relation.ReflTransGen (OutsideStep port loop) (before.io, before.trace)
    (after.io, after.trace)

variable {port loop}

namespace Advances

variable {first second third : Sys σ}

/-- Nothing but what no step is about has changed. -/
theorem same (ra : second.ra = first.ra) (io : second.io = first.io)
    (trace : second.trace = first.trace) : Advances port loop first second := by
  constructor
  · rw [ra, trace]
  · rw [io, trace]

theorem trans (early : Advances port loop first second) (late : Advances port loop second third) :
    Advances port loop first third :=
  ⟨early.replica.trans late.replica, early.outside.trans late.outside⟩

/-- One step of each kind. -/
theorem both (replica : ReplicaStep (first.ra, first.trace) (second.ra, second.trace))
    (outside : OutsideStep port loop (first.io, first.trace) (second.io, second.trace)) :
    Advances port loop first second := ⟨.single replica, .single outside⟩

end Advances

/-- A step adds to the trace. -/
theorem ReplicaStep.trace {before after : RaState × List Event} (step : ReplicaStep before after) :
    before.2 <:+ after.2 := by
  cases step with
  | quiet silent => exact List.suffix_cons _ _
  | parse reply => exact List.suffix_cons _ _
  | answer waiting => exact List.suffix_cons _ _
  | resync silent kept =>
    exact (List.suffix_cons _ _).trans ((List.suffix_append _ _).trans (List.suffix_cons _ _))
  | celebrate led => exact List.suffix_refl _

/-- The trace only grows. -/
theorem Advances.trace {first second : Sys σ} (advances : Advances port loop first second) :
    first.trace <:+ second.trace := by
  suffices grows : ∀ {before after : RaState × List Event},
      Relation.ReflTransGen ReplicaStep before after → before.2 <:+ after.2 from
    grows advances.replica
  intro before after steps
  induction steps with
  | refl => exact List.suffix_refl _
  | tail _ step ih => exact ih.trans step.trace

/-- Only the list changed, and only quiet events happened. -/
structure Quietly (port : Port σ) (loop : MainLoop) (before after : Sys σ) : Prop where
  ra : after.ra = { before.ra with watchlist := after.ra.watchlist }
  trace : ∃ sent, after.trace = sent ++ before.trace ∧ ∀ event ∈ sent, event.Quiet
  outside : Relation.ReflTransGen (OutsideStep port loop) (before.io, before.trace)
    (after.io, after.trace)

namespace Quietly

variable {first second third : Sys σ}

/-- A quiet step leaves the pending queries. -/
theorem pending (quiet : Quietly port loop first second) :
    second.ra.pending = first.ra.pending := by
  rw [quiet.ra]

/-- A change of the list, or of what no step is about. -/
theorem store (ra : second.ra = { first.ra with watchlist := second.ra.watchlist })
    (io : second.io = first.io) (trace : second.trace = first.trace) :
    Quietly port loop first second := by
  refine ⟨ra, ⟨[], trace, by simp⟩, ?_⟩
  rw [io, trace]

theorem refl (sys : Sys σ) : Quietly port loop sys sys := .store rfl rfl rfl

theorem trans (early : Quietly port loop first second) (late : Quietly port loop second third) :
    Quietly port loop first third := by
  obtain ⟨sent, earlyTrace, earlyQuiet⟩ := early.trace
  obtain ⟨more, lateTrace, lateQuiet⟩ := late.trace
  refine ⟨by rw [late.ra, early.ra], ⟨more ++ sent, ?_, ?_⟩, early.outside.trans late.outside⟩
  · rw [lateTrace, earlyTrace, List.append_assoc]
  · intro event member
    rcases List.mem_append.mp member with member | member
    · exact lateQuiet event member
    · exact earlyQuiet event member

/-- A step that keeps the state and is quiet. -/
theorem step {event : Event} (ra : second.ra = first.ra)
    (trace : second.trace = event :: first.trace)
    (outside : OutsideStep port loop (first.io, first.trace) (second.io, second.trace))
    (silent : event.Quiet) : Quietly port loop first second :=
  ⟨by rw [ra], ⟨[event], trace, by simpa using silent⟩, .single outside⟩

end Quietly

/-! ## Fetching is quiet -/

variable (port loop)

/-- The exchange of a chunk is quiet. -/
theorem chunkExchange_quietly (command : UInt8) (chunkIndex : UInt16) (sys : Sys σ) :
    Quietly port loop sys (chunkExchange port command chunkIndex sys).2 := by
  have built : Quietly port loop sys ((sys.begins port .chunkRx).store port .chunkRx) :=
    .step rfl rfl (.build .chunkRx (by decide)) trivial
  exact built.trans (.step rfl rfl (.exchange _ _ _ (by decide)) trivial)

/-- A debug message is quiet. -/
theorem raDebugSendAlways_quietly (msg : List UInt8) (sys : Sys σ) :
    Quietly port loop sys (raDebugSendAlways port msg sys) :=
  .step rfl rfl (.debug _ _) trivial

/-- One attempt at a chunk of the watchlist is quiet. -/
theorem raFetchWatchlistChunkOnce_quietly (chunkIndex : UInt16) (sys : Sys σ) :
    Quietly port loop sys (raFetchWatchlistChunkOnce port chunkIndex sys).2 := by
  have exchange := chunkExchange_quietly port loop raCmdGetWatchlistChunk chunkIndex sys
  unfold raFetchWatchlistChunkOnce
  split
  · rename_i error after result
    rwa [result] at exchange
  · rename_i rx after result
    rw [result] at exchange
    split
    · exact exchange
    · exact exchange.trans (.store rfl rfl rfl)

/-- A chunk of the chain table is fetched quietly. -/
theorem raFetchChainChunk_quietly (chunkIndex : UInt16) (base : Nat) (sys : Sys σ) :
    Quietly port loop sys (raFetchChainChunk port chunkIndex base sys).2 := by
  have exchange := chunkExchange_quietly port loop raCmdGetChainChunk chunkIndex sys
  unfold raFetchChainChunk
  split
  · rename_i error after result
    rwa [result] at exchange
  · rename_i rx after result
    rw [result] at exchange
    split
    · exact exchange
    · simp only
      split
      · exact exchange.trans (.step rfl rfl (.debug _ _) trivial)
      · exact exchange.trans (.store rfl rfl rfl)

/-- Retries of a quiet attempt are quiet. -/
theorem retry_quietly {α : Type} (tag : String) (idx : UInt16)
    (once : Sys σ → Except Int α × Sys σ) (quiet : ∀ sys, Quietly port loop sys (once sys).2)
    (left att : Nat) (error : Int) (sys : Sys σ) :
    Quietly port loop sys (retry (raReportChunkRetry port tag idx) once left att error sys).2 := by
  refine retry_keeps (Quietly port loop sys) _ _ ?_ ?_ _ _ _ (.refl sys)
  · exact fun before quietly => quietly.trans (quiet before)
  · exact fun _ after quietly => quietly.trans (raDebugSendAlways_quietly port loop _ after)

/-- The chunks of the watchlist are fetched quietly. -/
theorem fetchWatchlistChunks_quietly (left : Nat) (chunkIdx : UInt16) (sys : Sys σ) :
    Quietly port loop sys (fetchWatchlistChunks port left chunkIdx sys).2 := by
  induction left generalizing chunkIdx sys with
  | zero => exact .refl sys
  | succ left ih =>
    have chunk := retry_quietly port loop "W" chunkIdx (raFetchWatchlistChunkOnce port chunkIdx)
      (raFetchWatchlistChunkOnce_quietly port loop chunkIdx) raChunkFetchAttempts 0 (-1) sys
    rw [fetchWatchlistChunks, raFetchWatchlistChunk]
    split
    · rename_i error after result
      rw [result] at chunk
      exact chunk.trans (raDebugSendAlways_quietly port loop _ after)
    · rename_i after result
      rwa [result] at chunk
    · rename_i after result
      rw [result] at chunk
      exact chunk.trans (ih (chunkIdx + 1) after)

/-- The watchlist is fetched quietly. -/
theorem raFetchWatchlist_quietly (sys : Sys σ) :
    Quietly port loop sys (raFetchWatchlist port sys).2 := by
  have cleared : Quietly port loop sys { sys with ra := { sys.ra with
      watchlist := { sys.ra.watchlist with count := 0, fits := Nat.zero_le _ } } } :=
    .store rfl rfl rfl
  exact cleared.trans (fetchWatchlistChunks_quietly port loop _ _ _)

/-- The chunks of the chain table are fetched quietly. -/
theorem fetchChainChunks_quietly (left : Nat) (chunkIdx : UInt16) (base : Nat) (sys : Sys σ) :
    Quietly port loop sys (fetchChainChunks port left chunkIdx base sys).2 := by
  induction left generalizing chunkIdx base sys with
  | zero => exact .refl sys
  | succ left ih =>
    have chunk := retry_quietly port loop "C" chunkIdx (raFetchChainChunk port chunkIdx base)
      (raFetchChainChunk_quietly port loop chunkIdx base) raChunkFetchAttempts 0 (-1) sys
    rw [fetchChainChunks]
    split
    · rename_i error after result
      rw [result] at chunk
      exact chunk.trans (raDebugSendAlways_quietly port loop _ after)
    · rename_i reached after result
      rwa [result] at chunk
    · rename_i reached after result
      rw [result] at chunk
      exact chunk.trans (ih (chunkIdx + 1) reached after)

/-- The chain table is fetched quietly. -/
theorem raFetchChainTable_quietly (sys : Sys σ) :
    Quietly port loop sys (raFetchChainTable port sys) := by
  have off : Quietly port loop sys { sys with
      chain := { sys.chain with nodeCount := 0, shipNode := [], winNext := 0 } } :=
    .store rfl rfl rfl
  have chunks := off.trans (fetchChainChunks_quietly port loop chainChunkCap 0 0 _)
  unfold raFetchChainTable
  simp only
  split
  · rename_i after result
    rwa [result] at chunks
  · rename_i base after result
    rw [result] at chunks
    exact chunks.trans (.store rfl rfl rfl)

/-- The identification is quiet. -/
theorem raIdentify_quietly (sys : Sys σ) : Quietly port loop sys (raIdentify port sys).2 := by
  unfold raIdentify
  simp only
  split <;> exact .step rfl rfl (.send _ _ _) trivial

/-- The wait for the adapter is quiet. -/
theorem identifyUntilPresent_quietly (left : Nat) (sys : Sys σ) :
    Quietly port loop sys (identifyUntilPresent port left sys) := by
  induction left generalizing sys with
  | zero => exact .refl sys
  | succ left ih =>
    have once := raIdentify_quietly port loop sys
    rw [identifyUntilPresent]
    split
    · rename_i after result
      rwa [result] at once
    · rename_i after result
      rw [result] at once
      exact once.trans (ih after)

/-- Nothing before the main loop parses, answers or resyncs. -/
theorem powerOn_quietly (build : LinkBuild) (io : σ) :
    Quietly port loop (.boot io) (powerOn port build io) := by
  have fetched := (identifyUntilPresent_quietly port loop (identifyTries build) (.boot io)).trans
    (raFetchWatchlist_quietly port loop _)
  unfold powerOn
  split
  · rename_i after result
    rw [result] at fetched
    exact fetched.trans (raFetchChainTable_quietly port loop after)
  · rename_i error after result
    rwa [result] at fetched

/-! ## Fires -/

/-- Building a snapshot advances the system. -/
theorem prepareSnapshot_advances (build : LinkBuild) (sys : Sys σ) :
    Advances port loop sys (prepareSnapshot port build sys).2 :=
  .both (.quiet trivial) (.build .snapRx (by decide))

/-- The second phase of an exchange advances the system. -/
theorem phaseB_advances (tx : List UInt8) (sys : Sys σ) :
    Advances port loop sys (sys.phaseB port tx .snapRx).2 :=
  .both (.quiet trivial) (.exchange _ _ _ (by decide))

/-- Parsing a reply advances the system. -/
theorem parse_advances (reply : Mem) (sys : Sys σ) : Advances port loop sys (sys.parse reply) :=
  .both (.parse reply) (.note id)

/-- A blocking snapshot advances the system. -/
theorem raSendSnapshot_advances (build : LinkBuild) (sys : Sys σ) :
    Advances port loop sys (raSendSnapshot port build sys) := by
  have sent := (prepareSnapshot_advances port loop build sys).trans
    (phaseB_advances port loop (prepareSnapshot port build sys).1 _)
  unfold raSendSnapshot
  simp only
  split
  · rename_i error after result
    rwa [result] at sent
  · rename_i reply after result
    rw [result] at sent
    exact sent.trans (parse_advances port loop reply after)

/-- Posting a snapshot advances the system. -/
theorem raPostSnapshot_advances (sys : Sys σ) :
    Advances port .pipelined sys (raPostSnapshot port sys) :=
  (prepareSnapshot_advances port .pipelined .usb sys).trans
    (.both (.quiet trivial) (.post _ _ rfl))

/-- Collecting the reply to a snapshot advances the system. -/
theorem raSnapCollect_advances (sys : Sys σ) :
    Advances port .pipelined sys (raSnapCollect port sys).2 := by
  have reaped : Advances port .pipelined sys { sys with io := (port.reap sys.io).2 } :=
    ⟨.refl, .single (.reap rfl)⟩
  unfold raSnapCollect
  split
  · exact .same rfl rfl rfl
  · simp only
    split
    · exact reaped.trans (parse_advances port .pipelined _ _)
    · exact reaped

/-- An answer to an address query advances the system. -/
theorem raSendAddrResponse_advances (sys : Sys σ) :
    Advances port loop sys (raSendAddrResponse port sys) := by
  unfold raSendAddrResponse
  split
  · exact .same rfl rfl rfl
  · rename_i waiting
    simp only
    let looked := ((sys.begins port .snapRx).store port .snapTx).ppc port
    have built : Advances port loop sys (looked.2.store port .snapRx) :=
      .both (.quiet trivial) (.build .snapRx (by decide))
    have sent := built.trans
      (phaseB_advances port loop (addrResponse sys.ra.pending looked.1) _)
    split
    · rename_i error after result
      rwa [result] at sent
    · rename_i reply after result
      have same : sys.ra = after.ra := congrArg (fun exchange => exchange.2.ra) result
      rw [result] at sent
      rw [same] at waiting
      exact sent.trans (.trans (.both (.answer waiting) (.note id))
        (parse_advances port loop reply _))

/-- The answers to all pending queries advance the system. -/
theorem answerQueries_advances (left : Nat) (sys : Sys σ) :
    Advances port loop sys (answerQueries port left sys) := by
  induction left generalizing sys with
  | zero => exact .same rfl rfl rfl
  | succ left ih =>
    rw [answerQueries]
    split
    · exact (raSendAddrResponse_advances port loop sys).trans (ih _)
    · exact .same rfl rfl rfl

/-- The fetch of a resync, from the request to the entry that ends it. -/
theorem resync_advances {sys after final : Sys σ}
    (fetch : Quietly port loop (beginResync sys) after)
    (ra : final.ra = { after.ra with wlSeq := final.ra.wlSeq })
    (io : final.io = after.io)
    (trace : final.trace = .refetched final.ra.watchlist.addrs :: after.trace) :
    Advances port loop sys final := by
  obtain ⟨sent, earlier, silent⟩ := fetch.trace
  constructor
  · have kept : final.ra.pending = sys.ra.pending := by
      rw [ra]
      exact fetch.pending
    rw [trace, show after.trace = _ from earlier]
    exact .single (.resync silent kept)
  · have begun : OutsideStep port loop (sys.io, sys.trace)
        (sys.io, .refetch sys.ra.pending.addrs :: sys.trace) := .note id
    rw [io, trace]
    exact (Relation.ReflTransGen.single begun).trans (fetch.outside.tail (.note id))

/-- A resync advances the system. -/
theorem raDoResync_advances (sys : Sys σ) : Advances port loop sys (raDoResync port sys) := by
  have fetch := raFetchWatchlist_quietly port loop (beginResync sys)
  unfold raDoResync
  split
  · exact .same rfl rfl rfl
  · split
    · rename_i after result
      rw [result] at fetch
      exact resync_advances port loop fetch rfl rfl rfl
    · rename_i error after result
      rw [result] at fetch
      exact resync_advances port loop fetch rfl rfl rfl

/-- The celebration of an achievement advances the system. -/
theorem celebrate_advances (sys : Sys σ) : Advances port loop sys (celebrate sys) :=
  ⟨.single (.celebrate _), .refl⟩

/-- One fire of the loop advances the system. -/
theorem fire_advances (sys : Sys σ) (ctr : UInt32) :
    Advances port loop sys (fire port loop sys ctr) := by
  have ticked : Advances port loop sys { sys with gameFrame := ctr } := .same rfl rfl rfl
  cases loop with
  | blocking build =>
    exact ticked.trans <| (raSendSnapshot_advances port _ build _).trans <|
      (answerQueries_advances port _ addrQueryRounds _).trans <|
      (celebrate_advances port _ _).trans (raDoResync_advances port _ _)
  | pipelined =>
    have collected := raSnapCollect_advances port { sys with gameFrame := ctr }
    simp only [fire, firePipelined]
    split
    · rename_i after result
      rw [result] at collected
      exact ticked.trans <| collected.trans <|
        (answerQueries_advances port _ addrQueryRounds _).trans <|
        (raDoResync_advances port _ _).trans <| (raPostSnapshot_advances port _).trans
        (celebrate_advances port _ _)
    · rename_i after result
      rw [result] at collected
      exact ticked.trans (collected.trans (celebrate_advances port _ _))

/-- A run of the main loop is a run of steps. -/
theorem runLoop_advances (io : σ) (ctrs : List UInt32) :
    Advances port loop (powerOn port loop.build io) (runLoop port loop io ctrs) := by
  unfold runLoop
  generalize powerOn port loop.build io = start
  induction ctrs generalizing start with
  | nil => exact .same rfl rfl rfl
  | cons ctr later ih => exact (fire_advances port loop start ctr).trans (ih _)

end Runs

end D2xCios.Ra
