import D2xCios.Ra.Steps
import Mathlib.Data.List.Induction

/-!
# The two orders of the main loop

Over a link whose exchanges all succeed, the pipelined loop does what the blocking
loop does, cut at another point of the fire. A posted snapshot that is collected
is a snapshot sent and parsed (`collect_post`), and whatever else a fire does has
no regard for the frame counter and the celebration, which the two orders touch
at different times. So after every fire the pipelined state is the blocking state
with the next snapshot posted: `pipelined_ahead`.
-/

namespace D2xCios.Ra

open D2xCios.Lib

/-! ## A link to a deterministic adapter -/

/-- The state of the adapter, the number of messages built so far, and the reply to a
posted request. -/
structure Wire (ρ : Type) where
  adapter : ρ
  built : Nat
  posted : Option Mem

/-- An adapter that answers by `respond`, over the game memory that each message finds.
Every exchange succeeds. -/
def Port.responder {ρ : Type} (respond : ρ → List UInt8 → Mem × ρ) (memory : Nat → PpcImage) :
    Port (Wire ρ) where
  ppc wire := (memory wire.built, { wire with built := wire.built + 1 })
  store _ wire := wire
  send tx _ wire :=
    let answer := respond wire.adapter tx
    (.ok fun i => answer.1 (tx.length + i), { wire with adapter := answer.2 })
  phaseB tx _ wire :=
    let answer := respond wire.adapter tx
    (.ok answer.1, { wire with adapter := answer.2 })
  debug tx wire := { wire with adapter := (respond wire.adapter tx).2 }
  post tx wire :=
    match wire.posted with
    | some _ => (.error raUsbEbusy, wire)
    | none =>
      let answer := respond wire.adapter tx
      (.ok (), { wire with adapter := answer.2, posted := some answer.1 })
  posted wire := wire.posted.isSome
  reap wire :=
    match wire.posted with
    | some reply => (.ok reply, { wire with posted := none })
    | none => (.error raUsbEidle, wire)
  inFlight wire := wire.posted.map fun _ => .snapRx

/-! ## Bystanders -/

/-- Change the frame counter and the celebration. -/
def Sys.beside {σ : Type} (frame : UInt32 → UInt32) (led : Nat → Nat) (sys : Sys σ) : Sys σ :=
  { sys with
    gameFrame := frame sys.gameFrame
    ra := { sys.ra with ledCelebrate := led sys.ra.ledCelebrate } }

/-- The part of a fire behind the snapshot's reply. -/
def finishFire {σ : Type} (port : Port σ) (sys : Sys σ) : Sys σ :=
  raDoResync port (celebrate (answerQueries port addrQueryRounds sys))

section Bystanders

variable {σ : Type} (port : Port σ) (frame : UInt32 → UInt32) (led : Nat → Nat)

/-- An attempt at a chunk does not depend on the frame and the lights. -/
theorem raFetchWatchlistChunkOnce_beside (chunkIndex : UInt16) (sys : Sys σ) :
    raFetchWatchlistChunkOnce port chunkIndex (sys.beside frame led) =
      Prod.map id (Sys.beside frame led) (raFetchWatchlistChunkOnce port chunkIndex sys) := by
  have exchange : chunkExchange port raCmdGetWatchlistChunk chunkIndex (sys.beside frame led) =
      Prod.map id (Sys.beside frame led)
        (chunkExchange port raCmdGetWatchlistChunk chunkIndex sys) := rfl
  unfold raFetchWatchlistChunkOnce
  rw [exchange]
  rcases chunkExchange port raCmdGetWatchlistChunk chunkIndex sys with ⟨error | rx, after⟩
  · rfl
  · simp only [Prod.map, id]
    cases readWatchlistChunk chunkIndex rx <;> rfl

/-- The chunks of the watchlist do not depend on the frame and the lights. -/
theorem fetchWatchlistChunks_beside (left : Nat) (chunkIdx : UInt16) (sys : Sys σ) :
    fetchWatchlistChunks port left chunkIdx (sys.beside frame led) =
      Prod.map id (Sys.beside frame led) (fetchWatchlistChunks port left chunkIdx sys) := by
  induction left generalizing chunkIdx sys with
  | zero => rfl
  | succ left ih =>
    have attempts := retry_map (Sys.beside frame led)
      (raFetchWatchlistChunkOnce_beside port frame led chunkIdx)
      (fun att s => show raReportChunkRetry port "W" chunkIdx att (s.beside frame led) =
        (raReportChunkRetry port "W" chunkIdx att s).beside frame led from rfl)
      raChunkFetchAttempts 0 (-1) sys
    rw [fetchWatchlistChunks, fetchWatchlistChunks, raFetchWatchlistChunk, raFetchWatchlistChunk,
      attempts]
    rcases retry (raReportChunkRetry port "W" chunkIdx) (raFetchWatchlistChunkOnce port chunkIdx)
      raChunkFetchAttempts 0 (-1) sys with ⟨error | last, after⟩
    · rfl
    · cases last with
      | true => rfl
      | false => exact ih (chunkIdx + 1) after

/-- The fetch of the watchlist does not depend on the frame and the lights. -/
theorem raFetchWatchlist_beside (sys : Sys σ) :
    raFetchWatchlist port (sys.beside frame led) =
      Prod.map id (Sys.beside frame led) (raFetchWatchlist port sys) :=
  fetchWatchlistChunks_beside port frame led watchlistChunkCap 0 { sys with
    ra := { sys.ra with watchlist := { sys.ra.watchlist with count := 0, fits := Nat.zero_le _ } } }

/-- A resync has no regard for the bystanders. -/
theorem raDoResync_beside (sys : Sys σ) :
    raDoResync port (sys.beside frame led) = (raDoResync port sys).beside frame led := by
  have fetch := raFetchWatchlist_beside port frame led (beginResync sys)
  have begun : beginResync (sys.beside frame led) = (beginResync sys).beside frame led := rfl
  have requested : (sys.beside frame led).ra.resyncPending = sys.ra.resyncPending := rfl
  rw [raDoResync, raDoResync, begun, fetch, requested]
  split
  · rfl
  · rcases raFetchWatchlist port (beginResync sys) with ⟨error | done, after⟩ <;> rfl

/-- Neither has an answer for the frame counter. -/
theorem raSendAddrResponse_frame (sys : Sys σ) :
    raSendAddrResponse port (sys.beside frame id) =
      (raSendAddrResponse port sys).beside frame id := by
  unfold raSendAddrResponse
  have pending : (sys.beside frame id).ra.pending = sys.ra.pending := rfl
  rw [pending]
  split
  · rfl
  · obtain ⟨image, looked, lookup⟩ : ∃ image looked,
      ((sys.begins port .snapRx).store port .snapTx).ppc port = (image, looked) := ⟨_, _, rfl⟩
    have lookup_beside : (((sys.beside frame id).begins port .snapRx).store port .snapTx).ppc port =
        (image, looked.beside frame id) :=
      congrArg (Prod.map id (Sys.beside frame id)) lookup
    obtain ⟨result, after, exchange⟩ : ∃ result after, (looked.store port .snapRx).phaseB port
      (addrResponse sys.ra.pending image) .snapRx = (result, after) := ⟨_, _, rfl⟩
    have exchange_beside : ((looked.beside frame id).store port .snapRx).phaseB port
        (addrResponse sys.ra.pending image) .snapRx = (result, after.beside frame id) :=
      congrArg (Prod.map id (Sys.beside frame id)) exchange
    simp only [lookup, lookup_beside, exchange, exchange_beside]
    cases result with
    | error error => rfl
    | ok reply => rfl

/-- The answers to queries do not depend on the frame. -/
theorem answerQueries_frame (left : Nat) (sys : Sys σ) :
    answerQueries port left (sys.beside frame id) =
      (answerQueries port left sys).beside frame id := by
  induction left generalizing sys with
  | zero => rfl
  | succ left ih =>
    rw [answerQueries, answerQueries, raSendAddrResponse_frame]
    have pending : (sys.beside frame id).ra.pending = sys.ra.pending := rfl
    rw [pending]
    split
    · exact ih _
    · rfl

/-- The end of a fire does not depend on the frame. -/
theorem finishFire_frame (sys : Sys σ) :
    finishFire port (sys.beside frame id) = (finishFire port sys).beside frame id := by
  rw [finishFire, answerQueries_frame]
  exact raDoResync_beside port frame id (celebrate (answerQueries port addrQueryRounds sys))

/-- The celebration may take its step before the resync and the snapshot. -/
theorem celebrate_last (sys : Sys σ) :
    celebrate (raPostSnapshot port (raDoResync port sys)) =
      raPostSnapshot port (raDoResync port (celebrate sys)) := by
  have resync : raDoResync port (celebrate sys) = celebrate (raDoResync port sys) :=
    raDoResync_beside port id (· - 1) sys
  rw [resync]
  rfl

end Bystanders

/-! ## The loops side by side -/

/-- The requests of a run in the order they were sent, each with the replicated state. -/
def requests (trace : List Event) : List (View × List UInt8) :=
  trace.reverse.filterMap fun event =>
    match event with
    | .request view bytes => some (view, bytes)
    | _ => none

section Loops

variable {ρ : Type} (respond : ρ → List UInt8 → Mem × ρ) (memory : Nat → PpcImage)

/-- Posting a snapshot and collecting its reply at the next fire is sending it. -/
theorem collect_post (sys : Sys (Wire ρ)) (free : sys.io.posted = none)
    (frame : UInt32 → UInt32) :
    raSnapCollect (.responder respond memory)
        ((raPostSnapshot (.responder respond memory) sys).beside frame id) =
      (true, (raSendSnapshot (.responder respond memory) .usb sys).beside frame id) := by
  obtain ⟨ra, chain, frameCounter, gameFrame, ⟨adapter, built, posted⟩, trace⟩ := sys
  cases free
  rfl

/-- A pipelined fire behind a posted snapshot does what a blocking fire does, and posts
the next one. -/
theorem firePipelined_post (sys : Sys (Wire ρ)) (free : sys.io.posted = none) (ctr : UInt32) :
    fire (.responder respond memory) .pipelined
        (raPostSnapshot (.responder respond memory) sys) ctr =
      raPostSnapshot (.responder respond memory)
        { fireBlocking (.responder respond memory) .usb sys with gameFrame := ctr } := by
  have collected := collect_post respond memory sys free fun _ => ctr
  have ticked : { raPostSnapshot (.responder respond memory) sys with gameFrame := ctr } =
      (raPostSnapshot (.responder respond memory) sys).beside (fun _ => ctr) id := rfl
  rw [fire, firePipelined, ticked, collected]
  simp only
  rw [celebrate_last]
  exact congrArg _ (finishFire_frame _ (fun _ => ctr)
    (raSendSnapshot (.responder respond memory) .usb sys))

/-- The blocking loop posts nothing. -/
theorem blocking_free {before after : Wire ρ × List Event}
    (steps : Relation.ReflTransGen
      (OutsideStep (.responder respond memory) (.blocking .usb)) before after)
    (free : before.1.posted = none) : after.1.posted = none := by
  induction steps with
  | refl => exact free
  | tail _ step ih =>
    cases step with
    | build rx reply => cases rx <;> exact ih
    | exchange view tx rx reply => exact ih
    | send view tx rxLen => exact ih
    | debug view tx => exact ih
    | post view tx order => cases order
    | reap order => cases order
    | note other => exact ih

/-- Behind power-on nothing is pending, and both loops start alike. -/
theorem first_fire (adapter : ρ) (ctr : UInt32) :
    let start := powerOn (.responder respond memory) .usb ⟨adapter, 0, none⟩
    start.io.posted = none ∧
      fire (.responder respond memory) .pipelined start ctr =
        raPostSnapshot (.responder respond memory) { start with gameFrame := ctr } := by
  intro start
  have started := powerOn_quietly (.responder respond memory) (.blocking .usb) .usb
    ⟨adapter, 0, none⟩
  have free : start.io.posted = none := blocking_free respond memory started.outside rfl
  have boot : start.ra = { RaState.boot with watchlist := start.ra.watchlist } := started.ra
  refine ⟨free, ?_⟩
  have collected : raSnapCollect (.responder respond memory) { start with gameFrame := ctr } =
      (true, { start with gameFrame := ctr }) := by
    simp [raSnapCollect, Port.responder, free]
  have answered : answerQueries (.responder respond memory) addrQueryRounds
      { start with gameFrame := ctr } = { start with gameFrame := ctr } := by
    have none : start.ra.pending.count = 0 := by rw [boot]; rfl
    simp [addrQueryRounds, answerQueries, none]
  have settled : celebrate { start with gameFrame := ctr } = { start with gameFrame := ctr } := by
    have dark : { start.ra with ledCelebrate := start.ra.ledCelebrate - 1 } = start.ra := by
      rw [boot]
      rfl
    simp only [celebrate, dark]
  have resynced : raDoResync (.responder respond memory) { start with gameFrame := ctr } =
      { start with gameFrame := ctr } := by
    have idle : start.ra.resyncPending = false := by rw [boot]; rfl
    simp [raDoResync, idle]
  rw [fire, firePipelined, collected]
  simp only
  rw [answered, celebrate_last, settled, resynced]

/-- After every fire the pipelined loop is the blocking loop with the next snapshot
posted. -/
theorem pipelined_ahead (adapter : ρ) (ctrs : List UInt32) (ctr : UInt32) :
    runLoop (.responder respond memory) .pipelined ⟨adapter, 0, none⟩ (ctrs ++ [ctr]) =
      raPostSnapshot (.responder respond memory)
        { runLoop (.responder respond memory) (.blocking .usb) ⟨adapter, 0, none⟩ ctrs with
          gameFrame := ctr } := by
  induction ctrs using List.reverseRecOn generalizing ctr with
  | nil => exact (first_fire respond memory adapter ctr).2
  | append_singleton earlier last ih =>
    have free := blocking_free respond memory
      (runLoop_advances (.responder respond memory) (.blocking .usb) ⟨adapter, 0, none⟩
        earlier).outside (first_fire respond memory adapter ctr).1
    rw [runLoop_snoc, ih, runLoop_snoc]
    exact firePipelined_post respond memory
      { runLoop (.responder respond memory) (.blocking .usb) ⟨adapter, 0, none⟩ earlier with
        gameFrame := last } free ctr

/-- Both loops send the same requests in the same replicated states: after as many fires
the pipelined loop has only its last snapshot's reply to collect. -/
theorem pipelined_equiv_blocking (adapter : ρ) :
    let port : Port (Wire ρ) := Port.responder respond memory
    let blocking := runLoop port (.blocking .usb) ⟨adapter, 0, none⟩
    let pipelined := runLoop port .pipelined ⟨adapter, 0, none⟩
    pipelined [] = blocking [] ∧
      ∀ (ctrs : List UInt32) (ctr : UInt32),
        requests (pipelined (ctrs ++ [ctr])).trace = requests (blocking ctrs).trace ++
            [((blocking ctrs).ra.view,
              (prepareSnapshot port .usb { blocking ctrs with gameFrame := ctr }).1)] ∧
          finishFire port (raSnapCollect port (pipelined (ctrs ++ [ctr]))).2 =
            blocking (ctrs ++ [ctr]) ∧
          requests (pipelined (ctrs ++ [ctr])).trace <+:
            requests (blocking (ctrs ++ [ctr])).trace := by
  intro port blocking pipelined
  refine ⟨rfl, fun ctrs ctr => ?_⟩
  have ahead : pipelined (ctrs ++ [ctr]) =
      raPostSnapshot port { blocking ctrs with gameFrame := ctr } :=
    pipelined_ahead respond memory adapter ctrs ctr
  have free : (blocking ctrs).io.posted = none := blocking_free respond memory
    (runLoop_advances port (.blocking .usb) ⟨adapter, 0, none⟩ ctrs).outside
    (first_fire respond memory adapter ctr).1
  have drained : finishFire port (raSnapCollect port (pipelined (ctrs ++ [ctr]))).2 =
      blocking (ctrs ++ [ctr]) := by
    rw [ahead]
    have collected := collect_post respond memory { blocking ctrs with gameFrame := ctr } free id
    have same : (raPostSnapshot port { blocking ctrs with gameFrame := ctr }).beside id id =
      raPostSnapshot port { blocking ctrs with gameFrame := ctr } := rfl
    rw [same] at collected
    rw [collected]
    exact (runLoop_snoc port (.blocking .usb) ⟨adapter, 0, none⟩ ctrs ctr).symm
  refine ⟨?_, drained, ?_⟩
  · rw [ahead]
    simp [requests, raPostSnapshot, prepareSnapshot, Sys.note, Sys.begins, Sys.store, Sys.ppc]
  · have finished := (raSnapCollect_advances port (pipelined (ctrs ++ [ctr]))).trans <|
      (answerQueries_advances port .pipelined addrQueryRounds _).trans <|
      (celebrate_advances port .pipelined _).trans (raDoResync_advances port .pipelined _)
    obtain ⟨later, longer⟩ := finished.trace
    have whole : (blocking (ctrs ++ [ctr])).trace =
        later ++ (pipelined (ctrs ++ [ctr])).trace := by
      rw [← drained]
      exact longer.symm
    simp [requests, whole]

end Loops

end D2xCios.Ra
