import D2xCios.Ra.Fetch
import D2xCios.Ra.Snapshot

/-!
# Main loop

`ra_poll_thread` from the identification of the adapter on. `fire` is what the
loop does on one frame, in the two orders a build can have: the blocking loop
sends the snapshot and waits for its reply first, the pipelined loop collects
the reply of the previous snapshot first and posts this frame's last.

Left out are the polling between fires, the LED and the diagnostics that the
build compiles out; a fire is given the frame counter it found.
-/

namespace D2xCios.Ra

open D2xCios.Lib

/-- The order of a fire, and the link the build is for. -/
inductive MainLoop where
  | blocking (build : LinkBuild)
  | pipelined
  deriving DecidableEq

def MainLoop.build : MainLoop → LinkBuild
  | .blocking build => build
  | .pipelined => .usb

/-- Rounds of address queries in one fire. -/
def addrQueryRounds : Nat := 12

/-- Attempts to identify the adapter. -/
def identifyTries : LinkBuild → Nat
  | .exi => 1
  | .usb => 10

section Loop

variable {σ : Type} (port : Port σ)

/-! ## Snapshots -/

/-- The frame number of a snapshot: game frames, or fires while nobody counts those. -/
def Sys.frame (sys : Sys σ) : UInt32 :=
  if sys.gameFrame ≠ 0 then sys.gameFrame else sys.frameCounter

/-- `ra_send_snapshot` up to the link: the message, and the statics behind it. -/
def prepareSnapshot (build : LinkBuild) (sys : Sys σ) : List UInt8 × Sys σ :=
  let begun := (sys.begins port .snapRx).store port .snapTx
  let counted := { begun with frameCounter := begun.frameCounter + 1 }
  let looked := counted.ppc port
  -- the buffer's old contents do not reach the message
  let snapshot := buildSnapshot build looked.2.ra looked.2.chain looked.2.frame looked.1 fun _ => 0
  (snapshot.message, { looked.2 with chain := snapshot.chain }.store port .snapRx)

/-- `ra_send_snapshot` of a blocking build. -/
def raSendSnapshot (build : LinkBuild) (sys : Sys σ) : Sys σ :=
  let ready := prepareSnapshot port build sys
  match ready.2.phaseB port ready.1 .snapRx with
  | (.error _, sys) => sys
  | (.ok reply, sys) => sys.parse reply

/-- `ra_send_snapshot` of the pipelined build. -/
def raPostSnapshot (sys : Sys σ) : Sys σ :=
  let ready := prepareSnapshot port .usb sys
  let sent := ready.2.note (.request ready.2.ra.view ready.1)
  { sent with io := (port.post ready.1 sent.io).2 }

/-- `ra_snap_collect`: whether the link is free for this fire. -/
def raSnapCollect (sys : Sys σ) : Bool × Sys σ :=
  if !port.posted sys.io then (true, sys)
  else
    let reaped := port.reap sys.io
    let sys := { sys with io := reaped.2 }
    match reaped.1 with
    | .ok reply => (true, sys.parse reply)
    -- a failed exchange just loses that frame's reply
    | .error error => (error != raUsbEtimeout, sys)

/-! ## Address queries -/

/-- The answer to the pending query, from one look at game memory. -/
def addrResponse (pending : PendingQuery) (ppc : PpcImage) : List UInt8 :=
  raFillHeader raCmdAddrResponse (UInt16.ofNat (2 + pending.count)) ++
    bytes16 (UInt16.ofNat pending.count) ++ pending.addrs.map (raReadPpcByte ppc)

/-- The query has been answered. -/
def PendingQuery.consumed (pending : PendingQuery) : PendingQuery :=
  { pending with count := 0, fits := Nat.zero_le _ }

/-- `ra_send_addr_response`. -/
def raSendAddrResponse (sys : Sys σ) : Sys σ :=
  if sys.ra.pending.count = 0 then sys
  else
    let looked := ((sys.begins port .snapRx).store port .snapTx).ppc port
    match (looked.2.store port .snapRx).phaseB port (addrResponse sys.ra.pending looked.1) .snapRx
      with
    | (.error _, sys) => sys
    | (.ok reply, sys) =>
      let answered := sys.note (.answered sys.ra.pending.addrs)
      { answered with ra := { answered.ra with pending := answered.ra.pending.consumed } }.parse
        reply

/-- The rounds of a fire, with `left` of them to go. -/
def answerQueries : (left : Nat) → Sys σ → Sys σ
  | 0, sys => sys
  | left + 1, sys =>
    if 0 < sys.ra.pending.count then answerQueries left (raSendAddrResponse port sys) else sys

/-! ## Resync -/

/-- The request is taken up. -/
def beginResync (sys : Sys σ) : Sys σ :=
  { sys.note (.refetch sys.ra.pending.addrs) with ra := { sys.ra with resyncPending := false } }

/-- `ra_do_resync`. -/
def raDoResync (sys : Sys σ) : Sys σ :=
  if !sys.ra.resyncPending then sys
  else
    match raFetchWatchlist port (beginResync sys) with
    | (.ok (), sys) =>
      { sys with ra := { sys.ra with wlSeq := sys.ra.resyncSeq } }.note
        (.refetched sys.ra.watchlist.addrs)
    | (.error _, sys) => sys.note (.refetched sys.ra.watchlist.addrs)

/-! ## Fires -/

/-- One step of the unlock celebration. -/
def celebrate (sys : Sys σ) : Sys σ :=
  { sys with ra := { sys.ra with ledCelebrate := sys.ra.ledCelebrate - 1 } }

/-- What a blocking loop does on a frame. -/
def fireBlocking (build : LinkBuild) (sys : Sys σ) : Sys σ :=
  raDoResync port (celebrate (answerQueries port addrQueryRounds (raSendSnapshot port build sys)))

/-- What the pipelined loop does on a frame. -/
def firePipelined (sys : Sys σ) : Sys σ :=
  match raSnapCollect port sys with
  | (true, sys) =>
    celebrate (raPostSnapshot port (raDoResync port (answerQueries port addrQueryRounds sys)))
  | (false, sys) => celebrate sys

/-- A fire at which the frame counter read `ctr`. -/
def fire (loop : MainLoop) (sys : Sys σ) (ctr : UInt32) : Sys σ :=
  match loop with
  | .blocking build => fireBlocking port build { sys with gameFrame := ctr }
  | .pipelined => firePipelined port { sys with gameFrame := ctr }

/-! ## From power-on -/

/-- Bytes of the identification reply. -/
def identifyReplySize : Nat := EspHeader.size + 4

/-- `ra_identify`: whether the adapter answered with its id. -/
def raIdentify (sys : Sys σ) : Bool × Sys σ :=
  let request := raFillHeader raCmdIdentify 0
  let sent := sys.note (.request sys.ra.view request)
  let replied := port.send request identifyReplySize sent.io
  let sys := { sent with io := replied.2 }
  match replied.1 with
  | .error _ => (false, sys)
  | .ok rx =>
    (decide ((EspHeader.read rx 0).magic = raMagicEspToGc ∧ be32 rx EspHeader.size = raDeviceId),
      sys)

/-- Identify until the adapter answers, at most `left` times. -/
def identifyUntilPresent : (left : Nat) → Sys σ → Sys σ
  | 0, sys => sys
  | left + 1, sys =>
    match raIdentify port sys with
    | (true, sys) => sys
    | (false, sys) => identifyUntilPresent left sys

/-- From power-on to the main loop. -/
def powerOn (build : LinkBuild) (io : σ) : Sys σ :=
  match raFetchWatchlist port (identifyUntilPresent port (identifyTries build) (.boot io)) with
  | (.ok (), sys) => raFetchChainTable port sys
  | (.error _, sys) => sys

/-- The main loop over fires at the given frame counters. -/
def runLoop (loop : MainLoop) (io : σ) (ctrs : List UInt32) : Sys σ :=
  ctrs.foldl (fire port loop) (powerOn port loop.build io)

theorem runLoop_snoc (loop : MainLoop) (io : σ) (ctrs : List UInt32) (ctr : UInt32) :
    runLoop port loop io (ctrs ++ [ctr]) = fire port loop (runLoop port loop io ctrs) ctr :=
  List.foldl_concat _ _ _ _

end Loop

end D2xCios.Ra
