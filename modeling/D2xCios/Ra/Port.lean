import D2xCios.Ra.Chain
import D2xCios.Ra.Parse
import D2xCios.Usb.Link

/-!
# The module and its surroundings

`Port` lists what the module asks of the outside: game memory, the link to the
adapter, and the stores into the static buffers the link transfers from and to.
`Sys` is the module's statics together with the state of the outside. Every
operation of the main program takes a port and leads from one `Sys` to the next,
so that a statement about it holds for every outside.

`Sys.trace` is a ghost: it records what was sent, parsed, answered and fetched,
latest first, with the replicated state at that moment.
-/

namespace D2xCios.Ra

open D2xCios.Lib

/-- The static buffers an exchange may use. -/
inductive Buffer where
  /-- `ra_snap_tx_buf` -/
  | snapTx
  /-- `ra_snap_rx_buf` -/
  | snapRx
  /-- `ra_chunk_rx_buf` -/
  | chunkRx
  deriving DecidableEq

/-- The outside of the module. -/
structure Port (σ : Type) where
  /-- Game memory while one message is built. -/
  ppc : σ → PpcImage × σ
  /-- A static buffer is stored to. -/
  store : Buffer → σ → σ
  /-- `ra_send`: the reply bytes behind those the request clocked out. -/
  send : List UInt8 → Nat → σ → Except Int Mem × σ
  /-- `ra_send_phase_b`: the contents of the reply buffer, or the error. -/
  phaseB : List UInt8 → Buffer → σ → Except Int Mem × σ
  /-- The exchange of a debug message; its reply is dropped. -/
  debug : List UInt8 → σ → σ
  /-- `ra_usb_post` from `ra_snap_tx_buf` to `ra_snap_rx_buf`. -/
  post : List UInt8 → σ → Except Int Unit × σ
  /-- `ra_usb_posted`. -/
  posted : σ → Bool
  /-- `ra_usb_reap`: the contents of the posted reply buffer, or the error. -/
  reap : σ → Except Int Mem × σ
  /-- The reply buffer of an exchange that is still on the wire, if there is one. -/
  inFlight : σ → Option Buffer

/-- An outside that answers one exchange after the other from a script, over fixed game
memory. Behind the script every exchange times out. -/
def Port.scripted (image : PpcImage) : Port (List (Except Int Mem)) where
  ppc script := (image, script)
  store _ script := script
  send _ _ script := (script.headD (.error raUsbEtimeout), script.tail)
  phaseB _ _ script := (script.headD (.error raUsbEtimeout), script.tail)
  debug _ script := script
  post _ script := (.ok (), script)
  posted script := !script.isEmpty
  reap script := (script.headD (.error raUsbEtimeout), script.tail)
  inFlight _ := none

/-- What the adapter's replica of the module is about. -/
structure View where
  watchlist : List UInt32
  wlSeq : UInt16
  pending : List UInt32
  deriving DecidableEq

/-- The replicated part of the statics. -/
def RaState.view (s : RaState) : View where
  watchlist := s.watchlist.addrs
  wlSeq := s.wlSeq
  pending := s.pending.addrs

/-- What the module did. -/
inductive Event where
  /-- A function set out to build a request whose reply goes to `rx`, while the
  exchange on the wire had its reply in `wire`. -/
  | begins (rx : Buffer) (wire : Option Buffer)
  /-- A request was handed to the link. -/
  | request (view : View) (bytes : List UInt8)
  /-- A reply was parsed in state `before`. -/
  | parsed (before : RaState) (reply : Mem)
  /-- The exchange that answers `query` succeeded. -/
  | answered (query : List UInt32)
  /-- A resync set out to fetch the list anew while `pending` waited for an answer. -/
  | refetch (pending : List UInt32)
  /-- The resync left this list behind. -/
  | refetched (watchlist : List UInt32)

/-- The module and its outside. -/
structure Sys (σ : Type) where
  ra : RaState
  chain : ChainStatics
  frameCounter : UInt32
  gameFrame : UInt32
  io : σ
  trace : List Event

namespace Sys

variable {σ : Type}

/-- Power-on. -/
def boot (io : σ) : Sys σ where
  ra := .boot
  chain := .boot
  frameCounter := 0
  gameFrame := 0
  io := io
  trace := []

def note (event : Event) (sys : Sys σ) : Sys σ := { sys with trace := event :: sys.trace }

/-- Set out to build a request with the reply in `rx`. -/
def begins (port : Port σ) (rx : Buffer) (sys : Sys σ) : Sys σ :=
  sys.note (.begins rx (port.inFlight sys.io))

/-- Store to a static buffer. -/
def store (port : Port σ) (buffer : Buffer) (sys : Sys σ) : Sys σ :=
  { sys with io := port.store buffer sys.io }

/-- Look at game memory. -/
def ppc (port : Port σ) (sys : Sys σ) : PpcImage × Sys σ :=
  ((port.ppc sys.io).1, { sys with io := (port.ppc sys.io).2 })

/-- One exchange through `ra_send_phase_b`. -/
def phaseB (port : Port σ) (tx : List UInt8) (rx : Buffer) (sys : Sys σ) :
    Except Int Mem × Sys σ :=
  let sent := sys.note (.request sys.ra.view tx)
  ((port.phaseB tx rx sent.io).1, { sent with io := (port.phaseB tx rx sent.io).2 })

/-- `ra_parse_response` on the reply. -/
def parse (reply : Mem) (sys : Sys σ) : Sys σ :=
  { sys.note (.parsed sys.ra reply) with ra := (raParseResponse sys.ra reply).state }

end Sys

/-! ## Debug channel -/

/-- The characters of a diagnostic. -/
def ascii (text : String) : List UInt8 := text.toList.map fun c => UInt8.ofNat c.toNat

/-- `ra_dbg_u16_dec`. -/
def raDbgU16Dec (v : UInt16) : List UInt8 :=
  (Nat.toDigits 10 v.toNat).map fun c => UInt8.ofNat c.toNat

/-- `ra_dbg_hex`. -/
def raDbgHex (nibble : UInt8) : UInt8 :=
  if nibble < 10 then 48 + nibble else 65 + (nibble - 10)

/-- `ra_dbg_hex_bytes` without a separator. -/
def raDbgHexBytes (bytes : List UInt8) : List UInt8 :=
  bytes.flatMap fun (byte : UInt8) => [raDbgHex (byte >>> 4), raDbgHex (byte &&& 0xF)]

/-- A debug-log request. -/
def debugRequest (msg : List UInt8) : List UInt8 :=
  raFillHeader raCmdDebugLog (UInt16.ofNat (1 + msg.length)) ++ UInt8.ofNat msg.length :: msg

/-- `ra_debug_send_always`. Its gated sibling sends nothing in this build. -/
def raDebugSendAlways {σ : Type} (port : Port σ) (msg : List UInt8) (sys : Sys σ) : Sys σ :=
  let sent := sys.note (.request sys.ra.view (debugRequest msg))
  { sent with io := port.debug (debugRequest msg) sent.io }

section DebugChannel

variable {σ : Type} (port : Port σ) (msg : List UInt8) (sys : Sys σ)

@[simp] theorem raDebugSendAlways_ra : (raDebugSendAlways port msg sys).ra = sys.ra := rfl

@[simp] theorem raDebugSendAlways_chain : (raDebugSendAlways port msg sys).chain = sys.chain := rfl

end DebugChannel

end D2xCios.Ra
