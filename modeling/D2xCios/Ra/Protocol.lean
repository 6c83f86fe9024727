import D2xCios.Lib.Words

/-!
# Console link protocol

The constants and wire headers of the console protocol. All integers on the wire
are big-endian, which is also the byte order of the processor that runs the
module, so a header is read by copying its bytes.
-/

namespace D2xCios.Ra

open D2xCios.Lib

/-- Magic bytes for packet validation. -/
def raMagicGcToEsp : UInt8 := 0x52
def raMagicEspToGc : UInt8 := 0xAE

/-- Value of a successful device identification. -/
def raDeviceId : UInt32 := 0x52410001

/-- Maximum number of watched addresses. -/
def raMaxWatchAddrs : Nat := 6144

/-- Number of addresses per watchlist chunk. -/
def raWatchlistChunkAddrs : Nat := 1024

/-- Most addresses one query may ask for. -/
def raAddrQueryMax : Nat := 512

/-- Size of the snapshot reply buffer: the longest event, rounded up to 32 bytes. -/
def raSnapRxBufSz : Nat := ((6 + 4 + raAddrQueryMax * 4) + 31) / 32 * 32

/-! ## Commands, console to adapter -/

def raCmdIdentify : UInt8 := 0x01
def raCmdSnapshot : UInt8 := 0x03
def raCmdGetWatchlistChunk : UInt8 := 0x07
def raCmdAddrResponse : UInt8 := 0x08
def raCmdDebugLog : UInt8 := 0x09
def raCmdGetChainChunk : UInt8 := 0x0B

/-! ## Events, adapter to console -/

def raEvtAchievement : UInt8 := 0x01
def raEvtWatchlistUpdate : UInt8 := 0x02
def raEvtAddrQuery : UInt8 := 0x0A
def raEvtWatchlistAppend : UInt8 := 0x0B
def raEvtWatchlistRemoveIdx : UInt8 := 0x0E

/-- Header of every packet from the adapter. -/
structure EspHeader where
  magic : UInt8
  status : UInt8
  eventType : UInt8
  eventCount : UInt8
  dataLen : UInt16
  deriving DecidableEq

/-- Bytes an `EspHeader` takes on the wire. -/
def EspHeader.size : Nat := 6

/-- Copy a header out of a byte buffer. -/
def EspHeader.read (buf : Mem) (offset : Nat) : EspHeader where
  magic := buf offset
  status := buf (offset + 1)
  eventType := buf (offset + 2)
  eventCount := buf (offset + 3)
  dataLen := be16 buf (offset + 4)

/-- Header of a packet to the adapter, as bytes. -/
def raFillHeader (command : UInt8) (payloadLen : UInt16) : List UInt8 :=
  raMagicGcToEsp :: command :: bytes16 payloadLen

end D2xCios.Ra
