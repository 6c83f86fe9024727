import D2xCios.CiosLib.Results
import Mathlib.Data.UInt
import Mathlib.Data.List.Basic

/-!
# Bulk-only transfers of the USB storage driver

`usbstorage_ReadSectors` and `usbstorage_WriteSectors` of `usbglue.c`, over `__cycle` of
`usbstorage.c`: a command is sent, its data are transferred in parts of at most 4096 bytes,
and the status is read. An attempt that fails is made again, from where its data
transfer has left the length and the buffer.
-/

namespace D2xCios.UsbStorage.Bulk

def cbwSize : Nat := 31
def cbwSignature : UInt32 := 0x43425355
def cbwIn : UInt8 := 0x80
def cbwOut : UInt8 := 0
def cswSize : Nat := 13
def cswSignature : UInt32 := 0x53425355

def scsiRead10 : UInt8 := 0x28
def scsiWrite10 : UInt8 := 0x2A

def cycleRetries : Nat := 3
def maxTransferSize : Nat := 4096

/-- The results of the driver. -/
def usbstorageOk : Int := 0
def eshortwrite : Int := -10002
def eshortread : Int := -10003
def esignature : Int := -10004
def etag : Int := -10005
def estatus : Int := -10006
def edataresidue : Int := -10007
def etimedout : Int := -10008

/-! ## What an attempt meets -/

/-- A command status wrapper. -/
structure Csw where
  signature : UInt32
  tag : UInt32
  status : UInt8

/-- The memory that is cleared for it. -/
def Csw.cleared : Csw := ⟨0, 0, 0⟩

/-- The results of the transfers of one attempt: of the command, of the parts of the data, of the
status, with what it holds, and of the reset if the attempt fails. -/
structure Attempt where
  cbw : Int
  data : Nat → Int
  cswResult : Int
  csw : Csw
  reset : Int

/-- `__USB_BlkMsgTimeout`: an error, or the number of bytes that are moved, no more than asked
for. -/
def blkMsg (result : Int) (wLength : Nat) : Int := if result < 0 then result else min result wLength

/-! ## The command and the status -/

/-- A command block wrapper. -/
structure Cbw where
  signature : UInt32
  tag : UInt32
  dataTransferLength : Nat
  flags : UInt8
  lun : UInt8
  cbLength : UInt8
  cb : List UInt8

/-- What `__send_cbw` puts into the buffer. -/
def cbwFor (tag : UInt32) (lun : UInt8) (len : Nat) (flags : UInt8) (cb : List UInt8) : Cbw :=
  ⟨cbwSignature, tag, len, flags, lun, if cb.length > 6 then 10 else 6, cb⟩

/-- The result of `__send_cbw`. -/
def sendCbw (result : Int) : Int :=
  let retval := blkMsg result cbwSize
  if retval = cbwSize then usbstorageOk
  else if retval > 0 then eshortwrite
  else retval

/-- `__read_csw`: the result, the status and the tag. The status is stored before the tag is
checked. -/
def readCsw (tag : UInt32) (status : UInt8) (result : Int) (csw : Csw) : Int × UInt8 × UInt32 :=
  let retval := blkMsg result cswSize
  if retval > 0 ∧ retval ≠ cswSize then (eshortread, status, tag)
  else if retval < 0 then (retval, status, tag)
  else
    let buf := if retval = cswSize then csw else .cleared
    if buf.signature ≠ cswSignature then (esignature, status, tag)
    else if buf.tag ≠ tag then (etag, buf.status, tag)
    else (usbstorageOk, buf.status, tag + 1)

/-! ## The data -/

/-- `len` and `buffer` of `__cycle`. -/
structure Cursor where
  len : Nat
  buffer : Int

/-- A number of 32 bits. -/
def u32OfInt (x : Int) : Nat := (x % 2 ^ 32).toNat

/-- `len -= retval; buffer += retval;` -/
def Cursor.advance (cursor : Cursor) (retval : Int) : Cursor :=
  ⟨u32OfInt (cursor.len - retval), cursor.buffer + retval⟩

/-- `thisLen` -/
def thisLen (len : Nat) : Nat := if len > maxTransferSize then maxTransferSize else len

/-- The data go through the buffer of the driver: the address is not aligned, or not in MEM2. -/
def staged (buffer : Int) : Bool := buffer % 32 ≠ 0 ∨ buffer / 0x10000000 % 2 = 0

/-- A transfer of data at an address. -/
structure Part where
  address : Int
  length : Nat
  result : Int

/-- The addresses of the bytes it has moved, in order. -/
def Part.bytes (part : Part) : List Int :=
  (List.range part.result.toNat).map fun i : Nat => part.address + i

/-- The number of bytes it touches from its address on: of a read that goes through the buffer of
the driver those that are copied, else all that are asked for. -/
def Part.touched (write : Bool) (part : Part) : Nat :=
  if write = false ∧ staged part.address = true then part.result.toNat else part.length

/-- The transfer of the data, so far. -/
structure Phase where
  retval : Int
  cursor : Cursor
  parts : List Part

/-- One part of a write; and whether the loop goes on. -/
def writePart (retval : Int) (thisLen : Nat) (phase : Phase) : Phase × Bool :=
  if retval = etimedout then ({ phase with retval := retval }, false)
  else if retval < 0 then ({ phase with retval := edataresidue }, false)
  else if retval ≠ thisLen then ({ phase with retval := edataresidue }, false)
  else ({ phase with retval := retval, cursor := phase.cursor.advance retval }, true)

/-- One part of a read. -/
def readPart (retval : Int) (thisLen : Nat) (phase : Phase) : Phase × Bool :=
  if retval = etimedout then ({ phase with retval := retval }, false)
  else
    let phase := { phase with retval := retval, cursor := phase.cursor.advance retval }
    if retval ≠ thisLen then (phase, false) else (phase, true)

/-- The loop over the data. A part after which it goes on takes `thisLen` off the length, so that
there are no more than `transfers len`. -/
def transferLoop (write : Bool) (data : Nat → Int) : Nat → Nat → Phase → Phase
  | 0, _, phase => phase
  | left + 1, i, phase =>
    if phase.cursor.len = 0 then phase
    else
      let n := thisLen phase.cursor.len
      let retval := blkMsg (data i) n
      let phase := { phase with parts := phase.parts ++ [⟨phase.cursor.buffer, n, retval⟩] }
      let (phase, more) :=
        if write then writePart retval n phase else readPart retval n phase
      if more then transferLoop write data left (i + 1) phase else phase

def transfers (len : Nat) : Nat := (len + (maxTransferSize - 1)) / maxTransferSize

/-! ## __cycle -/

/-- An attempt that was made: the command, the bytes of it that were sent, the data, and the status
if it was valid. -/
structure Made where
  cbw : Cbw
  sent : Int
  parts : List Part
  status : Option UInt8

/-- The variables of `__cycle`, the tag of the device, and the attempts that were made. -/
structure Cycle where
  retval : Int
  cursor : Cursor
  status : UInt8
  tag : UInt32
  made : List Made

/-- An attempt fails: the device is reset, which may time out. -/
def Cycle.failed (cycle : Cycle) (reset retval : Int) (made : Made) : Cycle :=
  { cycle with
    retval := if reset = etimedout then etimedout else retval
    made := cycle.made ++ [made] }

/-- One attempt. -/
def attempt (write : Bool) (lun : UInt8) (cb : List UInt8) (meets : Attempt) (cycle : Cycle) :
    Cycle :=
  let cbw := cbwFor cycle.tag lun cycle.cursor.len (if write then cbwOut else cbwIn) cb
  let sent := blkMsg meets.cbw cbwSize
  let retval := sendCbw meets.cbw
  if retval < 0 then cycle.failed meets.reset retval ⟨cbw, sent, [], none⟩
  else
    let phase := transferLoop write meets.data (transfers cycle.cursor.len) 0
      ⟨retval, cycle.cursor, []⟩
    let cycle := { cycle with cursor := phase.cursor }
    if phase.retval < 0 then cycle.failed meets.reset phase.retval ⟨cbw, sent, phase.parts, none⟩
    else
      let (retval, status, tag) := readCsw cycle.tag cycle.status meets.cswResult meets.csw
      let cycle := { cycle with status := status, tag := tag }
      if retval < 0 then cycle.failed meets.reset retval ⟨cbw, sent, phase.parts, none⟩
      else
        { cycle with
          retval := usbstorageOk
          made := cycle.made ++ [⟨cbw, sent, phase.parts, some status⟩] }

/-- The loop over the attempts, from attempt `k` on. -/
def attemptsFrom (write : Bool) (lun : UInt8) (cb : List UInt8) (meets : Nat → Attempt) :
    Nat → Nat → Cycle → Cycle
  | 0, _, cycle => cycle
  | retries + 1, k, cycle =>
    if cycle.retval = etimedout then cycle
    else
      let cycle := attempt write lun cb (meets k) cycle
      if cycle.retval < 0 then attemptsFrom write lun cb meets retries (k + 1) cycle else cycle

/-- What a request meets: its attempts, and the reset after the last. -/
structure Bus where
  attempts : Nat → Attempt
  lastReset : Int

/-- `__cycle` -/
def cycle (write : Bool) (lun : UInt8) (cb : List UInt8) (bus : Bus) (tag : UInt32) (len : Nat)
    (buffer : UInt32) : Cycle :=
  let done := attemptsFrom write lun cb bus.attempts (cycleRetries + 1) 0
    ⟨usbstorageOk, ⟨len, buffer.toNat⟩, 0, tag, []⟩
  if done.retval < 0 ∧ done.retval ≠ etimedout ∧ bus.lastReset = etimedout then
    { done with retval := etimedout }
  else done

/-! ## Sectors -/

/-- What `usbstorage_handle` holds of the device. -/
structure Handle where
  maxLun : UInt8
  sectorSize : UInt8 → UInt32
  tag : UInt32

/-- `USBStorage_Read` and `USBStorage_Write` send the same command but for its operation. -/
def command (operation lun : UInt8) (sector : UInt32) (nSectors : UInt16) : List UInt8 :=
  [operation, lun <<< 5, (sector >>> 24).toUInt8, (sector >>> 16).toUInt8, (sector >>> 8).toUInt8,
    sector.toUInt8, 0, (nSectors >>> 8).toUInt8, nSectors.toUInt8, 0]

/-- The sector and the number of sectors that such a command names. -/
def commandSector (cb : List UInt8) : Nat :=
  (((cb.getD 2 0).toNat * 256 + (cb.getD 3 0).toNat) * 256 + (cb.getD 4 0).toNat) * 256 +
    (cb.getD 5 0).toNat

def commandCount (cb : List UInt8) : Nat := (cb.getD 7 0).toNat * 256 + (cb.getD 8 0).toNat

/-- `USBStorage_Read` and `USBStorage_Write`: the result and the attempts that were made. -/
def transfer (write : Bool) (dev : Handle) (bus : Bus) (lun : UInt8) (sector : UInt32)
    (nSectors : UInt16) (buffer : UInt32) : Int × List Made :=
  if dev.maxLun ≤ lun ∨ dev.sectorSize lun = 0 then (ipcEinval, [])
  else
    let cb := command (if write then scsiWrite10 else scsiRead10) lun sector nSectors
    let done := cycle write lun cb bus dev.tag
      (u32OfInt (nSectors.toNat * (dev.sectorSize lun).toNat)) buffer
    if done.retval > 0 ∧ done.status ≠ 0 then (estatus, done.made) else (done.retval, done.made)

/-- `__mounted`, `__lun` and `__usbfd`. -/
structure Glue where
  mounted : Bool
  lun : UInt8
  usbfd : Handle

/-- A request. -/
structure Request where
  write : Bool
  sector : UInt32
  numSectors : UInt32
  buffer : UInt32

/-- `usbstorage_ReadSectors` and `usbstorage_WriteSectors`. The number of sectors is passed on with
16 bits. -/
def sectors (glue : Glue) (bus : Bus) (request : Request) : Bool × List Made :=
  if glue.mounted = false then (false, [])
  else
    let (retval, made) := transfer request.write glue.usbfd bus glue.lun request.sector
      request.numSectors.toUInt16 request.buffer
    (retval ≥ 0, made)

/-! ## All or error -/

/-- The bytes that a request asks for. -/
def Request.size (request : Request) (glue : Glue) : Nat :=
  request.numSectors.toNat * (glue.usbfd.sectorSize glue.lun).toNat

/-- An attempt has sent the command for the sectors of the request, has moved all its bytes, in
order, and has received a valid status of 0. -/
structure Made.Exact (made : Made) (glue : Glue) (request : Request) : Prop where
  sent : made.sent = cbwSize
  sector : commandSector made.cbw.cb = request.sector.toNat
  count : commandCount made.cbw.cb = request.numSectors.toNat
  moved : made.parts.flatMap Part.bytes =
    (List.range (request.size glue)).map fun i : Nat => (request.buffer.toNat : Int) + i
  status : made.status = some 0

/-- A part touches nothing but the buffer of the request. -/
def Part.Inside (part : Part) (glue : Glue) (request : Request) : Prop :=
  part.touched request.write = 0 ∨ (request.buffer.toNat : Int) ≤ part.address ∧
    part.address + part.touched request.write ≤ (request.buffer.toNat : Int) + request.size glue

/-- A request succeeds only with a last attempt that is exact, and no attempt touches memory outside
its buffer. -/
def AllOrError (glue : Glue) (bus : Bus) (request : Request) : Prop :=
  ((sectors glue bus request).1 = true →
    ∃ last, (sectors glue bus request).2.getLast? = some last ∧ last.Exact glue request) ∧
  ∀ made ∈ (sectors glue bus request).2, ∀ part ∈ made.parts, part.Inside glue request

end D2xCios.UsbStorage.Bulk
