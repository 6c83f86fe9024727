import D2xCios.Disk.Servers

/-!
# The storage clients

`sdhc.c` and `usbstorage.c` as they are linked into the disc emulation: each
function sends a request to a server and turns the result into a `bool`. What
such a call has returned is recorded next to the operations it has run; the
record is not part of the program.
-/

namespace D2xCios.Disk

open D2xCios.Dip

/-! ## Calls -/

/-- The functions whose results are recorded. -/
inductive Client where
  | sdhcInit
  | sdhcRead
  | usbstorageInit
  | usbstorageIsInserted
  | usbstorageReadWrite
  | usbstorageReadSectors
  | usbstorageWriteSectors
  | fragRead
  deriving DecidableEq

/-- A call with its success and the operations it has run at the servers. -/
structure Call where
  client : Client
  ret : Bool
  ops : List Operation
  deriving DecidableEq

/-- The statics of the clients, and the servers. -/
structure Clients (ω : Type) where
  /-- `fd` of `sdhc.c` -/
  sdhcFd : Int
  /-- `fd` of `usbstorage.c` -/
  usbFd : Int
  /-- `sectorSz` of `usbstorage.c` -/
  sectorSz : Nat
  /-- `__buffer1`, shared by sector numbers and the sector size. -/
  buffer1 : Nat
  servers : Servers ω
  /-- Every call so far. -/
  calls : List Call

/-- The statics of a module just loaded. -/
def Clients.boot {ω : Type} (world : ω) : Clients ω where
  sdhcFd := -1
  usbFd := -1
  sectorSz := 0
  buffer1 := 0
  servers := Servers.boot world
  calls := []

/-- The call that led from `before` to `after`. -/
def Clients.record {ω : Type} (after before : Clients ω) (client : Client) (ret : Bool) :
    Clients ω :=
  { after with
    calls := after.calls ++
      [⟨client, ret, after.servers.log.drop before.servers.log.length⟩] }

variable {ω : Type} (drivers : Drivers ω)

/-! ## The SD card -/

/-- `sdhc_Init` -/
def sdhcInit (c : Clients ω) : Bool × Clients ω :=
  if c.sdhcFd ≥ 0 then (true, c)
  else
    let (fd, servers) := serveOpen drivers .sdhc c.servers
    if fd < 0 then (false, { c with sdhcFd := fd, servers := servers })
    else
      -- The result of this request is not looked at.
      let (_, servers) := serve drivers .sdhc sdhcIoctlInit {} servers
      (true, { c with sdhcFd := fd, servers := servers })

/-- `sdhc_Read` into a buffer, which may be `NULL`. -/
def sdhcRead (sector numSectors : Nat) (buffer : Option (List UInt8)) (c : Clients ω) :
    Bool × List UInt8 × Clients ω :=
  if c.sdhcFd < 0 then (false, [], c)
  else
    let vector := { word0 := sector, word1 := numSectors, buffer := buffer }
    let (reply, servers) := serve drivers .sdhc sdhcIoctlRead vector c.servers
    let c := { c with servers := servers }
    if reply.ret < 0 then (false, reply.bytes, c) else (true, reply.bytes, c)

/-- `sdhc_Shutdown` -/
def sdhcShutdown (c : Clients ω) : Clients ω :=
  if c.sdhcFd ≥ 0 then { c with sdhcFd := -1, servers := serveClose drivers .sdhc c.servers } else c

/-! ## The USB device -/

/-- `USB_MAX_SECTORS` -/
def usbMaxSectors : Nat := 64

/-- `__usbstorage_Read_Write` -/
def usbstorageReadWrite (write : Bool) (sector numSectors : Nat) (buffer : List UInt8)
    (c : Clients ω) : Bool × List UInt8 × Clients ω :=
  if c.usbFd < 0 then (false, [], c)
  else
    let vector := { word0 := sector, word1 := numSectors, buffer := some buffer }
    let cmd := if write then ioctlUmsWriteSectors else ioctlUmsReadSectors
    let (reply, servers) := serve drivers .usb2 cmd vector c.servers
    let c := { c with buffer1 := sector, servers := servers }
    if reply.ret ≠ 0 then (false, reply.bytes, c) else (true, reply.bytes, c)

/-- The bytes of a transfer with a chunk from `offset` on, which fills up what
lies before it. -/
def chunkAt (bytes : List UInt8) (offset : Nat) (chunk : List UInt8) : List UInt8 :=
  bytes ++ List.replicate (offset - bytes.length) 0 ++ chunk

/-- The loop of `__usbstorage_ReadWriteSectors` behind `cnt` sectors. -/
def usbstorageReadWriteLoop (write : Bool) (sector numSectors : Nat) (buffer : List UInt8)
    (cnt : Nat) (bytes : List UInt8) (c : Clients ω) : Bool × List UInt8 × Clients ω :=
  if cnt < numSectors then
    let count := min (numSectors - cnt) usbMaxSectors
    let offset := c.sectorSz * cnt
    let (ret, chunk, c) :=
      usbstorageReadWrite drivers write (u32 (sector + cnt)) count (buffer.drop offset) c
    let bytes := chunkAt bytes offset chunk
    if ret = false then (false, bytes, c)
    else usbstorageReadWriteLoop write sector numSectors buffer (cnt + count) bytes c
  else (true, bytes, c)
termination_by numSectors - cnt
decreasing_by
  have : usbMaxSectors = 64 := rfl
  omega

/-- `__usbstorage_ReadWriteSectors` -/
def usbstorageReadWriteSectors (write : Bool) (sector numSectors : Nat) (buffer : List UInt8)
    (c : Clients ω) : Bool × List UInt8 × Clients ω :=
  if c.usbFd < 0 then (false, [], c)
  else usbstorageReadWriteLoop drivers write sector numSectors buffer 0 [] c

/-- `__usbstorage_GetCapacity`: the number of sectors, 0 for an error. -/
def usbstorageGetCapacity (c : Clients ω) : Nat × Clients ω :=
  if c.usbFd ≥ 0 then
    let (reply, servers) := serve drivers .usb2 ioctlUmsGetCapacity {} c.servers
    let buffer1 := reply.output.getD c.buffer1
    (wordOf reply.ret, { c with sectorSz := buffer1, buffer1 := buffer1, servers := servers })
  else (0, c)

/-- `usbstorage_Shutdown` -/
def usbstorageShutdown (c : Clients ω) : Clients ω :=
  if c.usbFd ≥ 0 then { c with usbFd := -1, servers := serveClose drivers .usb2 c.servers } else c

/-- `usbstorage_Init` -/
def usbstorageInit (c : Clients ω) : Bool × Clients ω :=
  if c.usbFd ≥ 0 then (true, c)
  else
    let (fd, servers) := serveOpen drivers .usb2 c.servers
    if fd < 0 then (false, { c with usbFd := fd, servers := servers })
    else
      let (reply, servers) := serve drivers .usb2 ioctlUmsInit {} servers
      let c := { c with usbFd := fd, servers := servers }
      if reply.ret ≠ 0 then (false, usbstorageShutdown drivers c)
      else
        let (nbSector, c) := usbstorageGetCapacity drivers c
        if s32 nbSector = 0 then (false, usbstorageShutdown drivers c) else (true, c)

/-- `usbstorage_IsInserted` -/
def usbstorageIsInserted (c : Clients ω) : Bool × Clients ω :=
  let (nbSector, c) := usbstorageGetCapacity drivers c
  (decide (nbSector ≠ 0), c)

/-- `usbstorage_GetSectorSize` -/
def usbstorageGetSectorSize (c : Clients ω) : Nat := if c.usbFd < 0 then 0 else c.sectorSz

/-! ## The clients under `Frag_Read` -/

/-- What the clients offer to `frag.c`, each call recorded. -/
def clientStorage (alloc : Nat → Clients ω → Option Lib.Mem × Clients ω) :
    Storage (Clients ω) where
  usbstorageInit c :=
    let (ret, after) := usbstorageInit drivers c
    (ret, after.record c .usbstorageInit ret)
  sdhcInit c :=
    let (ret, after) := sdhcInit drivers c
    (ret, after.record c .sdhcInit ret)
  usbstorageGetSectorSize := usbstorageGetSectorSize
  usbstorageRead sector numSectors c :=
    let (ret, bytes, after) := usbstorageReadWriteSectors drivers false sector numSectors [] c
    (ret, bytes, after.record c .usbstorageReadSectors ret)
  sdhcRead sector numSectors c :=
    let (ret, bytes, after) := sdhcRead drivers sector numSectors (some []) c
    (ret, bytes, after.record c .sdhcRead ret)
  alloc := alloc

/-! ## Runs -/

/-- What the disc emulation asks of its clients. -/
inductive Request where
  | sdhcInit
  | sdhcRead (sector numSectors : Nat) (buffer : Option (List UInt8))
  | sdhcShutdown
  | usbstorageInit
  | usbstorageIsInserted
  | usbstorageReadWrite (write : Bool) (sector numSectors : Nat) (buffer : List UInt8)
  | usbstorageReadSectors (sector numSectors : Nat)
  | usbstorageWriteSectors (sector numSectors : Nat) (buffer : List UInt8)
  | usbstorageShutdown
  | fragRead (fs : FragState) (ff : FragList) (data len woffset : Nat) (mem sectorBuf : Lib.Mem)
  /-- `MESSAGE_MOUNT` reaches the module on its own. -/
  | messageMount

/-- A request, with what it has returned on record. -/
def Clients.request (alloc : Nat → Clients ω → Option Lib.Mem × Clients ω) (c : Clients ω) :
    Request → Clients ω
  | .sdhcInit =>
    let (ret, after) := sdhcInit drivers c
    after.record c .sdhcInit ret
  | .sdhcRead sector numSectors buffer =>
    let (ret, _, after) := sdhcRead drivers sector numSectors buffer c
    after.record c .sdhcRead ret
  | .sdhcShutdown => sdhcShutdown drivers c
  | .usbstorageInit =>
    let (ret, after) := usbstorageInit drivers c
    after.record c .usbstorageInit ret
  | .usbstorageIsInserted =>
    let (ret, after) := usbstorageIsInserted drivers c
    after.record c .usbstorageIsInserted ret
  | .usbstorageReadWrite write sector numSectors buffer =>
    let (ret, _, after) := usbstorageReadWrite drivers write sector numSectors buffer c
    after.record c .usbstorageReadWrite ret
  | .usbstorageReadSectors sector numSectors =>
    let (ret, _, after) := usbstorageReadWriteSectors drivers false sector numSectors [] c
    after.record c .usbstorageReadSectors ret
  | .usbstorageWriteSectors sector numSectors buffer =>
    let (ret, _, after) := usbstorageReadWriteSectors drivers true sector numSectors buffer c
    after.record c .usbstorageWriteSectors ret
  | .usbstorageShutdown => usbstorageShutdown drivers c
  | .fragRead fs ff data len woffset mem sectorBuf =>
    let (ret, io) :=
      fragRead (clientStorage drivers alloc) fs ff data len woffset ⟨mem, sectorBuf, c⟩
    io.st.record c .fragRead (decide (ret = 0))
  | .messageMount => { c with servers := (usbstorageMount drivers c.servers).2 }

/-- The requests of a run, one after the other. -/
def Clients.run (alloc : Nat → Clients ω → Option Lib.Mem × Clients ω) (c : Clients ω)
    (requests : List Request) : Clients ω :=
  requests.foldl (Clients.request drivers alloc) c

end D2xCios.Disk
