import D2xCios.Dip.Frag

/-!
# The storage servers

The USB module serves two devices from one thread: `sdhc_server.c` over
`sdio.c` answers "/dev/sdio/sdhc", and `main.c` over `usbglue.c` answers
"/dev/usb2". A request runs an operation of the device and answers with its
negated success, except for the capacity, whose answer is the number of sectors.

The controllers with everything that can fail in them are the parameter
`Drivers`. The log of operations is not part of the program: it records what
every request has run and whether that succeeded.
-/

namespace D2xCios.Disk

/-- `SDHC_FD` -/
def sdhcFd : Int := 0x5D4CFD

/-- The contents of an `s32` as a `u32`. -/
def wordOf (ret : Int) : Nat := (ret % 4294967296).toNat

/-- The contents of a `u32` as an `s32`. -/
def s32 (word : Nat) : Int := if word < 2147483648 then word else (word : Int) - 4294967296

/-! ## What lies below the servers -/

/-- What the servers ask of `libwbfs` over one of the devices. -/
structure Wbfs (ω : Type) where
  /-- `wbfs_open_hd` and `wbfs_open_disc`: 0, or the code of the one that failed. -/
  openDisc (discid : List UInt8) : ω → Int × ω
  /-- `wbfs_disc_read`, 1 without an open disc. -/
  read (len offset : Nat) : ω → Int × List UInt8 × ω

/-- What the servers ask of the SD controller and of the USB stack. -/
structure Drivers (ω : Type) where
  /-- `Stealth_CheckRunningTitle` -/
  checkRunningTitle : ω → Bool × ω
  /-- The descriptor that comes with a message to open a device. -/
  resultfd : ω → Int × ω
  /-- `os_open` of "/dev/sdio/slot0". -/
  openSlot : ω → Int × ω
  /-- `__sd0_initio` -/
  initio : ω → Bool × ω
  /-- `__sd0_select` -/
  select : ω → Int × ω
  /-- `__sd0_deselect` -/
  deselect : ω → ω
  /-- `__sd0_sdhc` -/
  sdhc : ω → Bool
  /-- `SDIO_CMD_READMULTIBLOCK`: the result and the bytes stored. -/
  readMultiblock (sector count : Nat) : ω → Int × List UInt8 × ω
  /-- `SDIO_CMD_WRITEMULTIBLOCK` -/
  writeMultiblock (sector count : Nat) (data : List UInt8) : ω → Int × ω
  /-- `SDIO_STATUS_CARD_INSERTED` in the status of the card. -/
  cardInserted : ω → Bool × ω
  /-- `USB_Init` -/
  usbInit : ω → Int × ω
  /-- `USBStorage_Initialize` -/
  usbStorageInitialize : ω → Int × ω
  /-- The search for a device that can be mounted. -/
  findDevice : ω → Bool × ω
  /-- `USBStorage_Read`: the result and the bytes stored. -/
  usbStorageRead (sector count : Nat) : ω → Int × List UInt8 × ω
  /-- `USBStorage_Write` -/
  usbStorageWrite (sector count : Nat) (data : List UInt8) : ω → Int × ω
  /-- `USBStorage_ReadCapacity`: the result, the sector size and the number of sectors. -/
  usbStorageReadCapacity : ω → Int × Nat × Nat × ω
  /-- `USBStorage_Close` -/
  usbStorageClose : ω → ω
  sdhcWbfs : Wbfs ω
  usbWbfs : Wbfs ω

/-! ## The state of the module -/

/-- The operations that a request can run. -/
inductive Op where
  | sdStartup
  | sdRead
  | sdWrite
  | sdInserted
  | usbStartup
  | usbRead
  | usbWrite
  | usbCapacity
  | usbInserted
  | usbShutdown
  | wbfsOpen
  | wbfsRead
  deriving DecidableEq

/-- An operation that was run. -/
structure Operation where
  op : Op
  ok : Bool
  deriving DecidableEq

/-- The statics of the module. -/
structure Servers (ω : Type) where
  /-- `__sdio_initialized` -/
  sdioInitialized : Bool
  /-- `__sd0_initialized` -/
  sd0Initialized : Bool
  /-- `__inited` -/
  inited : Bool
  /-- `__mounted` -/
  mounted : Bool
  /-- Whether `MESSAGE_MOUNT` lies in the queue. -/
  mountPosted : Bool
  world : ω
  /-- Every operation that a request has run. -/
  log : List Operation

/-- The statics of a module just loaded. -/
def Servers.boot {ω : Type} (world : ω) : Servers ω where
  sdioInitialized := false
  sd0Initialized := false
  inited := false
  mounted := false
  mountPosted := false
  world := world
  log := []

variable {ω : Type} (drivers : Drivers ω)

/-! ## The SD card -/

/-- `sdio_Deinitialize` -/
def sdioDeinitialize (s : Servers ω) : Servers ω := { s with sdioInitialized := false }

/-- `sdio_Startup` -/
def sdioStartup (s : Servers ω) : Bool × Servers ω :=
  if s.sdioInitialized then (true, s)
  else
    let (fd, world) := drivers.openSlot s.world
    if fd < 0 then (false, sdioDeinitialize { s with world := world })
    else
      let (ready, world) := drivers.initio world
      if ready = false then (false, sdioDeinitialize { s with world := world })
      else (true, { s with sdioInitialized := true, sd0Initialized := true, world := world })

/-- `sdio_Shutdown` -/
def sdioShutdown (s : Servers ω) : Bool × Servers ω :=
  if s.sd0Initialized = false then (false, s)
  else (true, { sdioDeinitialize s with sd0Initialized := false })

/-- The bytes of a buffer that a later transfer has stored into. -/
def stored (before after : List UInt8) : List UInt8 := after ++ before.drop after.length

/-- The loop of `sdio_ReadSectors` with `left` attempts remaining. On a card that
is not SDHC each attempt scales `sector` again. -/
def sdioReadLoop (count : Nat) :
    (left sector : Nat) → List UInt8 → ω → Bool × List UInt8 × ω
  | 0, _, data, world => (false, data, world)
  | left + 1, sector, data, world =>
    let (ret, world) := drivers.select world
    if ret < 0 then sdioReadLoop count left sector data world
    else
      let sector := if drivers.sdhc world then sector else u32 (sector * 512)
      let (ret, bytes, world) := drivers.readMultiblock sector count world
      let world := drivers.deselect world
      if ret ≥ 0 then (true, stored data bytes, world)
      else sdioReadLoop count left sector (stored data bytes) world

/-- `sdio_ReadSectors` into a buffer, which may be `NULL`. -/
def sdioReadSectors (sector count : Nat) (buffer : Option (List UInt8)) (world : ω) :
    Bool × List UInt8 × ω :=
  if buffer = none then (false, [], world)
  else sdioReadLoop drivers count 10 sector [] world

/-- The loop of `sdio_WriteSectors` with `left` attempts remaining. -/
def sdioWriteLoop (count : Nat) (data : List UInt8) : (left sector : Nat) → ω → Bool × ω
  | 0, _, world => (false, world)
  | left + 1, sector, world =>
    let (ret, world) := drivers.select world
    if ret < 0 then sdioWriteLoop count data left sector world
    else
      let sector := if drivers.sdhc world then sector else u32 (sector * 512)
      let (ret, world) := drivers.writeMultiblock sector count data world
      let world := drivers.deselect world
      if ret ≥ 0 then (true, world) else sdioWriteLoop count data left sector world

/-- `sdio_WriteSectors` from a buffer, which may be `NULL`. -/
def sdioWriteSectors (sector count : Nat) (buffer : Option (List UInt8)) (world : ω) : Bool × ω :=
  if buffer = none then (false, world)
  else sdioWriteLoop drivers count (buffer.getD []) 10 sector world

/-! ## The USB device -/

/-- `usbstorage_Startup` of `usbglue.c` -/
def usbstorageStartup (s : Servers ω) : Bool × Servers ω :=
  if s.inited then (true, { s with mountPosted := true })
  else
    let (ret, world) := drivers.usbInit s.world
    if ret < 0 then (false, { s with world := world })
    else
      let (ret, world) := drivers.usbStorageInitialize world
      if ret < 0 then (false, { s with world := world })
      else (true, { s with inited := true, mountPosted := true, world := world })

/-- `usbstorage_IsInserted` of `usbglue.c` -/
def usbstorageMount (s : Servers ω) : Bool × Servers ω :=
  if s.inited = false then (false, s)
  else
    let (found, world) := drivers.findDevice s.world
    (found, { s with mounted := found, world := world })

/-- `usbstorage_ReadSectors` of `usbglue.c` -/
def usbglueReadSectors (sector count : Nat) (s : Servers ω) : Bool × List UInt8 × Servers ω :=
  if s.mounted = false then (false, [], s)
  else
    let (ret, bytes, world) := drivers.usbStorageRead sector count s.world
    (decide (ret ≥ 0), bytes, { s with world := world })

/-- `usbstorage_WriteSectors` of `usbglue.c` -/
def usbglueWriteSectors (sector count : Nat) (data : List UInt8) (s : Servers ω) :
    Bool × Servers ω :=
  if s.mounted = false then (false, s)
  else
    let (ret, world) := drivers.usbStorageWrite sector count data s.world
    (decide (ret ≥ 0), { s with world := world })

/-- `usbstorage_ReadCapacity`: its success, the sector size and the number of sectors. -/
def usbstorageReadCapacity (s : Servers ω) : Bool × Nat × Nat × Servers ω :=
  if s.mounted = false then (false, 0, 0, s)
  else
    let (ret, sectorSz, numSectors, world) := drivers.usbStorageReadCapacity s.world
    (decide (ret ≥ 0), sectorSz, numSectors, { s with world := world })

/-- `usbstorage_Shutdown` of `usbglue.c` -/
def usbglueShutdown (s : Servers ω) : Bool × Servers ω :=
  (true, { s with world := drivers.usbStorageClose s.world })

/-! ## Requests -/

/-- What the vector of a request leads to: the words at `vector[0].data` and
`vector[1].data`, the disc id at `vector[0].data`, and the buffer at
`vector[2].data`. -/
structure Ioctlv where
  word0 : Nat := 0
  word1 : Nat := 0
  discid : List UInt8 := []
  buffer : Option (List UInt8) := none

/-- What a request hands back: the result, the word stored at `vector[0].data`
if there is one, and the bytes stored at `vector[2].data`. -/
structure Reply where
  ret : Int
  output : Option Nat := none
  bytes : List UInt8 := []
  deriving DecidableEq

/-- The operation `op` of a request has been run. -/
def Servers.ran {ω : Type} (s : Servers ω) (op : Op) (ok : Bool) : Servers ω :=
  { s with log := s.log ++ [⟨op, ok⟩] }

/-- The status of an operation in a reply. -/
def statusOf (ok : Bool) : Int := if ok then 0 else 1

/-- The commands of `SDHC_Ioctlv`. -/
def sdhcIoctlInit : Nat := 0x01
def sdhcIoctlRead : Nat := 0x02
def sdhcIoctlWrite : Nat := 0x03
def sdhcIoctlIsinserted : Nat := 0x04

/-- The commands of `__USB_Ioctlv`, of which some have a second code. -/
def ioctlUsbInit : Nat := 0x01
def ioctlUsbRead : Nat := 0x02
def ioctlUsbWrite : Nat := 0x03
def ioctlUsbIsinserted : Nat := 0x04
def ioctlUsbUnmount : Nat := 0x05
def ioctlUmsInit : Nat := 0x554D5301
def ioctlUmsGetCapacity : Nat := 0x554D5302
def ioctlUmsReadSectors : Nat := 0x554D5303
def ioctlUmsWriteSectors : Nat := 0x554D5304

/-- The commands that both devices share. -/
def ioctlWbfsOpenDisc : Nat := 0x57465301
def ioctlWbfsReadDisc : Nat := 0x57465302

/-- `__SDHC_WBFS_OpenDisc` -/
def sdhcWbfsOpenDisc (discid : List UInt8) (s : Servers ω) : Int × Servers ω :=
  let (ok, s) := sdioStartup drivers s
  if ok = false then (1, s)
  else
    let (ret, world) := drivers.sdhcWbfs.openDisc discid s.world
    (ret, { s with world := world })

/-- `WBFS_OpenDisc` -/
def wbfsOpenDisc (discid : List UInt8) (s : Servers ω) : Int × Servers ω :=
  let (ok, s) := usbstorageStartup drivers s
  if ok = false then (1, s)
  else
    let (ok, _, _, s) := usbstorageReadCapacity drivers s
    if ok = false then (2, s)
    else
      let (ret, world) := drivers.usbWbfs.openDisc discid s.world
      (ret, { s with world := world })

/-- The branch of either server that reads an open WBFS disc. -/
def wbfsReadDisc (wbfs : Wbfs ω) (vector : Ioctlv) (s : Servers ω) : Reply × Servers ω :=
  let (ret, bytes, world) := wbfs.read vector.word1 vector.word0 s.world
  ({ ret := if ret ≠ 0 then 0x8000 else ret, bytes := bytes },
    { s with world := world }.ran .wbfsRead (decide (ret = 0)))

/-- `SDHC_Ioctlv` -/
def sdhcIoctlv (cmd : Nat) (vector : Ioctlv) (s : Servers ω) : Reply × Servers ω :=
  if cmd = sdhcIoctlInit then
    let (ok, s) := sdioStartup drivers s
    ({ ret := statusOf ok }, s.ran .sdStartup ok)
  else if cmd = sdhcIoctlRead then
    let (ok, bytes, world) :=
      sdioReadSectors drivers vector.word0 vector.word1 vector.buffer s.world
    ({ ret := statusOf ok, bytes := bytes }, { s with world := world }.ran .sdRead ok)
  else if cmd = sdhcIoctlWrite then
    let (ok, world) := sdioWriteSectors drivers vector.word0 vector.word1 vector.buffer s.world
    ({ ret := statusOf ok }, { s with world := world }.ran .sdWrite ok)
  else if cmd = sdhcIoctlIsinserted then
    let (ok, world) := drivers.cardInserted s.world
    ({ ret := statusOf ok }, { s with world := world }.ran .sdInserted ok)
  else if cmd = ioctlWbfsOpenDisc then
    let (ret, s) := sdhcWbfsOpenDisc drivers vector.discid s
    ({ ret := ret }, s.ran .wbfsOpen (decide (ret = 0)))
  else if cmd = ioctlWbfsReadDisc then wbfsReadDisc drivers.sdhcWbfs vector s
  else ({ ret := ipcEinval }, s)

/-- `__USB_Ioctlv` -/
def usbIoctlv (cmd : Nat) (vector : Ioctlv) (s : Servers ω) : Reply × Servers ω :=
  if cmd = ioctlUsbInit ∨ cmd = ioctlUmsInit then
    let (ok, s) := usbstorageStartup drivers s
    ({ ret := statusOf ok }, s.ran .usbStartup ok)
  else if cmd = ioctlUsbRead ∨ cmd = ioctlUmsReadSectors then
    let (ok, bytes, s) := usbglueReadSectors drivers vector.word0 vector.word1 s
    ({ ret := statusOf ok, bytes := bytes }, s.ran .usbRead ok)
  else if cmd = ioctlUsbWrite ∨ cmd = ioctlUmsWriteSectors then
    let (ok, s) := usbglueWriteSectors drivers vector.word0 vector.word1 (vector.buffer.getD []) s
    ({ ret := statusOf ok }, s.ran .usbWrite ok)
  else if cmd = ioctlUmsGetCapacity then
    let (ok, sectorSz, nbSector, s) := usbstorageReadCapacity drivers s
    -- A success overwrites the status with the number of sectors.
    (if ok then { ret := s32 nbSector, output := some sectorSz } else { ret := statusOf ok },
      s.ran .usbCapacity ok)
  else if cmd = ioctlUsbIsinserted then
    let (ok, s) := usbstorageMount drivers s
    ({ ret := statusOf ok }, s.ran .usbInserted ok)
  else if cmd = ioctlUsbUnmount then
    let (ok, s) := usbglueShutdown drivers s
    ({ ret := statusOf ok }, s.ran .usbShutdown ok)
  else if cmd = ioctlWbfsOpenDisc then
    let (ret, s) := wbfsOpenDisc drivers vector.discid s
    ({ ret := ret }, s.ran .wbfsOpen (decide (ret = 0)))
  else if cmd = ioctlWbfsReadDisc then wbfsReadDisc drivers.usbWbfs vector s
  else ({ ret := ipcEinval }, s)

/-! ## The queue of the module -/

/-- `MESSAGE_MOUNT` is taken out of the queue. -/
def usbCallback (s : Servers ω) : Servers ω :=
  if s.mountPosted then (usbstorageMount drivers { s with mountPosted := false }).2 else s

/-- The devices of the module. -/
inductive Device where
  | sdhc
  | usb2
  deriving DecidableEq

/-- `IOS_OPEN`: opening is blocked while a title is running. -/
def serveOpen (device : Device) (s : Servers ω) : Int × Servers ω :=
  let s := usbCallback drivers s
  let (running, world) := drivers.checkRunningTitle s.world
  if running then (ipcEnoent, { s with world := world })
  else
    match device with
    | .sdhc => (sdhcFd, { s with world := world })
    | .usb2 =>
      let (fd, world) := drivers.resultfd world
      (fd, { s with world := world })

/-- A request of a client: what was posted earlier comes first. -/
def serve (device : Device) (cmd : Nat) (vector : Ioctlv) (s : Servers ω) : Reply × Servers ω :=
  match device with
  | .sdhc => sdhcIoctlv drivers cmd vector (usbCallback drivers s)
  | .usb2 => usbIoctlv drivers cmd vector (usbCallback drivers s)

/-- `IOS_CLOSE` -/
def serveClose (device : Device) (s : Servers ω) : Servers ω :=
  match device with
  | .sdhc => (sdioShutdown (usbCallback drivers s)).2
  | .usb2 => usbCallback drivers s

/-! ## What a request leaves in the log -/

section Log

/-- The start of the card is not logged. -/
theorem sdioStartup_log (s : Servers ω) : (sdioStartup drivers s).2.log = s.log := by
  unfold sdioStartup sdioDeinitialize
  split
  · rfl
  · dsimp only
    split
    · rfl
    · split <;> rfl

/-- The start of the USB device is not logged. -/
theorem usbstorageStartup_log (s : Servers ω) : (usbstorageStartup drivers s).2.log = s.log := by
  unfold usbstorageStartup
  split
  · rfl
  · dsimp only
    split
    · rfl
    · split <;> rfl

/-- The mount of the USB device is not logged. -/
theorem usbstorageMount_log (s : Servers ω) : (usbstorageMount drivers s).2.log = s.log := by
  unfold usbstorageMount
  split <;> rfl

/-- The driver's read is not logged. -/
theorem usbglueReadSectors_log (sector count : Nat) (s : Servers ω) :
    (usbglueReadSectors drivers sector count s).2.2.log = s.log := by
  unfold usbglueReadSectors
  split <;> rfl

/-- The driver's write is not logged. -/
theorem usbglueWriteSectors_log (sector count : Nat) (data : List UInt8) (s : Servers ω) :
    (usbglueWriteSectors drivers sector count data s).2.log = s.log := by
  unfold usbglueWriteSectors
  split <;> rfl

/-- The driver's capacity is not logged. -/
theorem usbstorageReadCapacity_log (s : Servers ω) :
    (usbstorageReadCapacity drivers s).2.2.2.log = s.log := by
  unfold usbstorageReadCapacity
  split <;> rfl

/-- The callback is not logged. -/
theorem usbCallback_log (s : Servers ω) : (usbCallback drivers s).log = s.log := by
  unfold usbCallback
  split
  · exact usbstorageMount_log drivers _
  · rfl

/-- An open is not logged. -/
theorem serveOpen_log (device : Device) (s : Servers ω) :
    (serveOpen drivers device s).2.log = s.log := by
  unfold serveOpen
  dsimp only
  split
  · exact usbCallback_log drivers s
  · cases device <;> exact usbCallback_log drivers s

/-- A close is not logged. -/
theorem serveClose_log (device : Device) (s : Servers ω) :
    (serveClose drivers device s).log = s.log := by
  cases device with
  | sdhc =>
    unfold serveClose sdioShutdown sdioDeinitialize
    dsimp only
    split <;> exact usbCallback_log drivers s
  | usb2 => exact usbCallback_log drivers s

/-- The request was answered by running `op`, and its failure by the status 1. -/
def Served (op : Op) (s : Servers ω) (answer : Reply × Servers ω) : Prop :=
  ∃ ok, answer.2.log = s.log ++ [⟨op, ok⟩] ∧ (ok = false → answer.1.ret = 1)

/-- An operation of a server is logged with its outcome. -/
theorem Servers.ran_log (s : Servers ω) (op : Op) (ok : Bool) :
    (s.ran op ok).log = s.log ++ [⟨op, ok⟩] := rfl

/-- The SDHC server starts the card. -/
theorem served_sdhcInit (vector : Ioctlv) (s : Servers ω) :
    Served .sdStartup s (serve drivers .sdhc sdhcIoctlInit vector s) := by
  refine ⟨(sdioStartup drivers (usbCallback drivers s)).1, ?_, fun failed => ?_⟩
  · simp only [serve, sdhcIoctlv, if_true, Servers.ran_log, sdioStartup_log, usbCallback_log]
  · simp only [serve, sdhcIoctlv, if_true, failed, statusOf, Bool.false_eq_true, if_false]

/-- The SDHC server reads from the card. -/
theorem served_sdhcRead (vector : Ioctlv) (s : Servers ω) :
    Served .sdRead s (serve drivers .sdhc sdhcIoctlRead vector s) := by
  have branch : sdhcIoctlRead ≠ sdhcIoctlInit := by decide
  refine ⟨(sdioReadSectors drivers vector.word0 vector.word1 vector.buffer
    (usbCallback drivers s).world).1, ?_, fun failed => ?_⟩
  · simp only [serve, sdhcIoctlv, if_neg branch, if_true, Servers.ran_log, usbCallback_log]
  · simp only [serve, sdhcIoctlv, if_neg branch, if_true, failed, statusOf, Bool.false_eq_true,
      if_false]

/-- The USB server starts the device. -/
theorem served_usbInit (vector : Ioctlv) (s : Servers ω) :
    Served .usbStartup s (serve drivers .usb2 ioctlUmsInit vector s) := by
  refine ⟨(usbstorageStartup drivers (usbCallback drivers s)).1, ?_, fun failed => ?_⟩
  · simp only [serve, usbIoctlv, or_true, if_true, Servers.ran_log, usbstorageStartup_log,
      usbCallback_log]
  · simp only [serve, usbIoctlv, or_true, if_true, failed, statusOf, Bool.false_eq_true, if_false]

/-- The USB server reads from the device. -/
theorem served_usbRead (vector : Ioctlv) (s : Servers ω) :
    Served .usbRead s (serve drivers .usb2 ioctlUmsReadSectors vector s) := by
  have branch : ¬(ioctlUmsReadSectors = ioctlUsbInit ∨ ioctlUmsReadSectors = ioctlUmsInit) := by
    decide
  refine ⟨(usbglueReadSectors drivers vector.word0 vector.word1 (usbCallback drivers s)).1, ?_,
    fun failed => ?_⟩
  · simp only [serve, usbIoctlv, if_neg branch, or_true, if_true, Servers.ran_log,
      usbglueReadSectors_log, usbCallback_log]
  · simp only [serve, usbIoctlv, if_neg branch, or_true, if_true, failed, statusOf,
      Bool.false_eq_true, if_false]

/-- The USB server writes to the device. -/
theorem served_usbWrite (vector : Ioctlv) (s : Servers ω) :
    Served .usbWrite s (serve drivers .usb2 ioctlUmsWriteSectors vector s) := by
  have init : ¬(ioctlUmsWriteSectors = ioctlUsbInit ∨ ioctlUmsWriteSectors = ioctlUmsInit) := by
    decide
  have read : ¬(ioctlUmsWriteSectors = ioctlUsbRead ∨
      ioctlUmsWriteSectors = ioctlUmsReadSectors) := by
    decide
  refine ⟨(usbglueWriteSectors drivers vector.word0 vector.word1 (vector.buffer.getD [])
    (usbCallback drivers s)).1, ?_, fun failed => ?_⟩
  · simp only [serve, usbIoctlv, if_neg init, if_neg read, or_true, if_true, Servers.ran_log,
      usbglueWriteSectors_log, usbCallback_log]
  · simp only [serve, usbIoctlv, if_neg init, if_neg read, or_true, if_true, failed, statusOf,
      Bool.false_eq_true, if_false]

/-- The USB server asks the device for its capacity. -/
theorem served_usbCapacity (vector : Ioctlv) (s : Servers ω) :
    Served .usbCapacity s (serve drivers .usb2 ioctlUmsGetCapacity vector s) := by
  have init : ¬(ioctlUmsGetCapacity = ioctlUsbInit ∨ ioctlUmsGetCapacity = ioctlUmsInit) := by
    decide
  have read : ¬(ioctlUmsGetCapacity = ioctlUsbRead ∨
      ioctlUmsGetCapacity = ioctlUmsReadSectors) := by
    decide
  have write : ¬(ioctlUmsGetCapacity = ioctlUsbWrite ∨
      ioctlUmsGetCapacity = ioctlUmsWriteSectors) := by
    decide
  refine ⟨(usbstorageReadCapacity drivers (usbCallback drivers s)).1, ?_, fun failed => ?_⟩
  · simp only [serve, usbIoctlv, if_neg init, if_neg read, if_neg write, if_true, Servers.ran_log,
      usbstorageReadCapacity_log, usbCallback_log]
  · simp only [serve, usbIoctlv, if_neg init, if_neg read, if_neg write, if_true, failed, statusOf,
      Bool.false_eq_true, if_false]

end Log

end D2xCios.Disk
