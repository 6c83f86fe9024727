import D2xCios.Dip.Frag

/-!
# Drive emulation

The DI plugin: its statics, the configuration files it keeps over an IOS reload,
and `DI_EmulateCmd`, which serves every command to the disc drive. A disc is read
through one of four ways, selected by the bits of `config.mode`: the fragment
list, the WBFS server, the drive in DVD-ROM mode, or the drive as it is.

`DrivePort` lists what the plugin asks of the outside. The state of the flash
file system is kept apart from that of all else, so that only the functions on
configuration files lead from one to the next.
-/

namespace D2xCios.Dip

open D2xCios.Lib

/-! ## Constants -/

/-- The bits of `config.mode`. -/
def modeDvdrom : UInt32 := 0x01
def modeCrypt : UInt32 := 0x02
def modeWbfs : UInt32 := 0x04
def modeFrag : UInt32 := 0x10
def modeEmul : UInt32 := modeWbfs ||| modeFrag

/-- `WOD_MAGIC` and `GC_MAGIC`. -/
def wodMagic : UInt32 := 0x5D1C9EA3
def gcMagic : UInt32 := 0xC2339F3D

/-- `DVD5_LENGTH` and `DVD9_LENGTH`. -/
def dvd5Length : UInt32 := 0x46090000
def dvd9Length : UInt32 := 0x7ED38000

/-- `SECTOR_SIZE` of a disc. -/
def discSectorSize : UInt32 := 0x800

/-- `ERROR_BLOCK_RANGE` and `ERROR_WRONG_DISC`. -/
def errorBlockRange : UInt32 := 0x52100
def errorWrongDisc : UInt32 := 0x53100

/-- The disc types. -/
inductive DiscType where
  | unknown
  | dvd5
  | dvd9
  deriving DecidableEq

/-- The commands, by the code in the first byte of the request. -/
inductive DiCommand where
  | reset | readid | lowRead | unencread | readA8 | readD0 | readbca | offset | seek
  | audioConfig | reportKey | reqcover | reqerror
  | offsetSet | offsetGet | cryptSet | cryptGet | wbfsSet | wbfsGet | fragSet | modeGet
  | saveConfig | resetDisable | customcmd
  | other
  deriving DecidableEq

def DiCommand.ofCode (code : UInt32) : DiCommand :=
  match code.toNat with
  | 0x8A => .reset
  | 0x70 => .readid
  | 0x71 => .lowRead
  | 0x8D => .unencread
  | 0xA8 => .readA8
  | 0xD0 => .readD0
  | 0xDA => .readbca
  | 0xD9 => .offset
  | 0xAB => .seek
  | 0xE4 => .audioConfig
  | 0xA4 => .reportKey
  | 0xDB => .reqcover
  | 0xE0 => .reqerror
  | 0xF0 => .offsetSet
  | 0xF1 => .offsetGet
  | 0xF2 => .cryptSet
  | 0xF3 => .cryptGet
  | 0xF4 => .wbfsSet
  | 0xF5 => .wbfsGet
  | 0xF6 => .resetDisable
  | 0xF9 => .fragSet
  | 0xFA => .modeGet
  | 0xFE => .saveConfig
  | 0xFF => .customcmd
  | _ => .other

/-! ## Statics -/

/-- `struct dipConfig` -/
structure DipConfig where
  mode : UInt32
  type : DiscType
  /-- `offset[0]`, the base that was set, and `offset[1]`, the offset of the drive. -/
  offset0 : UInt32
  offset1 : UInt32
  error : UInt32
  cover : UInt32
  noreset : UInt32

/-- `struct dipConfigState` -/
structure DipConfigState where
  mode : UInt32
  device : UInt32
  fragSize : UInt32
  deriving DecidableEq

/-- `struct ffsConfigState` -/
structure FfsConfigState where
  mode : UInt32
  partition : UInt32
  path : Vector UInt8 64

/-- A structure as the bytes it consists of. -/
def DipConfigState.bytes (cfg : DipConfigState) : List UInt8 :=
  bytes32 cfg.mode ++ bytes32 cfg.device ++ bytes32 cfg.fragSize

def DipConfigState.ofBytes (bytes : List UInt8) : DipConfigState where
  mode := be32 (bufferOf bytes) 0
  device := be32 (bufferOf bytes) 4
  fragSize := be32 (bufferOf bytes) 8

def FfsConfigState.bytes (cfg : FfsConfigState) : List UInt8 :=
  bytes32 cfg.mode ++ bytes32 cfg.partition ++ cfg.path.toList

def FfsConfigState.ofBytes (bytes : List UInt8) : FfsConfigState where
  mode := be32 (bufferOf bytes) 0
  partition := be32 (bufferOf bytes) 4
  path := .ofFn fun i => bufferOf bytes (8 + i)

/-- `sizeof(struct dipConfigState)` and `sizeof(struct ffsConfigState)`. -/
def dipConfigSize : Nat := 12
def ffsConfigSize : Nat := 72

/-- The configuration files. -/
inductive CfgFile where
  /-- `/sys/dip.cfg` -/
  | dip
  /-- `/sys/ffs.cfg` -/
  | ffs
  deriving DecidableEq

/-- The modes in which a configuration file is opened. -/
inductive OpenMode where
  | read
  | write
  deriving DecidableEq

/-- A read through one of the emulation backends, with what it relies on. -/
inductive BackendRead where
  /-- `Frag_Read`, and whether `frag_list` and `sector_buf` point to something. -/
  | frag (list buf : Bool)
  /-- `WBFS_Read`, and whether a disc is open on its descriptor. -/
  | wbfs (opened : Bool)
  deriving DecidableEq

/-- The statics of the plugin, with the outside. `wbfs` and `trace` are ghosts: the device and
disc ID of the WBFS disc that is open, and the backend reads so far, latest first. -/
structure Drive (σ φ : Type) where
  config : DipConfig
  dipCfgState : DipConfigState
  ffsCfgState : FfsConfigState
  frag : FragState
  /-- `devFd` of `wbfs.c`. -/
  devFd : Int
  io : σ
  flash : φ
  wbfs : Option (UInt32 × List UInt8)
  trace : List BackendRead

/-- The outside of the plugin. -/
structure DrivePort (σ φ : Type) where
  storage : Storage σ
  /-- `DI_HandleCmd` with the request, the reply buffer if there is one, and its size. -/
  handleCmd : (inbuf : Cells UInt32) → (outbuf : Option Mem) → (size : UInt32) → σ →
    Int × Mem × σ
  /-- `DI_HandleInitDrive` -/
  handleInitDrive : σ → σ
  /-- `DI_ReadHash` -/
  readHash : σ → Int × σ
  /-- `dip_readctrl[0] = 1` and `dip_readctrl[1]`. -/
  setReadctrl : σ → σ
  readctrl : σ → UInt8
  /-- `DI_ReadDvd` and `DI_ReadWod`: reads from the drive. -/
  readDvd : Mem → (len offset : UInt32) → σ → Int × Mem × σ
  readWod : Mem → (len offset : UInt32) → σ → Int × Mem × σ
  /-- `DI_CustomCmd`: the result and the 32 bytes of the drive's registers. -/
  customCmd : Mem → σ → Int × List UInt8 × σ
  /-- Memory from a physical address on, other than the plugin's own. -/
  memory : UInt32 → σ → Mem
  /-- `VirtToPhys` -/
  virtToPhys : UInt32 → UInt32
  /-- The open of `devFs[device]`. -/
  wbfsOpenDevice : (device : UInt32) → σ → Int × σ
  /-- `IOCTL_WBFS_OPEN` with a disc ID, and `IOCTL_WBFS_READ`. -/
  wbfsOpenDisc : (fd : Int) → (discid : List UInt8) → σ → Int × σ
  wbfsReadDisc : (fd : Int) → (len offset : UInt32) → Mem → σ → Int × Mem × σ
  /-- `os_close` of a device. -/
  closeDevice : (fd : Int) → σ → σ
  /-- `ISFS_GetMode`: the result and, when it is not negative, the mode and the path. -/
  isfsGetMode : σ → Int × UInt32 × Vector UInt8 64 × σ
  /-- `ISFS_SetMode` -/
  isfsSetMode : UInt32 → List UInt8 → σ → σ
  /-- `FAT_Mount` -/
  fatMount : (device partition : UInt32) → σ → σ
  /-- `FAT_GetPartition`: the partition it stores, if it stores one. -/
  fatGetPartition : (device : UInt32) → σ → Option UInt32 × σ
  /-- `os_open`, `os_read`, `os_write` and `os_close` of a configuration file. A read yields the
  result and the bytes it has stored. -/
  openFile : CfgFile → OpenMode → φ → Int × φ
  readFile : (fd : Int) → (len : Nat) → φ → Int × List UInt8 × φ
  writeFile : (fd : Int) → List UInt8 → φ → Int × φ
  closeFile : (fd : Int) → φ → φ
  /-- `__Config_Create` and `__Config_Delete`. -/
  createFile : CfgFile → φ → φ
  deleteFile : CfgFile → φ → φ

namespace Drive

variable {σ φ : Type}

/-- The statics of a module just loaded. -/
def boot (io : σ) (flash : φ) : Drive σ φ where
  config := ⟨0, .unknown, 0, 0, 0, 0, 0⟩
  dipCfgState := ⟨0, 0, 0⟩
  ffsCfgState := ⟨0, 0, .replicate 64 0⟩
  frag := .boot
  devFd := -1
  io := io
  flash := flash
  wbfs := none
  trace := []

/-- `DI_ChkMode` -/
def chkMode (bits : UInt32) (s : Drive σ φ) : Bool := s.config.mode &&& bits != 0

/-- `DI_SetMode` -/
def setMode (bits : UInt32) (s : Drive σ φ) : Drive σ φ :=
  { s with config := { s.config with mode := s.config.mode ||| bits } }

/-- `DI_DelMode` -/
def delMode (bits : UInt32) (s : Drive σ φ) : Drive σ φ :=
  { s with config := { s.config with mode := s.config.mode &&& ~~~bits } }

def setError (error : UInt32) (s : Drive σ φ) : Drive σ φ :=
  { s with config := { s.config with error := error } }

def setType (type : DiscType) (s : Drive σ φ) : Drive σ φ :=
  { s with config := { s.config with type := type } }

end Drive

variable {σ φ : Type} (port : DrivePort σ φ)

/-! ## WBFS discs -/

/-- `WBFS_Open` -/
def wbfsOpen (device : UInt32) (discid : List UInt8) (s : Drive σ φ) : Int × Drive σ φ :=
  let (fd, io) := port.wbfsOpenDevice device s.io
  let s := { s with devFd := fd, io := io, wbfs := none }
  if fd < 0 then (fd, s)
  else
    let (ret, io) := port.wbfsOpenDisc fd discid s.io
    (ret, { s with io := io, wbfs := if ret = 0 then some (device, discid) else none })

/-- `WBFS_Close` -/
def wbfsClose (s : Drive σ φ) : Drive σ φ :=
  { s with
    io := if s.devFd ≥ 0 then port.closeDevice s.devFd s.io else s.io
    devFd := -1
    wbfs := none }

/-- `WBFS_Read` -/
def wbfsRead (out : Mem) (len offset : UInt32) (s : Drive σ φ) : Int × Mem × Drive σ φ :=
  let (ret, out, io) := port.wbfsReadDisc s.devFd len offset out s.io
  (ret, out, { s with io := io, trace := .wbfs s.wbfs.isSome :: s.trace })

/-! ## Disc reads -/

/-- `Frag_Read` on the plugin's statics. A null pointer is low memory. -/
def fragReadDisc (out : Mem) (len offset : UInt32) (s : Drive σ φ) : Int × Mem × Drive σ φ :=
  let list := if s.frag.fragList then s.frag.fraglistData else port.memory 0 s.io
  let buf := s.frag.sectorBuf.getD (port.memory 0 s.io)
  let (ret, io) := fragRead port.storage s.frag (FragList.ofMem list) 0 len.toNat offset.toNat
    ⟨out, buf, s.io⟩
  (ret, io.mem,
    { s with
      frag := { s.frag with sectorBuf := s.frag.sectorBuf.map fun _ => io.sectorBuf }
      io := io.st
      trace := .frag s.frag.fragList s.frag.sectorBuf.isSome :: s.trace })

/-- `__DI_CheckOffset` -/
def diCheckOffset (offset : UInt32) (s : Drive σ φ) : Int × Drive σ φ :=
  match s.config.type with
  | .dvd5 => if offset ≥ dvd5Length then (dipEio, s.setError errorBlockRange) else (0, s)
  | .dvd9 => if offset ≥ dvd9Length then (dipEio, s.setError errorBlockRange) else (0, s)
  | .unknown => (0, s)

/-- `__DI_ReadUnencrypted` -/
def diReadUnencrypted (out : Mem) (len offset : UInt32) (s : Drive σ φ) :
    Int × Mem × Drive σ φ :=
  let (ret, s) := diCheckOffset offset s
  if ret ≠ 0 then (ret, out, s)
  else
    let offset := offset + (s.config.offset0 + s.config.offset1)
    if s.chkMode modeFrag then fragReadDisc port out len offset s
    else if s.chkMode modeWbfs then wbfsRead port out len offset s
    else if s.chkMode modeDvdrom then
      let (ret, out, io) := port.readDvd out len offset s.io
      (ret, out, { s with io := io })
    else
      let (ret, out, io) := port.readWod out len offset s.io
      (ret, out, { s with io := io })

/-- `__DI_ReadDiscId` -/
def diReadDiscId (out : Mem) (len : UInt32) (s : Drive σ φ) : Int × Mem × Drive σ φ :=
  let (ret, out, s) := diReadUnencrypted port out len 0 s
  if ret < 0 then (ret, out, s)
  else if be32 out 24 = wodMagic then
    let s := { s with io := port.setReadctrl s.io }
    if port.readctrl s.io = 0 then
      let (ret, io) := port.readHash s.io
      (ret, out, { s with io := io })
    else (ret, out, s)
  else (ret, out, s)

/-- `__DI_CheckDisc` -/
def diCheckDisc (s : Drive σ φ) : Drive σ φ :=
  let (buffer, io) := port.storage.alloc discSectorSize.toNat s.io
  let s := { s with io := io }
  match buffer with
  | none => s
  | some buffer =>
    let (ret, _, s) := diReadUnencrypted port buffer discSectorSize 0x47000000 s
    s.setType (if ret ≠ 0 then .dvd5 else .dvd9)

/-- `__DI_ResetConfig` -/
def diResetConfig (s : Drive σ φ) : Drive σ φ :=
  let s := (s.delMode modeCrypt).delMode modeDvdrom
  { s with
    config := { s.config with
      offset0 := 0, offset1 := 0, type := .unknown, error := 0, cover := 0, noreset := 0 } }

/-! ## Configuration files -/

/-- A structure of `size` bytes after `bytes` have been read into it. -/
def readInto (old bytes : List UInt8) (size : Nat) : List UInt8 :=
  (bytes ++ old.drop bytes.length).take size

/-- The part of `DI_Config_Load` about the fragment list, behind the read of a whole record. -/
def diConfigLoadList (fd ret : Int) (cfg : DipConfigState) (s : Drive σ φ) : Int × Drive σ φ :=
  let (ret2, data, flash) :=
    if cfg.fragSize.toNat > fragListSize then (-1, [], s.flash)
    else port.readFile fd cfg.fragSize.toNat s.flash
  -- Both sides of this comparison are unsigned in C.
  (if UInt32.ofInt ret2 ≠ cfg.fragSize then -1 else ret,
    { s with
      flash := flash
      frag := { s.frag with fraglistData := bufferOf data } })

/-- `DI_Config_Load`: the result, with `dipCfgState` and `fraglist_data` read from the file. -/
def diConfigLoad (s : Drive σ φ) : Int × Drive σ φ :=
  let (fd, flash) := port.openFile .dip .read s.flash
  if fd < 0 then (fd, { s with flash := flash })
  else
    let (ret, bytes, flash) := port.readFile fd dipConfigSize flash
    let cfg := DipConfigState.ofBytes (readInto s.dipCfgState.bytes bytes dipConfigSize)
    let s := { s with dipCfgState := cfg, flash := flash }
    let (ret, s) :=
      if ret = dipConfigSize then
        if cfg.mode = modeFrag then diConfigLoadList port fd ret cfg s else (ret, s)
      else if ret ≥ 0 then (-1, s)
      else (ret, s)
    (ret, { s with flash := port.deleteFile .dip (port.closeFile fd s.flash) })

/-- `DI_Config_Save` -/
def diConfigSave (s : Drive σ φ) : Int × Drive σ φ :=
  let cfg := s.dipCfgState
  let (fd, flash) := port.openFile .dip .write (port.createFile .dip s.flash)
  if fd < 0 then (fd, { s with flash := flash })
  else
    let (ret, flash) := port.writeFile fd cfg.bytes flash
    let (ret, flash) :=
      if ret = dipConfigSize ∧ cfg.mode = modeFrag then
        let (ret2, flash) :=
          port.writeFile fd (s.frag.fraglistData.window 0 cfg.fragSize.toNat) flash
        (if ret2 < 0 then ret2 else ret + ret2, flash)
      else (ret, flash)
    (ret, { s with flash := port.closeFile fd flash })

/-- `FFS_Config_Load` -/
def ffsConfigLoad (s : Drive σ φ) : Int × Drive σ φ :=
  let (fd, flash) := port.openFile .ffs .read s.flash
  if fd < 0 then (fd, { s with flash := flash })
  else
    let (ret, bytes, flash) := port.readFile fd ffsConfigSize flash
    let cfg := FfsConfigState.ofBytes (readInto s.ffsCfgState.bytes bytes ffsConfigSize)
    (if ret ≠ ffsConfigSize then -1 else ret,
      { s with
        ffsCfgState := cfg
        flash := port.deleteFile .ffs (port.closeFile fd flash) })

/-- `FFS_Config_Save` -/
def ffsConfigSave (s : Drive σ φ) : Int × Drive σ φ :=
  let (fd, flash) := port.openFile .ffs .write (port.createFile .ffs s.flash)
  if fd < 0 then (fd, { s with flash := flash })
  else
    let (ret, flash) := port.writeFile fd s.ffsCfgState.bytes flash
    (if ret ≠ ffsConfigSize then -1 else ret, { s with flash := port.closeFile fd flash })

/-- The device that a nand emulation mode selects: the SD card or a USB device. -/
def ffsDevice (mode : UInt32) : UInt32 := if mode &&& 1 ≠ 0 then 0 else 1

/-- `__DI_InitDriveEmulation` once the saved record is in `dipCfgState`. -/
def diRestoreMode (s : Drive σ φ) : Drive σ φ :=
  let s := { s with config := { s.config with mode := s.dipCfgState.mode } }
  if s.chkMode modeWbfs then
    (wbfsOpen port (s.dipCfgState.device - 1) ((port.memory 0 s.io).window 0 6) s).2
  else if s.chkMode modeFrag then
    let (_, frag, io) := fragInit port.storage s.dipCfgState.device.toNat none
      s.dipCfgState.fragSize.toNat s.frag s.io
    { s with frag := frag, io := io }
  else s

/-- `__DI_InitDriveEmulation`, the part about the drive. -/
def diRestore (s : Drive σ φ) : Drive σ φ :=
  let (ret, s) := diConfigLoad port s
  if ret > 0 then diRestoreMode port s else s

/-- `__DI_InitDriveEmulation`, the part about nand emulation. -/
def diRestoreFfs (s : Drive σ φ) : Drive σ φ :=
  let (ret, s) := ffsConfigLoad port s
  if ret > 0 ∧ s.ffsCfgState.mode ≠ 0 then
    let io := port.fatMount (ffsDevice s.ffsCfgState.mode) s.ffsCfgState.partition s.io
    { s with io := port.isfsSetMode s.ffsCfgState.mode s.ffsCfgState.path.toList io }
  else s

/-- `DI_EmulateInitDrive` -/
def diEmulateInitDrive (s : Drive σ φ) : Drive σ φ :=
  diRestoreFfs port (diRestore port { s with io := port.handleInitDrive s.io })

end D2xCios.Dip
