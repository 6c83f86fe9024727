import D2xCios.CiosLib.Results
import D2xCios.Ffs.Paths

/-!
# The FFS plugin

`plugin.c` and `fat.c`: the handlers that stand in front of the handlers of the
file system. A handler either acts on a request, by asking the FAT module for
the emulated file or by itself, or leaves it alone. The trampoline `fs_call`
tells the two apart by the flag `performed` and the sign of the result.

`served` in a reply is not part of the program: it records that the handler has
acted on the request.
-/

namespace D2xCios.Ffs

/-! ## The FAT module -/

/-- `struct stats` -/
structure Stats where
  size : Nat
  date : Nat
  time : Nat
  attrib : UInt8
  deriving DecidableEq

/-- `AM_DIR` -/
def amDir : UInt8 := 0x10

/-- What `FAT_GetUsage` gets from the FAT module. -/
structure UsageStats where
  size : Nat
  files : Nat

/-- What the plugin asks of the heap and, over IPC, of the FAT module. -/
structure FatModule (ω : Type) where
  /-- `os_heap_alloc_aligned` of the buffer of `fat.c`. -/
  heapAlloc : ω → Bool × ω
  /-- `os_open("fat", 0)` -/
  openModule : ω → Int × ω
  /-- `IOCTL_FAT_SETNANDPATH` -/
  setNandPath (path : Path) : ω → Int × ω
  /-- `os_open` of a file. -/
  openFile (path : Path) (mode : UInt32) : ω → Int × ω
  close (fd : Int) : ω → Int × ω
  read (fd : Int) (len : Nat) : ω → Int × List UInt8 × ω
  write (fd : Int) (data : List UInt8) : ω → Int × ω
  seek (fd offset origin : Int) : ω → Int × ω
  createDir (path : Path) : ω → Int × ω
  createFile (path : Path) : ω → Int × ω
  /-- `IOCTL_FAT_READDIR_FS`, with room for a number of entries or only counting them. -/
  readDir (path : Path) (entries : Option Nat) : ω → Int × Nat × List UInt8 × ω
  delete (path : Path) : ω → Int × ω
  deleteDir (path : Path) : ω → Int × ω
  rename (oldname newname : Path) : ω → Int × ω
  getStats (path : Path) : ω → Int × Stats × ω
  /-- `IOCTL_FAT_GETUSAGE_FS` -/
  getUsage (path : Path) : ω → Int × UsageStats × ω
  /-- `IOCTL_FAT_FILESTATS`: length and position. -/
  getFileStats (fd : Int) : ω → Int × (Nat × Nat) × ω

/-! ## Messages and replies -/

/-- What lies at `buffer_in` of an ioctl: its first word, the string at its
start, and the strings of `fsattr` and `fsrename`. -/
structure Inbuf where
  word : UInt32 := 0
  path : Path := []
  attrPath : Path := []
  pathOld : Path := []
  pathNew : Path := []

/-- What the vector of an ioctlv leads to: the word and the string at
`vector[0].data`, and the string and the word at `vector[1].data`. -/
structure Vectors where
  word0 : UInt32 := 0
  path0 : Path := []
  path1 : Path := []
  word1 : Nat := 0

/-- `ipcmessage` -/
inductive Message where
  | iosOpen (device : Path) (mode : UInt32)
  | iosClose (fd : Int)
  | iosRead (fd : Int) (length : Nat)
  | iosWrite (fd : Int) (data : List UInt8)
  | iosSeek (fd offset origin : Int)
  | iosIoctl (fd : Int) (command : Nat) (inbuf : Option Inbuf) (inlen iolen : Nat)
  | iosIoctlv (command : Nat) (vector : Option Vectors) (inlen iolen : Nat)

/-- `fsattr` -/
structure FsAttr where
  ownerId : Nat
  groupId : Nat
  filepath : Path
  ownerperm : Nat
  groupperm : Nat
  otherperm : Nat
  attributes : Nat

/-- What a handler stores for the caller. -/
inductive Out where
  | nothing
  | data (bytes : List UInt8)
  /-- `fsstats` -/
  | device (words : List Nat)
  | file (length pos : Nat)
  | attr (attr : FsAttr)
  | entries (count : Nat) (names : List UInt8)
  | usage (blocks inodes : Nat)
  | mode (mode : UInt32) (path : Path)

/-- What a handler hands back to the trampoline. -/
structure Reply where
  ret : Int
  performed : UInt32
  served : Bool
  out : Out := .nothing

/-- The handler has left the request alone. -/
def Reply.pass (performed : UInt32) : Reply where
  ret := -6
  performed := performed
  served := false

/-- The original handler runs behind `fs_call`. -/
def Reply.Original (reply : Reply) : Prop := reply.performed = 0 ∧ reply.ret < 0

/-! ## The state of the plugin -/

/-- `MAX_FAT_FD` -/
def maxFatFd : Nat := 20

/-- What the plugin reads of the rest of the system while it serves a message. -/
structure Surroundings where
  /-- `Swi_GetRunningTitle`, on which `Stealth_CheckRunningTitle` rests. -/
  runningTitle : Bool
  /-- `Swi_GetEsRequest` -/
  esRequest : Bool
  /-- The first letter of the game code at address 0. -/
  syscode : Char
  /-- The group at address 4. -/
  gid : Nat

/-- The statics of the plugin and of `fat.c`, and the FAT module behind them. -/
structure Plugin (ω : Type) where
  config : FsConfig
  forceRealPath : Bool
  /-- `fat_fd`, a free slot being negative. -/
  table : List Int
  /-- `fatFd` -/
  fatFd : Int
  /-- Whether `iobuf` is allocated. -/
  iobuf : Bool
  /-- Whether the thread has `TID_RIGHTS_OPEN_FAT`. -/
  openFat : Bool
  fat : ω

/-- The statics of a plugin just loaded. -/
def Plugin.boot {ω : Type} (fat : ω) : Plugin ω where
  config := .off
  forceRealPath := false
  table := List.replicate maxFatFd 0
  fatFd := 0
  iobuf := false
  openFat := false
  fat := fat

/-! ## Open files -/

/-- `__FS_GetFileIndex` -/
def getFileIndex (table : List Int) (fd : Int) : Option Nat :=
  table.findIdx? (fun slot => slot = fd)

/-- `__FS_RegisterFile`, which loses the descriptor if no slot is free. -/
def registerFile (table : List Int) (fd : Int) : List Int :=
  match table.findIdx? (fun slot => slot < 0) with
  | some idx => table.set idx fd
  | none => table

/-- `__FS_UnregisterFile` -/
def unregisterFile (table : List Int) (idx : Nat) : List Int := table.set idx (-1)

/-- `__FS_UnregisterAllFiles` -/
def unregisterAllFiles : List Int := List.replicate maxFatFd (-1)

/-! ## Folders -/

/-- `dirinfo` -/
structure DirInfo where
  path : String
  delete : Bool
  make : Bool
  blocks : Int
  inodes : Int

/-- `dirs` -/
def dirs : List DirInfo :=
  [⟨"/import", false, true, -1, -1⟩, ⟨"/meta", false, false, 3, 8⟩, ⟨"/sys", false, true, -1, -1⟩,
    ⟨"/ticket", false, true, 71, 77⟩, ⟨"/ticket/00010001", false, true, -1, -1⟩,
    ⟨"/ticket/00010005", false, true, -1, -1⟩, ⟨"/title", false, true, -1, -1⟩,
    ⟨"/title/00010000", false, true, 75, 55⟩, ⟨"/title/00010001", false, true, 1505, 74⟩,
    ⟨"/title/00010004", false, true, 185, 9⟩, ⟨"/title/00010005", false, true, 23, 42⟩,
    ⟨"/tmp", true, true, -1, -1⟩]

/-- `__FS_FakeUsage` -/
def fakeUsage (path : Path) : Option (Nat × Nat) :=
  match dirs.find? (fun dir => dir.path.toList = path) with
  | some dir =>
    if dir.blocks = -1 ∧ dir.inodes = -1 then none
    else some (dir.blocks.toNat, dir.inodes.toNat)
  | none => none

section Handlers

variable {ω : Type} (fat : FatModule ω)

/-- One round of `__FS_PrepareFolders`. -/
def prepareFolder (config : FsConfig) (w : ω) (dir : DirInfo) : ω :=
  let fatpath := generateAbsolutePath config dir.path.toList
  let w := if dir.delete then (fat.deleteDir fatpath w).2 else w
  if dir.make then (fat.createDir fatpath w).2 else w

/-- `__FS_PrepareFolders` -/
def prepareFolders (s : Plugin ω) : Plugin ω :=
  { s with fat := dirs.foldl (prepareFolder fat s.config) s.fat }

@[simp] theorem prepareFolders_config (s : Plugin ω) :
    (prepareFolders fat s).config = s.config := rfl

/-! ## The mode -/

/-- `FAT_Init` -/
def fatInit (nandpath : Path) (s : Plugin ω) : Int × Plugin ω :=
  if s.fatFd > 0 then (0, s)
  else
    let (allocated, w) := if s.iobuf then (true, s.fat) else fat.heapAlloc s.fat
    if allocated = false then (ipcEnomem, { s with fat := w })
    else
      let (fd, w) := fat.openModule w
      if fd < 0 then (fd, { s with iobuf := true, fatFd := fd, fat := w })
      else
        let (ret, w) := fat.setNandPath nandpath w
        (ret, { s with iobuf := true, fatFd := fd, fat := w })

/-- `__FS_SetMode` with `FORCE_MODE_REV17` defined. -/
def fsSetMode (env : Surroundings) (mode : UInt32) (path : Path) (s : Plugin ω) : Int × Plugin ω :=
  if mode &&& (modeSdhc ||| modeUsb) ≠ 0 then
    if env.runningTitle then (ipcEnoent, s)
    else
      let config := { mode := mode ||| modeRev17, path := path }
      let s := { s with openFat := true, table := unregisterAllFiles, config := config }
      let (ret, s) := fatInit fat (generateAbsolutePath config []) s
      if ret ≥ 0 then (ret, prepareFolders fat s) else (ret, { s with config := .off })
  else if env.runningTitle ∧ ¬ env.esRequest then (ipcEnoent, s)
  else (0, { s with config := .off })

/-! ## Files -/

/-- `FS_Open` -/
def fsOpen (path : Path) (mode : UInt32) (s : Plugin ω) : Reply × Plugin ω :=
  if s.config.mode &&& modeRev17 ≠ 0 then
    if s.forceRealPath then (.pass 0, { s with forceRealPath := false })
    else if checkRealPath s.config path = false then
      let (ret, w) := fat.openFile ((generateRelativePath path).getD []) mode s.fat
      let table := if ret ≥ 0 then registerFile s.table ret else s.table
      ({ ret := ret, performed := 1, served := true }, { s with table := table, fat := w })
    else (.pass 0, s)
  else (.pass 0, s)

/-- The handlers of a descriptor: `act` runs for one that is found in the table. -/
def onFile (fd : Int) (act : Nat → Plugin ω → Int × Out × Plugin ω) (s : Plugin ω) :
    Reply × Plugin ω :=
  if s.config.mode &&& modeRev17 ≠ 0 then
    match getFileIndex s.table fd with
    | some idx =>
      let (ret, out, s) := act idx s
      ({ ret := ret, performed := 1, served := true, out := out }, s)
    | none => (.pass 0, s)
  else (.pass 0, s)

/-- `FS_Close` -/
def fsClose (fd : Int) (s : Plugin ω) : Reply × Plugin ω :=
  onFile fd (fun idx s =>
    let (ret, w) := fat.close fd s.fat
    let table := if ret ≥ 0 then unregisterFile s.table idx else s.table
    (ret, .nothing, { s with table := table, fat := w })) s

/-- `FS_Read` -/
def fsRead (fd : Int) (len : Nat) (s : Plugin ω) : Reply × Plugin ω :=
  onFile fd (fun _ s =>
    let (ret, bytes, w) := fat.read fd len s.fat
    (ret, .data bytes, { s with fat := w })) s

/-- `FS_Write` -/
def fsWrite (fd : Int) (data : List UInt8) (s : Plugin ω) : Reply × Plugin ω :=
  onFile fd (fun _ s =>
    let (ret, w) := fat.write fd data s.fat
    (ret, .nothing, { s with fat := w })) s

/-- `FS_Seek` -/
def fsSeek (fd offset origin : Int) (s : Plugin ω) : Reply × Plugin ω :=
  onFile fd (fun _ s =>
    let (ret, w) := fat.seek fd offset origin s.fat
    (ret, .nothing, { s with fat := w })) s

/-- The branch `IOCTL_ISFS_GETFILESTATS`. -/
def fsGetFileStats (fd : Int) (s : Plugin ω) : Reply × Plugin ω :=
  onFile fd (fun _ s =>
    let (ret, (length, pos), w) := fat.getFileStats fd s.fat
    (ret, if ret ≥ 0 then .file length pos else .nothing, { s with fat := w })) s

/-! ## Ioctls -/

/-- The commands. -/
def ioctlFormat : Nat := 1
def ioctlGetstats : Nat := 2
def ioctlCreatedir : Nat := 3
def ioctlReaddir : Nat := 4
def ioctlSetattr : Nat := 5
def ioctlGetattr : Nat := 6
def ioctlDelete : Nat := 7
def ioctlRename : Nat := 8
def ioctlCreatefile : Nat := 9
def ioctlGetfilestats : Nat := 11
def ioctlGetusage : Nat := 12
def ioctlSetmode : Nat := 100
def ioctlGetmode : Nat := 101

/-- The branches of a command with paths: `act` runs if none of them is real. -/
def onPath (real : Bool) (act : Plugin ω → Int × Out × Plugin ω) (s : Plugin ω) :
    Reply × Plugin ω :=
  if real then (.pass 0, s)
  else if s.config.mode ≠ 0 then
    let (ret, out, s') := act s
    ({ ret := ret, performed := s.config.mode, served := true, out := out }, s')
  else (.pass s.config.mode, s)

/-- The branches of a command without paths. -/
def onDevice (act : Plugin ω → Int × Out × Plugin ω) (s : Plugin ω) : Reply × Plugin ω :=
  onPath false act s

/-- A request to the FAT module that hands back nothing but its result. -/
def askFat (request : ω → Int × ω) (s : Plugin ω) : Int × Out × Plugin ω :=
  let (ret, w) := request s.fat
  (ret, .nothing, { s with fat := w })

/-- The branch `IOCTL_ISFS_CREATEDIR`. -/
def fsCreateDir (path : Path) (s : Plugin ω) : Reply × Plugin ω :=
  onPath (checkRealPath s.config path)
    (askFat (fat.createDir (generateAbsolutePath s.config path))) s

/-- The branch `IOCTL_ISFS_CREATEFILE`. -/
def fsCreateFile (path : Path) (s : Plugin ω) : Reply × Plugin ω :=
  onPath (checkRealPath s.config path)
    (askFat (fat.createFile (generateAbsolutePath s.config path))) s

/-- The branch `IOCTL_ISFS_DELETE`. -/
def fsDelete (path : Path) (s : Plugin ω) : Reply × Plugin ω :=
  onPath (checkRealPath s.config path)
    (askFat (fat.delete (generateAbsolutePath s.config path))) s

/-- `FAT_GetStats` for its result only. -/
def statsOnly (path : Path) (w : ω) : Int × ω :=
  let (ret, _, w) := fat.getStats path w
  (ret, w)

/-- What `IOCTL_ISFS_RENAME` does to two emulated paths. -/
def renameFat (oldpath newpath : Path) (w : ω) : Int × ω :=
  if oldpath ≠ newpath then
    let (ret, stats, w) := fat.getStats newpath w
    let w :=
      if ret ≥ 0 then
        -- the results of both deletions are dropped
        let w := if stats.attrib &&& amDir ≠ 0 then (fat.deleteDir newpath w).2 else w
        (fat.delete newpath w).2
      else w
    fat.rename oldpath newpath w
  else statsOnly fat oldpath w

/-- The branch `IOCTL_ISFS_RENAME`. -/
def fsRename (old new : Path) (s : Plugin ω) : Reply × Plugin ω :=
  onPath (checkRealPath s.config old || checkRealPath s.config new)
    (askFat (renameFat fat (generateAbsolutePath s.config old)
      (generateAbsolutePath s.config new))) s

/-- The branch `IOCTL_ISFS_GETSTATS`. -/
def fsGetStats (iolen : Nat) (s : Plugin ω) : Reply × Plugin ω :=
  onDevice (fun s =>
    if iolen < 0x1C then (-1017, .nothing, s)
    else (0, .device [0x4000, 0x5DEC, 0x1DD4, 0x10, 0x02F0, 0x146B, 0x0394], s)) s

/-- `ISFS_OPEN_RW` and `ISFS_MAXPATH`. -/
def isfsOpenRw : Nat := 0x03
def isfsMaxpath : Nat := 64

/-- The attributes that `IOCTL_ISFS_GETATTR` makes up. -/
def fakeAttr (env : Surroundings) (path : Path) : FsAttr :=
  if path.startsWith "/tmp/" ∨ path.startsWith "/import" then
    { ownerId := 0, groupId := 0, filepath := path.take isfsMaxpath, ownerperm := isfsOpenRw
      groupperm := isfsOpenRw, otherperm := 0, attributes := 0 }
  else
    let nocopy := matchPath false path "/title/0001000#/########/data/nocopy".toList
    { ownerId := 0x1001, groupId := env.gid, filepath := path.take isfsMaxpath
      ownerperm := isfsOpenRw, groupperm := isfsOpenRw
      otherperm := if nocopy then 0 else isfsOpenRw, attributes := 0 }

/-- The branch `IOCTL_ISFS_GETATTR`. -/
def fsGetAttr (env : Surroundings) (path : Path) (s : Plugin ω) : Reply × Plugin ω :=
  onPath (checkRealPath s.config path) (fun s =>
    let (ret, w) := statsOnly fat (generateAbsolutePath s.config path) s.fat
    let s := { s with fat := w }
    if ret < 0 then (ret, .nothing, s) else (0, .attr (fakeAttr env path), s)) s

/-- The branch `IOCTL_ISFS_SETATTR`. -/
def fsSetAttr (path : Path) (s : Plugin ω) : Reply × Plugin ω :=
  onPath (checkRealPath s.config path)
    (askFat (statsOnly fat (generateAbsolutePath s.config path))) s

/-- The branch `IOCTL_ISFS_FORMAT`. -/
def fsFormat (s : Plugin ω) : Reply × Plugin ω := onDevice (fun s => (0, .nothing, s)) s

/-- The branches `IOCTL_ISFS_SETMODE`. -/
def fsSetModeRequest (env : Surroundings) (valid : Bool) (mode : UInt32) (path : Path)
    (s : Plugin ω) : Reply × Plugin ω :=
  if valid = false then ({ ret := ipcEnoent, performed := 1, served := true }, s)
  else
    let (ret, s) := fsSetMode fat env mode path s
    ({ ret := ret, performed := 1, served := true }, s)

/-- `FS_Ioctl` -/
def fsIoctl (env : Surroundings) (fd : Int) (cmd : Nat) (inbuf : Option Inbuf)
    (inlen iolen : Nat) (s : Plugin ω) : Reply × Plugin ω :=
  let buf := inbuf.getD {}
  if cmd = ioctlCreatedir then fsCreateDir fat buf.attrPath s
  else if cmd = ioctlCreatefile then fsCreateFile fat buf.attrPath s
  else if cmd = ioctlDelete then fsDelete fat buf.path s
  else if cmd = ioctlRename then fsRename fat buf.pathOld buf.pathNew s
  else if cmd = ioctlGetstats then fsGetStats iolen s
  else if cmd = ioctlGetfilestats then fsGetFileStats fat fd s
  else if cmd = ioctlGetattr then fsGetAttr fat env buf.path s
  else if cmd = ioctlSetattr then fsSetAttr fat buf.attrPath s
  else if cmd = ioctlFormat then fsFormat s
  else if cmd = ioctlSetmode then
    fsSetModeRequest fat env (inbuf.isSome && decide (4 ≤ inlen)) buf.word [] s
  -- unknown commands leave the flag at the mode
  else (.pass s.config.mode, s)

/-- The branch `IOCTL_ISFS_READDIR`: the number of entries is returned only. -/
def fsReadDir (vector : Vectors) (iolen : Nat) (s : Plugin ω) : Reply × Plugin ω :=
  onPath (checkRealPath s.config vector.path0) (fun s =>
    let room := if iolen > 1 then some vector.word1 else none
    let (ret, count, names, w) :=
      fat.readDir (generateAbsolutePath s.config vector.path0) room s.fat
    (ret, if ret ≥ 0 then .entries count names else .nothing, { s with fat := w })) s

/-- `FAT_GetUsage` with `blocks` and `inodes` as they were. -/
def fatGetUsage (path : Path) (blocks inodes : Nat) (w : ω) : Int × Nat × Nat × ω :=
  let (ret, usage, w) := fat.getUsage path w
  if ret ≥ 0 then
    let blocks := usage.size / 0x4000 % 4294967296
    -- a big emulated nand looks smaller than 128 MB
    let blocks := if blocks > 0x2000 then 0x1000 + blocks % 0x1000 else blocks
    (ret, blocks, usage.files + 1, w)
  else (ret, blocks, inodes, w)

/-- The branch `IOCTL_ISFS_GETUSAGE`. -/
def fsGetUsage (env : Surroundings) (dirpath : Path) (s : Plugin ω) : Reply × Plugin ω :=
  onPath (checkRealPath s.config dirpath) (fun s =>
    -- only disc-based games get values of the FAT module
    if env.syscode ≠ 'R' ∧ env.syscode ≠ 'S' then (0, .usage 1 1, s)
    else
      let fatpath := generateAbsolutePath s.config dirpath
      match fakeUsage dirpath with
      | some (blocks, inodes) =>
        let (ret, w) := statsOnly fat fatpath s.fat
        (ret, .usage blocks inodes, { s with fat := w })
      | none =>
        let (ret, blocks, inodes, w) := fatGetUsage fat fatpath 0 1 s.fat
        (ret, .usage blocks inodes, { s with fat := w })) s

/-- The branch `IOCTL_ISFS_GETMODE`. -/
def fsGetMode (env : Surroundings) (s : Plugin ω) : Reply × Plugin ω :=
  if env.runningTitle ∧ ¬ env.esRequest then
    ({ ret := ipcEnoent, performed := 1, served := true }, s)
  else
    ({ ret := 0, performed := 1, served := true, out := .mode s.config.mode s.config.path }, s)

/-- `FS_Ioctlv` -/
def fsIoctlv (env : Surroundings) (cmd : Nat) (vector : Option Vectors) (inlen iolen : Nat)
    (s : Plugin ω) : Reply × Plugin ω :=
  let vec := vector.getD {}
  if cmd = ioctlReaddir then fsReadDir fat vec iolen s
  else if cmd = ioctlGetusage then fsGetUsage fat env vec.path0 s
  else if cmd = ioctlSetmode then
    fsSetModeRequest fat env (vector.isSome && decide (inlen ≠ 0)) vec.word0
      (if inlen > 1 then vec.path1 else []) s
  else if cmd = ioctlGetmode then fsGetMode env s
  -- unknown commands leave the flag at the mode
  else (.pass s.config.mode, s)

/-- The handler of a message. -/
def fsHandle (env : Surroundings) (message : Message) (s : Plugin ω) : Reply × Plugin ω :=
  match message with
  | .iosOpen device mode => fsOpen fat device mode s
  | .iosClose fd => fsClose fat fd s
  | .iosRead fd length => fsRead fat fd length s
  | .iosWrite fd data => fsWrite fat fd data s
  | .iosSeek fd offset origin => fsSeek fat fd offset origin s
  | .iosIoctl fd cmd inbuf inlen iolen => fsIoctl fat env fd cmd inbuf inlen iolen s
  | .iosIoctlv cmd vector inlen iolen => fsIoctlv fat env cmd vector inlen iolen s

end Handlers

end D2xCios.Ffs
