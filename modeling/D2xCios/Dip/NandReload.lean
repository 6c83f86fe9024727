import D2xCios.Dip.Commands
import D2xCios.Dip.Flash
import D2xCios.Fat.Volumes
import D2xCios.Ffs.NandPath
import D2xCios.Lib.Terminated

/-!
# NAND emulation over a reload

Before an IOS is reloaded, the DI plugin asks the FFS plugin for the mode and the
nand path, and saves them with the partition to `/sys/ffs.cfg`. The plugin that
is loaded next mounts the partition and switches the emulation on again. The
path lies in a buffer of 256 bytes in the FFS plugin, of 64 in `isfs.c` and in the
configuration, and of 192 in the FAT module, and none of the copies looks at the
size of its target.
-/

namespace D2xCios.Dip

open D2xCios.Lib D2xCios.Ffs D2xCios.Fat

/-! ## Buffers -/

/-- `FAT_MAXPATH` -/
def fatMaxpath : Nat := 256

/-- The buffers that a nand path is copied to: `config.path`, `fatNandPath` and `fatpath` of the FFS
plugin, the `filename` of its `fat.c`, `emuNandPath` of the FAT module, and of the DI plugin
`isfsBuf.fsconfig.path` and `ffsCfgState.path`. -/
inductive PathBuffer where
  | configPath
  | fatPath
  | filename
  | emuNandPath
  | isfsPath
  | cfgPath

def PathBuffer.size : PathBuffer → Nat
  | configPath => fatMaxpath
  | fatPath => fatMaxpath
  | filename => fatMaxpath
  | emuNandPath => emuNandPathSize
  | isfsPath => isfsMaxpath
  | cfgPath => isfsMaxpath

/-- A copy of `count` bytes to the start of a buffer. -/
structure PathCopy where
  buffer : PathBuffer
  count : Nat

/-- The copy does not go past the buffer. -/
def PathCopy.Inside (copy : PathCopy) : Prop := copy.count ≤ copy.buffer.size

/-- The bytes of a string, without the NUL. -/
def pathBytes (path : Path) : List UInt8 := path.map fun c => UInt8.ofNat c.toNat

/-- The string of some bytes. -/
def pathOf (bytes : List UInt8) : Path := bytes.map fun byte => Char.ofNat byte.toNat

/-- A string as it can be in memory: all characters are bytes, and none is the NUL. -/
def CString (path : Path) : Prop := ∀ c ∈ path, 0 < c.toNat ∧ c.toNat < 256

instance (path : Path) : Decidable (CString path) :=
  List.decidableBAll (fun c : Char => 0 < c.toNat ∧ c.toNat < 256) path

/-! ## The modules -/

/-- The FFS plugin, the volumes of the FAT module behind it, and the buffers. `configRest` is what
was in `config.path` and behind it before the last copy to it, `behindCfg` is the memory behind
`ffsCfgState.path`. `copies` is a ghost: the copies so far. -/
structure Nand (ω : Type) where
  plugin : Plugin (Module ω)
  volumes : Volumes
  env : Surroundings
  configRest : Region UInt8 fatMaxpath
  isfsPath : Region UInt8 isfsMaxpath
  behindCfg : List UInt8
  copies : List PathCopy

section Modules

variable {ω : Type}

/-- `config.path` -/
def Nand.configPath (n : Nand ω) : Region UInt8 fatMaxpath :=
  n.configRest.store (pathBytes n.plugin.config.path ++ [0])

/-- `ffsCfgState.path` -/
def Nand.cfgPath (path : Vector UInt8 64) (n : Nand ω) : Region UInt8 isfsMaxpath where
  cells := path.toList ++ n.behindCfg
  room := by simp [isfsMaxpath]

/-- `isfsBuf.fsconfig.path` once the FFS plugin has answered with its path. -/
def Nand.fetched (n : Nand ω) : Region UInt8 isfsMaxpath :=
  n.isfsPath.copy isfsMaxpath n.configPath.cells

variable (files : FatModule ω)

/-- The copies for a folder in `__FS_PrepareFolders`. -/
def folderCopies (config : FsConfig) (dir : DirInfo) : List PathCopy :=
  let count := (generateAbsolutePath config dir.path.toList).length + 1
  ⟨.fatPath, count⟩ :: if dir.delete ∨ dir.make then [⟨.filename, count⟩] else []

/-- The copies of `__FS_SetMode`, those of `FAT_Init` and of the FAT module included. The NUL that
empties `config.path` is not counted. -/
def setModeCopies (request : SetMode) (s : Plugin (Module ω)) : List PathCopy :=
  if request.mode &&& (modeSdhc ||| modeUsb) ≠ 0 ∧ request.env.runningTitle = false then
    let config : FsConfig := { mode := request.mode ||| modeRev17, path := request.path }
    let count := request.nandPath.length
    let told : List PathCopy :=
      if request.Tells files s then
        ⟨.filename, count + 1⟩ ::
          if count < emuNandPathSize then [⟨.emuNandPath, count + 2⟩] else []
      else []
    let prepared : List PathCopy :=
      if 0 ≤ (fsSetMode (fatModule files) request.env request.mode request.path s).1 then
        dirs.flatMap (folderCopies config)
      else []
    ⟨.configPath, request.path.length + 1⟩ :: ⟨.fatPath, count + 1⟩ :: told ++ prepared
  else []

/-- `ISFS_GetMode` with the bytes that are in `ffsCfgState.path`. -/
def isfsGetMode (old : Vector UInt8 64) (n : Nand ω) :
    Int × UInt32 × Vector UInt8 64 × Nand ω :=
  let (reply, plugin) := fsIoctlv (fatModule files) n.env ioctlGetmode (some {}) 0 2 n.plugin
  match reply.out with
  | .mode mode _ =>
    let cfgPath := (n.cfgPath old).copyString 0 n.fetched.cells
    (reply.ret, mode, .ofFn fun i => cfgPath.cells.getD i 0,
      { n with
        plugin := plugin
        isfsPath := n.fetched
        behindCfg := cfgPath.cells.drop isfsMaxpath
        copies := n.copies ++
          [⟨.isfsPath, isfsMaxpath⟩, ⟨.cfgPath, (stringAt 0 n.fetched.cells).length + 1⟩] })
  | _ => (reply.ret, 0, old, { n with plugin := plugin })

/-- `ISFS_SetMode` with `ffsCfgState.path`, or with an empty string. -/
def isfsSetMode (mode : UInt32) (path : List UInt8) (n : Nand ω) : Nand ω :=
  let source := if path = [] then [0] else path ++ n.behindCfg
  let isfsPath := n.isfsPath.copyString 0 source
  let request : SetMode := ⟨n.env, mode, pathOf (stringAt 0 isfsPath.cells)⟩
  { n with
    plugin := (fsIoctlv (fatModule files) n.env ioctlSetmode
      (some { word0 := mode, path1 := request.path }) 2 0 n.plugin).2
    configRest := n.configPath
    isfsPath := isfsPath
    copies := n.copies ++
      ⟨.isfsPath, (stringAt 0 source).length + 1⟩ :: setModeCopies files request n.plugin }

/-- The device of a command to the FAT module. -/
def deviceOf (device : UInt32) : Device := if device = 0 then .sd else .usb

variable {ψ : Type} (media : Media) (base : DrivePort (Nand ω) ψ)

/-- The outside of the DI plugin, with these modules in it. -/
def nandPort (old : Vector UInt8 64) : DrivePort (Nand ω) ψ :=
  { base with
    isfsGetMode := isfsGetMode files old
    isfsSetMode := isfsSetMode files
    fatMount := fun device partition n =>
      { n with
        volumes := (fatMount media (deviceOf device) partition.toBitVec.toInt n.volumes).2.2 }
    fatGetPartition := fun device n =>
      ((fatGetPartition (deviceOf device) n.volumes).map UInt32.ofNat, n) }

/-! ## A reload -/

/-- What the modules find when they have just been loaded. -/
structure Fresh (ω : Type) where
  files : ω
  env : Surroundings
  configRest : Region UInt8 fatMaxpath
  isfsPath : Region UInt8 isfsMaxpath
  behindCfg : List UInt8

/-- The modules just loaded, the copies before that being `copies`. -/
def Fresh.nand (fresh : Fresh ω) (copies : List PathCopy) : Nand ω where
  plugin := .boot (.boot fresh.files)
  volumes := .boot
  env := fresh.env
  configRest := fresh.configRest
  isfsPath := fresh.isfsPath
  behindCfg := fresh.behindCfg
  copies := copies

/-- The part of `IOCTL_DI_SAVE_CONFIG` about the emulation. The copies are counted from here. -/
def saveFfs (s : Drive (Nand ω) ψ) : Int × Drive (Nand ω) ψ :=
  diSaveFfs (nandPort files media base s.ffsCfgState.path)
    { s with io := { s.io with copies := [] } }

/-- The part of `__DI_InitDriveEmulation` about the emulation, in modules just loaded. -/
def restoreFfs (fresh : Fresh ω) (s : Drive (Nand ω) ψ) : Drive (Nand ω) ψ :=
  diRestoreFfs (nandPort files media base (.replicate 64 0))
    (.boot (fresh.nand s.io.copies) s.flash)

/-- The emulation is the one before the reload: the mode, the nand path and the partition of the
device are the same, and no copy went past its buffer; or it was off, and still is. -/
def NandSurvives (before after : Nand ω) : Prop :=
  if before.plugin.config.mode ≠ 0 then
    after.plugin.config = before.plugin.config ∧
      after.volumes.volToPart (deviceOf (ffsDevice before.plugin.config.mode)) =
        before.volumes.volToPart (deviceOf (ffsDevice before.plugin.config.mode)) ∧
      after.volumes.Mounted (deviceOf (ffsDevice before.plugin.config.mode)) ∧
      after.volumes.fatFs.pt =
        before.volumes.volToPart (deviceOf (ffsDevice before.plugin.config.mode)) ∧
      ∀ copy ∈ after.copies, copy.Inside
  else after.plugin.config.mode = 0

end Modules

/-! ## Strings -/

/-- A string has no terminator in it. -/
theorem zero_not_mem_pathBytes {path : Path} (string : CString path) :
    (0 : UInt8) ∉ pathBytes path := fun mem => by
  obtain ⟨c, inPath, zero⟩ := List.mem_map.mp mem
  obtain ⟨positive, byte⟩ := string c inPath
  have same := congrArg UInt8.toNat zero
  rw [UInt8.toNat_ofNat_of_lt' byte] at same
  exact absurd same (Nat.ne_of_gt positive)

/-- A path is its bytes. -/
theorem pathOf_pathBytes {path : Path} (string : CString path) :
    pathOf (pathBytes path) = path := by
  rw [pathOf, pathBytes, List.map_map]
  refine (List.map_congr_left fun c mem => ?_).trans (List.map_id _)
  rw [Function.comp_apply, UInt8.toNat_ofNat_of_lt' (string c mem).2, Char.ofNat_toNat, id_eq]

/-! ## The calls -/

section Calls

variable {ω : Type} (files : FatModule ω)

/-- The ioctlv for the present mode. -/
theorem fsIoctlv_getmode (fat : FatModule ω) (env : Surroundings) (vector : Option Vectors)
    (inlen iolen : Nat) (s : Plugin ω) :
    fsIoctlv fat env ioctlGetmode vector inlen iolen s = fsGetMode env s := rfl

/-- The ioctlv for another mode. -/
theorem fsIoctlv_setmode (fat : FatModule ω) (env : Surroundings) (vector : Vectors)
    (iolen : Nat) (s : Plugin ω) :
    fsIoctlv fat env ioctlSetmode (some vector) 2 iolen s =
      fsSetModeRequest fat env true vector.word0 vector.path1 s := rfl

/-- A request from ES gets the mode and the path. -/
theorem isfsGetMode_es {n : Nand ω} (es : n.env.esRequest = true) (old : Vector UInt8 64) :
    isfsGetMode files old n =
      (0, n.plugin.config.mode,
        .ofFn fun i => ((n.cfgPath old).copyString 0 n.fetched.cells).cells.getD i 0,
        { n with
          isfsPath := n.fetched
          behindCfg := ((n.cfgPath old).copyString 0 n.fetched.cells).cells.drop isfsMaxpath
          copies := n.copies ++
            [⟨.isfsPath, isfsMaxpath⟩, ⟨.cfgPath, (stringAt 0 n.fetched.cells).length + 1⟩] }) := by
  have allowed : ¬ (n.env.runningTitle = true ∧ ¬ n.env.esRequest = true) := fun both => both.2 es
  simp only [isfsGetMode, fsIoctlv_getmode, fsGetMode, if_neg allowed]

/-- The FAT module of a plugin just loaded is told the nand path if it fits. -/
theorem fatInit_fresh (heapAlloc : ∀ w, (files.heapAlloc w).1 = true)
    (openModule : ∀ w, 0 ≤ (files.openModule w).1) (nandpath : Path) {s : Plugin (Module ω)}
    (closed : s.fatFd = 0) (unallocated : s.iobuf = false) :
    (fatInit (fatModule files) nandpath s).1 =
      if nandpath.length < emuNandPathSize then 0 else -4 := by
  obtain ⟨allocated, w, alloc⟩ : ∃ allocated w,
    (fatModule files).heapAlloc s.fat = (allocated, w) := ⟨_, _, rfl⟩
  have granted : allocated = true :=
    (congrArg Prod.fst alloc).symm.trans (heapAlloc s.fat.files)
  obtain ⟨fd, w', opened⟩ : ∃ fd w', (fatModule files).openModule w = (fd, w') := ⟨_, _, rfl⟩
  have opens : 0 ≤ fd := le_of_le_of_eq (openModule w.files) (congrArg Prod.fst opened)
  simp only [fatInit, closed, unallocated, alloc, granted, opened, gt_iff_lt, lt_irrefl, if_false,
    Bool.false_eq_true, Bool.true_eq_false, not_lt.mpr opens]
  exact apply_ite Prod.fst _ _ _

/-- A plugin just loaded takes a mode with a device if the nand path fits. -/
theorem fsSetMode_fresh (heapAlloc : ∀ w, (files.heapAlloc w).1 = true)
    (openModule : ∀ w, 0 ≤ (files.openModule w).1) {request : SetMode}
    (on : request.mode &&& (modeSdhc ||| modeUsb) ≠ 0) (quiet : request.env.runningTitle = false)
    (w : Module ω) :
    (fsSetMode (fatModule files) request.env request.mode request.path (.boot w)).2.config =
      if request.nandPath.length < emuNandPathSize then
        { mode := request.mode ||| modeRev17, path := request.path }
      else .off := by
  have told := fatInit_fresh files heapAlloc openModule request.nandPath
    (s := (Plugin.boot w).enabled request) rfl rfl
  have kept := (fatInit_kept (fatModule files) request.nandPath ((Plugin.boot w).enabled request)).1
  rw [fsSetMode_on on quiet, told]
  by_cases fits : request.nandPath.length < emuNandPathSize
  case pos =>
    rw [if_pos fits, if_pos fits, if_pos (le_refl _), prepareFolders_config, kept]
    rfl
  case neg =>
    have failed : ¬ (-4 : Int) ≥ 0 := by decide
    rw [if_neg fits, if_neg fits, if_neg failed]

/-- A mode without a device leaves it off. -/
theorem fsSetMode_nand {request : SetMode} (off : ¬ request.mode &&& (modeSdhc ||| modeUsb) ≠ 0)
    (w : Module ω) :
    (fsSetMode (fatModule files) request.env request.mode request.path (.boot w)).2.config =
      .off := by
  unfold fsSetMode
  rw [if_neg off]
  split <;> rfl

end Calls

/-! ## The file in between -/

section Files

variable {ω ψ : Type} {files : FatModule ω} {media : Media} {base : DrivePort (Nand ω) ψ}
  {view : ψ → FileStore CfgFile} (stores : base.Stores view) (s : Drive (Nand ω) ψ)

/-- The record of an emulation that is on. -/
def Nand.saved (old : Vector UInt8 64) (partition : Nat) (n : Nand ω) : FfsConfigState where
  mode := n.plugin.config.mode
  partition := UInt32.ofNat partition
  path := .ofFn fun i => ((n.cfgPath old).copyString 0 n.fetched.cells).cells.getD i 0

/-- The record at the start of a file. -/
def recordOf (contents : List UInt8) : FfsConfigState := .ofBytes (contents.take ffsConfigSize)

/-- A record is read back as it was written. -/
theorem recordOf_saved (cfg : FfsConfigState) (rest : List UInt8) :
    recordOf (cfg.bytes ++ rest) = cfg := by
  rw [recordOf, ← FfsConfigState.bytes_length cfg, List.take_left, FfsConfigState.ofBytes_bytes]

variable (files media) in
/-- The stores of the drive with a NAND are those of the drive. -/
theorem nandPort_stores (stores : base.Stores view) (old : Vector UInt8 64) :
    (nandPort files media base old).Stores view :=
  ⟨stores.missing, stores.found, stores.read, stores.write, stores.close, stores.create,
    stores.delete⟩

/-- A save of an emulation that is on asks for the partition, and switches it off. -/
theorem diSaveFfs_on {σ : Type} {port : DrivePort σ ψ} {s : Drive σ ψ} {mode : UInt32}
    {path : Vector UInt8 64} {io : σ} (got : port.isfsGetMode s.io = (0, mode, path, io))
    (on : mode ≠ 0) :
    diSaveFfs port s = ffsConfigSave port { s with
      io := port.isfsSetMode 0 [] (port.fatGetPartition (ffsDevice mode) io).2
      ffsCfgState := {
        mode := mode
        partition := (port.fatGetPartition (ffsDevice mode) io).1.getD s.ffsCfgState.partition
        path := path } } := by
  simp only [diSaveFfs, got, lt_irrefl, if_false, if_neg on]

/-- With the emulation off no record is saved. -/
theorem saveFfs_off (es : s.io.env.esRequest = true) (off : s.io.plugin.config.mode = 0) :
    (saveFfs files media base s).2.flash = s.flash := by
  have got := isfsGetMode_es files (n := { s.io with copies := [] }) es s.ffsCfgState.path
  have asked : (nandPort files media base s.ffsCfgState.path).isfsGetMode =
    isfsGetMode files s.ffsCfgState.path := rfl
  simp only [saveFfs, diSaveFfs, asked, got, off, lt_irrefl, if_false, if_true]

variable (files media) in
include stores in
/-- What is saved of an emulation that is on, and the copies on the way. -/
theorem diSaveFfs_nand (es : s.io.env.esRequest = true) (on : s.io.plugin.config.mode ≠ 0)
    {partition : Nat}
    (mounted : fatGetPartition (deviceOf (ffsDevice s.io.plugin.config.mode)) s.io.volumes =
      some partition) :
    (diSaveFfs (nandPort files media base s.ffsCfgState.path) s).2.io.copies =
        s.io.copies ++ [⟨.isfsPath, isfsMaxpath⟩,
          ⟨.cfgPath, (stringAt 0 s.io.fetched.cells).length + 1⟩, ⟨.isfsPath, 1⟩] ∧
      ∃ rest,
        (view (diSaveFfs (nandPort files media base s.ffsCfgState.path) s).2.flash).file .ffs =
          some ((s.io.saved s.ffsCfgState.path partition).bytes ++ rest) := by
  have got : (nandPort files media base s.ffsCfgState.path).isfsGetMode s.io = _ :=
    isfsGetMode_es files es s.ffsCfgState.path
  have partition_eq : ((fatGetPartition (deviceOf (ffsDevice s.io.plugin.config.mode))
      s.io.volumes).map UInt32.ofNat).getD s.ffsCfgState.partition = UInt32.ofNat partition := by
    rw [mounted]
    rfl
  obtain ⟨t, state⟩ : ∃ t, t = { s with
      io := isfsSetMode files 0 [] (isfsGetMode files s.ffsCfgState.path s.io).2.2.2
      ffsCfgState := s.io.saved s.ffsCfgState.path partition } := ⟨_, rfl⟩
  have save : diSaveFfs (nandPort files media base s.ffsCfgState.path) s =
      ffsConfigSave (nandPort files media base s.ffsCfgState.path) t := by
    rw [diSaveFfs_on got on, state, Nand.saved, ← partition_eq]
    rw [isfsGetMode_es files es s.ffsCfgState.path]
    rfl
  obtain ⟨flash, rest, saved, file, -⟩ :=
    ffsConfigSave_saved (nandPort_stores files media stores s.ffsCfgState.path) t
  rw [save, saved]
  refine ⟨?_, rest, by rw [file, state]⟩
  have io : t.io = isfsSetMode files 0 [] (isfsGetMode files s.ffsCfgState.path s.io).2.2.2 := by
    rw [state]
  have emptied : (stringAt (0 : UInt8) [0]).length + 1 = 1 := rfl
  have nothing (env : Surroundings) (path : Path) (plugin : Plugin (Module ω)) :
      setModeCopies files ⟨env, 0, path⟩ plugin = [] := by
    rw [setModeCopies, if_neg (by simp)]
  simp only [io, isfsSetMode, if_true, emptied, nothing, isfsGetMode_es files es,
    List.append_assoc, List.cons_append, List.nil_append]

variable (files media) in
include stores in
/-- With the emulation on the record is saved with its path. -/
theorem saveFfs_on (es : s.io.env.esRequest = true) (on : s.io.plugin.config.mode ≠ 0)
    {partition : Nat}
    (mounted : fatGetPartition (deviceOf (ffsDevice s.io.plugin.config.mode)) s.io.volumes =
      some partition) :
    (saveFfs files media base s).2.io.copies =
        [⟨.isfsPath, isfsMaxpath⟩, ⟨.cfgPath, (stringAt 0 s.io.fetched.cells).length + 1⟩,
          ⟨.isfsPath, 1⟩] ∧
      ∃ rest, (view (saveFfs files media base s).2.flash).file .ffs =
        some ((s.io.saved s.ffsCfgState.path partition).bytes ++ rest) :=
  diSaveFfs_nand files media stores { s with io := { s.io with copies := [] } } es on mounted

variable (fresh : Fresh ω)

include stores in
/-- Without a record nothing is restored. -/
theorem restoreFfs_missing (missing : (view s.flash).file .ffs = none) :
    (restoreFfs files media base fresh s).io = fresh.nand s.io.copies := by
  obtain ⟨ret, flash, load, negative, -⟩ := ffsConfigLoad_missing
    (nandPort_stores files media stores (.replicate 64 0))
    (.boot (fresh.nand s.io.copies) s.flash) missing
  simp only [restoreFfs, diRestoreFfs, load, gt_iff_lt, not_lt.mpr negative.le, false_and, if_false]
  rfl

include stores in
/-- A record that is found is restored if it has a mode. -/
theorem restoreFfs_found {contents : List UInt8}
    (file : (view s.flash).file .ffs = some contents) :
    (restoreFfs files media base fresh s).io =
      if ffsConfigSize ≤ contents.length ∧ (recordOf contents).mode ≠ 0 then
        isfsSetMode files (recordOf contents).mode (recordOf contents).path.toList
          { fresh.nand s.io.copies with
            volumes := (fatMount media (deviceOf (ffsDevice (recordOf contents).mode))
              (recordOf contents).partition.toBitVec.toInt .boot).2.2 }
      else fresh.nand s.io.copies := by
  obtain ⟨flash, load, -⟩ := ffsConfigLoad_found
    (nandPort_stores files media stores (.replicate 64 0))
    (.boot (fresh.nand s.io.copies) s.flash) file
  by_cases full : ffsConfigSize ≤ contents.length
  case neg =>
    simp only [restoreFfs, diRestoreFfs, load, full, if_false, gt_iff_lt,
      show ¬ (0 : Int) < -1 by decide, false_and]
    rfl
  case pos =>
    have size : (contents.take ffsConfigSize).length = ffsConfigSize := by
      rw [List.length_take, Nat.min_eq_left full]
    have positive : (0 : Int) < ffsConfigSize := by decide
    by_cases on : (recordOf contents).mode ≠ 0
    case pos =>
      have on' : (FfsConfigState.ofBytes (contents.take ffsConfigSize)).mode ≠ 0 := on
      simp only [restoreFfs, diRestoreFfs, load, full, if_true, gt_iff_lt, positive, true_and,
        readInto_full size, if_pos on', if_pos on]
      rfl
    case neg =>
      have off : ¬ (FfsConfigState.ofBytes (contents.take ffsConfigSize)).mode ≠ 0 := on
      simp only [restoreFfs, diRestoreFfs, load, full, if_true, gt_iff_lt, positive, true_and,
        readInto_full size, if_neg off, if_neg on]
      rfl

end Files

/-! ## The condition -/

section Condition

variable {ω ψ : Type} {files : FatModule ω} {media : Media} {base : DrivePort (Nand ω) ψ}
  {view : ψ → FileStore CfgFile} {s : Drive (Nand ω) ψ} {fresh : Fresh ω}

/-- The request that a record makes of a plugin just loaded. -/
def Fresh.request (fresh : Fresh ω) (cfg : FfsConfigState) : SetMode where
  env := fresh.env
  mode := cfg.mode
  path := pathOf (stringAt 0 (cfg.path.toList ++ fresh.behindCfg))

/-- A record with which the emulation is switched on: it has a device, and a path that fits. -/
def Fresh.Enables (fresh : Fresh ω) (cfg : FfsConfigState) : Prop :=
  cfg.mode &&& (modeSdhc ||| modeUsb) ≠ 0 ∧
    (fresh.request cfg).nandPath.length < emuNandPathSize

instance (fresh : Fresh ω) (cfg : FfsConfigState) : Decidable (fresh.Enables cfg) :=
  inferInstanceAs (Decidable (_ ∧ _))

/-- The nand path of an emulation that is on is shorter than `ISFS_MAXPATH`; and when it is off, no
record of an earlier save is left behind that switches it on. -/
def SafeToReload (view : ψ → FileStore CfgFile) (fresh : Fresh ω) (s : Drive (Nand ω) ψ) : Prop :=
  if s.io.plugin.config.mode ≠ 0 then s.io.plugin.config.path.length < isfsMaxpath
  else ∀ contents, (view s.flash).file .ffs = some contents →
    ffsConfigSize ≤ contents.length → ¬ fresh.Enables (recordOf contents)

/-- Every operation on a file or a device succeeds: the save comes from ES, no title is running in
modules just loaded, and the device of the emulation is mounted. -/
structure Smooth (files : FatModule ω) (media : Media) (base : DrivePort (Nand ω) ψ)
    (view : ψ → FileStore CfgFile) (s : Drive (Nand ω) ψ) (fresh : Fresh ω) : Prop where
  stores : base.Stores view
  es : s.io.env.esRequest = true
  quiet : fresh.env.runningTitle = false
  heapAlloc : ∀ w, (files.heapAlloc w).1 = true
  openModule : ∀ w, 0 ≤ (files.openModule w).1
  startup : ∀ device, media.startup device = true
  fmt : ∀ device, ∀ partition < 4, media.fmt device partition ≠ 0
  root : ∀ device, ∀ partition < 4, media.root device partition = true
  mounted : s.io.plugin.config.mode ≠ 0 →
    s.io.volumes.volToPart (deviceOf (ffsDevice s.io.plugin.config.mode)) < 4

theorem devicePrefix_length (mode : UInt32) : (devicePrefix mode).length ≤ 2 := by
  unfold devicePrefix
  extract_lets device
  split
  · decide
  · split <;> decide

/-- An absolute path is not longer than its folder and the escaped path. -/
theorem generateAbsolutePath_length (config : FsConfig) (path : Path) :
    (generateAbsolutePath config path).length ≤
      config.path.length + (fatEscape path).length + 2 := by
  have device := devicePrefix_length config.mode
  simp only [generateAbsolutePath, List.length_append]
  omega

theorem dirs_length : ∀ dir ∈ dirs, (fatEscape dir.path.toList).length ≤ 16 := by decide

/-- A copy of 192 bytes at most stays inside the long buffers. -/
theorem PathCopy.inside_long {buffer : PathBuffer} {count : Nat} (long : 192 ≤ buffer.size)
    (le : count ≤ 192) : PathCopy.Inside ⟨buffer, count⟩ := le.trans long

/-- A short path fits everywhere. -/
theorem setModeCopies_inside {request : SetMode} (short : request.path.length < isfsMaxpath)
    (plugin : Plugin (Module ω)) : ∀ copy ∈ setModeCopies files request plugin, copy.Inside := by
  have bound : request.path.length < 64 := short
  have nandPath : request.nandPath.length ≤ request.path.length + 2 :=
    generateAbsolutePath_length _ []
  have folder (dir : DirInfo) (mem : dir ∈ dirs) :
      ∀ copy ∈ folderCopies { mode := request.mode ||| modeRev17, path := request.path } dir,
        copy.Inside := by
    have count := generateAbsolutePath_length
      { mode := request.mode ||| modeRev17, path := request.path } dir.path.toList
    have name := dirs_length dir mem
    simp only at count
    intro copy copied
    rcases List.mem_cons.mp copied with rfl | copied
    · exact PathCopy.inside_long (by decide) (by omega)
    split at copied
    · obtain rfl := List.mem_singleton.mp copied
      exact PathCopy.inside_long (by decide) (by omega)
    · exact absurd copied List.not_mem_nil
  intro copy copied
  unfold setModeCopies at copied
  split at copied
  case isFalse => exact absurd copied List.not_mem_nil
  rcases List.mem_append.mp copied with copied | copied
  · rcases List.mem_cons.mp copied with rfl | copied
    · exact PathCopy.inside_long (by decide) (by omega)
    rcases List.mem_cons.mp copied with rfl | copied
    · exact PathCopy.inside_long (by decide) (by omega)
    split at copied
    case isFalse => exact absurd copied List.not_mem_nil
    rcases List.mem_cons.mp copied with rfl | copied
    · exact PathCopy.inside_long (by decide) (by omega)
    split at copied
    case isFalse => exact absurd copied List.not_mem_nil
    obtain rfl := List.mem_singleton.mp copied
    exact PathCopy.inside_long (by decide) (by omega)
  · split at copied
    case isFalse => exact absurd copied List.not_mem_nil
    obtain ⟨dir, mem, copied⟩ := List.mem_flatMap.mp copied
    exact folder dir mem copy copied

/-- The record is made of the path and what is behind it. -/
theorem source_record (cfg : FfsConfigState) (behind : List UInt8) :
    (if cfg.path.toList = [] then [0] else cfg.path.toList ++ behind) =
      cfg.path.toList ++ behind := if_neg fun none => by
  simpa using congrArg List.length none

/-- The copies for a record in modules just loaded. -/
theorem isfsSetMode_copies (cfg : FfsConfigState) (volumes : Volumes) (copies : List PathCopy) :
    (isfsSetMode files cfg.mode cfg.path.toList
        { fresh.nand copies with volumes := volumes }).copies =
      copies ++ ⟨.isfsPath, (fresh.request cfg).path.length + 1⟩ ::
        setModeCopies files (fresh.request cfg) (.boot (.boot fresh.files)) := by
  unfold isfsSetMode
  dsimp only [Fresh.nand]
  rw [source_record, stringAt_copyString]
  simp only [Fresh.request, pathOf, List.length_map]

/-- What becomes of a record in modules just loaded. -/
theorem isfsSetMode_fresh (smooth : Smooth files media base view s fresh) (cfg : FfsConfigState)
    (volumes : Volumes) (copies : List PathCopy) :
    (isfsSetMode files cfg.mode cfg.path.toList
        { fresh.nand copies with volumes := volumes }).plugin.config =
      if fresh.Enables cfg then
        { mode := cfg.mode ||| modeRev17, path := (fresh.request cfg).path }
      else .off := by
  have plugin : (isfsSetMode files cfg.mode cfg.path.toList
      { fresh.nand copies with volumes := volumes }).plugin =
      (fsSetMode (fatModule files) fresh.env cfg.mode (fresh.request cfg).path
        (.boot (.boot fresh.files))).2 := by
    unfold isfsSetMode
    dsimp only [Fresh.nand]
    rw [source_record, stringAt_copyString]
    rfl
  rw [plugin]
  by_cases on : cfg.mode &&& (modeSdhc ||| modeUsb) ≠ 0
  case pos =>
    simp only [Fresh.Enables, and_iff_right on]
    have device : (fresh.request cfg).mode &&& (modeSdhc ||| modeUsb) ≠ 0 := on
    exact fsSetMode_fresh files smooth.heapAlloc smooth.openModule device smooth.quiet _
  case neg =>
    rw [if_neg fun both => on both.1]
    have none : ¬ (fresh.request cfg).mode &&& (modeSdhc ||| modeUsb) ≠ 0 := on
    exact fsSetMode_nand files none _

/-! ## The path on its way -/

/-- What was fetched is the path, cut off at the length of a path. -/
theorem Nand.fetched_cells (n : Nand ω) : ∃ rest tail, n.fetched.cells =
    (pathBytes n.plugin.config.path ++ 0 :: rest).take isfsMaxpath ++ tail := by
  refine ⟨n.configRest.cells.drop (pathBytes n.plugin.config.path ++ [0]).length,
    n.isfsPath.cells.drop (n.configPath.cells.take isfsMaxpath).length, ?_⟩
  rw [Nand.fetched, Region.copy, Region.store_cells, Nand.configPath, Region.store_cells,
    List.append_assoc, List.singleton_append]

/-- A short path is fetched whole. -/
theorem Nand.fetched_short {n : Nand ω} (string : CString n.plugin.config.path)
    (short : n.plugin.config.path.length < isfsMaxpath) :
    stringAt 0 n.fetched.cells = pathBytes n.plugin.config.path := by
  obtain ⟨rest, tail, cells⟩ := n.fetched_cells
  rw [cells]
  exact stringAt_take (zero_not_mem_pathBytes string) (by rwa [pathBytes, List.length_map]) _ _

/-- A long path comes without its NUL, and `strcpy` runs past the buffers. -/
theorem Nand.fetched_long {n : Nand ω} (string : CString n.plugin.config.path)
    (long : isfsMaxpath ≤ n.plugin.config.path.length) :
    isfsMaxpath ≤ (stringAt 0 n.fetched.cells).length := by
  obtain ⟨rest, tail, cells⟩ := n.fetched_cells
  rw [cells]
  exact le_length_stringAt_take (zero_not_mem_pathBytes string)
    (by rwa [pathBytes, List.length_map]) _ _

/-- The bytes of an array that is filled from memory. -/
theorem toList_ofFn_getD {cells : List UInt8} {size : Nat} (room : size ≤ cells.length) :
    (Vector.ofFn fun i : Fin size => cells.getD i 0).toList = cells.take size := by
  apply List.ext_getElem
  · simp [room]
  · intro i inside inside'
    have lt : i < cells.length := by
      rw [List.length_take] at inside'
      omega
    simp [List.getD_eq_getElem?_getD, lt]

/-- A short path is the one in the record, whatever lies behind it. -/
theorem Nand.saved_short {n : Nand ω} (string : CString n.plugin.config.path)
    (short : n.plugin.config.path.length < isfsMaxpath) (old : Vector UInt8 64) (partition : Nat)
    (fresh : Fresh ω) : (fresh.request (n.saved old partition)).path = n.plugin.config.path := by
  have room := ((n.cfgPath old).copyString 0 n.fetched.cells).room
  obtain ⟨rest, cells⟩ := @Region.copyString_cells _ _ 0 _ n.fetched.cells (n.cfgPath old)
  rw [Nand.fetched_short string short] at cells
  have saved : (n.saved old partition).path.toList =
      (pathBytes n.plugin.config.path ++ 0 :: rest).take isfsMaxpath := by
    rw [← cells]
    exact toList_ofFn_getD room
  have short' : (pathBytes n.plugin.config.path).length < isfsMaxpath := by
    rwa [pathBytes, List.length_map]
  rw [Fresh.request, saved]
  exact (congrArg pathOf (stringAt_take (zero_not_mem_pathBytes string) short' rest _)).trans
    (pathOf_pathBytes string)

/-! ## Modes -/

/-- The bit of revision 17 does not change the device. -/
theorem device_with_rev17 (mode : UInt32) :
    (mode ||| modeRev17) &&& (modeSdhc ||| modeUsb) = mode &&& (modeSdhc ||| modeUsb) := by
  have apart : modeRev17.toBitVec &&& (modeSdhc ||| modeUsb).toBitVec = 0 := by decide
  apply UInt32.toBitVec_inj.mp
  rw [UInt32.toBitVec_and, UInt32.toBitVec_or, BitVec.and_or_distrib_right, apart]
  simp

/-- The number of a partition is the same as an `int`. -/
theorem partition_toInt {partition : Nat} (lt : partition < 4) :
    (UInt32.ofNat partition).toBitVec.toInt = partition := by
  have small : (UInt32.ofNat partition).toNat = partition :=
    UInt32.toNat_ofNat_of_lt' (lt.trans (by decide))
  rw [BitVec.toInt_eq_toNat_of_lt (by rw [UInt32.toNat_toBitVec, small]; omega),
    UInt32.toNat_toBitVec, small]

/-! ## The reload -/

/-- The copies of the save are the first ones. -/
theorem restoreFfs_copies (stores : base.Stores view) (s : Drive (Nand ω) ψ) :
    s.io.copies <+: (restoreFfs files media base fresh s).io.copies := by
  cases file : (view s.flash).file .ffs with
  | none => rw [restoreFfs_missing stores s fresh file]; exact List.prefix_refl _
  | some contents =>
    rw [restoreFfs_found stores s fresh file]
    split
    · exact isfsSetMode_copies _ _ _ ▸ List.prefix_append _ _
    · exact List.prefix_refl _

/-- An emulation that is off is switched on by a record of an earlier save only. -/
theorem survives_off (smooth : Smooth files media base view s fresh)
    (off : s.io.plugin.config.mode = 0) :
    (restoreFfs files media base fresh (saveFfs files media base s).2).io.plugin.config.mode = 0 ↔
      ∀ contents, (view s.flash).file .ffs = some contents →
        ffsConfigSize ≤ contents.length → ¬ fresh.Enables (recordOf contents) := by
  have same := @saveFfs_off _ _ files media base s smooth.es off
  cases file : (view s.flash).file .ffs with
  | none =>
    rw [restoreFfs_missing smooth.stores _ fresh (by rw [same, file])]
    exact iff_of_true rfl fun _ none => absurd none (by simp)
  | some contents =>
    rw [restoreFfs_found smooth.stores _ fresh (by rw [same, file])]
    simp only [Option.some.injEq, forall_eq']
    by_cases loaded : ffsConfigSize ≤ contents.length ∧ (recordOf contents).mode ≠ 0
    case neg =>
      rw [if_neg loaded]
      refine iff_of_true rfl fun full enables => loaded ⟨full, fun none => enables.1 ?_⟩
      rw [none, UInt32.zero_and]
    case pos =>
      rw [if_pos loaded, isfsSetMode_fresh smooth, forall_prop_of_true loaded.1]
      by_cases enables : fresh.Enables (recordOf contents)
      · rw [if_pos enables]
        refine iff_of_false (fun zero => ?_) (not_not.mpr enables)
        have direct := modeRev17_set (recordOf contents).mode
        rw [show (recordOf contents).mode ||| modeRev17 = 0 from zero, UInt32.zero_and] at direct
        exact direct rfl
      · rw [if_neg enables]
        exact iff_of_true rfl enables

/-- A short path and its partition are the same after a reload. -/
theorem survives_short (smooth : Smooth files media base view s fresh)
    (reachable : Ffs.Reachable (fatModule files) s.io.plugin)
    (string : CString s.io.plugin.config.path) (on : s.io.plugin.config.mode ≠ 0)
    (short : s.io.plugin.config.path.length < isfsMaxpath) :
    NandSurvives s.io (restoreFfs files media base fresh (saveFfs files media base s).2).io := by
  obtain ⟨partition, part⟩ : ∃ partition, partition =
    s.io.volumes.volToPart (deviceOf (ffsDevice s.io.plugin.config.mode)) := ⟨_, rfl⟩
  have lt : partition < 4 := part ▸ smooth.mounted on
  obtain ⟨copies, rest, file⟩ := saveFfs_on files media smooth.stores s smooth.es on
    (if_neg (not_le.mpr (smooth.mounted on)))
  rw [← part] at file
  obtain ⟨cfg, record⟩ : ∃ cfg, cfg = s.io.saved s.ffsCfgState.path partition := ⟨_, rfl⟩
  have mode : cfg.mode = s.io.plugin.config.mode := by rw [record, Nand.saved]
  have path : (fresh.request cfg).path = s.io.plugin.config.path := by
    rw [record]
    exact Nand.saved_short string short _ _ fresh
  have signed : cfg.partition.toBitVec.toInt = partition := by
    rw [record]
    exact partition_toInt lt
  rw [← record] at file
  have full : ffsConfigSize ≤ (cfg.bytes ++ rest).length := by
    rw [List.length_append, FfsConfigState.bytes_length]
    exact Nat.le_add_right _ _
  have restored := @restoreFfs_found _ _ files media base view smooth.stores _ fresh _ file
  rw [recordOf_saved, if_pos ⟨full, mode ▸ on⟩, signed, mode] at restored
  -- the mode has a device, and the path fits
  obtain ⟨m, path', device, config⟩ :=
    reachable.config.resolve_left fun off => on (congrArg FsConfig.mode off)
  have absolute : (fresh.request cfg).nandPath.length ≤ (fresh.request cfg).path.length + 2 :=
    generateAbsolutePath_length _ []
  have enables : fresh.Enables cfg := by
    refine ⟨?_, ?_⟩
    · rw [mode, config, device_with_rev17]
      exact device
    · have bound : s.io.plugin.config.path.length < 64 := short
      rw [path] at absolute
      exact show _ < 192 by omega
  have mounts := fatMount_mounts (smooth.startup (deviceOf (ffsDevice s.io.plugin.config.mode))) lt
    (smooth.fmt _ _ lt) (smooth.root _ _ lt) .boot
  rw [NandSurvives, if_pos on, restored, ← part]
  refine ⟨?_, mounts.1, mounts.2.1, mounts.2.2, ?_⟩
  · rw [← mode, isfsSetMode_fresh smooth cfg, if_pos enables, mode, path, config, UInt32.or_assoc,
      UInt32.or_self]
  · rw [← mode, isfsSetMode_copies, copies, Nand.fetched_short string short, pathBytes,
      List.length_map, path]
    have told : ∀ copy ∈ setModeCopies files (fresh.request cfg) (.boot (.boot fresh.files)),
        copy.Inside := setModeCopies_inside (by rw [path]; exact short) _
    have room : s.io.plugin.config.path.length + 1 ≤ isfsMaxpath := short
    intro copy copied
    simp only [List.cons_append, List.nil_append, List.mem_cons] at copied
    rcases copied with rfl | rfl | rfl | rfl | copied
    · exact le_refl isfsMaxpath
    · exact room
    · exact show 1 ≤ isfsMaxpath by decide
    · exact room
    · exact told copy copied

/-- A long path runs past the buffer in the configuration. -/
theorem not_survives_long (smooth : Smooth files media base view s fresh)
    (string : CString s.io.plugin.config.path) (on : s.io.plugin.config.mode ≠ 0)
    (long : isfsMaxpath ≤ s.io.plugin.config.path.length) :
    ¬ NandSurvives s.io (restoreFfs files media base fresh (saveFfs files media base s).2).io := by
  intro survives
  rw [NandSurvives, if_pos on] at survives
  have copies := (saveFfs_on files media smooth.stores s smooth.es on
    (if_neg (not_le.mpr (smooth.mounted on)))).1
  have spilled : PathCopy.mk .cfgPath ((stringAt 0 s.io.fetched.cells).length + 1) ∈
      (saveFfs files media base s).2.io.copies := by
    rw [copies]
    exact List.mem_cons_of_mem _ List.mem_cons_self
  have inside : (stringAt 0 s.io.fetched.cells).length + 1 ≤ isfsMaxpath :=
    survives.2.2.2.2 _ ((restoreFfs_copies smooth.stores _).subset spilled)
  have runs := Nand.fetched_long string long
  omega

/-- For every reachable plugin and every nand path, the emulation survives a
reload if and only if the path is shorter than 64 bytes while it is on, and no
record of an earlier save is left behind while it is off. -/
theorem nandSurvives_iff (smooth : Smooth files media base view s fresh)
    (reachable : Ffs.Reachable (fatModule files) s.io.plugin)
    (string : CString s.io.plugin.config.path) :
    NandSurvives s.io (restoreFfs files media base fresh (saveFfs files media base s).2).io ↔
      SafeToReload view fresh s := by
  by_cases on : s.io.plugin.config.mode ≠ 0
  case neg =>
    rw [NandSurvives, if_neg on, SafeToReload, if_neg on]
    exact survives_off smooth (not_not.mp on)
  case pos =>
    rw [SafeToReload, if_pos on]
    refine ⟨fun survives => ?_, survives_short smooth reachable string on⟩
    by_contra long
    exact not_survives_long smooth string on (not_lt.mp long) survives

end Condition

/-! ## A path of 64 characters -/

/-- Disks on which every partition can be mounted. -/
def wellFormatted : Media where
  startup _ := true
  fmt _ _ := 3
  root _ _ := true

/-- An outside in which nothing but the flash does anything. -/
def stillPort : DrivePort (Nand Unit) (FileStore CfgFile) :=
  let flash := DrivePort.ready (.holding (fun _ _ => 0) 512) fun _ _ => 0
  { storage :=
      { usbstorageInit := fun n => (true, n)
        sdhcInit := fun n => (true, n)
        usbstorageGetSectorSize := fun _ => 512
        usbstorageRead := fun _ _ n => (true, [], n)
        sdhcRead := fun _ _ n => (true, [], n)
        alloc := fun _ n => (none, n) }
    handleCmd := fun _ out _ n => (0, out.getD fun _ => 0, n)
    handleInitDrive := id
    readHash := fun n => (0, n)
    setReadctrl := id
    readctrl := fun _ => 0
    readDvd := fun out _ _ n => (0, out, n)
    readWod := fun out _ _ n => (0, out, n)
    customCmd := fun _ n => (0, [], n)
    memory := fun _ _ _ => 0
    virtToPhys := id
    wbfsOpenDevice := fun _ n => (3, n)
    wbfsOpenDisc := fun _ _ n => (0, n)
    wbfsReadDisc := fun _ _ _ out n => (0, out, n)
    closeDevice := fun _ => id
    isfsGetMode := fun n => (0, 0, .replicate 64 0, n)
    isfsSetMode := fun _ _ => id
    fatMount := fun _ _ => id
    fatGetPartition := fun _ n => (none, n)
    openFile := flash.openFile
    readFile := flash.readFile
    writeFile := flash.writeFile
    closeFile := flash.closeFile
    createFile := flash.createFile
    deleteFile := flash.deleteFile }

/-- Modules loaded into memory full of zeros. -/
def zeroed : Fresh Unit where
  files := ()
  env := quiet
  configRest := ⟨List.replicate fatMaxpath 0, List.length_replicate.ge⟩
  isfsPath := ⟨List.replicate isfsMaxpath 0, List.length_replicate.ge⟩
  behindCfg := []

/-- The request that puts the NAND on the SD card, in the folder `path`. -/
def onCard (path : Path) : Message :=
  .iosIoctlv ioctlSetmode (some { word0 := modeSdhc, path1 := path }) 2 0

/-- The modules once that request is served, before a save. -/
def served (path : Path) : Nand Unit :=
  { zeroed.nand [] with
    plugin := (fsHandle (fatModule idleFat) quiet (onCard path) (.boot (.boot ()))).2
    volumes := (fatMount wellFormatted .sd 0 .boot).2.2
    env := { quiet with esRequest := true } }

/-- The reload of a served path goes smoothly. -/
theorem served_smooth (path : Path)
    (mode : (served path).plugin.config.mode = modeSdhc ||| modeRev17) :
    Smooth idleFat wellFormatted stillPort id (.boot (served path) blankFlash) zeroed where
  stores :=
    let flash := DrivePort.ready_stores (.holding (fun _ _ => 0) 512) fun _ _ => 0
    ⟨flash.missing, flash.found, flash.read, flash.write, flash.close, flash.create, flash.delete⟩
  es := rfl
  quiet := rfl
  heapAlloc _ := rfl
  openModule _ := show (0 : Int) ≤ 1 by decide
  startup _ := rfl
  fmt _ _ _ := show 3 ≠ 0 by decide
  root _ _ _ := rfl
  mounted _ := by
    show (served path).volumes.volToPart (deviceOf (ffsDevice (served path).plugin.config.mode)) < 4
    rw [mode]
    show (fatMount wellFormatted .sd 0 .boot).2.2.volToPart (deviceOf (ffsDevice _)) < 4
    decide

/-- The rule for a folder with a short name. -/
theorem nandSurvives_iff_short :
    NandSurvives (served "/nand".toList)
        (restoreFfs idleFat wellFormatted stillPort zeroed
          (saveFfs idleFat wellFormatted stillPort
            (.boot (served "/nand".toList) blankFlash)).2).io ↔
      SafeToReload id zeroed (.boot (served "/nand".toList) blankFlash) :=
  nandSurvives_iff (served_smooth _ (by decide)) (.message quiet (onCard "/nand".toList) (.boot _))
    (by decide)

/-- A folder whose name takes 64 characters. -/
def longName : Path := '/' :: List.replicate 63 'n'

/-- The long name is a string. -/
theorem longName_string : CString longName := fun c mem => by
  rcases List.mem_cons.mp mem with rfl | mem
  · decide
  · obtain rfl := List.eq_of_mem_replicate mem
    decide

/-- The request is accepted, but after the reload more has been written than the
configuration has room for. -/
theorem longName_lost :
    (fsHandle (fatModule idleFat) quiet (onCard longName) (.boot (.boot ()))).1.ret = 0 ∧
      ¬ NandSurvives (served longName)
        (restoreFfs idleFat wellFormatted stillPort zeroed
          (saveFfs idleFat wellFormatted stillPort (.boot (served longName) blankFlash)).2).io := by
  have config : (served longName).plugin.config =
    { mode := modeSdhc ||| modeRev17, path := longName } := by decide
  refine ⟨by decide, not_survives_long (served_smooth _ (congrArg FsConfig.mode config)) ?_ ?_ ?_⟩
  · exact (congrArg FsConfig.path config).symm ▸ longName_string
  · exact (congrArg FsConfig.mode config).symm ▸ by decide
  · exact (congrArg (fun config => config.path.length) config).symm ▸ by decide

end D2xCios.Dip
