import D2xCios.Ffs.Plugin

/-!
# The FAT module

`main.c` of the FAT module: it keeps the folder of the emulated NAND, which it
is told once over IPC, and puts it in front of every relative path that it is
asked to open. All other requests name absolute paths.
-/

namespace D2xCios.Fat

open D2xCios.Ffs

/-- The size of `emuNandPath`. -/
def emuNandPathSize : Nat := 192

/-- The statics of `main.c`, `emuNandPathLen` being the length of `emuNandPath`,
and the files below. -/
structure Module (φ : Type) where
  emuNandPath : Path
  files : φ

/-- The statics of a module just loaded. -/
def Module.boot {φ : Type} (files : φ) : Module φ where
  emuNandPath := "/".toList
  files := files

/-- The character of a C string at `i`, which is not behind its end. -/
def charAt (path : Path) (i : Nat) : Char := path.getD i '\x00'

/-- `IOCTL_FAT_SETNANDPATH` -/
def setNandPath {φ : Type} (path : Path) (m : Module φ) : Int × Module φ :=
  let len := path.length
  if len < emuNandPathSize then
    let emuNandPath := if charAt path len ≠ '/' then path ++ ['/'] else path
    (0, { m with emuNandPath := emuNandPath })
  else (-4, m)

/-- `DEVICE_FAT` -/
def deviceFat : Path := "fat".toList

/-- The path of the file that `IOS_OPEN` opens for a device path, if it is one. -/
def openPath (emuNandPath devpath : Path) : Option Path :=
  if devpath.head? = some '$' then some (emuNandPath ++ fatEscape devpath.tail)
  else if deviceFat.isPrefixOf devpath then some (devpath.drop deviceFat.length)
  else none

section Requests

variable {φ : Type}

/-- `IOS_OPEN` of a device path other than "fat". -/
def iosOpen (files : FatModule φ) (devpath : Path) (mode : UInt32) (m : Module φ) :
    Int × Module φ :=
  match openPath m.emuNandPath devpath with
  | some path =>
    let (ret, w) := files.openFile path mode m.files
    (ret, { m with files := w })
  | none => (ipcEinval, m)

/-- A request that leaves `emuNandPath` alone. -/
def onFiles {α : Type} (request : φ → α × φ) (m : Module φ) : α × Module φ :=
  let (answer, w) := request m.files
  (answer, { m with files := w })

/-- The same for a request with two results. -/
def onFiles₂ {α β : Type} (request : φ → α × β × φ) (m : Module φ) : α × β × Module φ :=
  let (ret, value, w) := request m.files
  (ret, value, { m with files := w })

/-- The module as the plugin sees it, over `files`, in which all paths are absolute. -/
def fatModule (files : FatModule φ) : FatModule (Module φ) where
  heapAlloc := onFiles files.heapAlloc
  openModule := onFiles files.openModule
  setNandPath := setNandPath
  openFile := iosOpen files
  close fd := onFiles (files.close fd)
  read fd len := onFiles₂ (files.read fd len)
  write fd data := onFiles (files.write fd data)
  seek fd offset origin := onFiles (files.seek fd offset origin)
  createDir path := onFiles (files.createDir path)
  createFile path := onFiles (files.createFile path)
  readDir path entries m :=
    let (ret, count, names, w) := files.readDir path entries m.files
    (ret, count, names, { m with files := w })
  delete path := onFiles (files.delete path)
  deleteDir path := onFiles (files.deleteDir path)
  rename oldname newname := onFiles (files.rename oldname newname)
  getStats path := onFiles₂ (files.getStats path)
  getUsage path := onFiles₂ (files.getUsage path)
  getFileStats fd := onFiles₂ (files.getFileStats fd)

/-! ## The folder of the emulated NAND -/

/-- Behind a path is its terminator. -/
theorem charAt_end (path : Path) : charAt path path.length = '\x00' := by
  simp [charAt]

/-- A path that fits is always given another slash, even behind one. -/
theorem setNandPath_fits {path : Path} (fits : path.length < emuNandPathSize) (m : Module φ) :
    setNandPath path m = (0, { m with emuNandPath := path ++ ['/'] }) := by
  have ending : charAt path path.length ≠ '/' := by
    rw [charAt_end]
    decide
  simp only [setNandPath, if_pos fits, if_pos ending]

/-- A relative path is opened in the folder of the emulation, escaped. -/
theorem openPath_relative (emuNandPath rest : Path) :
    openPath emuNandPath ('$' :: rest) = some (emuNandPath ++ fatEscape rest) := rfl

end Requests

end D2xCios.Fat
