import D2xCios.Fat.Tools
import D2xCios.Ffs.Plugin
import D2xCios.Lib.DirTree

/-!
# Walks over directories

`FAT_ReadDir`, `FAT_DeleteDir` and `FAT_GetUsage` of `fat_wrapper.c` on a mounted volume,
which is a tree of files and directories. FatFs is taken at its documented behaviour: each
of its functions finds the object of its path, does what it is for or reports why it
cannot, and leaves the volume as it was when it reports an error. Any call may fail, and a
walk makes a call with the same arguments once, so that failures go by the arguments.

Paths are taken without control characters, at which FatFs would end them. A name stands for
all of its spellings.

A run that has written behind a path buffer of a walk has no result, as the path itself is what the
walk goes on with. What `FAT_ReadDir` writes behind its heap buffer it does not read again: the run
goes on, and all that it has written is there.
-/

namespace D2xCios.Fat.Wrapper

open D2xCios.Ffs D2xCios.Lib

/-! ## Objects -/

/-- What a directory entry says of an object apart from its names and its data. -/
structure Info where
  fdate : UInt16
  ftime : UInt16
  readOnly : Bool

/-- A file, with a size of four bytes. -/
structure FileData where
  info : Info
  data : List UInt8
  small : data.length < 4294967296

/-- An object with everything below it. -/
abbrev Node (ν : Type) := DirTree ν FileData Info

/-- The entries of a directory, in their order on the volume. -/
abbrev Entries (ν : Type) := DirTree.Entries ν FileData Info

/-- `AM_RDO` -/
def amRdo : UInt8 := 0x01

section Objects

variable {ν : Type}

/-- The entry of an object. -/
def info : Node ν → Info
  | .file value => value.info
  | .dir info _ => info

/-- `fsize` of an object. -/
def fsize : Node ν → UInt32
  | .file value => UInt32.ofNat value.data.length
  | .dir _ _ => 0

/-- `fattrib` of an object. -/
def fattrib (node : Node ν) : UInt8 :=
  (if (info node).readOnly then amRdo else 0) ||| (if node.isDir then amDir else 0)

/-- The attributes tell a folder. -/
theorem fattrib_dir (node : Node ν) : fattrib node &&& amDir ≠ 0 ↔ node.isDir = true := by
  unfold fattrib
  cases (info node).readOnly <;> cases node.isDir <;> decide

end Objects

/-! ## Names and paths -/

/-- `FRESULT` without `FR_OK`. -/
inductive FError where
  | diskErr
  | intErr
  | notReady
  | noFile
  | noPath
  | invalidName
  | denied
  | exist
  | invalidObject
  | writeProtected
  | invalidDrive
  | notEnabled
  | noFilesystem
  | mkfsAborted
  | timeout
  | locked
  | notEnoughCore
  | tooManyOpenFiles
  deriving DecidableEq

/-- The separators of a path. -/
def isSeparator (c : Char) : Bool := c = '/' || c = '\\'

/-- The names of the entries of a volume and how they are written in a path. -/
structure Naming (ν : Type) where
  /-- `create_name` of a segment, nothing being `FR_INVALID_NAME`. -/
  createName (segment : Path) : Option ν
  /-- The short name that `f_readdir` reports. -/
  fname (name : ν) : Path
  /-- The long name that it reports, empty if there is none. -/
  lfname (name : ν) : Path
  fname_nonempty (name : ν) : fname name ≠ []
  /-- `dir_read` passes over the entries of a directory for itself and for its parent, and no other
  short name starts with a dot. -/
  fname_dot (name : ν) : (fname name).head? ≠ some '.'
  createName_text (name : ν) :
    createName (if lfname name ≠ [] then lfname name else fname name) = some name
  createName_empty : createName [] = none
  createName_invalid {segment : Path} {c : Char} (invalid : c ∈ invalidChars)
    (inside : c ∈ segment) : createName segment = none
  text_plain {name : ν} {c : Char}
    (inside : c ∈ if lfname name ≠ [] then lfname name else fname name) : isSeparator c = false

/-- The name of an entry: the long one, if it has one. -/
def Naming.text {ν : Type} (names : Naming ν) (name : ν) : Path :=
  if names.lfname name ≠ [] then names.lfname name else names.fname name

/-- The segments of a path, the first of which has begun with `segment`. Separators in front of a
segment are skipped. -/
def segmentsFrom (segment : Path) : Path → List Path
  | [] => [segment]
  | c :: rest =>
    if isSeparator c then
      if segment = [] then segmentsFrom [] rest else segment :: segmentsFrom [] rest
    else segmentsFrom (segment ++ [c]) rest

/-- The path without its leading separator. -/
def stripSeparator : Path → Path
  | [] => []
  | c :: rest => if isSeparator c then rest else c :: rest

/-- The segments of a path without a drive, none of them being the root directory itself. -/
def segments (path : Path) : List Path :=
  let path := stripSeparator path
  if path = [] then [] else segmentsFrom [] path

/-- The drive number of a path, and the path behind it. -/
def logicalDrive : Path → Nat × Path
  | c :: ':' :: rest =>
    if c.isDigit then (c.toNat - '0'.toNat, rest) else (0, c :: ':' :: rest)
  | path => (0, path)

/-- `_VOLUMES` -/
def volumes : Nat := 2

/-- The head of `chk_mounted` while `drive` is the one that is mounted. -/
def chkMounted (drive : Nat) (path : Path) : Except FError Path :=
  let (vol, path) := logicalDrive path
  if vol ≥ volumes then .error .invalidDrive
  else if vol = drive then .ok path
  else .error .notEnabled

/-! ## The volume -/

/-- The tree of a volume. -/
structure Volume (ν : Type) where
  top : Node ν
  isDir : top.isDir = true
  distinct : top.Distinct

/-- The volume without an entry. -/
def Volume.remove {ν : Type} [DecidableEq ν] (volume : Volume ν) (parent : List ν) (name : ν) :
    Volume ν where
  top := volume.top.remove parent name
  isDir := (DirTree.isDir_alter _ parent volume.top).trans volume.isDir
  distinct := DirTree.distinct_remove volume.distinct parent name

/-- The mounted volume and the long name buffer. `failures` is not part of the program: it counts
the calls of `f_opendir` and `f_readdir` that have failed. -/
structure Disk (ν : Type) where
  drive : Nat
  volume : Volume ν
  lfnBuf : Path
  failures : Nat

/-- What `follow_path` leaves in the directory object. -/
inductive Followed (ν : Type) where
  | root
  | found (parent : List ν) (name : ν) (node : Node ν)
  /-- `FR_NO_FILE`: there is no such entry in the last directory. -/
  | free (parent : List ν) (name : ν)
  | fails (e : FError)

/-- The calls of FatFs, those of `f_readdir` with the number of entries that have not been read. -/
inductive FatCall where
  | fOpen (path : Path)
  | fUnlink (path : Path)
  | fOpendir (path : Path)
  | fReaddir (path : Path) (unread : Nat)
  deriving DecidableEq

/-- The calls that list directories. -/
def FatCall.lists : FatCall → Bool
  | fOpen _ => false
  | fUnlink _ => false
  | fOpendir _ => true
  | fReaddir _ _ => true

/-- The calls of FatFs that fail, and how. -/
abbrev Faults := FatCall → Option FError

/-- `FILINFO` -/
structure Filinfo where
  fname : Path
  fsize : UInt32
  fdate : UInt16
  ftime : UInt16
  fattrib : UInt8

section FatFs

variable {ν : Type} [DecidableEq ν] (names : Naming ν)

/-- The loop of `follow_path`, in the directory `dir` at `parent`. -/
def followFrom (parent : List ν) (dir : Node ν) (segment : Path) (rest : List Path) : Followed ν :=
  match names.createName segment with
  | none => .fails .invalidName
  | some name =>
    match dir.child name, rest with
    | none, [] => .free parent name
    | none, _ :: _ => .fails .noPath
    | some node, [] => .found parent name node
    | some node, next :: rest =>
      if node.isDir then followFrom (parent ++ [name]) node next rest else .fails .noPath

/-- `follow_path` -/
def followPath (top : Node ν) (path : Path) : Followed ν :=
  match segments path with
  | [] => .root
  | segment :: rest => followFrom names [] top segment rest

/-! ## FatFs -/

/-- The object of a path. -/
def find (d : Disk ν) (path : Path) : Followed ν :=
  match chkMounted d.drive path with
  | .ok path => followPath names d.volume.top path
  | .error e => .fails e

variable (faults : Faults)

/-- A call that has failed. -/
def Disk.failed (d : Disk ν) (call : FatCall) : Disk ν :=
  if call.lists then { d with failures := d.failures + 1 } else d

/-- A call of FatFs. One that fails changes nothing. -/
def attempt {α : Type} (call : FatCall) (act : Disk ν → Except FError (α × Disk ν))
    (d : Disk ν) : Except FError α × Disk ν :=
  match faults call with
  | some e => (.error e, d.failed call)
  | none =>
    match act d with
    | .ok (value, d') => (.ok value, d')
    | .error e => (.error e, d.failed call)

/-- `f_open` of an existing file. -/
def fOpen (path : Path) : Disk ν → Except FError Unit × Disk ν :=
  attempt faults (.fOpen path) fun d =>
    match find names d path with
    | .root => .error .invalidName
    | .found _ _ node => if node.isDir then .error .noFile else .ok ((), d)
    | .free _ _ => .error .noFile
    | .fails e => .error e

/-- `f_unlink` -/
def fUnlink (path : Path) : Disk ν → Except FError Unit × Disk ν :=
  attempt faults (.fUnlink path) fun d =>
    match find names d path with
    | .root => .error .invalidName
    | .found parent name node =>
      if (info node).readOnly then .error .denied
      else if node.entries = [] then .ok ((), { d with volume := d.volume.remove parent name })
      else .error .denied
    | .free _ _ => .error .noFile
    | .fails e => .error e

/-- `f_opendir`, with all the entries of the directory. -/
def fOpendir (path : Path) : Disk ν → Except FError (Entries ν) × Disk ν :=
  attempt faults (.fOpendir path) fun d =>
    match find names d path with
    | .root => .ok (d.volume.top.entries, d)
    | .found _ _ (.dir _ entries) => .ok (entries, d)
    | .found _ _ (.file _) => .error .noPath
    | .free _ _ => .error .noPath
    | .fails e => .error e

/-- `get_fileinfo` -/
def getFileinfo (name : ν) (node : Node ν) : Filinfo where
  fname := names.fname name
  fsize := fsize node
  fdate := (info node).fdate
  ftime := (info node).ftime
  fattrib := fattrib node

/-- `FILINFO` at the end of a directory. -/
def Filinfo.ending : Filinfo where
  fname := []
  fsize := 0
  fdate := 0
  ftime := 0
  fattrib := 0

/-- `f_readdir` of a directory with entries that have not been read. They stay where they are when
others are deleted. The long name goes to `lfnBuf`. -/
def fReaddir (path : Path) (unread : Entries ν) : Disk ν → Except FError Filinfo × Disk ν :=
  attempt faults (.fReaddir path unread.length) fun d =>
    match unread with
    | [] => .ok (.ending, { d with lfnBuf := [] })
    | (name, node) :: _ =>
      .ok (getFileinfo names name node, { d with lfnBuf := names.lfname name })

/-! ## The wrapper -/

/-- The errors of `__FAT_OpenDir`. -/
def openDirError : FError → Int
  | .invalidName => fsEnoent
  | .noPath => fsEnoent
  | _ => fsEfatal

/-- The errors of `FAT_Delete`. -/
def deleteError : FError → Int
  | .denied => fsEaccess
  | .exist => fsEexist
  | .noFile => fsEnoent
  | .noPath => fsEnoent
  | _ => fsEfatal

/-- `__FAT_OpenDir` -/
def openDir (path : Path) (d : Disk ν) : Except Int (Entries ν) × Disk ν :=
  match fOpendir names faults path d with
  | (.ok entries, d) => (.ok entries, d)
  | (.error e, d) => (.error (openDirError e), d)

/-- The entries behind one of them. -/
abbrev Behind (unread : Entries ν) := { rest : Entries ν // rest.length < unread.length }

/-- `__FAT_ReadDirEntry`, which says the same of an error as of the end. -/
def readDirEntry (path : Path) :
    (unread : Entries ν) → Disk ν → Except Int (Filinfo × Behind unread) × Disk ν
  | [], d => (.error fsEnoent, (fReaddir names faults path [] d).2)
  | entry :: rest, d =>
    match fReaddir names faults path (entry :: rest) d with
    | (.error _, d) => (.error fsEnoent, d)
    | (.ok fno, d) =>
      if fno.fname = [] then (.error fsEnoent, d)
      else if fno.fname.head? ≠ some '.' then (.ok (fno, ⟨rest, Nat.lt_succ_self _⟩), d)
      else
        match readDirEntry path rest d with
        | (.error ret, d) => (.error ret, d)
        | (.ok (fno, left), d) => (.ok (fno, ⟨left.1, Nat.lt_succ_of_lt left.2⟩), d)

/-- The name of an entry that has been read. -/
def entryName (fno : Filinfo) (d : Disk ν) : Path :=
  if d.lfnBuf ≠ [] then d.lfnBuf else fno.fname

/-- The name as a request of FS takes it, unescaped where it is. -/
def fetchName (forFS : Bool) (fno : Filinfo) (d : Disk ν) : Path × Disk ν :=
  if forFS then
    (fatEscapes.decode (entryName fno d), { d with lfnBuf := fatEscapes.decode d.lfnBuf })
  else (entryName fno d, d)

/-- The longest name that is listed for FS. -/
def fsMaxname : Nat := 12

/-- `_MAX_LFN`: the longest string in a path buffer of the wrapper. -/
def maxLfn : Nat := 255

/-- The path of an entry. -/
def joinPath (dirpath name : Path) : Path := dirpath ++ '/' :: name

/-- A path gets longer by a name. -/
theorem joinPath_longer (dirpath name : Path) :
    dirpath.length < (joinPath dirpath name).length := by
  rw [joinPath, List.length_append, List.length_cons]
  omega

/-- What `FAT_ReadDir` lists: the number of entries and what it has written to its buffer, however
large that is. -/
structure Listing where
  cnt : UInt32
  written : Path

/-- The loop of `FAT_ReadDir`. -/
def listEntries (dirpath : Path) (entries : UInt32) (forFS buffer : Bool) (unread : Entries ν)
    (out : Listing) (d : Disk ν) : Listing × Disk ν :=
  if entries = 0 ∨ out.cnt < entries then
    match readDirEntry names faults dirpath unread d with
    | (.error _, d) => (out, d)
    | (.ok (fno, ⟨rest, _⟩), d) =>
      let (name, d) := fetchName forFS fno d
      if forFS ∧ fsMaxname < name.length then
        listEntries dirpath entries forFS buffer rest out d
      else
        let written :=
          if buffer then out.written ++ name.take maxLfn ++ [nul] else out.written
        listEntries dirpath entries forFS buffer rest ⟨out.cnt + 1, written⟩ d
  else (out, d)
termination_by unread.length

/-- `FAT_ReadDir`: the result, and what is listed with success. -/
def readDir (allocates : Bool) (dirpath : Path) (buflen entries : UInt32) (forFS : Bool)
    (d : Disk ν) : Int × Option Listing × Disk ν :=
  match fOpen names faults dirpath d with
  | (.ok _, d) => (fsEfatal, none, d)
  | (.error _, d) =>
    match openDir names faults dirpath d with
    | (.error ret, d) => (ret, none, d)
    | (.ok unread, d) =>
      let buffer : Bool := buflen ≠ 0
      if buffer ∧ allocates = false then (ipcEnomem, none, d)
      else
        let (out, d) := listEntries names faults dirpath entries forFS buffer unread ⟨0, []⟩ d
        (fsSuccess, some out, d)

/-- `FAT_Delete` -/
def delete (path : Path) (d : Disk ν) : Int × Disk ν :=
  match fUnlink names faults path d with
  | (.ok _, d) => (fsSuccess, d)
  | (.error e, d) => (deleteError e, d)

/-- The loop of `FAT_DeleteDir`, with its recursive call. There is no result of a run that has
written behind the buffer of a path. -/
def deleteEntries (dirpath : Path)
    (deleteDir : (path : Path) → dirpath.length < path.length ∧ path.length ≤ maxLfn →
      Disk ν → Option Int × Disk ν) (unread : Entries ν) (d : Disk ν) : Option Int × Disk ν :=
  match readDirEntry names faults dirpath unread d with
  | (.error _, d) => (some fsSuccess, d)
  | (.ok (fno, ⟨rest, _⟩), d) =>
    let path := joinPath dirpath (entryName fno d)
    if fits : path.length ≤ maxLfn then
      -- the result of the recursive call is dropped
      let (returns, d) :=
        if fno.fattrib &&& amDir ≠ 0 then
          deleteDir path ⟨joinPath_longer dirpath _, fits⟩ d
        else (some fsSuccess, d)
      if returns = none then (none, d)
      else
        let (ret, d) := delete names faults path d
        if ret ≠ 0 then (some ret, d) else deleteEntries dirpath deleteDir rest d
    else (none, d)
termination_by unread.length

/-- `FAT_DeleteDir` -/
def deleteDir (dirpath : Path) (d : Disk ν) : Option Int × Disk ν :=
  match openDir names faults dirpath d with
  | (.error ret, d) => (some ret, d)
  | (.ok unread, d) =>
    deleteEntries names faults dirpath (fun path _inside => deleteDir path) unread d
termination_by maxLfn + 1 - dirpath.length
decreasing_by omega

/-- What `FAT_GetUsage` adds to. -/
structure Usage where
  size : UInt64
  files : UInt32
  dirs : UInt32
  deriving DecidableEq

/-- The loop of `FAT_GetUsage`, with its recursive call. There is no result of a run that has
written behind the buffer of a path. -/
def usageEntries (forFS : Bool) (dirpath : Path)
    (getUsage : (path : Path) → dirpath.length < path.length ∧ path.length ≤ maxLfn →
      Usage → Disk ν → Option Int × Usage × Disk ν)
    (unread : Entries ν) (t : Usage) (d : Disk ν) : Option Int × Usage × Disk ν :=
  match readDirEntry names faults dirpath unread d with
  | (.error _, d) => (some fsSuccess, t, d)
  | (.ok (fno, ⟨rest, _⟩), d) =>
    let (name, d) := fetchName forFS fno d
    if forFS ∧ fsMaxname < name.length then usageEntries forFS dirpath getUsage rest t d
    else if fno.fattrib &&& amDir ≠ 0 then
      let path := joinPath dirpath name
      if fits : path.length ≤ maxLfn then
        match getUsage path ⟨joinPath_longer dirpath _, fits⟩ { t with dirs := t.dirs + 1 } d with
        | (none, t, d) => (none, t, d)
        | (some ret, t, d) =>
          if ret ≠ 0 then (some ret, t, d) else usageEntries forFS dirpath getUsage rest t d
      else (none, t, d)
    else
      let t := { t with size := t.size + fno.fsize.toUInt64, files := t.files + 1 }
      usageEntries forFS dirpath getUsage rest t d
termination_by unread.length

/-- `FAT_GetUsage` -/
def getUsage (forFS : Bool) (dirpath : Path) (t : Usage) (d : Disk ν) :
    Option Int × Usage × Disk ν :=
  match openDir names faults dirpath d with
  | (.error ret, d) => (some ret, t, d)
  | (.ok unread, d) =>
    usageEntries names faults forFS dirpath (fun path _inside => getUsage forFS path) unread t d
termination_by maxLfn + 1 - dirpath.length
decreasing_by omega

end FatFs

end D2xCios.Fat.Wrapper
