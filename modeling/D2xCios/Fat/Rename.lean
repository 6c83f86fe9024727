import D2xCios.Fat.Untouched

/-!
# Renaming

`FAT_Rename` and `FAT_GetStats` of `fat_wrapper.c` on a mounted volume, and the FAT module as
`IOCTL_ISFS_RENAME` uses it: what is at the new path is deleted before it is known whether anything
is at the old one. FatFs is taken at its documented behaviour, as it is for walks: a call that fails
changes nothing. It does not look whether an object is moved below itself.
-/

namespace D2xCios.Fat.Wrapper

open D2xCios.Ffs D2xCios.Lib

/-! ## The volume -/

section Volumes

variable {ν : Type} [DecidableEq ν]

/-- A new entry for an object, where the name is free. -/
def addEntry (name : ν) (node : Node ν) (es : Entries ν) : Entries ν :=
  if es.lookup name = none then es ++ [(name, node)] else es

/-- A new entry keeps the names distinct. -/
theorem addEntry_kept {name : ν} {node : Node ν} (fresh : node.Distinct) (es : Entries ν)
    (nodup : (es.map Prod.fst).Nodup) (below : ∀ e ∈ es, e.2.Distinct) :
    ((addEntry name node es).map Prod.fst).Nodup ∧ ∀ e ∈ addEntry name node es, e.2.Distinct := by
  unfold addEntry
  split
  case isFalse => exact ⟨nodup, below⟩
  case isTrue free =>
    refine ⟨?_, fun e inside => ?_⟩
    · rw [List.map_append, List.map_singleton]
      exact DirTree.nodup_snoc nodup free
    · rcases List.mem_append.1 inside with old | new
      · exact below e old
      · rw [List.mem_singleton.1 new]
        exact fresh

/-- The volume with an object under another name. The new entry is written before the old one is
removed. -/
def Volume.rename (volume : Volume ν) (parent : List ν) (name : ν) (parent' : List ν)
    (name' : ν) : Volume ν :=
  match found : volume.top.look (parent ++ [name]) with
  | none => volume
  | some node =>
    { top := (volume.top.alter (addEntry name' node) parent').remove parent name
      isDir := by
        rw [DirTree.remove, DirTree.isDir_alter, DirTree.isDir_alter]
        exact volume.isDir
      distinct := DirTree.distinct_remove (DirTree.distinct_alter parent' volume.distinct
        (addEntry_kept (volume.distinct.look found))) parent name }

/-- A rename is an insertion and a removal. -/
theorem Volume.rename_top {volume : Volume ν} {parent parent' : List ν} {name name' : ν}
    {node : Node ν} {attr : Info} {es : Entries ν}
    (found : volume.top.look (parent ++ [name]) = some node)
    (room : volume.top.look parent' = some (.dir attr es)) (free : es.lookup name' = none) :
    (volume.rename parent name parent' name').top =
      (volume.top.insert parent' name' node).remove parent name := by
  unfold Volume.rename
  split
  case h_1 missing => exact absurd (found.symm.trans missing) (Option.some_ne_none node)
  case h_2 node' found' =>
    obtain rfl : node = node' := Option.some.inj (found.symm.trans found')
    refine congrArg (DirTree.remove · parent name)
      (DirTree.alter_congr volume.distinct fun attr' es' here => ?_)
    rw [room, Option.some.injEq, DirTree.dir.injEq] at here
    exact if_pos (here.2 ▸ free)

end Volumes

section FatFs

variable {ν : Type} [DecidableEq ν] (names : Naming ν)

/-! ## FatFs -/

/-- The calls of FatFs that fail while an object is renamed. -/
structure RenameFaults where
  /-- The calls that delete what is at the new path. -/
  walk : Faults
  stat : Option FError
  rename : Option FError

variable (faults : RenameFaults)

/-- `f_stat`, which puts the long name in `lfnBuf`. -/
def fStat (path : Path) (d : Disk ν) : Except FError Filinfo × Disk ν :=
  match faults.stat with
  | some e => (.error e, d)
  | none =>
    match find names d path with
    | .root => (.error .invalidName, d)
    | .found _ name node =>
      (.ok (getFileinfo names name node), { d with lfnBuf := names.lfname name })
    | .free _ _ => (.error .noFile, d)
    | .fails e => (.error e, d)

/-- `f_rename`. The new path has no drive. -/
def fRename (pathOld pathNew : Path) (d : Disk ν) : Except FError Unit × Disk ν :=
  match faults.rename with
  | some e => (.error e, d)
  | none =>
    match find names d pathOld with
    | .root => (.error .noFile, d)
    | .found parent name _ =>
      match followPath names d.volume.top pathNew with
      | .root => (.error .exist, d)
      | .found _ _ _ => (.error .exist, d)
      | .free parent' name' =>
        (.ok (), { d with volume := d.volume.rename parent name parent' name' })
      | .fails e => (.error e, d)
    | .free _ _ => (.error .noFile, d)
    | .fails e => (.error e, d)

/-! ## The wrapper -/

/-- The errors of `FAT_Rename`. -/
def renameError : FError → Int
  | .exist => fsEexist
  | .noPath => fsEnoent
  | .noFile => fsEnoent
  | _ => fsEfatal

/-- The errors of `FAT_GetStats`. -/
def statsError : FError → Int
  | .noFile => fsEnoent
  | .noPath => fsEnoent
  | .invalidName => fsEnoent
  | _ => fsEfatal

/-- The path behind its first colon, if there is one. -/
def skipPrefix (path : Path) : Path :=
  if ':' ∈ path then (path.dropWhile (fun c => c ≠ ':')).tail else path

/-- `FAT_Rename` -/
def rename (oldname newname : Path) (d : Disk ν) : Int × Disk ν :=
  match fRename names faults oldname (skipPrefix newname) d with
  | (.ok _, d) => (fsSuccess, d)
  | (.error e, d) => (renameError e, d)

/-- The statistics of an object. -/
def statsOf (fno : Filinfo) : Stats where
  size := fno.fsize.toNat
  date := fno.fdate.toNat
  time := fno.ftime.toNat
  attrib := fno.fattrib

/-- `FAT_GetStats`, with the statistics that are stored with success. -/
def getStats (path : Path) (d : Disk ν) : Int × Option Stats × Disk ν :=
  match fStat names faults path d with
  | (.ok fno, d) => (fsSuccess, some (statsOf fno), d)
  | (.error e, d) => (statsError e, none, d)

/-! ## The module -/

/-- The FAT module with a volume. `stats` is where the caller has statistics stored. `overran` is
not part of the program: a path has been written behind its buffer, and nothing is said about what
comes then. -/
structure World (ν : Type) where
  disk : Disk ν
  stats : Stats
  overran : Bool

/-- The FAT module, with the calls of `IOCTL_ISFS_RENAME` made on the volume. -/
def renamer (rest : FatModule (World ν)) : FatModule (World ν) :=
  { rest with
    getStats := fun path w =>
      let (ret, stats, d) := getStats names faults path w.disk
      let w := { w with disk := d, stats := stats.getD w.stats }
      (ret, w.stats, w)
    deleteDir := fun path w =>
      let (ret, d) := deleteDir names faults.walk path w.disk
      (ret.getD fsEfatal, { w with disk := d, overran := w.overran || ret.isNone })
    delete := fun path w =>
      let (ret, d) := delete names faults.walk path w.disk
      (ret, { w with disk := d })
    rename := fun oldname newname w =>
      let (ret, d) := rename names faults oldname newname w.disk
      (ret, { w with disk := d }) }

end FatFs

end D2xCios.Fat.Wrapper
