import D2xCios.FatFs.Clusters

/-!
# Open files

`f_read`, `f_write`, `f_lseek` and `f_sync` on a file object, with the tiny configuration in which
files have no buffer but the window of the volume. Whole sectors go past the window: a read
puts a changed sector of the window in place of what is on the disk, and a write brings the window
up to date.
-/

namespace D2xCios.FatFs

open D2xCios.Lib
open D2xCios.Fat.Wrapper (FError)

/-! ## File objects -/

/-- `FIL`: `opened` says whether `fs` is set, and the bits of `flag` stand on their own. -/
structure Fil where
  opened : Bool
  id : Nat
  read : Bool
  write : Bool
  written : Bool
  error : Bool
  fptr : Nat
  fsize : Nat
  sclust : Nat
  clust : Nat
  dsect : Nat
  dirSect : Nat
  dirPtr : Nat

/-- The volume, a file object, and the bytes that have been moved: as many as `*br` or `*bw`
says. -/
structure Transfer where
  fs : Fatfs
  fp : Fil
  moved : List UInt8

/-- The functions of `ff.c` on a file object. -/
abbrev FileM := Prog FError Transfer

/-- A function on the volume. -/
def onFs {α : Type} (x : FsM α) : FileM α := fun t =>
  let (r, fs) := x.runFrom t.fs
  (r, { t with fs := fs })

/-- The file object is changed. -/
def modifyFp (f : Fil → Fil) : FileM Unit := modify fun t => { t with fp := f t.fp }

/-- `ABORT` -/
def abort {α : Type} (e : FError) : FileM α := do
  modifyFp fun fp => { fp with error := true }
  throw e

@[simp] theorem after_onFs {α : Type} (x : FsM α) {ok : α → Transfer → Prop}
    {failed : FError → Transfer → Prop} {t : Transfer} :
    After (onFs x) ok failed t ↔
      After x (fun a fs => ok a { t with fs := fs }) (fun e fs => failed e { t with fs := fs })
        t.fs := by
  have unfolded : (onFs x).runFrom t = ((x.runFrom t.fs).1, { t with fs := (x.runFrom t.fs).2 }) :=
    rfl
  unfold After
  rw [unfolded]
  rcases x.runFrom t.fs with ⟨r, fs⟩
  cases r <;> rfl

@[simp] theorem after_modifyFp (f : Fil → Fil) {ok : Unit → Transfer → Prop}
    {failed : FError → Transfer → Prop} {t : Transfer} :
    After (modifyFp f) ok failed t ↔ ok () { t with fp := f t.fp } := Iff.rfl

@[simp] theorem after_abort {α : Type} (e : FError) {ok : α → Transfer → Prop}
    {failed : FError → Transfer → Prop} {t : Transfer} :
    After (abort e) ok failed t ↔ failed e { t with fp := { t.fp with error := true } } := Iff.rfl

variable (g : Geometry) (faults : Faults)

/-- `validate`, of a volume that is mounted. -/
def validate : FileM Unit := do
  let t ← get
  if ¬ t.fp.opened ∨ t.fp.id ≠ g.id then throw .invalidObject

variable {g} in
/-- An open file of the volume passes the check. -/
theorem after_validate {ok : Unit → Transfer → Prop} {failed : FError → Transfer → Prop}
    {t : Transfer} (opened : t.fp.opened = true) (id : t.fp.id = g.id) :
    After (validate g) ok failed t ↔ ok () t := by
  unfold validate
  rw [after_bind, after_get, if_neg (not_or.2 ⟨not_not.2 opened, not_not.2 id⟩)]
  exact Iff.rfl

/-! ## Reading -/

/-- The sector in the cluster that the file pointer is in. -/
def csectOf (fptr : Nat) : Nat := fptr / g.ssize &&& (g.csize - 1)

/-- The part of `f_read` on the boundary of a cluster. -/
def readCluster : FileM Unit := do
  let fp := (← get).fp
  let clst ← if fp.fptr = 0 then pure fp.sclust else onFs (getFat g faults fp.clust)
  if clst < 2 then abort .intErr
  else if clst = 0xFFFFFFFF then abort .diskErr
  else modifyFp fun fp => { fp with clust := clst }

/-- The bytes of some sectors. -/
def bytesOf (data : Nat → Sector) (cc : Nat) : List UInt8 :=
  (List.range cc).flatMap fun i => Cells.window (data i) 0 g.ssize

/-- A count of sectors, clipped at the boundary of the cluster. -/
def clipped (csect cc : Nat) : Nat := if g.csize < csect + cc then g.csize - csect else cc

/-- The part of `f_read` that reads whole sectors. -/
def readSectors (sect cc : Nat) : FileM (List UInt8) := do
  let read ← onFs (diskRead faults sect cc)
  if ¬ read.1 then abort .diskErr
  else
    let fs := (← get).fs
    let place := (fs.winsect + 4294967296 - sect) % 4294967296
    return bytesOf g
      (fun i => if fs.wflag ∧ place < cc ∧ i = place then fs.win else read.2 i) cc

/-- The part of `f_read` that reads a part of a sector. -/
def readPart (btr : Nat) : FileM (List UInt8) := do
  let fp := (← get).fp
  let rcnt := if g.ssize - fp.fptr % g.ssize > btr then btr else g.ssize - fp.fptr % g.ssize
  tryCatch (onFs (moveWindow g faults fp.dsect)) fun _ => abort .diskErr
  return Cells.window (← get).fs.win (fp.fptr % g.ssize) rcnt

/-- One round of the loop of `f_read`. -/
def readStep (btr : Nat) : FileM (List UInt8) := do
  let fptr := (← get).fp.fptr
  if fptr % g.ssize = 0 then
    let csect := csectOf g fptr
    if csect = 0 then readCluster g faults
    let sect := clust2sect g (← get).fp.clust
    if sect = 0 then abort .intErr
    else if btr / g.ssize ≠ 0 then
      readSectors g faults (sect + csect) (clipped g csect (btr / g.ssize))
    else
      modifyFp fun fp => { fp with dsect := sect + csect }
      readPart g faults btr
  else readPart g faults btr

/-- The loop of `f_read`. -/
def readLoop : (fuel : Nat) → (btr : Nat) → FileM Unit
  | 0, _ => return
  | fuel + 1, btr => do
    if btr ≠ 0 then
      let bytes ← readStep g faults btr
      modify fun t =>
        { t with fp := { t.fp with fptr := t.fp.fptr + bytes.length }, moved := t.moved ++ bytes }
      readLoop fuel (btr - bytes.length)

/-- `f_read` -/
def fRead (btr : Nat) : FileM Unit := do
  modify fun t => { t with moved := [] }
  validate g
  let fp := (← get).fp
  if fp.error then throw .intErr
  else if ¬ fp.read then throw .denied
  else
    let remain := (fp.fsize + 4294967296 - fp.fptr) % 4294967296
    let btr := if btr > remain then remain else btr
    readLoop g faults btr btr

/-! ## Writing -/

/-- The part of `f_write` on the boundary of a cluster: whether there is a cluster. -/
def writeCluster : FileM Bool := do
  let fp := (← get).fp
  let clst ←
    if fp.fptr = 0 then
      if fp.sclust = 0 then do
        let clst ← onFs (createChain g faults 0)
        modifyFp fun fp => { fp with sclust := clst }
        pure clst
      else pure fp.sclust
    else onFs (createChain g faults fp.clust)
  if clst = 0 then return false
  else if clst = 1 then abort .intErr
  else if clst = 0xFFFFFFFF then abort .diskErr
  else
    modifyFp fun fp => { fp with clust := clst }
    return true

/-- Sectors with the bytes of a buffer. -/
def sectorsOf (wbuff : List UInt8) (i : Nat) : Sector := fun k => wbuff.getD (i * g.ssize + k) 0

/-- The part of `f_write` that writes whole sectors. -/
def writeSectors (wbuff : List UInt8) (sect cc : Nat) : FileM Nat := do
  if ¬ (← onFs (diskWrite faults (sectorsOf g wbuff) sect cc)) then abort .diskErr
  else
    let fs := (← get).fs
    let place := (fs.winsect + 4294967296 - sect) % 4294967296
    if place < cc then
      modify fun t => { t with fs := { t.fs with win := sectorsOf g wbuff place, wflag := false } }
    return g.ssize * cc

/-- The part of `f_write` that writes a part of a sector. -/
def writePart (wbuff : List UInt8) : FileM Nat := do
  let fp := (← get).fp
  let wcnt := if g.ssize - fp.fptr % g.ssize > wbuff.length then wbuff.length
    else g.ssize - fp.fptr % g.ssize
  tryCatch (onFs (moveWindow g faults fp.dsect)) fun _ => abort .diskErr
  modify fun t => { t with
    fs := { t.fs with
      win := Cells.overlay t.fs.win (fp.fptr % g.ssize) (wbuff.take wcnt), wflag := true } }
  return wcnt

/-- One round of the loop of `f_write`: how many bytes have been written, unless there is no
cluster for them. -/
def writeStep (wbuff : List UInt8) : FileM (Option Nat) := do
  let fptr := (← get).fp.fptr
  if fptr % g.ssize = 0 then
    let csect := csectOf g fptr
    let room ← if csect = 0 then writeCluster g faults else pure true
    if ¬ room then return none
    else
      let t ← get
      if t.fs.winsect = t.fp.dsect then
        tryCatch (onFs (moveWindow g faults 0)) fun _ => abort .diskErr
      let sect := clust2sect g (← get).fp.clust
      if sect = 0 then abort .intErr
      else if wbuff.length / g.ssize ≠ 0 then
        return some (← writeSectors g faults wbuff (sect + csect)
          (clipped g csect (wbuff.length / g.ssize)))
      else
        if (← get).fp.fsize ≤ (← get).fp.fptr then
          tryCatch (onFs (moveWindow g faults 0)) fun _ => abort .diskErr
          modify fun t => { t with fs := { t.fs with winsect := sect + csect } }
        modifyFp fun fp => { fp with dsect := sect + csect }
        return some (← writePart g faults wbuff)
  else return some (← writePart g faults wbuff)

/-- The loop of `f_write`. -/
def writeLoop : (fuel : Nat) → (wbuff : List UInt8) → FileM Unit
  | 0, _ => return
  | fuel + 1, wbuff => do
    if wbuff ≠ [] then
      match ← writeStep g faults wbuff with
      | none => return
      | some wcnt =>
        modify fun t =>
          { t with
            fp := { t.fp with fptr := t.fp.fptr + wcnt }, moved := t.moved ++ wbuff.take wcnt }
        writeLoop fuel (wbuff.drop wcnt)

/-- `f_write` -/
def fWrite (buff : List UInt8) : FileM Unit := do
  modify fun t => { t with moved := [] }
  validate g
  let fp := (← get).fp
  if fp.error then throw .intErr
  else if ¬ fp.write then throw .denied
  else
    let buff := if (fp.fsize + buff.length) % 4294967296 < fp.fsize then [] else buff
    writeLoop g faults buff.length buff
    modifyFp fun fp => { fp with fsize := max fp.fsize fp.fptr, written := true }

/-! ## Seeking -/

/-- The loop of `f_lseek`, with what is left of the offset: the cluster, and the rest of the
offset. -/
def seekLoop (bcs : Nat) : (fuel : Nat) → (clst : Nat) → (ofs : Nat) → FileM (Nat × Nat)
  | 0, clst, ofs => return (clst, ofs)
  | fuel + 1, clst, ofs => do
    if bcs < ofs then
      let clst ← onFs (getFat g faults clst)
      if clst = 0xFFFFFFFF then abort .diskErr
      else if clst ≤ 1 ∨ g.nFatent ≤ clst then abort .intErr
      else
        modifyFp fun fp => { fp with clust := clst, fptr := fp.fptr + bcs }
        seekLoop bcs fuel clst (ofs - bcs)
    else return (clst, ofs)

/-- The part of `f_lseek` for an offset other than 0: the sector of the offset, or 0. -/
def seekTo (ifptr ofs : Nat) : FileM Nat := do
  let bcs := g.csize * g.ssize
  let near := 0 < ifptr ∧ (ifptr - 1) / bcs ≤ (ofs - 1) / bcs
  let start := if near then (ifptr - 1) &&& (0xFFFFFFFF ^^^ (bcs - 1)) else 0
  let fp := (← get).fp
  let clst := if near then fp.clust else fp.sclust
  modifyFp fun fp => { fp with fptr := start, clust := clst }
  if clst ≠ 0 then
    let (clst, ofs) ← seekLoop g faults bcs ofs clst (ofs - start)
    modifyFp fun fp => { fp with fptr := fp.fptr + ofs }
    if ofs % g.ssize ≠ 0 then
      let nsect := clust2sect g clst
      if nsect = 0 then abort .intErr
      else return nsect + ofs / g.ssize
    else return 0
  else return 0

/-- `f_lseek`, which does not stretch the file. -/
def fLseek (ofs : Nat) : FileM Unit := do
  validate g
  let fp := (← get).fp
  if fp.error then throw .intErr
  else
    let ofs := if ofs > fp.fsize then fp.fsize else ofs
    modifyFp fun fp => { fp with fptr := 0 }
    let nsect ← if ofs ≠ 0 then seekTo g faults fp.fptr ofs else pure 0
    let fp := (← get).fp
    if fp.fptr % g.ssize ≠ 0 ∧ nsect ≠ fp.dsect then
      modifyFp fun fp => { fp with dsect := nsect }

/-! ## Bringing the disk up to date -/

/-- The `FSInfo` sector. -/
def fsInfo (freeClust lastClust : Nat) (win : Sector) : Sector :=
  let win := fun k => if k < 512 then 0 else win k
  let win := putLe16 win 510 0xAA55
  let win := putLe32 win 0 0x41615252
  let win := putLe32 win 484 0x61417272
  let win := putLe32 win 488 freeClust
  putLe32 win 492 lastClust

/-- `sync`: `disk_ioctl` has nothing to do for `CTRL_SYNC`. -/
def sync : FsM Unit := do
  moveWindow g faults 0
  let fs ← get
  if g.fsType = .fat32 ∧ fs.fsiFlag then
    modify fun s => { s with winsect := 0, win := fsInfo s.freeClust s.lastClust s.win }
    let _ ← diskWrite faults (fun _ => fsInfo fs.freeClust fs.lastClust fs.win) g.fsiSector 1
    modify fun s => { s with fsiFlag := false }

/-- A directory entry once the file has been written, at the time 0. -/
def updated (fp : Fil) (win : Sector) : Sector :=
  let win := win.write (fp.dirPtr + 11) (win (fp.dirPtr + 11) ||| 0x20)
  let win := putLe32 win (fp.dirPtr + 28) fp.fsize
  let win := putLe16 win (fp.dirPtr + 26) fp.sclust
  let win := putLe16 win (fp.dirPtr + 20) (fp.sclust >>> 16)
  putLe32 win (fp.dirPtr + 22) 0

/-- `f_sync` -/
def fSync : FileM Unit := do
  validate g
  let fp := (← get).fp
  if fp.written then
    onFs (moveWindow g faults fp.dirSect)
    modify fun t =>
      { t with fs := { t.fs with win := updated fp t.fs.win, wflag := true },
               fp := { t.fp with written := false } }
    onFs (sync g faults)

end D2xCios.FatFs
