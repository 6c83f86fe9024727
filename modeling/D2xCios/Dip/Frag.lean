import D2xCios.CiosLib.Results
import D2xCios.Lib.Extents
import D2xCios.Lib.Words

/-!
# Fragment-backed disc images

`frag.c`: a disc image that lies in fragments on a block device, with the
sectors between the fragments left out. A read is split into a leading part of
a sector, whole sectors and a trailing part of a sector, and each of the three
looks the fragments up anew.

Values of type `u32` are natural numbers below 2^32, and `u32` reduces the
result of an addition that can leave that range. Byte counts inside a read never
exceed the length that was asked for.
-/

namespace D2xCios.Dip

open D2xCios.Lib

/-! ## Constants -/

/-- `DEV_USB` and `DEV_SDHC`. -/
def devUsb : Nat := 1
def devSdhc : Nat := 2

/-- `MAX_IDX` -/
def maxIdx : Nat := 640

/-- `IDX_SHIFT`: a chunk of the jump table is 2^15 sectors. -/
def idxShift : Nat := 15

/-- `FRAG_MAX` -/
def fragMax : Nat := 20000

/-- `sizeof(FragList)` -/
def fragListSize : Nat := 12 + 12 * fragMax

/-! ## The list -/

/-- A run of image sectors from `offset` on, stored from `sector` on. -/
structure Fragment where
  offset : Nat
  sector : Nat
  count : Nat
  deriving DecidableEq

/-- `FragList`: `frag` is the array of all entries, of which `num` are in use. -/
structure FragList where
  size : Nat
  num : Nat
  frag : Nat → Fragment

/-- The list as it lies in memory. -/
def FragList.ofMem (mem : Mem) : FragList where
  size := (be32 mem 0).toNat
  num := (be32 mem 4).toNat
  frag i :=
    { offset := (be32 mem (12 + 12 * i)).toNat
      sector := (be32 mem (16 + 12 * i)).toNat
      count := (be32 mem (20 + 12 * i)).toNat }

/-! ## The block devices -/

/-- What `frag.c` asks of the storage clients and the heap. A read yields the
result of the client and the bytes it has stored. -/
structure Storage (σ : Type) where
  usbstorageInit : σ → Bool × σ
  sdhcInit : σ → Bool × σ
  usbstorageGetSectorSize : σ → Nat
  usbstorageRead : (sector count : Nat) → σ → Bool × List UInt8 × σ
  sdhcRead : (sector count : Nat) → σ → Bool × List UInt8 × σ
  /-- `DI_Alloc`: the memory handed out, if there is any. -/
  alloc : Nat → σ → Option Mem × σ

/-- The read of the device `dev`. -/
def Storage.read {σ : Type} (storage : Storage σ) (dev sector count : Nat) (st : σ) :
    Bool × List UInt8 × σ :=
  if dev = devUsb then storage.usbstorageRead sector count st else storage.sdhcRead sector count st

/-- The initialization of the device `dev`. -/
def Storage.init {σ : Type} (storage : Storage σ) (dev : Nat) (st : σ) : Bool × σ :=
  if dev = devUsb then storage.usbstorageInit st else storage.sdhcInit st

/-- `SECTOR_SIZE(dev)` of a device that is USB or SDHC. -/
def Storage.sectorSize {σ : Type} (storage : Storage σ) (dev : Nat) (st : σ) : Nat :=
  if dev = devSdhc then 512 else storage.usbstorageGetSectorSize st

/-! ## The statics -/

/-- The statics of `frag.c` and `fraglist_data`. -/
structure FragState where
  fragIdx : List Nat
  fragInited : Bool
  fragDev : Nat
  sectorSize : Nat
  ssNumBits : Nat
  /-- `sector_buf`, `none` for `NULL`. -/
  sectorBuf : Option Mem
  fraglistData : Mem
  /-- Whether `frag_list` points to `fraglist_data`. -/
  fragList : Bool

/-- The statics of a module just loaded. -/
def FragState.boot : FragState where
  fragIdx := List.replicate maxIdx 0
  fragInited := false
  fragDev := 0
  sectorSize := 0
  ssNumBits := 0
  sectorBuf := none
  fraglistData := fun _ => 0
  fragList := false

/-! ## The jump table -/

/-- `__Frag_GetNumBits` -/
def fragGetNumBits (value : Nat) : Nat :=
  if value / 2 = 0 then 1 else fragGetNumBits (value / 2) + 1
termination_by value

/-- The inner loop of `__Frag_OptimizeList`: skip the fragments that end at or
before `off`, but never the last one. -/
def fragSkip (ff : FragList) (off idx : Nat) : Nat :=
  if off ≥ u32 ((ff.frag idx).offset + (ff.frag idx).count) ∧ idx + 1 < ff.num then
    fragSkip ff off (idx + 1)
  else idx
termination_by ff.num - idx

/-- The outer loop of `__Frag_OptimizeList` over `left` chunks from chunk `i` on. -/
def fragOptimizeFrom (ff : FragList) : (i left idx : Nat) → List Nat
  | _, 0, _ => []
  | i, left + 1, idx =>
    let idx := fragSkip ff (i <<< idxShift) idx
    idx :: fragOptimizeFrom ff (i + 1) left idx

/-- `__Frag_OptimizeList`: the contents of `frag_idx`. -/
def fragOptimizeList (ff : FragList) : List Nat := fragOptimizeFrom ff 0 maxIdx 0

/-! ## Setting up -/

section Setup

variable {σ : Type}

/-- `Frag_Close` -/
def fragClose (fs : FragState) : FragState :=
  { fs with fragInited := false, fragList := false, fragDev := 0, sectorBuf := none }

/-- The copy of a list into the cleared `fraglist_data`. -/
def fragCopy (source : Mem) (size : Nat) : Mem := fun i => if i < size then source i else 0

/-- `Frag_Init`. The list is copied from `source`, unless it is `fraglist_data` itself. -/
def fragInit (storage : Storage σ) (device : Nat) (source : Option Mem) (size : Nat)
    (fs : FragState) (st : σ) : Int × FragState × σ :=
  let fs := if fs.fragInited then fragClose fs else fs
  if device ≠ devUsb ∧ device ≠ devSdhc then (-1, fs, st)
  else if size = 0 then (-2, fs, st)
  else if size > fragListSize then (-3, fs, st)
  else
    let (opened, st) := storage.init device st
    if opened = false then (-4, fs, st)
    else
      let sectorSize := storage.sectorSize device st
      let ssNumBits := fragGetNumBits (u32 (sectorSize + 4294967295))
      let (sectorBuf, st) := storage.alloc sectorSize st
      let fs := { fs with sectorSize := sectorSize, ssNumBits := ssNumBits, sectorBuf := sectorBuf }
      if sectorBuf = none then (-5, fs, st)
      else
        let fraglistData := match source with
          | some mem => fragCopy mem size
          | none => fs.fraglistData
        (0, { fs with
              fragDev := device
              fraglistData := fraglistData
              fragList := true
              fragIdx := fragOptimizeList (FragList.ofMem fraglistData)
              fragInited := true }, st)

/-- The list a successful `Frag_Init` leaves in `fraglist_data`. -/
def initData (source : Option Mem) (size : Nat) (fs : FragState) : Mem :=
  match source with
  | some mem => fragCopy mem size
  | none => fs.fraglistData

/-- What `Frag_Init` leaves behind when it succeeds. -/
theorem fragInit_ok {storage : Storage σ} {device : Nat} {source : Option Mem} {size : Nat}
    {fs : FragState} {st : σ} (succeeded : (fragInit storage device source size fs st).1 = 0) :
    ∃ sectorSize buf, (fragInit storage device source size fs st).2.1 =
      { fragIdx := fragOptimizeList (FragList.ofMem (initData source size fs))
        fragInited := true
        fragDev := device
        sectorSize := sectorSize
        ssNumBits := fragGetNumBits (u32 (sectorSize + 4294967295))
        sectorBuf := some buf
        fraglistData := initData source size fs
        fragList := true } := by
  have kept : (if fs.fragInited then fragClose fs else fs).fraglistData = fs.fraglistData := by
    split <;> rfl
  generalize start : (if fs.fragInited then fragClose fs else fs) = opened at kept
  revert succeeded
  simp only [fragInit, start]
  split
  · exact fun failed => absurd failed (by simp)
  split
  · exact fun failed => absurd failed (by simp)
  split
  · exact fun failed => absurd failed (by simp)
  split
  · exact fun failed => absurd failed (by simp)
  split
  · exact fun failed => absurd failed (by simp)
  case isFalse allocated =>
    intro _
    obtain ⟨buf, stored⟩ := Option.ne_none_iff_exists'.mp allocated
    refine ⟨storage.sectorSize device (storage.init device st).2, buf, ?_⟩
    cases source <;> simp only [initData, stored, kept]

/-- What `Frag_Init` asks of its arguments, the device and the heap. -/
structure FragInits (storage : Storage σ) (device size : Nat) (st : σ) : Prop where
  known : device = devUsb ∨ device = devSdhc
  nonempty : size ≠ 0
  fits : size ≤ fragListSize
  opens : (storage.init device st).1 = true
  allocates : (storage.alloc (storage.sectorSize device (storage.init device st).2)
    (storage.init device st).2).1 ≠ none

/-- When `Frag_Init` succeeds. -/
theorem fragInit_eq_zero_iff (storage : Storage σ) (device : Nat) (source : Option Mem) (size : Nat)
    (fs : FragState) (st : σ) :
    (fragInit storage device source size fs st).1 = 0 ↔ FragInits storage device size st := by
  unfold fragInit
  simp only
  split
  case isTrue unknown =>
    exact ⟨fun zero => absurd zero (by simp), fun inits =>
      absurd inits.known (by simp only [not_or]; exact unknown)⟩
  split
  case isTrue empty =>
    exact ⟨fun zero => absurd zero (by simp), fun inits => absurd empty inits.nonempty⟩
  split
  case isTrue large =>
    exact ⟨fun zero => absurd zero (by simp), fun inits => absurd inits.fits (by omega)⟩
  split
  case isTrue closed =>
    exact ⟨fun zero => absurd zero (by simp), fun inits =>
      absurd inits.opens (by rw [closed]; exact Bool.false_ne_true)⟩
  split
  case isTrue exhausted =>
    exact ⟨fun zero => absurd zero (by simp), fun inits => absurd exhausted inits.allocates⟩
  case isFalse known nonempty fits opens allocates =>
    refine ⟨fun _ => ⟨?_, nonempty, by omega, by simpa using opens, allocates⟩, fun _ => rfl⟩
    by_contra unknown
    exact known (not_or.mp unknown)

/-- A `Frag_Init` that fails leaves nothing set up. -/
theorem fragInit_failed {storage : Storage σ} {device : Nat} {source : Option Mem} {size : Nat}
    {fs : FragState} {st : σ} (failed : (fragInit storage device source size fs st).1 ≠ 0) :
    (fragInit storage device source size fs st).2.1.fragInited = false := by
  have closed : (if fs.fragInited then fragClose fs else fs).fragInited = false := by
    cases inited : fs.fragInited <;> simp [fragClose, inited]
  revert failed
  unfold fragInit
  simp only
  split
  · exact fun _ => closed
  split
  · exact fun _ => closed
  split
  · exact fun _ => closed
  split
  · exact fun _ => closed
  split
  · exact fun _ => closed
  · exact fun failed => absurd rfl failed

end Setup

/-! ## Looking fragments up -/

/-- The result of `__Frag_Get`: the stored run `count` sectors long from image
sector `offset` on, at device sector `sector`. -/
structure FragSpan where
  offset : Nat
  sector : Nat
  count : Nat
  deriving DecidableEq

/-- The loop of `__Frag_Get` from fragment `i` on. -/
def fragScan (ff : FragList) (offset count i : Nat) : Option FragSpan :=
  if i < ff.num then
    let frag := ff.frag i
    if frag.offset ≤ offset ∧ u32 (frag.offset + frag.count) > offset then
      let delta := offset - frag.offset
      some ⟨offset, u32 (frag.sector + delta), min (frag.count - delta) count⟩
    else if frag.offset > offset ∧ frag.offset < u32 (offset + count) then
      let delta := frag.offset - offset
      some ⟨frag.offset, frag.sector, min frag.count (count - delta)⟩
    else fragScan ff offset count (i + 1)
  else none
termination_by ff.num - i

/-- `__Frag_Get`. Past the last chunk of the table its last entry serves, except
for the chunk right behind it, which reads past the array. -/
def fragGet (fragIdx : List Nat) (ff : FragList) (offset count : Nat) : Except Int FragSpan :=
  let idxOff := offset >>> idxShift
  let idxOff := if idxOff > maxIdx then maxIdx - 1 else idxOff
  match fragScan ff offset count (fragIdx.getD idxOff 0) with
  | some span => .ok span
  | none =>
    if u32 (offset + count) > ff.size then .error (-2)
    else .ok ⟨u32 (offset + count), 0, 0⟩

/-! ## Reading -/

variable {σ : Type}

/-- `__Frag_ReadSect`: `len` sectors from image sector `offset` on into the
buffer `mem` at `data`. -/
def fragReadSect (storage : Storage σ) (fs : FragState) (ff : FragList) (offset data len : Nat)
    (mem : Mem) (st : σ) : Int × Mem × σ :=
  if len = 0 then (0, mem, st)
  else
    match fragGet fs.fragIdx ff offset len with
    | .error ret => (ret, mem, st)
    | .ok span =>
      -- a sparse block is filled with zeros
      let delta := span.offset - offset
      let mem := mem.overlay data (List.replicate (delta <<< fs.ssNumBits) 0)
      let data := data + delta <<< fs.ssNumBits
      let got := if span.count = 0 then (true, [], st)
        else storage.read fs.fragDev span.sector span.count st
      let mem := mem.overlay data got.2.1
      if got.1 = false then (-3, mem, got.2.2)
      else if delta + span.count = 0 then (-4, mem, got.2.2)
      else
        fragReadSect storage fs ff (u32 (offset + delta + span.count))
          (data + span.count <<< fs.ssNumBits) (len - (delta + span.count)) mem got.2.2
termination_by len

/-- The caller's memory, `sector_buf`, and the state of the storage clients. -/
structure FragIo (σ : Type) where
  mem : Mem
  sectorBuf : Mem
  st : σ

/-- `__Frag_ReadPartial`: the result, `*read_len`, and what it leaves behind. -/
def fragReadPartial (storage : Storage σ) (fs : FragState) (ff : FragList)
    (offset data len : Nat) (io : FragIo σ) : Int × Nat × FragIo σ :=
  let offSec := offset >>> (fs.ssNumBits - 2)
  let mod := (offset &&& ((fs.sectorSize - 1) >>> 2)) <<< 2
  let rlen := min (fs.sectorSize - mod) len
  -- whole sectors are not read here
  let rlen := if rlen = fs.sectorSize then 0 else rlen
  if rlen = 0 then (0, 0, io)
  else
    let (ret, buf, st) := fragReadSect storage fs ff offSec 0 1 io.sectorBuf io.st
    if ret ≠ 0 then (ret, 0, { io with sectorBuf := buf, st := st })
    else
      (0, rlen, { mem := io.mem.overlay data (buf.window mod rlen), sectorBuf := buf, st := st })

/-- The whole sectors of a read: the result and the number of sectors read. -/
def fragReadAligned (storage : Storage σ) (fs : FragState) (ff : FragList)
    (woffset data len : Nat) (io : FragIo σ) : Int × Nat × FragIo σ :=
  if len ≥ fs.sectorSize then
    let lenSec := len >>> fs.ssNumBits
    let (ret, mem, st) :=
      fragReadSect storage fs ff (woffset >>> (fs.ssNumBits - 2)) data lenSec io.mem io.st
    (ret, lenSec, { io with mem := mem, st := st })
  else (0, 0, io)

/-- `Frag_Read` behind its leading part: the whole sectors and the trailing part. -/
def fragReadTail (storage : Storage σ) (fs : FragState) (ff : FragList) (data len woffset : Nat)
    (io : FragIo σ) : Int × FragIo σ :=
  let (ret, lenSec, io) := fragReadAligned storage fs ff woffset data len io
  if ret ≠ 0 then (ret, io)
  else
    let woffset := u32 (woffset + lenSec <<< (fs.ssNumBits - 2))
    let data := data + lenSec <<< fs.ssNumBits
    let len := len - lenSec <<< fs.ssNumBits
    if len = 0 then (0, io)
    else
      let (ret, rlen, io) := fragReadPartial storage fs ff woffset data len io
      if ret ≠ 0 then (ret, io)
      else if len - rlen ≠ 0 then (-5, io)
      else (0, io)

/-- `Frag_Read`: `len` bytes from image word `woffset` on into memory at `data`. -/
def fragRead (storage : Storage σ) (fs : FragState) (ff : FragList) (data len woffset : Nat)
    (io : FragIo σ) : Int × FragIo σ :=
  let (ret, rlen, io) := fragReadPartial storage fs ff woffset data len io
  if ret ≠ 0 then (ret, io)
  else fragReadTail storage fs ff (data + rlen) (len - rlen) (u32 (woffset + rlen >>> 2)) io

end D2xCios.Dip
