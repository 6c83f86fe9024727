import D2xCios.Fat.Wrapper
import D2xCios.Lib.Packings
import D2xCios.Lib.Programs

/-!
# The sector window of FatFs

`ff.c` reaches the sectors of a volume through the window `win` of the file system object, one at
a time: a sector that has been changed there is written back before another one takes its place,
and a sector of the FAT to all of its copies. What the volume holds is thus what is on the disk,
and in its place the sector in the window.

Any operation of the disk may fail. A read that does leaves anything in its buffer, and a write
anything in its sectors.
-/

namespace D2xCios.FatFs

open D2xCios.Lib
open D2xCios.Fat.Wrapper (FError)

/-! ## Disks -/

/-- The contents of a sector. -/
abbrev Sector := Mem

/-- The sectors, and the operations that there have been. -/
structure Disk where
  sectors : Nat → Sector
  ops : Nat

/-- The operations that fail, by their number, with what they leave behind. -/
structure Faults where
  read : Nat → Option (Nat → Sector)
  write : Nat → Option (Nat → Sector)

/-- Some operation fails. -/
def Faults.Any (faults : Faults) : Prop :=
  ∃ n, faults.read n ≠ none ∨ faults.write n ≠ none

/-- Nothing fails. -/
def Faults.never : Faults where
  read _ := none
  write _ := none

/-! ## The file system object -/

/-- `fs_type` of a volume. -/
inductive FsType where
  | fat12
  | fat16
  | fat32
  deriving DecidableEq

/-- How the entries of the FAT are packed. -/
def FsType.packing : FsType → Packing
  | .fat12 => packing12
  | .fat16 => packing16
  | .fat32 => packing28

/-- The fields of `FATFS` that are set when the volume is mounted. -/
structure Geometry where
  fsType : FsType
  id : Nat
  ssize : Nat
  csize : Nat
  nFats : Nat
  nRootdir : Nat
  nFatent : Nat
  fsize : Nat
  fatbase : Nat
  dirbase : Nat
  database : Nat
  fsiSector : Nat

/-- The fields of `FATFS` that change, and the disk. -/
structure Fatfs where
  win : Sector
  winsect : Nat
  wflag : Bool
  fsiFlag : Bool
  lastClust : Nat
  freeClust : Nat
  disk : Disk

/-- The functions of `ff.c`. -/
abbrev FsM := Prog FError Fatfs

variable (g : Geometry) (faults : Faults)

/-- `disk_read`: whether it has succeeded, and the buffer. -/
def diskRead (sector _count : Nat) : FsM (Bool × (Nat → Sector)) := do
  let fs ← get
  set { fs with disk := { fs.disk with ops := fs.disk.ops + 1 } }
  match faults.read fs.disk.ops with
  | none => return (true, fun i => fs.disk.sectors (sector + i))
  | some junk => return (false, junk)

/-- The sectors once some of them have been written. -/
def written (sectors : Nat → Sector) (sector count : Nat) (data : Nat → Sector) (n : Nat) :
    Sector :=
  if sector ≤ n ∧ n < sector + count then data (n - sector) else sectors n

/-- `disk_write`: whether it has succeeded. -/
def diskWrite (data : Nat → Sector) (sector count : Nat) : FsM Bool := do
  let fs ← get
  let left := (faults.write fs.disk.ops).getD data
  set { fs with
    disk := { sectors := written fs.disk.sectors sector count left, ops := fs.disk.ops + 1 } }
  return (faults.write fs.disk.ops).isNone

/-- The loop of `move_window` over the other copies of the FAT. -/
def reflect (win : Sector) : (copies : Nat) → (wsect : Nat) → FsM Unit
  | 0, _ => return
  | copies + 1, wsect => do
    let _ ← diskWrite faults (fun _ => win) (wsect + g.fsize) 1
    reflect win copies (wsect + g.fsize)

/-- The part of `move_window` that writes the window back. -/
def writeBack : FsM Unit := do
  let fs ← get
  if ¬ (← diskWrite faults (fun _ => fs.win) fs.winsect 1) then throw .diskErr
  modify fun s => { s with wflag := false }
  if fs.winsect < g.fatbase + g.fsize then reflect g faults fs.win (g.nFats - 1) fs.winsect

/-- The part of `move_window` that reads another sector. -/
def loadWindow (sector : Nat) : FsM Unit := do
  let read ← diskRead faults sector 1
  modify fun s => { s with win := read.2 0 }
  if ¬ read.1 then throw .diskErr
  modify fun s => { s with winsect := sector }

/-- `move_window` -/
def moveWindow (sector : Nat) : FsM Unit := do
  let fs ← get
  if fs.winsect ≠ sector then
    if fs.wflag then writeBack g faults
    if sector ≠ 0 then loadWindow faults sector

/-- `clust2sect`, with 0 for an invalid cluster. -/
def clust2sect (clst : Nat) : Nat :=
  if clst < 2 ∨ g.nFatent ≤ clst then 0 else ((clst - 2) * g.csize + g.database) % 4294967296

/-! ## The volume -/

/-- What the volume holds in a sector. -/
def Fatfs.view (s : Fatfs) (n : Nat) : Sector :=
  if n = s.winsect ∧ n ≠ 0 then s.win else s.disk.sectors n

/-- Where the volume ends. -/
def Geometry.limit : Nat := g.database + (g.nFatent - 2) * g.csize

/-- The sectors of the first FAT, and those behind all copies of it. -/
def Geometry.Own (n : Nat) : Prop :=
  g.fatbase ≤ n ∧ (n < g.fatbase + g.fsize ∨ g.fatbase + g.nFats * g.fsize ≤ n) ∧ n < g.limit

/-- The sectors before the FAT and those behind the clusters. -/
def Geometry.Beside (n : Nat) : Prop := n < g.fatbase ∨ g.limit ≤ n

/-- The sectors that the volume has no use for: those before its FAT but the one for `FSInfo`, and
those behind it. -/
def Geometry.Foreign (n : Nat) : Prop :=
  n < g.fatbase ∧ (g.fsType = .fat32 → n ≠ g.fsiSector) ∨ g.limit ≤ n

/-- What a mounted volume is like. -/
structure Geometry.Wf : Prop where
  /-- The sector 0 is not one of the FAT. -/
  fatbase : 1 ≤ g.fatbase
  nFats : 1 ≤ g.nFats
  /-- The sector for `FSInfo` is a reserved one. -/
  fsiSector : g.fsType = .fat32 → g.fsiSector < g.fatbase
  ssize : ∃ k, g.ssize = 2 ^ k ∧ 9 ≤ k ∧ k ≤ 12
  csize : ∃ k, g.csize = 2 ^ k ∧ k ≤ 7
  /-- The clusters lie behind the FAT, in sectors with a number. -/
  database : g.fatbase + g.nFats * g.fsize ≤ g.database
  sectors : g.limit ≤ 4294967296
  /-- The entries fit in the FAT, and the number of a cluster in an entry. -/
  table : ∀ c, c < g.nFatent → g.fsType.packing.first c + g.fsType.packing.width ≤ g.fsize * g.ssize
  nFatent : g.nFatent < g.fsType.packing.size
  clusters : 2 ≤ g.nFatent

/-- The window holds a sector of the disk, or one that has been changed since it was read. -/
structure Fatfs.Coherent (s : Fatfs) : Prop where
  winsect : s.winsect < 4294967296
  clean : s.wflag = false → s.winsect ≠ 0 → s.win = s.disk.sectors s.winsect
  dirty : s.wflag = true → g.Own s.winsect

/-- The copies of the FAT are as the first one, but for a sector that has yet to be written. -/
def Fatfs.Mirrored (s : Fatfs) : Prop :=
  ∀ n, g.fatbase ≤ n → n < g.fatbase + g.fsize → (s.wflag = true → n ≠ s.winsect) →
    ∀ k, k < g.nFats → s.disk.sectors (n + k * g.fsize) = s.disk.sectors n

/-- What is known of the free clusters: whether it has changed, where the last one has been, and
how many there are. -/
def Fatfs.counts (s : Fatfs) : Bool × Nat × Nat := (s.fsiFlag, s.lastClust, s.freeClust)

/-- A step that leaves all sectors of the volume as they were but those of `W`, and what is not of
the volume as it was on the disk. -/
structure Altered (W : Nat → Prop) (s s' : Fatfs) : Prop where
  view : ∀ n, g.Own n → ¬ W n → s'.view n = s.view n
  coherent : s'.Coherent g
  mirrored : ¬ faults.Any → s.Mirrored g → s'.Mirrored g
  foreign : ∀ n, g.Foreign n → s'.disk.sectors n = s.disk.sectors n

/-- One that leaves the sectors before the FAT as they were too, with the one for `FSInfo`: only
`sync` writes that. -/
structure Changed (W : Nat → Prop) (s s' : Fatfs) : Prop extends Altered g faults W s s' where
  reserved : ∀ n, n < g.fatbase → s'.disk.sectors n = s.disk.sectors n

/-- A step that leaves the volume and all but the window as they were. -/
structure Kept (s s' : Fatfs) : Prop extends Changed g faults (fun _ => False) s s' where
  counts : s'.counts = s.counts

/-- A step that puts `w` in a sector of the volume. -/
structure Stored (sector : Nat) (w : Sector) (s s' : Fatfs) : Prop extends
    Changed g faults (fun n => n = sector) s s' where
  counts : s'.counts = s.counts
  stored : s'.view sector = w

/-- An error of the disk, which there is only if one of its operations fails. -/
def Broken (e : FError) : Prop := e = .diskErr ∧ faults.Any

/-! ## What the disk does -/

variable {g faults} {s : Fatfs}

/-- A read yields the sectors of the disk, or fails and changes nothing. -/
theorem diskRead_spec (sector count : Nat) :
    After (diskRead faults sector count) (fun r s' =>
      (∃ ops, s' = { s with disk := { s.disk with ops := ops } }) ∧
        (r.1 = true → r.2 = fun i => s.disk.sectors (sector + i)) ∧ (r.1 = false → faults.Any))
      (fun _ _ => False) s := by
  unfold diskRead
  simp only [after_bind, after_get, after_set]
  cases fault : faults.read s.disk.ops with
  | none => exact ⟨⟨_, rfl⟩, fun _ => rfl, (fun failed => by cases failed)⟩
  | some junk =>
    exact ⟨⟨_, rfl⟩, (fun done => by cases done),
      fun _ => ⟨s.disk.ops, .inl (by simp [fault])⟩⟩

/-- A write stores the sectors, or those in front of the one at which it fails. -/
theorem diskWrite_spec (data : Nat → Sector) (sector count : Nat) :
    After (diskWrite faults data sector count) (fun r s' =>
      (∃ left ops, s' = { s with disk := ⟨written s.disk.sectors sector count left, ops⟩ } ∧
        (r = true → left = data)) ∧ (r = false → faults.Any))
      (fun _ _ => False) s := by
  unfold diskWrite
  simp only [after_bind, after_get, after_set, after_pure]
  refine ⟨⟨_, _, rfl, fun success => ?_⟩, fun failure => ⟨s.disk.ops, .inr fun none => ?_⟩⟩
  · rw [Option.isNone_iff_eq_none.1 success]
    rfl
  · rw [none] at failure
    cases failure

/-- The copies of the FAT are written, as far as the disk does it, and nothing else is. -/
theorem reflect_spec (win : Sector) (copies wsect : Nat) :
    After (reflect g faults win copies wsect) (fun _ s' => ∃ sectors ops,
      s' = { s with disk := ⟨sectors, ops⟩ } ∧
        (∀ n, (∀ k, 1 ≤ k → k ≤ copies → n ≠ wsect + k * g.fsize) → sectors n = s.disk.sectors n) ∧
        (¬ faults.Any → ∀ k, 1 ≤ k → k ≤ copies → sectors (wsect + k * g.fsize) = win))
      (fun _ _ => False) s := by
  induction copies generalizing wsect s with
  | zero => exact ⟨_, _, rfl, fun _ _ => rfl, fun _ k _ _ => by omega⟩
  | succ copies ih =>
    rw [reflect, after_bind]
    refine (diskWrite_spec _ (wsect + g.fsize) 1).mono (fun r s₁ => ?_) (fun _ _ => id)
    rintro ⟨⟨left, ops, rfl, success⟩, failure⟩
    refine (ih (wsect + g.fsize)).mono (fun _ s₂ => ?_) (fun _ _ => id)
    rintro ⟨sectors, ops', rfl, others, reflected⟩
    have next : ∀ k, wsect + g.fsize + k * g.fsize = wsect + (k + 1) * g.fsize := fun k => by
      rw [Nat.add_mul, Nat.one_mul, Nat.add_assoc, Nat.add_comm g.fsize]
    refine ⟨sectors, ops', rfl, fun n apart => ?_, fun clean k positive k_le => ?_⟩
    · have first := apart 1 (Nat.le_refl 1) (by omega)
      rw [others n fun k _ k_le => next k ▸ apart (k + 1) (by omega) (by omega)]
      exact if_neg (by omega)
    · by_cases last : ∃ j, 1 ≤ j ∧ j ≤ copies ∧
          wsect + k * g.fsize = wsect + g.fsize + j * g.fsize
      · obtain ⟨j, positive, j_le, same⟩ := last
        rw [same]
        exact reflected clean j positive j_le
      · have same : k = 1 := by
          by_contra other
          exact last ⟨k - 1, by omega, by omega, by rw [next, Nat.sub_add_cancel positive]⟩
        subst same
        rw [others _ fun j positive j_le same => last ⟨j, positive, j_le, same⟩]
        have written_here : r = true := by
          cases r with
          | true => rfl
          | false => exact absurd (failure rfl) clean
        simp only [written, Nat.one_mul]
        rw [if_pos (by omega), success written_here]

/-- The numbers of the sectors of a volume fit 32 bits. -/
theorem Geometry.Own.lt {n : Nat} (own : g.Own n) (wf : g.Wf) : n < 4294967296 :=
  Nat.lt_of_lt_of_le own.2.2 wf.sectors

/-- A foreign sector is beside the file system's own. -/
theorem Geometry.Foreign.beside {n : Nat} (foreign : g.Foreign n) : g.Beside n :=
  foreign.imp_left And.left

/-- A sector of the volume is not beside it. -/
theorem Geometry.Beside.ne_own {n m : Nat} (beside : g.Beside n) (own : g.Own m) : n ≠ m := by
  have first := own.1
  have last := own.2.2
  rcases beside with before | behind
  · omega
  · omega

/-- The boot sector of the disk is not the file system's. -/
theorem Geometry.Own.ne_zero {n : Nat} (own : g.Own n) (wf : g.Wf) : n ≠ 0 := by
  have first := wf.fatbase
  have from_first := own.1
  omega

/-- The sectors of the FAT have no copy in common. -/
theorem copy_unique {n m k j : Nat} (first : g.fatbase ≤ n) (last : n < g.fatbase + g.fsize)
    (first' : g.fatbase ≤ m) (last' : m < g.fatbase + g.fsize)
    (same : n + k * g.fsize = m + j * g.fsize) : n = m ∧ k = j := by
  rcases Nat.lt_trichotomy k j with lt | eq | gt
  · have next : (k + 1) * g.fsize ≤ j * g.fsize := Nat.mul_le_mul_right _ lt
    rw [Nat.add_mul] at next
    omega
  · subst eq
    omega
  · have next : (j + 1) * g.fsize ≤ k * g.fsize := Nat.mul_le_mul_right _ gt
    rw [Nat.add_mul] at next
    omega

/-- The copies of the FAT lie before what is behind it. -/
theorem copy_lt {n k : Nat} (last : n < g.fatbase + g.fsize) (k_lt : k < g.nFats) :
    n + k * g.fsize < g.fatbase + g.nFats * g.fsize := by
  have next : (k + 1) * g.fsize ≤ g.nFats * g.fsize := Nat.mul_le_mul_right _ k_lt
  rw [Nat.add_mul] at next
  omega

/-- The sectors of a FAT are in front of the end of the volume. -/
theorem inFat_limit (wf : g.Wf) {n : Nat} (last : n < g.fatbase + g.fsize) : n < g.limit := by
  have behind := copy_lt (k := 0) last wf.nFats
  have data := wf.database
  unfold Geometry.limit
  omega

/-- The copies of the FAT are of the volume. -/
theorem Geometry.Beside.ne_copy {n m k : Nat} (beside : g.Beside n) (wf : g.Wf)
    (inside : g.fatbase ≤ m) (last : m < g.fatbase + g.fsize) (k_lt : k < g.nFats) :
    n ≠ m + k * g.fsize := by
  have behind := copy_lt last k_lt
  have data := wf.database
  rcases beside with before | beyond
  · omega
  · unfold Geometry.limit at beyond
    omega

/-- A copy of a sector of the FAT is not one of the sectors that the volume is made of. -/
theorem Geometry.Own.ne_copy {n wsect k : Nat} (own : g.Own n) (inside : g.fatbase ≤ wsect)
    (fat : wsect < g.fatbase + g.fsize) (positive : 1 ≤ k) (k_lt : k < g.nFats) :
    n ≠ wsect + k * g.fsize := by
  have behind := copy_lt fat k_lt
  rintro rfl
  rcases own.2.1 with low | high
  · have same := copy_unique (k := k) (j := 0) inside fat own.1 low (by omega)
    omega
  · omega

/-- The sector in the window is viewed there. -/
theorem view_window (inside : s.winsect ≠ 0) : s.view s.winsect = s.win :=
  if_pos ⟨rfl, inside⟩

/-- Any other sector is viewed on the disk. -/
theorem view_other {n : Nat} (other : n ≠ s.winsect) : s.view n = s.disk.sectors n :=
  if_neg fun here => other here.1

/-- A window that has not been changed is as the disk. -/
theorem view_clean (coherent : s.Coherent g) (clean : s.wflag = false) (n : Nat) :
    s.view n = s.disk.sectors n := by
  unfold Fatfs.view
  split
  case isTrue here =>
    obtain ⟨rfl, inside⟩ := here
    exact coherent.clean clean inside
  case isFalse => rfl

theorem Altered.trans {W : Nat → Prop} {s' s'' : Fatfs} (first : Altered g faults W s s')
    (second : Altered g faults W s' s'') : Altered g faults W s s'' where
  view n own outside := (second.view n own outside).trans (first.view n own outside)
  coherent := second.coherent
  mirrored clean before := second.mirrored clean (first.mirrored clean before)
  foreign n foreign := (second.foreign n foreign).trans (first.foreign n foreign)

theorem Altered.mono {W W' : Nat → Prop} {s' : Fatfs} (altered : Altered g faults W s s')
    (wider : ∀ n, W n → W' n) : Altered g faults W' s s' where
  view n own outside := altered.view n own fun inside => outside (wider n inside)
  coherent := altered.coherent
  mirrored := altered.mirrored
  foreign := altered.foreign

theorem Changed.refl {W : Nat → Prop} (coherent : s.Coherent g) : Changed g faults W s s :=
  ⟨⟨fun _ _ _ => rfl, coherent, fun _ => id, fun _ _ => rfl⟩, fun _ _ => rfl⟩

theorem Changed.trans {W : Nat → Prop} {s' s'' : Fatfs} (first : Changed g faults W s s')
    (second : Changed g faults W s' s'') : Changed g faults W s s'' :=
  ⟨first.toAltered.trans second.toAltered, fun n before =>
    (second.reserved n before).trans (first.reserved n before)⟩

theorem Changed.mono {W W' : Nat → Prop} {s' : Fatfs} (changed : Changed g faults W s s')
    (wider : ∀ n, W n → W' n) : Changed g faults W' s s' :=
  ⟨changed.toAltered.mono wider, changed.reserved⟩

theorem Kept.refl (coherent : s.Coherent g) : Kept g faults s s := ⟨.refl coherent, rfl⟩

theorem Kept.trans {s' s'' : Fatfs} (first : Kept g faults s s') (second : Kept g faults s' s'') :
    Kept g faults s s'' :=
  ⟨first.toChanged.trans second.toChanged, second.counts.trans first.counts⟩

/-- The own sectors look the same. -/
theorem Kept.same {s' : Fatfs} (kept : Kept g faults s s') {n : Nat} (own : g.Own n) :
    s'.view n = s.view n := kept.view n own id

/-- Nothing changed is within any bounds. -/
theorem Kept.changed {W : Nat → Prop} {s' : Fatfs} (kept : Kept g faults s s') :
    Changed g faults W s s' := kept.toChanged.mono fun _ => False.elim

/-- A changed window is written to the disk and to the copies of the FAT. -/
theorem writeBack_spec (wf : g.Wf) (coherent : s.Coherent g) (dirty : s.wflag = true) :
    After (writeBack g faults) (fun _ s' => Kept g faults s s' ∧ s'.wflag = false ∧
      s'.winsect = s.winsect ∧ s'.win = s.win) (fun e _ => Broken faults e) s := by
  have own := coherent.dirty dirty
  have inside := own.ne_zero wf
  unfold writeBack
  simp only [after_bind, after_get]
  refine (diskWrite_spec _ s.winsect 1).mono (fun r s₁ => ?_) (fun _ _ => False.elim)
  rintro ⟨⟨left, ops, rfl, success⟩, failure⟩
  cases r with
  | false => exact ⟨rfl, failure rfl⟩
  | true =>
    have here : written s.disk.sectors s.winsect 1 left s.winsect = s.win := by
      rw [success rfl, written, if_pos (by omega)]
    have others : ∀ n, n ≠ s.winsect →
        written s.disk.sectors s.winsect 1 left n = s.disk.sectors n :=
          fun n other => if_neg (by omega)
    have keeps : ∀ sectors ops, sectors s.winsect = s.win →
        (∀ n, g.Own n → n ≠ s.winsect → sectors n = s.disk.sectors n) →
        (∀ n, g.Beside n → sectors n = s.disk.sectors n) →
        (¬ faults.Any → s.Mirrored g →
          ({ s with wflag := false, disk := ⟨sectors, ops⟩ } : Fatfs).Mirrored g) →
        Kept g faults s { s with wflag := false, disk := ⟨sectors, ops⟩ } := by
      intro sectors ops here others beside mirrored
      refine ⟨⟨⟨fun n own' _ => ?_, ⟨coherent.winsect, fun _ _ => here.symm,
        fun dirty => by cases dirty⟩, mirrored, fun n foreign => beside n foreign.beside⟩,
        fun n before => beside n (.inl before)⟩, rfl⟩
      by_cases same : n = s.winsect
      · subst same
        rw [view_window inside]
        exact view_window inside
      · exact (if_neg fun here => same here.1).trans
          ((others n own' same).trans (view_other same).symm)
    simp only [not_true_eq_false, if_false, after_bind, after_modify]
    split
    case isFalse behind =>
      refine ⟨keeps _ _ here (fun n _ => others n) (fun n beside => others n (beside.ne_own own))
        fun _ mirrored n first last _ k k_lt => ?_, rfl, rfl, rfl⟩
      have apart : g.fatbase + g.nFats * g.fsize ≤ s.winsect := own.2.1.resolve_left behind
      have copy := copy_lt last k_lt
      exact (others _ (by omega)).trans ((mirrored n first last (fun _ => by omega) k k_lt).trans
        (others n (by omega)).symm)
    case isTrue fat =>
      refine (reflect_spec s.win (g.nFats - 1) s.winsect).mono (fun _ s₂ => ?_)
        (fun _ _ => False.elim)
      rintro ⟨sectors, ops', rfl, apart, reflected⟩
      have kept : ∀ n, g.Own n → sectors n = written s.disk.sectors s.winsect 1 left n :=
        fun n own' => apart n fun k positive k_le =>
          own'.ne_copy own.1 fat positive (by omega)
      have beside : ∀ n, g.Beside n → sectors n = s.disk.sectors n := fun n beside =>
        (apart n fun k positive k_le => beside.ne_copy wf own.1 fat (by omega)).trans
          (others n (beside.ne_own own))
      refine ⟨keeps sectors ops' ((kept _ own).trans here)
        (fun n own' other => (kept n own').trans (others n other)) beside ?_, rfl, rfl, rfl⟩
      intro clean mirrored n first last _ k k_lt
      have own' : g.Own n := ⟨first, .inl last, inFat_limit wf last⟩
      by_cases same : n = s.winsect
      · subst same
        rcases Nat.eq_zero_or_pos k with rfl | positive
        · rw [Nat.zero_mul, Nat.add_zero]
        · exact (reflected clean k positive (by omega)).trans ((kept _ own).trans here).symm
      · have elsewhere : ∀ j, n + k * g.fsize ≠ s.winsect + j * g.fsize := fun j equal =>
          same (copy_unique first last own.1 fat equal).1
        have copy := (apart (n + k * g.fsize) fun j _ _ => elsewhere j).trans
          (others _ fun equal => elsewhere 0 (by omega))
        exact copy.trans ((mirrored n first last (fun _ => same) k k_lt).trans
          ((kept n own').trans (others n same)).symm)

/-- Another sector is read in place of one that has not been changed. -/
theorem loadWindow_spec (coherent : s.Coherent g) (clean : s.wflag = false) {sector : Nat}
    (sector_lt : sector < 4294967296) :
    After (loadWindow faults sector) (fun _ s' => Kept g faults s s' ∧ s'.winsect = sector)
      (fun e _ => Broken faults e) s := by
  unfold loadWindow
  simp only [after_bind]
  refine (diskRead_spec sector 1).mono (fun read s₁ => ?_) (fun _ _ => False.elim)
  rintro ⟨⟨ops, rfl⟩, success, failure⟩
  cases ok : read.1 with
  | false => exact ⟨rfl, failure ok⟩
  | true =>
    have here : read.2 0 = s.disk.sectors sector := by rw [success ok]; rfl
    refine ⟨⟨⟨⟨fun n _ _ => ?_, ⟨sector_lt, fun _ _ => here, fun flag => ?_⟩,
      fun _ mirrored n first last _ => mirrored n first last fun flag => ?_, fun _ _ => rfl⟩,
      fun _ _ => rfl⟩, rfl⟩, rfl⟩
    · rw [view_clean coherent clean]
      unfold Fatfs.view
      split
      case isTrue same => exact here.trans (congrArg s.disk.sectors same.1.symm)
      case isFalse => rfl
    · exact absurd (clean.symm.trans flag) Bool.false_ne_true
    · exact absurd (clean.symm.trans flag) Bool.false_ne_true

/-- The window moves, and the volume stays as it is. -/
theorem moveWindow_spec (wf : g.Wf) (coherent : s.Coherent g) {sector : Nat}
    (sector_lt : sector < 4294967296) :
    After (moveWindow g faults sector) (fun _ s' => Kept g faults s s' ∧
      (sector ≠ 0 → s'.winsect = sector) ∧ (sector = 0 → s'.wflag = false ∧ s'.winsect = s.winsect))
      (fun e _ => Broken faults e) s := by
  unfold moveWindow
  simp only [after_bind, after_get]
  split
  case isFalse same =>
    rw [not_not] at same
    refine ⟨.refl coherent, fun _ => same, fun zero => ⟨?_, rfl⟩⟩
    cases flag : s.wflag with
    | false => rfl
    | true => exact absurd (same.trans zero) ((coherent.dirty flag).ne_zero wf)
  case isTrue other =>
    have load : ∀ s₁ : Fatfs, Kept g faults s s₁ → s₁.wflag = false → s₁.winsect = s.winsect →
        After (if sector ≠ 0 then loadWindow faults sector else pure ⟨⟩) (fun _ s' =>
          Kept g faults s s' ∧ (sector ≠ 0 → s'.winsect = sector) ∧
          (sector = 0 → s'.wflag = false ∧ s'.winsect = s.winsect))
          (fun e _ => Broken faults e) s₁ := by
      intro s₁ kept clean place
      split
      case isFalse zero => exact ⟨kept, fun some => absurd some zero, fun _ => ⟨clean, place⟩⟩
      case isTrue some =>
        refine (loadWindow_spec kept.coherent clean sector_lt).mono (fun _ s₂ => ?_) (fun _ _ => id)
        rintro ⟨loaded, here⟩
        exact ⟨kept.trans loaded, fun _ => here, fun zero => absurd zero some⟩
    split
    case isFalse clean =>
      rw [Bool.not_eq_true] at clean
      exact load s (.refl coherent) clean rfl
    case isTrue dirty =>
      rw [after_bind]
      refine (writeBack_spec wf coherent dirty).mono (fun _ s₁ => ?_) (fun _ _ => id)
      rintro ⟨kept, clean, place, -⟩
      exact load s₁ kept clean place

/-- The window does not move to where it is. -/
theorem moveWindow_here {sector : Nat} {ok : Unit → Fatfs → Prop} {failed : FError → Fatfs → Prop}
    (here : s.winsect = sector) : After (moveWindow g faults sector) ok failed s ↔ ok () s := by
  unfold moveWindow
  rw [after_bind, after_get, if_neg (not_not.2 here)]
  exact Iff.rfl

/-- A sector of the volume gets into the window. -/
theorem moveWindow_loads (wf : g.Wf) (coherent : s.Coherent g) {sector : Nat}
    (own : g.Own sector) :
    After (moveWindow g faults sector)
      (fun _ s' => Kept g faults s s' ∧ s'.winsect = sector ∧ s'.win = s.view sector)
      (fun e _ => Broken faults e) s := by
  refine (moveWindow_spec wf coherent (own.lt wf)).mono (fun _ s' => ?_) (fun _ _ => id)
  rintro ⟨kept, here, -⟩
  have place := here (own.ne_zero wf)
  refine ⟨kept, place, ?_⟩
  have inside : s'.winsect ≠ 0 := place ▸ own.ne_zero wf
  rw [← kept.same own, ← view_window inside, place]

/-- The window is changed where it is. -/
theorem stored_window (wf : g.Wf) {sector : Nat} (place : s.winsect = sector) (own : g.Own sector)
    (w : Sector) : Stored g faults sector w s { s with win := w, wflag := true } := by
  subst place
  exact {
    view := fun _ _ other => (if_neg fun here => other here.1).trans (view_other other).symm
    coherent := ⟨own.lt wf, nofun, fun _ => own⟩
    mirrored := fun _ mirrored n first last apart => mirrored n first last fun _ => apart rfl
    foreign := fun _ _ => rfl
    reserved := fun _ _ => rfl
    counts := rfl
    stored := view_window (own.ne_zero wf) }

/-! ## A small volume -/

/-- A volume of eight clusters, each of one sector, with two copies of a FAT of 12 bits. -/
def small : Geometry where
  fsType := .fat12
  id := 1
  ssize := 512
  csize := 1
  nFats := 2
  nRootdir := 16
  nFatent := 10
  fsize := 1
  fatbase := 1
  dirbase := 3
  database := 4
  fsiSector := 0

/-- Its boot record, and a file of three bytes in the cluster 2, with an entry in the root
directory. -/
def smallDisk : Disk where
  sectors n k :=
    if n = 0 then
      ([(12, 2), (13, 1), (14, 1), (16, 2), (17, 16), (19, 12), (22, 1), (54, 0x46), (55, 0x41),
        (56, 0x54), (510, 0x55), (511, 0xAA)].lookup k).getD 0
    else if n = 1 ∨ n = 2 then [0xF8, 0xFF, 0xFF, 0xFF, 0x0F].getD k 0
    else if n = 3 then if k = 26 then 2 else if k = 28 then 3 else 0
    else if n = 4 then [0x61, 0x62, 0x63].getD k 0
    else 0
  ops := 0

/-- The volume when it has been mounted. -/
def smallFs : Fatfs where
  win _ := 0
  winsect := 0
  wflag := false
  fsiFlag := false
  lastClust := 0
  freeClust := 0xFFFFFFFF
  disk := smallDisk

/-- The small volume is well formed. -/
theorem small_wf : small.Wf where
  fatbase := by decide
  nFats := by decide
  fsiSector := by decide
  ssize := ⟨9, by decide, by decide, by decide⟩
  csize := ⟨0, by decide, by decide⟩
  database := by decide
  sectors := by decide
  table c c_lt := by
    change c + c / 2 + 2 ≤ 512
    have below : c < 10 := c_lt
    omega
  nFatent := by decide
  clusters := by decide

/-- The small volume has just been mounted. -/
theorem small_coherent : smallFs.Coherent small where
  winsect := by decide
  clean _ inside := absurd rfl inside
  dirty := nofun

/-- The FATs of the small volume are equal. -/
theorem small_mirrored : smallFs.Mirrored small := by
  intro n first last _ k k_lt
  have first' : 1 ≤ n := first
  have last' : n < 2 := last
  have k_lt' : k < 2 := k_lt
  obtain rfl : n = 1 := by omega
  obtain rfl | rfl : k = 0 ∨ k = 1 := by omega
  · rfl
  · rfl

/-- A disk without faults never fails. -/
theorem never_fails : ¬ Faults.never.Any := by
  rintro ⟨n, read | write⟩
  · exact read rfl
  · exact write rfl

end D2xCios.FatFs
