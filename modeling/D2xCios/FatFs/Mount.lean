import D2xCios.FatFs.Sessions

/-!
# Mounting a volume

`chk_mounted` looks for a boot record, in the first sector or in the one of a partition, and takes
the layout of the volume from it. It does not check all of it: its sums are those of 32 bits, and
neither the number of the `FSInfo` sector nor the end of the volume is looked at. A boot record
without those faults makes a volume that everything else can rely on, and mounting only reads.
-/

namespace D2xCios.FatFs

open D2xCios.Lib
open D2xCios.Fat.Wrapper (FError)

variable (faults : Faults)

/-! ## The source -/

/-- What `check_fs` says of a sector. -/
inductive BootRecord where
  | fat
  | other
  | none
  | failed
  deriving DecidableEq

/-- The signature of a sector that `check_fs` and `chk_mounted` look for. -/
def signed (win : Sector) : Prop := le16 win 510 = 0xAA55 ∨ le16 win 510 = 0xAB55

instance (win : Sector) : Decidable (signed win) := inferInstanceAs (Decidable (_ ∨ _))

/-- The string of `check_fs`. -/
def named (win : Sector) : Prop :=
  le32 win 54 &&& 0xFFFFFF = 0x544146 ∨ le32 win 82 &&& 0xFFFFFF = 0x544146

instance (win : Sector) : Decidable (named win) := inferInstanceAs (Decidable (_ ∨ _))

/-- `check_fs` -/
def checkFs (sect : Nat) : FsM BootRecord := do
  let read ← diskRead faults sect 1
  modify fun s => { s with win := read.2 0 }
  if ¬ read.1 then return .failed
  else
    let win := (← get).win
    if ¬ signed win then return .none
    else if named win then return .fat
    else return .other

/-- The search of `chk_mounted` for a boot record: what it is, and its sector. -/
def findBoot (pt : Nat) : FsM (BootRecord × Nat) := do
  let fmt ← checkFs faults 0
  if fmt = .other then
    let win := (← get).win
    let tbl := 446 + pt * 16
    if win (tbl + 4) ≠ 0 then
      let fmt ← checkFs faults (le32 win (tbl + 8))
      return (fmt, le32 win (tbl + 8))
    else return (fmt, 0)
  else return (fmt, 0)

/-- A word of a boot record, or one of another field if it is 0. -/
def either (word other : Nat) : Nat := if word = 0 then other else word

/-- `n_fats` -/
def bootFats (win : Sector) : Nat := (win 16).toNat

/-- `fsize` -/
def bootFatSize (win : Sector) : Nat := either (le16 win 22) (le32 win 36)

/-- `csize` -/
def bootClusterSize (win : Sector) : Nat := (win 13).toNat

/-- `n_rootdir` -/
def bootRootdir (win : Sector) : Nat := le16 win 17

/-- `tsect` -/
def bootSectors (win : Sector) : Nat := either (le16 win 19) (le32 win 32)

/-- `nrsv` -/
def bootReserved (win : Sector) : Nat := le16 win 14

/-- `sysect` -/
def bootSystem (ssize : Nat) (win : Sector) : Nat :=
  (bootReserved win + bootFatSize win * bootFats win % 4294967296 +
    bootRootdir win / (ssize / 32)) % 4294967296

/-- The sub-type for a number of clusters. -/
def subType (nclst : Nat) : FsType :=
  if nclst ≥ 65526 then .fat32 else if nclst ≥ 4086 then .fat16 else .fat12

/-- `szbfat` -/
def tableSize : FsType → Nat → Nat
  | .fat12, nFatent => nFatent * 3 / 2 + nFatent % 2
  | .fat16, nFatent => nFatent * 2
  | .fat32, nFatent => nFatent * 4 % 4294967296

/-- `nclst` -/
def bootClusters (ssize : Nat) (win : Sector) : Nat :=
  (bootSectors win - bootSystem ssize win) / bootClusterSize win

/-- `fmt` -/
def bootType (ssize : Nat) (win : Sector) : FsType := subType (bootClusters ssize win)

/-- What `chk_mounted` does not accept. -/
def Refused (ssize : Nat) (win : Sector) : Prop :=
  le16 win 11 ≠ ssize ∨
  bootFats win ≠ 1 ∧ bootFats win ≠ 2 ∨
  (bootClusterSize win = 0 ∨ bootClusterSize win &&& (bootClusterSize win - 1) ≠ 0) ∨
  bootRootdir win % (ssize / 32) ≠ 0 ∨
  bootReserved win = 0 ∨
  bootSectors win < bootSystem ssize win ∨
  bootClusters ssize win = 0 ∨
  (bootType ssize win = .fat32 ∧ bootRootdir win ≠ 0 ∨
    bootType ssize win ≠ .fat32 ∧ bootRootdir win = 0) ∨
  bootFatSize win < (tableSize (bootType ssize win) ((bootClusters ssize win + 2) % 4294967296) +
    (ssize - 1)) % 4294967296 / ssize

instance (ssize : Nat) (win : Sector) : Decidable (Refused ssize win) :=
  inferInstanceAs (Decidable (_ ∨ _))

/-- The layout of the volume, where `chk_mounted` has found nothing wrong. -/
def layoutOf (ssize fsid fsiSector bsect : Nat) (win : Sector) : Geometry :=
  let fmt := bootType ssize win
  let fatbase := (bsect + bootReserved win) % 4294967296
  { fsType := fmt
    id := (fsid + 1) % 65536
    ssize := ssize
    csize := bootClusterSize win
    nFats := bootFats win
    nRootdir := bootRootdir win
    nFatent := (bootClusters ssize win + 2) % 4294967296
    fsize := bootFatSize win
    fatbase := fatbase
    dirbase := if fmt = .fat32 then le32 win 44
      else (fatbase + bootFatSize win * bootFats win % 4294967296) % 4294967296
    database := (bsect + bootSystem ssize win) % 4294967296
    fsiSector := if fmt = .fat32 then (bsect + le16 win 48) % 4294967296 else fsiSector }

/-- The part of `chk_mounted` that takes the layout of the volume from its boot record. -/
def readBoot (ssize fsid fsiSector bsect : Nat) (win : Sector) : Option Geometry :=
  if Refused ssize win then none else some (layoutOf ssize fsid fsiSector bsect win)

/-- The part of `chk_mounted` that looks at the `FSInfo` sector. -/
def readInfo (g : Geometry) : FsM Unit := do
  modify fun s => { s with freeClust := 0xFFFFFFFF, lastClust := 0 }
  if g.fsType = .fat32 then
    modify fun s => { s with fsiFlag := false }
    let read ← diskRead faults g.fsiSector 1
    modify fun s => { s with win := read.2 0 }
    let win := (← get).win
    if read.1 ∧ signed win ∧ le32 win 0 = 0x41615252 ∧ le32 win 484 = 0x61417272 then
      modify fun s => { s with lastClust := le32 win 492, freeClust := le32 win 488 }

/-- `chk_mounted`, of a volume that has yet to be mounted: the file system object had `fsiSector` in
it, and `fsid` volumes have been mounted before. -/
def chkMounted (ssize pt fsid fsiSector : Nat) : FsM Geometry := do
  let (fmt, bsect) ← findBoot faults pt
  if fmt = .failed then throw .diskErr
  else if fmt ≠ .fat then throw .noFilesystem
  else
    match readBoot ssize fsid fsiSector bsect (← get).win with
    | none => throw .noFilesystem
    | some g =>
      readInfo faults g
      modify fun s => { s with winsect := 0, wflag := false }
      return g

/-! ## The layout of a volume -/

/-- A boot record whose sums are those of the volume: its parts lie one behind the other in the
sectors that it has, and the `FSInfo` sector is a reserved one. -/
structure Regular (ssize bsect : Nat) (win : Sector) : Prop where
  sector : ∃ k, ssize = 2 ^ k ∧ 9 ≤ k ∧ k ≤ 12
  system : bootReserved win + bootFatSize win * bootFats win + bootRootdir win / (ssize / 32) ≤
    bootSectors win
  volume : bsect + bootSectors win ≤ 4294967296
  clusters : bootClusters ssize win + 2 < 268435456
  info : bootType ssize win = .fat32 → 0 < le16 win 48 ∧ le16 win 48 < bootReserved win

variable {faults} {s : Fatfs} {g : Geometry} {ssize pt fsid fsiSector bsect : Nat} {win : Sector}

theorem either_lt {word other : Nat} (word_lt : word < 65536) (other_lt : other < 4294967296) :
    either word other < 4294967296 := by
  unfold either
  split <;> omega

/-- A size that passes the check of `chk_mounted` is a power of two. -/
theorem power_of_two {b : Nat} (b_lt : b < 256) (some : b ≠ 0) (single : b &&& (b - 1) = 0) :
    ∃ k, b = 2 ^ k ∧ k ≤ 7 := by
  obtain ⟨k, rfl⟩ := Nat.ne_zero_and_sub_one_eq_zero_iff_isPowerOfTwo.1 ⟨some, single⟩
  have small : 2 ^ k < 2 ^ 8 := b_lt
  exact ⟨k, rfl, Nat.lt_succ_iff.1 ((Nat.pow_lt_pow_iff_right (by decide)).1 small)⟩

/-- The sub-type leaves room for the numbers of the clusters. -/
theorem subType_size {nclst : Nat} (nclst_lt : nclst + 2 < 268435456) :
    nclst + 2 < (subType nclst).packing.size := by
  unfold subType
  split
  · exact nclst_lt
  · split
    · change nclst + 2 < 65536
      omega
    · change nclst + 2 < 4096
      omega

/-- The entries lie in as many bytes as `szbfat` says. -/
theorem tableSize_le (fmt : FsType) {n c : Nat} (n_lt : n < 268435456) (c_lt : c < n) :
    fmt.packing.first c + fmt.packing.width ≤ tableSize fmt n := by
  cases fmt with
  | fat12 =>
    change c + c / 2 + 2 ≤ n * 3 / 2 + n % 2
    obtain ⟨m, rfl | rfl⟩ : ∃ m, n = 2 * m ∨ n = 2 * m + 1 := ⟨n / 2, by omega⟩
    · omega
    · omega
  | fat16 =>
    change 2 * c + 2 ≤ n * 2
    omega
  | fat32 =>
    change 4 * c + 4 ≤ n * 4 % 4294967296
    omega

theorem tableSize_lt (fmt : FsType) {n : Nat} (n_lt : n < 268435456) :
    tableSize fmt n < 2147483648 := by
  cases fmt with
  | fat12 =>
    change n * 3 / 2 + n % 2 < _
    omega
  | fat16 =>
    change n * 2 < _
    omega
  | fat32 =>
    change n * 4 % 4294967296 < _
    omega

/-- The FAT is as large as its entries need. -/
theorem table_fits {size fsize ssize : Nat} (ssize_pos : 0 < ssize) (size_lt : size < 2147483648)
    (ssize_le : ssize ≤ 4096) (enough : ¬ fsize < (size + (ssize - 1)) % 4294967296 / ssize) :
    size ≤ fsize * ssize := by
  rw [Nat.mod_eq_of_lt (by omega), Nat.not_lt] at enough
  have whole := Nat.mul_le_mul_right ssize enough
  have rest := Nat.div_add_mod (size + (ssize - 1)) ssize
  have rest_lt := Nat.mod_lt (size + (ssize - 1)) ssize_pos
  rw [Nat.mul_comm] at rest
  omega

theorem bootSectors_lt (win : Sector) : bootSectors win < 4294967296 :=
  either_lt (le16_lt _ _) (le32_lt _ _)

/-- Nothing wraps around. -/
theorem Regular.system_eq (regular : Regular ssize bsect win) : bootSystem ssize win =
    bootReserved win + bootFatSize win * bootFats win + bootRootdir win / (ssize / 32) := by
  have parts := regular.system
  have sectors_lt := bootSectors_lt win
  have before : bootFatSize win * bootFats win < 4294967296 := by
    refine Nat.lt_of_le_of_lt ?_ sectors_lt
    exact Nat.le_trans (Nat.le_trans (Nat.le_add_left _ _) (Nat.le_add_right _ _)) parts
  rw [bootSystem, Nat.mod_eq_of_lt before]
  exact Nat.mod_eq_of_lt (Nat.lt_of_le_of_lt parts sectors_lt)

/-- There is a cluster behind the FAT and the root directory. -/
theorem system_lt (some : bootClusters ssize win ≠ 0) : bootSystem ssize win < bootSectors win := by
  by_contra none
  rw [bootClusters, Nat.sub_eq_zero_of_le (Nat.not_lt.1 none), Nat.zero_div] at some
  exact some rfl

/-- The parts of a volume that has been accepted. -/
theorem Regular.places (regular : Regular ssize bsect win) (some : bootClusters ssize win ≠ 0)
    (fsid fsiSector : Nat) :
    (layoutOf ssize fsid fsiSector bsect win).fatbase = bsect + bootReserved win ∧
      (layoutOf ssize fsid fsiSector bsect win).database = bsect + bootSystem ssize win ∧
      ((layoutOf ssize fsid fsiSector bsect win).fsType = .fat32 →
        (layoutOf ssize fsid fsiSector bsect win).fsiSector = bsect + le16 win 48) := by
  have volume := regular.volume
  have more := system_lt some
  have sum := regular.system_eq
  have reserved_le : bootReserved win ≤ bootSystem ssize win := by
    rw [sum]
    exact Nat.le_trans (Nat.le_add_right _ _) (Nat.le_add_right _ _)
  refine ⟨Nat.mod_eq_of_lt (by omega), Nat.mod_eq_of_lt (by omega), fun fat32 => ?_⟩
  have info := regular.info fat32
  exact (if_pos fat32).trans (Nat.mod_eq_of_lt (by omega))

/-- A volume that is mounted is what the functions on it rely on. -/
theorem readBoot_wf (read : readBoot ssize fsid fsiSector bsect win = some g)
    (regular : Regular ssize bsect win) : g.Wf := by
  have accepted : ¬ Refused ssize win := fun refused => by
    rw [readBoot, if_pos refused] at read
    cases read
  rw [readBoot, if_neg accepted] at read
  obtain rfl := Option.some.inj read
  unfold Refused at accepted
  simp only [not_or] at accepted
  obtain ⟨-, fats, ⟨some_size, single⟩, -, reserved, -, some, -, table⟩ := accepted
  rw [not_not] at single
  obtain ⟨k, ssize_eq, k_ge, k_le⟩ := regular.sector
  have ssize_pos : 0 < ssize := ssize_eq ▸ Nat.two_pow_pos k
  have ssize_le : ssize ≤ 4096 := ssize_eq ▸ Nat.pow_le_pow_right (by decide) k_le
  have volume := regular.volume
  have clusters := regular.clusters
  have sum := regular.system_eq
  have data_le : bootClusters ssize win * bootClusterSize win ≤
      bootSectors win - bootSystem ssize win := Nat.div_mul_le_self _ _
  have more := system_lt some
  have system_le : bootReserved win + bootFats win * bootFatSize win ≤ bootSystem ssize win := by
    rw [sum, Nat.mul_comm]
    exact Nat.le_add_right _ _
  obtain ⟨fatbase, database, place⟩ := regular.places some fsid fsiSector
  have entries : (layoutOf ssize fsid fsiSector bsect win).nFatent = bootClusters ssize win + 2 :=
    Nat.mod_eq_of_lt (Nat.lt_trans clusters (by decide))
  rw [Nat.mod_eq_of_lt (Nat.lt_trans clusters (by decide))] at table
  have fits := table_fits ssize_pos (tableSize_lt _ clusters) ssize_le table
  refine ⟨?_, ?_, fun fat32 => ?_, ⟨k, ssize_eq, k_ge, k_le⟩,
    power_of_two (win 13).toNat_lt some_size single, ?_, ?_, fun c c_lt => ?_, ?_, ?_⟩
  · rw [fatbase]
    omega
  · change 1 ≤ bootFats win
    omega
  · rw [place fat32, fatbase]
    exact Nat.add_lt_add_left (regular.info fat32).2 bsect
  · rw [fatbase, database, Nat.add_assoc]
    exact Nat.add_le_add_left system_le bsect
  · rw [Geometry.limit, database, entries, Nat.add_sub_cancel]
    change _ + _ * bootClusterSize win ≤ _
    omega
  · rw [entries] at c_lt
    exact Nat.le_trans (tableSize_le _ clusters c_lt) fits
  · rw [entries]
    exact subType_size clusters
  · rw [entries]
    exact Nat.le_add_left 2 _

/-! ## What is found on a disk -/

/-- What a sector is to `check_fs`. -/
def kindOf (win : Sector) : BootRecord :=
  if ¬ signed win then .none else if named win then .fat else .other

/-- The sector with the boot record. -/
def bootAt (sectors : Nat → Sector) (pt : Nat) : Nat :=
  if kindOf (sectors 0) = .other ∧ sectors 0 (446 + pt * 16 + 4) ≠ 0 then
    le32 (sectors 0) (446 + pt * 16 + 8)
  else 0

/-- The layout of the volume on a disk, if there is one. -/
def layout (sectors : Nat → Sector) (ssize pt fsid fsiSector : Nat) : Option Geometry :=
  if kindOf (sectors (bootAt sectors pt)) = .fat then
    readBoot ssize fsid fsiSector (bootAt sectors pt) (sectors (bootAt sectors pt))
  else none

/-- Where the last cluster has been taken and how many are free, as far as the disk says so. -/
def infoOf (g : Geometry) (sectors : Nat → Sector) : Nat × Nat :=
  let win := sectors g.fsiSector
  if g.fsType = .fat32 ∧ signed win ∧ le32 win 0 = 0x41615252 ∧ le32 win 484 = 0x61417272 then
    (le32 win 492, le32 win 488)
  else (0, 0xFFFFFFFF)

/-- Only the window is another one. -/
def Looked (s s' : Fatfs) : Prop :=
  ∃ win ops, s' = { s with win := win, disk := { s.disk with ops := ops } }

theorem Looked.trans {s' s'' : Fatfs} (first : Looked s s') (second : Looked s' s'') :
    Looked s s'' := by
  obtain ⟨win, ops, rfl⟩ := first
  obtain ⟨win', ops', rfl⟩ := second
  exact ⟨win', ops', rfl⟩

/-- What `check_fs` tells a sector to be. -/
theorem checkFs_spec (sect : Nat) :
    After (checkFs faults sect) (fun r s' => Looked s s' ∧
      (r = .failed ∧ faults.Any ∨ r = kindOf (s.disk.sectors sect) ∧ s'.win = s.disk.sectors sect))
      (fun _ _ => False) s := by
  unfold checkFs
  rw [after_bind]
  refine (diskRead_spec sect 1).mono (fun read s₁ => ?_) fun _ _ => id
  rintro ⟨⟨ops, rfl⟩, success, failure⟩
  rw [after_bind, after_modify]
  cases ok : read.1 with
  | false =>
    rw [if_pos (by simp)]
    exact ⟨⟨_, _, rfl⟩, .inl ⟨rfl, failure ok⟩⟩
  | true =>
    have win : read.2 0 = s.disk.sectors sect := congrFun (success ok) 0
    rw [if_neg (by simp), after_bind, after_get]
    dsimp only
    rw [win]
    unfold kindOf
    split
    · exact ⟨⟨_, _, rfl⟩, .inr ⟨rfl, rfl⟩⟩
    · split
      · exact ⟨⟨_, _, rfl⟩, .inr ⟨rfl, rfl⟩⟩
      · exact ⟨⟨_, _, rfl⟩, .inr ⟨rfl, rfl⟩⟩

/-- The boot record is in the first sector or in that of a partition. -/
theorem findBoot_spec (pt : Nat) :
    After (findBoot faults pt) (fun r s' => Looked s s' ∧ (r.1 = .failed ∧ faults.Any ∨
      r.2 = bootAt s.disk.sectors pt ∧ r.1 = kindOf (s.disk.sectors r.2) ∧
      s'.win = s.disk.sectors r.2)) (fun _ _ => False) s := by
  unfold findBoot
  rw [after_bind]
  refine (checkFs_spec 0).mono (fun fmt s₁ => ?_) fun _ _ => id
  rintro ⟨looked, ⟨rfl, broken⟩ | ⟨rfl, win⟩⟩
  · rw [if_neg (by decide)]
    exact ⟨looked, .inl ⟨rfl, broken⟩⟩
  · have sectors : s₁.disk.sectors = s.disk.sectors := by
      obtain ⟨_, _, rfl⟩ := looked
      rfl
    split
    case isFalse fits =>
      have first : bootAt s.disk.sectors pt = 0 := if_neg fun both => fits both.1
      exact ⟨looked, .inr ⟨first.symm, rfl, win⟩⟩
    case isTrue other =>
      rw [after_bind, after_get]
      dsimp only
      rw [win]
      split
      case isFalse absent =>
        have first : bootAt s.disk.sectors pt = 0 := if_neg fun both => absent both.2
        exact ⟨looked, .inr ⟨first.symm, rfl, win⟩⟩
      case isTrue present =>
        have place : bootAt s.disk.sectors pt = le32 (s.disk.sectors 0) (446 + pt * 16 + 8) :=
          if_pos ⟨other, present⟩
        rw [after_bind]
        refine (checkFs_spec _).mono (fun fmt s₂ => ?_) fun _ _ => id
        rw [sectors]
        rintro ⟨looked', ⟨rfl, broken⟩ | ⟨rfl, win'⟩⟩
        · exact ⟨looked.trans looked', .inl ⟨rfl, broken⟩⟩
        · exact ⟨looked.trans looked', .inr ⟨place.symm, rfl, win'⟩⟩

/-- What the `FSInfo` sector says is taken over. -/
theorem readInfo_spec (g : Geometry) :
    After (readInfo faults g) (fun _ s' => s'.disk.sectors = s.disk.sectors ∧
      (¬ faults.Any → (s'.lastClust, s'.freeClust) = infoOf g s.disk.sectors)) (fun _ _ => False)
        s := by
  unfold readInfo
  rw [after_bind, after_modify]
  split
  case isFalse other =>
    exact ⟨rfl, fun _ => (if_neg fun both => other both.1).symm⟩
  case isTrue fat32 =>
    rw [after_bind, after_modify, after_bind]
    refine (diskRead_spec g.fsiSector 1).mono (fun read s₁ => ?_) fun _ _ => id
    rintro ⟨⟨ops, rfl⟩, success, failure⟩
    rw [after_bind, after_modify, after_bind, after_get]
    dsimp only
    unfold infoOf
    cases ok : read.1 with
    | false =>
      rw [if_neg (by simp)]
      exact ⟨rfl, fun clean => absurd (failure ok) clean⟩
    | true =>
      have win : read.2 0 = s.disk.sectors g.fsiSector := congrFun (success ok) 0
      rw [win]
      split
      case isTrue info =>
        rw [after_modify]
        exact ⟨rfl, fun _ => (if_pos ⟨fat32, info.2⟩).symm⟩
      case isFalse none =>
        exact ⟨rfl, fun _ => (if_neg fun both => none ⟨rfl, both.2⟩).symm⟩

/-- `chk_mounted` finds the volume that there is on the disk, and changes nothing there. If it fails
there is none, unless an operation of the disk has failed. -/
theorem chkMounted_after (ssize pt fsid fsiSector : Nat) :
    After (chkMounted faults ssize pt fsid fsiSector) (fun g s' =>
      layout s.disk.sectors ssize pt fsid fsiSector = some g ∧ Mounted g s.disk.sectors s' ∧
      (¬ faults.Any → (s'.lastClust, s'.freeClust) = infoOf g s.disk.sectors))
      (fun _ s' => s'.disk.sectors = s.disk.sectors ∧
        (layout s.disk.sectors ssize pt fsid fsiSector = none ∨ faults.Any)) s := by
  unfold chkMounted
  rw [after_bind]
  refine (findBoot_spec pt).mono (fun r s₁ => ?_) fun _ _ => False.elim
  rintro ⟨looked, found⟩
  have sectors : s₁.disk.sectors = s.disk.sectors := by
    obtain ⟨_, _, rfl⟩ := looked
    rfl
  obtain ⟨fmt, bsect⟩ := r
  dsimp only at found ⊢
  split
  case isTrue failed =>
    refine ⟨sectors, .inr ?_⟩
    rcases found with ⟨-, broken⟩ | ⟨-, kind, -⟩
    · exact broken
    · exfalso
      rw [failed] at kind
      unfold kindOf at kind
      split at kind
      · cases kind
      · split at kind <;> cases kind
  case isFalse fine =>
    obtain ⟨rfl, rfl, win⟩ := found.resolve_left fun broken => fine broken.1
    split
    case isTrue other => exact ⟨sectors, .inl (if_neg other)⟩
    case isFalse boot =>
      rw [not_not] at boot
      rw [after_bind, after_get, win]
      have same : layout s.disk.sectors ssize pt fsid fsiSector = readBoot ssize fsid fsiSector
          (bootAt s.disk.sectors pt) (s.disk.sectors (bootAt s.disk.sectors pt)) := if_pos boot
      rw [same]
      cases readBoot ssize fsid fsiSector (bootAt s.disk.sectors pt)
        (s.disk.sectors (bootAt s.disk.sectors pt)) with
      | none => exact ⟨sectors, .inl rfl⟩
      | some g =>
        dsimp only
        rw [after_bind]
        refine (readInfo_spec g).mono (fun _ s₂ => ?_) fun _ _ => False.elim
        rintro ⟨kept, info⟩
        rw [after_bind, after_modify]
        rw [sectors] at kept info
        exact ⟨rfl, ⟨⟨by change 0 < 4294967296; decide, fun _ none => absurd rfl none, nofun⟩,
          rfl, kept⟩,
          info⟩

/-! ## Mounting again -/

/-- Another mount of the same volume gives it another id. -/
theorem layoutOf_again (ssize fsid fsid' fsiSector bsect : Nat) (win : Sector) :
    layoutOf ssize fsid' (layoutOf ssize fsid fsiSector bsect win).fsiSector bsect win =
      { layoutOf ssize fsid fsiSector bsect win with id := (fsid' + 1) % 65536 } := by
  unfold layoutOf
  dsimp only
  split <;> rfl

/-- What mounting looks at is not of the volume but for the `FSInfo` sector, so that it can be
mounted again whatever has been done to it. -/
theorem layout_again {sectors sectors' : Nat → Sector}
    (found : layout sectors ssize pt fsid fsiSector = some g)
    (regular : Regular ssize (bootAt sectors pt) (sectors (bootAt sectors pt)))
    (foreign : ∀ n, g.Foreign n → sectors' n = sectors n) (fsid' : Nat) :
    g.Wf ∧
      layout sectors' ssize pt fsid' g.fsiSector = some { g with id := (fsid' + 1) % 65536 } := by
  unfold layout at found
  split at found
  case isFalse => cases found
  case isTrue boot =>
    have wf := readBoot_wf found regular
    have accepted : ¬ Refused ssize (sectors (bootAt sectors pt)) := fun refused => by
      rw [readBoot, if_pos refused] at found
      cases found
    rw [readBoot, if_neg accepted] at found
    obtain rfl := Option.some.inj found
    have some : bootClusters ssize (sectors (bootAt sectors pt)) ≠ 0 := fun none =>
      accepted (.inr (.inr (.inr (.inr (.inr (.inr (.inl none)))))))
    obtain ⟨fatbase, -, place⟩ := regular.places some fsid fsiSector
    have reserved : bootReserved (sectors (bootAt sectors pt)) ≠ 0 := fun none =>
      accepted (.inr (.inr (.inr (.inr (.inl none)))))
    have before : ∀ n, n ≤ bootAt sectors pt → sectors' n = sectors n := fun n le => by
      refine foreign n (.inl ⟨?_, fun fat32 => ?_⟩)
      · rw [fatbase]
        omega
      · have info := regular.info fat32
        rw [place fat32]
        omega
    have same : bootAt sectors' pt = bootAt sectors pt := by
      rw [bootAt, before 0 (Nat.zero_le _), ← bootAt]
    refine ⟨wf, ?_⟩
    rw [layout, same, before _ (Nat.le_refl _), if_pos boot, readBoot, if_neg accepted,
      layoutOf_again]

/-- A file does not depend on the id of its volume. -/
theorem HasFile.withId {cells : List Nat} {fp : Fil} (file : HasFile g s cells fp) (id : Nat) :
    HasFile { g with id := id } s cells fp :=
  ⟨file.holds, ⟨file.placed.cluster, file.placed.sector⟩, file.fptr, file.room, file.fsize⟩

/-- The mount ID does not matter. -/
theorem Mounted.withId {sectors : Nat → Sector} (mounted : Mounted g sectors s) (id : Nat) :
    Mounted { g with id := id } sectors s :=
  ⟨⟨mounted.coherent.winsect, mounted.coherent.clean, mounted.coherent.dirty⟩, mounted.clean,
    mounted.sectors⟩

/-! ## Main results -/

/-- Mounting changes nothing on the disk, whatever fails. What it yields is the layout of the volume
that there is, the state is as if nothing had been done yet, and unless the boot record has faults
that it does not look for, all parts of the volume are where the other functions expect them. If it
fails there is no volume, or an operation of the disk has failed. -/
theorem chkMounted_mounts (ssize pt fsid fsiSector : Nat) :
    After (chkMounted faults ssize pt fsid fsiSector) (fun g s' =>
      layout s.disk.sectors ssize pt fsid fsiSector = some g ∧ Mounted g s.disk.sectors s' ∧
      (¬ faults.Any → (s'.lastClust, s'.freeClust) = infoOf g s.disk.sectors) ∧
      (Regular ssize (bootAt s.disk.sectors pt) (s.disk.sectors (bootAt s.disk.sectors pt)) → g.Wf))
      (fun _ s' => s'.disk.sectors = s.disk.sectors ∧
        (layout s.disk.sectors ssize pt fsid fsiSector = none ∨ faults.Any)) s := by
  refine (chkMounted_after ssize pt fsid fsiSector).mono (fun g s' => ?_) fun _ _ => id
  rintro ⟨found, mounted, info⟩
  exact ⟨found, mounted, info, fun regular => (layout_again found regular (fun _ _ => rfl) 0).1⟩

/-- Whatever has been done to the files of a volume that has been mounted: once a file that has been
written is brought up to date, the disk can be mounted again, with the same layout, and all files
that have not been written since are there as they are. -/
theorem mounted_again {ι : Type} [DecidableEq ι] {sectors : Nat → Sector} {u : Session ι}
    {cells : ι → List Nat} (clean : ¬ faults.Any)
    (found : layout sectors ssize pt fsid fsiSector = some g)
    (regular : Regular ssize (bootAt sectors pt) (sectors (bootAt sectors pt)))
    (mounted : Mounted g sectors u.fs) (opened : u.Open g cells) (ops : List (FileOp ι))
    (allowed : ∀ op ∈ ops, u.Allowed op) (i : ι) (fsid' : Nat) :
    After (performAll g faults ops) (fun _ u₁ => (u₁.fp i).written = true →
      After (perform g faults (.sync i)) (fun _ u₂ => ∀ s, s.disk.sectors = u₂.fs.disk.sectors →
        After (chkMounted faults ssize pt fsid' g.fsiSector) (fun g' s' =>
          g' = { g with id := (fsid' + 1) % 65536 } ∧ Mounted g' u₂.fs.disk.sectors s' ∧
          ∃ cells' : ι → List Nat, ∀ j, (u₂.fp j).written = false → ∀ fp,
            Reopened s' (u₂.fp j).dirSect (u₂.fp j).dirPtr fp → HasFile g' s' (cells' j) fp ∧
            (s'.blockFile g' (cells' j) fp).bytes =
              (((u.store g cells).run (g.csize * g.ssize) 4294967296 ops).2.file j).bytes)
          (fun _ _ => False) s) (fun _ _ => False) u₁) (fun _ _ => False) u := by
  have wf : g.Wf := (layout_again found regular (fun _ _ => rfl) 0).1
  refine (performAll_after clean wf opened ops allowed).mono (fun bytes u₁ => ?_) fun _ _ => id
  rintro ⟨cells₁, follows, run⟩ written
  have store₁ := congrArg Prod.snd run
  dsimp only at store₁
  have open₁ := follows.opened
  rw [after_perform]
  refine (fSync_spec (t := ⟨u₁.fs, u₁.fp i, []⟩) wf open₁.coherent (open₁.usable i)
    (open₁.entry i).1 written).mono (fun _ t => ?_) fun _ _ failed => clean failed.2
  rintro ⟨changed, entry, unchanged, -, freeClust, moved, fp⟩ s₂ disk
  have noted : u₁.Noted g faults i t.fs := ⟨changed, entry, freeClust⟩
  have follows' := open₁.follows_noted wf clean noted
  have store₂ := (open₁.store_noted wf noted).trans store₁
  have foreign : ∀ n, g.Foreign n → s₂.disk.sectors n = sectors n := fun n foreign => by
    rw [disk, ← mounted.sectors]
    exact (follows'.foreign n foreign).trans (follows.foreign n foreign)
  have again := (layout_again found regular foreign fsid').2
  refine (chkMounted_after ssize pt fsid' g.fsiSector).mono (fun g' s' => ?_) fun _ _ failed => ?_
  · rintro ⟨found', mounted', -⟩
    rw [again] at found'
    obtain rfl := Option.some.inj found'
    rw [disk] at mounted'
    refine ⟨rfl, mounted', cells₁, fun j unwritten fp' reopened => ?_⟩
    rw [fp] at unwritten reopened
    obtain ⟨file, bytes⟩ := follows'.opened.remounted (g := g) (i := j) unchanged
      (mounted'.withId g.id) unwritten reopened
    exact ⟨file.withId _, bytes.trans (congrArg (fun store => (store.file j).bytes) store₂)⟩
  · rcases failed.2 with none | broken
    · rw [again] at none
      cases none
    · exact clean broken

/-- The layout of the small disk. -/
theorem small_layout : layout smallDisk.sectors 512 0 0 0 = some small := by
  have place : bootAt smallDisk.sectors 0 = 0 := by decide +kernel
  have boot : kindOf (smallDisk.sectors 0) = .fat := by decide +kernel
  have accepted : ¬ Refused 512 (smallDisk.sectors 0) := by decide +kernel
  rw [layout, place, if_pos boot, readBoot, if_neg accepted]
  rfl

/-- The small disk is regular. -/
theorem small_regular : Regular 512 (bootAt smallDisk.sectors 0)
    (smallDisk.sectors (bootAt smallDisk.sectors 0)) := by
  have place : bootAt smallDisk.sectors 0 = 0 := by decide +kernel
  rw [place]
  exact ⟨⟨9, by decide, by decide, by decide⟩, by decide +kernel, by decide +kernel,
    by decide +kernel, by decide +kernel⟩

theorem small_mounted_again : After (performAll small .never smallOps)
    (fun _ u₁ => (u₁.fp true).written = true →
      After (perform small .never (.sync true))
        (fun _ u₂ => ∀ s, s.disk.sectors = u₂.fs.disk.sectors →
        After (chkMounted .never 512 0 1 0) (fun g' s' =>
          g' = { small with id := 2 } ∧ Mounted g' u₂.fs.disk.sectors s' ∧
          ∃ cells' : Bool → List Nat, ∀ j, (u₂.fp j).written = false → ∀ fp,
            Reopened s' (u₂.fp j).dirSect (u₂.fp j).dirPtr fp → HasFile g' s' (cells' j) fp ∧
            (s'.blockFile g' (cells' j) fp).bytes =
              (((smallSession.store small smallCells).run (small.csize * small.ssize) 4294967296
                smallOps).2.file
                j).bytes)
          (fun _ _ => False) s) (fun _ _ => False) u₁) (fun _ _ => False) smallSession :=
  mounted_again never_fails small_layout small_regular ⟨small_coherent, rfl, rfl⟩ small_open
    smallOps smallOps_allowed true 1

end D2xCios.FatFs
