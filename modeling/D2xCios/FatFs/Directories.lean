import D2xCios.FatFs.Lookups
import D2xCios.FatFs.Mount

/-!
# Directories on the disk

The table of a directory is in the clusters of a chain, or in a place of its own if it is the root
directory of a FAT12 or FAT16 volume. `dir_sdi` and `dir_next` move through it, and `dir_find` finds
in it what there is to be found in the list of its entries.
-/

namespace D2xCios.FatFs

open D2xCios.Lib
open D2xCios.Fat.Wrapper (FError)

variable (g : Geometry) (faults : Faults)

/-! ## The source -/

/-- The fields of `DIR` that change; `dir` is where in the window the entry is. -/
structure Dir where
  sclust : Nat
  index : Nat
  clust : Nat
  sect : Nat
  dir : Nat
  lfnIdx : Nat

/-- `SS(fs) / SZ_DIR` -/
def Geometry.perSector : Nat := g.ssize / 32

/-- The entry of 32 bytes at a place of the window. -/
def entryAt (win : Sector) (place : Nat) : Mem := fun k => if k < 32 then win (place + k) else 0

/-- The loop of `dir_sdi`: the cluster, and the index in it. -/
def sdiLoop : (fuel : Nat) → (clst idx : Nat) → FsM (Nat × Nat)
  | 0, clst, idx => return (clst, idx)
  | fuel + 1, clst, idx => do
    let ic := g.perSector * g.csize
    if ic ≤ idx then
      let next ← getFat g faults clst
      if next = 0xFFFFFFFF then throw .diskErr
      else if next < 2 ∨ g.nFatent ≤ next then throw .intErr
      else sdiLoop fuel next (idx - ic)
    else return (clst, idx)

/-- The cluster with which the table of a directory starts. -/
def Geometry.tableStart (sclust : Nat) : Nat :=
  if sclust = 0 ∧ g.fsType = .fat32 then g.dirbase else sclust

/-- `dir_sdi` -/
def dirSdi (dj : Dir) (idx : Nat) : FsM Dir :=
  if dj.sclust = 1 ∨ g.nFatent ≤ dj.sclust then throw .intErr
  else
    let clst := g.tableStart dj.sclust
    if clst = 0 then
      if g.nRootdir ≤ idx then throw .intErr
      else
        return { dj with
          index := idx, clust := clst, sect := g.dirbase + idx / g.perSector
          dir := idx % g.perSector * 32 }
    else do
      let found ← sdiLoop g faults 65536 clst idx
      return { dj with
        index := idx, clust := found.1, sect := clust2sect g found.1 + found.2 / g.perSector
        dir := found.2 % g.perSector * 32 }

/-- The loop of `dir_next` that fills the new cluster with 0. -/
def cleanLoop : (left : Nat) → FsM Unit
  | 0 => return
  | left + 1 => do
    setWflag
    moveWindow g faults 0
    modify fun s => { s with winsect := s.winsect + 1 }
    cleanLoop left

/-- The part of `dir_next` that stretches the table by a cluster. -/
def stretchTable (clust : Nat) : FsM Nat := do
  let clst ← createChain g faults clust
  if clst = 0 then throw .denied
  else if clst = 1 then throw .intErr
  else if clst = 0xFFFFFFFF then throw .diskErr
  else
    moveWindow g faults 0
    modify fun s => { s with win := fun _ => 0, winsect := clust2sect g clst }
    cleanLoop g faults g.csize
    modify fun s => { s with winsect := s.winsect - g.csize }
    return clst

/-- The part of `dir_next` behind the end of a cluster. -/
def nextCluster (clust : Nat) (stretch : Bool) : FsM Nat := do
  let clst ← getFat g faults clust
  if clst ≤ 1 then throw .intErr
  else if clst = 0xFFFFFFFF then throw .diskErr
  else if g.nFatent ≤ clst then
    if ¬ stretch then throw .noFile else stretchTable g faults clust
  else return clst

/-- The part of `dir_next` behind the end of a sector. -/
def nextSector (dj : Dir) (i : Nat) (stretch : Bool) : FsM Dir :=
  let dir := i % g.perSector * 32
  if dj.clust = 0 then
    if g.nRootdir ≤ i then throw .noFile
    else return { dj with index := i, sect := dj.sect + 1, dir := dir }
  else if i / g.perSector &&& (g.csize - 1) = 0 then do
    let clst ← nextCluster g faults dj.clust stretch
    return { dj with index := i, clust := clst, sect := clust2sect g clst, dir := dir }
  else return { dj with index := i, sect := dj.sect + 1, dir := dir }

/-- `dir_next` -/
def dirNext (dj : Dir) (stretch : Bool) : FsM Dir :=
  let i := (dj.index + 1) % 65536
  if i = 0 ∨ dj.sect = 0 then throw .noFile
  else if i % g.perSector = 0 then nextSector g faults dj i stretch
  else return { dj with index := i, dir := i % g.perSector * 32 }

/-- The loops of `dir_find` and of `dir_read`: the latter ends where `sect` is 0. -/
def lookLoop {σ β : Type} (look : Nat → Mem → σ → σ ⊕ β) (whileSect : Bool) :
    (fuel : Nat) → Dir → σ → FsM (Dir × β)
  | 0, _, _ => throw .noFile
  | fuel + 1, dj, st =>
    if whileSect ∧ dj.sect = 0 then throw .noFile
    else do
      moveWindow g faults dj.sect
      let dir := entryAt (← get).win dj.dir
      if dir 0 = 0 then throw .noFile
      else
        match look dj.index dir st with
        | .inr found => return (dj, found)
        | .inl next => do
          let dj ← dirNext g faults dj false
          lookLoop look whileSect fuel dj next

/-- `dir_find` -/
def dirFind (fn : Mem) (lfn : Option (Cells WChar)) (dj : Dir) : FsM Dir := do
  let dj ← dirSdi g faults dj 0
  let found ← lookLoop g faults (findLook fn lfn) false 65536 dj ⟨0xFF, 0xFF, dj.lfnIdx⟩
  return { found.1 with lfnIdx := found.2 }

/-! ## The table of a directory -/

/-- The sectors of a table in some clusters, or of the static one. -/
def Geometry.dirSectors (cells : List Nat) : Nat :=
  if cells = [] then g.nRootdir / g.perSector else cells.length * g.csize

def Geometry.dirSector (cells : List Nat) (q : Nat) : Nat :=
  if cells = [] then g.dirbase + q else g.sectorAt cells q

/-- The number of entries, of which no more than 65536 are ever looked at. -/
def Geometry.dirSize (cells : List Nat) : Nat := min 65536 (g.dirSectors cells * g.perSector)

/-- The place of the static table, which `chk_mounted` checks. -/
structure Geometry.StaticRoot : Prop where
  behind : g.fatbase + g.nFats * g.fsize ≤ g.dirbase
  before : g.dirbase + g.nRootdir / g.perSector ≤ g.database
  whole : g.nRootdir % g.perSector = 0
  some : 0 < g.nRootdir

/-- The directory that starts with the cluster `sclust` has its table in some clusters, or it is the
static one. -/
structure Geometry.HasTable (fat : Nat → Nat) (sclust : Nat) (cells : List Nat) : Prop where
  start : sclust ≠ 1 ∧ sclust < g.nFatent
  root : cells = [] → g.tableStart sclust = 0 ∧ g.StaticRoot
  chain : cells ≠ [] → IsChain g.links fat (g.tableStart sclust) cells

/-- An entry of a directory. -/
def Fatfs.dirEntry (s : Fatfs) (cells : List Nat) (i : Nat) : Mem :=
  entryAt (s.view (g.dirSector cells (i / g.perSector))) (i % g.perSector * 32)

/-- The entries of a directory. -/
def Fatfs.dirEntries (s : Fatfs) (cells : List Nat) : List Mem :=
  (List.range (g.dirSize cells)).map (s.dirEntry g cells)

/-- The directory object is at the entry with its index, in the directory that starts with
`sclust`. -/
structure Geometry.AtEntry (sclust : Nat) (cells : List Nat) (dj : Dir) : Prop where
  start : dj.sclust = sclust
  index : dj.index < g.dirSize cells
  clust : dj.clust = cells.getD (dj.index / g.perSector / g.csize) 0
  sect : dj.sect = g.dirSector cells (dj.index / g.perSector)
  dir : dj.dir = dj.index % g.perSector * 32

variable {g faults} {s : Fatfs} {cells : List Nat} {dj : Dir} {sclust : Nat}

/-- A sector holds whole entries. -/
theorem Geometry.Wf.perSector (wf : g.Wf) : 0 < g.perSector ∧ g.perSector * 32 = g.ssize := by
  obtain ⟨k, ssize, low, -⟩ := wf.ssize
  have parts : g.ssize = 2 ^ (k - 5) * 32 := by
    rw [ssize, show (32 : Nat) = 2 ^ 5 from rfl, ← Nat.pow_add, Nat.sub_add_cancel (by omega)]
  have whole : g.perSector = 2 ^ (k - 5) := by
    rw [Geometry.perSector, parts, Nat.mul_div_cancel _ (by decide)]
  rw [whole]
  exact ⟨Nat.two_pow_pos _, parts.symm⟩

/-- The static table of a volume that has been mounted. -/
theorem readBoot_staticRoot {ssize fsid fsiSector bsect : Nat} {win : Sector}
    (read : readBoot ssize fsid fsiSector bsect win = some g) (regular : Regular ssize bsect win)
    (static : g.fsType ≠ .fat32) : g.StaticRoot := by
  have accepted : ¬ Refused ssize win := fun refused => by
    rw [readBoot, if_pos refused] at read
    cases read
  rw [readBoot, if_neg accepted] at read
  obtain rfl := Option.some.inj read
  unfold Refused at accepted
  simp only [not_or] at accepted
  obtain ⟨-, -, -, whole, -, -, some, ⟨-, root⟩, -⟩ := accepted
  have volume := regular.volume
  have sum := regular.system_eq
  have more := system_lt some
  obtain ⟨fatbase, database, -⟩ := regular.places some fsid fsiSector
  have copies : (layoutOf ssize fsid fsiSector bsect win).dirbase =
      bsect + bootReserved win + bootFatSize win * bootFats win := by
    have sectors_lt := bootSectors_lt win
    have front : bootReserved win + bootFatSize win * bootFats win < bootSectors win := by
      refine Nat.lt_of_le_of_lt ?_ more
      rw [sum]
      exact Nat.le_add_right _ _
    refine (if_neg static).trans ?_
    change ((layoutOf ssize fsid fsiSector bsect win).fatbase + _) % _ = _
    rw [fatbase, Nat.mod_eq_of_lt (show bootFatSize win * bootFats win < 4294967296 by omega),
      Nat.mod_eq_of_lt (by omega)]
  refine ⟨?_, ?_, not_not.1 whole, Nat.pos_of_ne_zero fun none => root ⟨static, none⟩⟩
  · rw [fatbase, copies, Nat.mul_comm]
    exact Nat.le_refl _
  · rw [copies, database, sum]
    change bsect + bootReserved win + _ + bootRootdir win / (ssize / 32) ≤ _
    omega

/-- The static root has its table. -/
theorem Geometry.StaticRoot.hasTable (root : g.StaticRoot) (wf : g.Wf) (static : g.fsType ≠ .fat32)
    (fat : Nat → Nat) : g.HasTable fat 0 [] where
  start := ⟨by decide, Nat.lt_of_lt_of_le (by decide) wf.clusters⟩
  root _ := ⟨if_neg fun both => static both.2, root⟩
  chain some := absurd rfl some

/-- The root directory of a FAT12 or FAT16 volume that has been mounted. -/
theorem layout_hasTable {sectors : Nat → Sector} {ssize pt fsid fsiSector : Nat}
    (found : layout sectors ssize pt fsid fsiSector = some g)
    (regular : Regular ssize (bootAt sectors pt) (sectors (bootAt sectors pt)))
    (static : g.fsType ≠ .fat32) (fat : Nat → Nat) : g.HasTable fat 0 [] := by
  unfold layout at found
  split at found
  · exact (readBoot_staticRoot found regular static).hasTable (readBoot_wf found regular) static fat
  · cases found

/-- The clusters of a table are clusters of the volume. -/
theorem Geometry.HasTable.inside {fat : Nat → Nat} (table : g.HasTable fat sclust cells) {c : Nat}
    (member : c ∈ cells) : g.links.Inside c :=
  (table.chain (List.ne_nil_of_mem member)).inside member

/-- The sectors of the table are sectors of the volume. -/
theorem Geometry.HasTable.own {fat : Nat → Nat} (table : g.HasTable fat sclust cells) (wf : g.Wf)
    {q : Nat} (q_lt : q < g.dirSectors cells) : g.Own (g.dirSector cells q) := by
  by_cases none : cells = []
  · obtain ⟨-, root⟩ := table.root none
    rw [Geometry.dirSectors, if_pos none] at q_lt
    rw [Geometry.dirSector, if_pos none]
    have behind := root.behind
    have before := root.before
    refine ⟨by omega, .inr (by omega), ?_⟩
    unfold Geometry.limit
    omega
  · rw [Geometry.dirSectors, if_neg none] at q_lt
    rw [Geometry.dirSector, if_neg none]
    exact sectorAt_own wf (fun c member => table.inside member) q_lt

/-- An entry of the table is in one of its sectors. -/
theorem dirEntry_sector (wf : g.Wf) {i : Nat} (i_lt : i < g.dirSize cells) :
    i / g.perSector < g.dirSectors cells :=
  (Nat.div_lt_iff_lt_mul wf.perSector.1).2 (Nat.lt_of_lt_of_le i_lt (Nat.min_le_right _ _))

/-- The number of entries behind the first sectors. -/
theorem dirSize_of_lt (wf : g.Wf) {i : Nat} (i_lt : i < 65536)
    (sector : i / g.perSector < g.dirSectors cells) : i < g.dirSize cells :=
  Nat.lt_min.2 ⟨i_lt, (Nat.div_lt_iff_lt_mul wf.perSector.1).1 sector⟩

/-- The entries of a table are kept. -/
theorem Kept.dirEntry {s' : Fatfs} (kept : Kept g faults s s') (wf : g.Wf)
    (table : g.HasTable (s.fat g) sclust cells) {i : Nat} (i_lt : i < g.dirSize cells) :
    s'.dirEntry g cells i = s.dirEntry g cells i := by
  rw [Fatfs.dirEntry, Fatfs.dirEntry, kept.same (table.own wf (dirEntry_sector wf i_lt))]

/-- The list of the entries is kept. -/
theorem Kept.dirEntries {s' : Fatfs} (kept : Kept g faults s s') (wf : g.Wf)
    (table : g.HasTable (s.fat g) sclust cells) : s'.dirEntries g cells = s.dirEntries g cells := by
  exact List.map_congr_left fun i member => kept.dirEntry wf table (List.mem_range.1 member)

/-- The table is kept. -/
theorem Kept.hasTable {s' : Fatfs} (kept : Kept g faults s s') (wf : g.Wf)
    (table : g.HasTable (s.fat g) sclust cells) : g.HasTable (s'.fat g) sclust cells := by
  rw [kept.fat wf]
  exact table

/-! ## Moving through the table -/

/-- The next sector of a cluster is the next one of the volume. -/
theorem sectorAt_next (cells : List Nat) {q : Nat} (same : (q + 1) % g.csize ≠ 0) :
    (q + 1) / g.csize = q / g.csize ∧ g.sectorAt cells (q + 1) = g.sectorAt cells q + 1 := by
  have cluster : (q + 1) / g.csize = q / g.csize := by
    rw [Nat.succ_div, if_neg fun divides => same (Nat.mod_eq_zero_of_dvd divides), Nat.add_zero]
  have before := Nat.div_add_mod q g.csize
  have after := Nat.div_add_mod (q + 1) g.csize
  rw [cluster] at after
  refine ⟨cluster, ?_⟩
  rw [Geometry.sectorAt, Geometry.sectorAt, cluster]
  omega

/-- The next cluster is that of the chain. -/
theorem nextCluster_spec (wf : g.Wf) (coherent : s.Coherent g) {start : Nat}
    (chain : IsChain g.links (s.fat g) start cells) {j : Nat} (j_lt : j < cells.length) :
    After (nextCluster g faults cells[j] false)
      (fun r s' => Kept g faults s s' ∧ ∃ next_lt : j + 1 < cells.length, r = cells[j + 1])
      (fun e s' => e = .noFile ∧ j + 1 = cells.length ∧ Kept g faults s s' ∨ Broken faults e)
        s := by
  have inside : g.links.Inside cells[j] := chain.inside (List.getElem_mem j_lt)
  unfold nextCluster
  rw [after_bind]
  refine (getFat_spec wf coherent inside.1 inside.2).mono (fun r s₁ => ?_) fun _ _ => False.elim
  rintro (⟨rfl, kept⟩ | ⟨rfl, broken⟩)
  · have entry_lt := fat_lt (g := g) (s := s) cells[j]
    have two_le := wf.clusters
    by_cases last : j + 1 = cells.length
    · have ends : g.nFatent ≤ s.fat g cells[j] := chain.next_last last
      rw [if_neg (by omega), if_neg (by omega), if_pos ends]
      exact .inl ⟨rfl, last, kept⟩
    · have next_lt : j + 1 < cells.length := by omega
      have next := chain.next_eq next_lt
      have inside' : g.links.Inside cells[j + 1] := chain.inside (List.getElem_mem next_lt)
      have range := inside'.1
      rw [if_neg (by omega), if_neg (by omega), if_neg (by have := inside'.2; omega)]
      exact ⟨kept, next_lt, next⟩
  · exact .inr ⟨rfl, broken⟩

/-- Behind a sector of the static table is the next one. -/
theorem nextSector_static (coherent : s.Coherent g) (table : g.HasTable (s.fat g) sclust [])
    (here : g.AtEntry sclust [] dj) (i_lt : dj.index + 1 < 65536)
    (next : (dj.index + 1) / g.perSector = dj.index / g.perSector + 1) :
    After (nextSector g faults dj (dj.index + 1) false)
      (fun dj' s' => g.AtEntry sclust [] dj' ∧ dj'.index = dj.index + 1 ∧ Kept g faults s s')
      (fun e s' => e = .noFile ∧ dj.index + 1 = g.dirSize [] ∧ Kept g faults s s' ∨
        Broken faults e) s := by
  have index := here.index
  obtain ⟨-, root⟩ := table.root rfl
  have entries : g.dirSectors [] * g.perSector = g.nRootdir :=
    Nat.div_mul_cancel (Nat.dvd_of_mod_eq_zero root.whole)
  have size : g.dirSize [] = min 65536 g.nRootdir := by rw [Geometry.dirSize, entries]
  have clust : dj.clust = 0 := by rw [here.clust, List.getD_nil]
  unfold nextSector
  rw [if_pos clust]
  by_cases last : g.nRootdir ≤ dj.index + 1
  · rw [if_pos last]
    exact .inl ⟨rfl, by omega, .refl coherent⟩
  · rw [if_neg last]
    refine ⟨⟨here.start, ?_, ?_, ?_, rfl⟩, rfl, .refl coherent⟩
    · rw [size]
      exact Nat.lt_min.2 ⟨i_lt, Nat.not_le.1 last⟩
    · rw [clust, List.getD_nil]
    · change dj.sect + 1 = g.dirbase + (dj.index + 1) / g.perSector
      rw [next, here.sect]
      rfl

/-- Behind a sector of a cluster is the next one, or the first one of the next cluster. -/
theorem nextSector_chain (wf : g.Wf) (coherent : s.Coherent g)
    (table : g.HasTable (s.fat g) sclust cells) (some : cells ≠ [])
    (here : g.AtEntry sclust cells dj)
    (i_lt : dj.index + 1 < 65536) (boundary : g.perSector ∣ dj.index + 1)
    (next : (dj.index + 1) / g.perSector = dj.index / g.perSector + 1) :
    After (nextSector g faults dj (dj.index + 1) false)
      (fun dj' s' => g.AtEntry sclust cells dj' ∧ dj'.index = dj.index + 1 ∧ Kept g faults s s')
      (fun e s' => e = .noFile ∧ dj.index + 1 = g.dirSize cells ∧ Kept g faults s s' ∨
        Broken faults e) s := by
  have index := here.index
  have chain := table.chain some
  have sector : dj.index / g.perSector < cells.length * g.csize := by
    have inside := dirEntry_sector wf index
    rwa [Geometry.dirSectors, if_neg some] at inside
  obtain ⟨j_lt, cell⟩ := cell_of_sector wf sector
  have clust : dj.clust = cells[dj.index / g.perSector / g.csize] := here.clust.trans cell
  have inside : g.links.Inside dj.clust := clust ▸ table.inside (List.getElem_mem j_lt)
  have masked : dj.index / g.perSector + 1 &&& (g.csize - 1) =
      (dj.index / g.perSector + 1) % g.csize := by
    obtain ⟨k, csize, -⟩ := wf.csize
    rw [csize, Nat.and_two_pow_sub_one_eq_mod]
  unfold nextSector
  rw [if_neg (Nat.ne_of_gt (Nat.lt_of_lt_of_le (by decide) inside.1)), next, masked]
  by_cases cluster : (dj.index / g.perSector + 1) % g.csize = 0
  · have following : (dj.index / g.perSector + 1) / g.csize =
        dj.index / g.perSector / g.csize + 1 := by
      rw [Nat.succ_div, if_pos (Nat.dvd_of_mod_eq_zero cluster)]
    have whole : (dj.index / g.perSector + 1) / g.csize * g.csize =
        dj.index / g.perSector + 1 := Nat.div_mul_cancel (Nat.dvd_of_mod_eq_zero cluster)
    rw [if_pos cluster, after_bind, clust]
    refine (nextCluster_spec wf coherent chain j_lt).mono (fun r s₁ => ?_) fun e s₁ => ?_
    · rintro ⟨kept, next_lt, rfl⟩
      refine ⟨⟨here.start, dirSize_of_lt wf i_lt ?_, ?_, ?_, rfl⟩, rfl, kept⟩
      · rw [next, Geometry.dirSectors, if_neg some, ← whole, following]
        exact Nat.mul_lt_mul_of_pos_right next_lt wf.csize_pos
      · change _ = cells.getD ((dj.index + 1) / g.perSector / g.csize) 0
        rw [next, following, List.getD_eq_getElem _ _ next_lt]
      · change _ = g.dirSector cells ((dj.index + 1) / g.perSector)
        rw [next, Geometry.dirSector, if_neg some, Geometry.sectorAt, following, cluster,
          List.getD_eq_getElem _ _ next_lt]
        rfl
    · rintro (⟨rfl, last, kept⟩ | broken)
      · refine .inl ⟨rfl, ?_, kept⟩
        have entries : g.dirSectors cells * g.perSector = dj.index + 1 := by
          rw [Geometry.dirSectors, if_neg some, ← last, ← following, whole, ← next,
            Nat.div_mul_cancel boundary]
        have size : g.dirSize cells = min 65536 (dj.index + 1) := by
          rw [Geometry.dirSize, entries]
        omega
      · exact .inr broken
  · obtain ⟨same, sect⟩ := sectorAt_next cells cluster
    rw [if_neg cluster]
    refine ⟨⟨here.start, dirSize_of_lt wf i_lt ?_, ?_, ?_, rfl⟩, rfl, .refl coherent⟩
    · rw [next, Geometry.dirSectors, if_neg some]
      refine (Nat.div_lt_iff_lt_mul wf.csize_pos).1 ?_
      rw [same]
      exact j_lt
    · change dj.clust = cells.getD ((dj.index + 1) / g.perSector / g.csize) 0
      rw [next, same, here.clust]
    · change dj.sect + 1 = g.dirSector cells ((dj.index + 1) / g.perSector)
      rw [next, here.sect, Geometry.dirSector, if_neg some, Geometry.dirSector, if_neg some, sect]

/-- `dir_next` goes to the next entry, if there is one. -/
theorem dirNext_spec (wf : g.Wf) (coherent : s.Coherent g)
    (table : g.HasTable (s.fat g) sclust cells) (here : g.AtEntry sclust cells dj) :
    After (dirNext g faults dj false)
      (fun dj' s' => g.AtEntry sclust cells dj' ∧ dj'.index = dj.index + 1 ∧ Kept g faults s s')
      (fun e s' => e = .noFile ∧ dj.index + 1 = g.dirSize cells ∧ Kept g faults s s' ∨
        Broken faults e) s := by
  have index := here.index
  have size_le : g.dirSize cells ≤ 65536 := Nat.min_le_left _ _
  have sector := dirEntry_sector wf index
  have used : dj.sect ≠ 0 := here.sect ▸ (table.own wf sector).ne_zero wf
  unfold dirNext
  dsimp only
  by_cases wraps : dj.index + 1 = 65536
  · rw [wraps, if_pos (.inl (by decide))]
    exact .inl ⟨rfl, by omega, .refl coherent⟩
  have i_lt : dj.index + 1 < 65536 := by omega
  rw [Nat.mod_eq_of_lt i_lt, if_neg (not_or.2 ⟨Nat.succ_ne_zero _, used⟩)]
  by_cases boundary : g.perSector ∣ dj.index + 1
  · have next : (dj.index + 1) / g.perSector = dj.index / g.perSector + 1 := by
      rw [Nat.succ_div, if_pos boundary]
    rw [if_pos (Nat.mod_eq_zero_of_dvd boundary)]
    by_cases static : cells = []
    · subst static
      exact nextSector_static coherent table here i_lt next
    · exact nextSector_chain wf coherent table static here i_lt boundary next
  · have same : (dj.index + 1) / g.perSector = dj.index / g.perSector := by
      rw [Nat.succ_div, if_neg boundary, Nat.add_zero]
    rw [if_neg fun whole => boundary (Nat.dvd_of_mod_eq_zero whole)]
    refine ⟨⟨here.start, dirSize_of_lt wf i_lt (same ▸ sector), ?_, ?_, rfl⟩, rfl, .refl coherent⟩
    · change dj.clust = cells.getD ((dj.index + 1) / g.perSector / g.csize) 0
      rw [same, here.clust]
    · change dj.sect = g.dirSector cells ((dj.index + 1) / g.perSector)
      rw [same, here.sect]

/-- `dir_sdi` follows the chain to the cluster of the index. -/
theorem sdiLoop_spec (wf : g.Wf) (coherent : s.Coherent g) {start : Nat}
    (chain : IsChain g.links (s.fat g) start cells) {fuel j idx : Nat} (enough : idx < fuel)
    (inside : j + idx / (g.perSector * g.csize) < cells.length) :
    After (sdiLoop g faults fuel (cells.getD j 0) idx)
      (fun r s' => r = (cells.getD (j + idx / (g.perSector * g.csize)) 0,
        idx % (g.perSector * g.csize)) ∧ Kept g faults s s')
      (fun e _ => Broken faults e) s := by
  have ic_pos : 0 < g.perSector * g.csize := Nat.mul_pos wf.perSector.1 wf.csize_pos
  induction fuel generalizing j idx s with
  | zero => cases enough
  | succ fuel ih =>
    unfold sdiLoop
    by_cases more : g.perSector * g.csize ≤ idx
    · have quotient := Nat.div_eq_sub_div ic_pos more
      have remainder := Nat.mod_eq_sub_mod more
      have next_lt : j + 1 < cells.length := by
        refine Nat.lt_of_le_of_lt (Nat.add_le_add_left ?_ j) inside
        rw [quotient]
        exact Nat.le_add_left _ _
      have j_lt : j < cells.length := Nat.lt_of_succ_lt next_lt
      have here := chain.inside (List.getElem_mem j_lt)
      have there := chain.inside (List.getElem_mem next_lt)
      rw [if_pos more, after_bind, List.getD_eq_getElem _ _ j_lt]
      refine (getFat_spec wf coherent here.1 here.2).mono (fun r s₁ => ?_) fun _ _ => False.elim
      rintro (⟨rfl, kept⟩ | ⟨rfl, broken⟩)
      · have entry_lt := fat_lt (g := g) (s := s) cells[j]
        have range := there.1
        have range' := there.2
        rw [chain.next_eq next_lt] at entry_lt ⊢
        rw [if_neg (by omega), if_neg (by omega), ← List.getD_eq_getElem _ 0 next_lt]
        have rest :
          j + 1 + (idx - g.perSector * g.csize) / (g.perSector * g.csize) < cells.length := by
          omega
        rw [← kept.fat wf] at chain
        refine (ih kept.coherent chain (by omega) rest).mono (fun r s₂ => ?_)
          fun _ _ => id
        rintro ⟨rfl, kept'⟩
        refine ⟨?_, kept.trans kept'⟩
        rw [quotient, remainder, Nat.add_right_comm, Nat.add_assoc j]
      · exact ⟨rfl, broken⟩
    · rw [if_neg more, Nat.div_eq_of_lt (Nat.not_le.1 more), Nat.mod_eq_of_lt (Nat.not_le.1 more)]
      exact ⟨rfl, .refl coherent⟩

/-- `dir_sdi` goes to an entry of the table. -/
theorem dirSdi_spec (wf : g.Wf) (coherent : s.Coherent g)
    (table : g.HasTable (s.fat g) dj.sclust cells) {idx : Nat} (idx_lt : idx < g.dirSize cells) :
    After (dirSdi g faults dj idx)
      (fun dj' s' => g.AtEntry dj.sclust cells dj' ∧ dj'.index = idx ∧ Kept g faults s s')
      (fun e _ => Broken faults e) s := by
  have idx_lt' : idx < 65536 := Nat.lt_of_lt_of_le idx_lt (Nat.min_le_left _ _)
  have sector := dirEntry_sector wf idx_lt
  unfold dirSdi
  rw [if_neg (not_or.2 ⟨table.start.1, Nat.not_le.2 table.start.2⟩)]
  dsimp only
  by_cases static : cells = []
  · obtain ⟨start, root⟩ := table.root static
    have inside : idx < g.nRootdir := by
      have entries : g.dirSectors cells * g.perSector = g.nRootdir := by
        rw [Geometry.dirSectors, if_pos static,
          Nat.div_mul_cancel (Nat.dvd_of_mod_eq_zero root.whole)]
      exact entries ▸ Nat.lt_of_lt_of_le idx_lt (Nat.min_le_right _ _)
    rw [if_pos start, if_neg (Nat.not_le.2 inside)]
    refine ⟨⟨rfl, idx_lt, ?_, ?_, rfl⟩, rfl, .refl coherent⟩
    · rw [start, static, List.getD_nil]
    · rw [Geometry.dirSector, if_pos static]
  · have chain := table.chain static
    have positive := List.length_pos_iff.2 static
    have head : cells.getD 0 0 = g.tableStart dj.sclust := by
      rw [List.getD_eq_getElem _ _ positive, chain.head positive]
    have first : g.links.Inside (g.tableStart dj.sclust) := by
      rw [← chain.head positive]
      exact chain.inside (List.getElem_mem positive)
    have inside : idx / (g.perSector * g.csize) < cells.length := by
      rw [Geometry.dirSectors, if_neg static] at sector
      rw [← Nat.div_div_eq_div_mul]
      exact (Nat.div_lt_iff_lt_mul wf.csize_pos).2 sector
    rw [if_neg (Nat.ne_of_gt (Nat.lt_of_lt_of_le (by decide) first.1)), after_bind, ← head]
    refine (sdiLoop_spec wf coherent chain idx_lt' (by rwa [Nat.zero_add])).mono
      (fun r s₁ => ?_) fun _ _ => id
    rintro ⟨rfl, kept⟩
    rw [Nat.zero_add]
    refine ⟨⟨rfl, idx_lt, ?_, ?_, ?_⟩, rfl, kept⟩
    · rw [Nat.div_div_eq_div_mul]
    · rw [Geometry.dirSector, if_neg static, Geometry.sectorAt, Nat.div_div_eq_div_mul,
        Nat.mod_mul_right_div_self]
    · rw [Nat.mod_mul_right_mod]

/-! ## Looking for a name -/

variable {fn : Mem} {lfn : Option (Cells WChar)}

theorem HasTable.size_pos (wf : g.Wf) {fat : Nat → Nat} (table : g.HasTable fat sclust cells) :
    0 < g.dirSize cells := by
  refine Nat.lt_min.2 ⟨by decide, Nat.mul_pos ?_ wf.perSector.1⟩
  unfold Geometry.dirSectors
  split
  case isTrue none =>
    have root := (table.root none).2
    exact Nat.div_pos (Nat.le_of_dvd root.some (Nat.dvd_of_mod_eq_zero root.whole)) wf.perSector.1
  case isFalse some => exact Nat.mul_pos (List.length_pos_iff.2 some) wf.csize_pos

theorem dirEntries_length : (s.dirEntries g cells).length = g.dirSize cells := by
  rw [Fatfs.dirEntries, List.length_map, List.length_range]

/-- The entries from one on. -/
theorem dirEntries_drop {i : Nat} (i_lt : i < g.dirSize cells) :
    (s.dirEntries g cells).drop i = s.dirEntry g cells i ::
      (s.dirEntries g cells).drop (i + 1) := by
  rw [List.drop_eq_getElem_cons (by rw [dirEntries_length]; exact i_lt)]
  congr 1
  simp only [Fatfs.dirEntries, List.getElem_map, List.getElem_range]

/-- There are none behind the table. -/
theorem dirEntries_drop_size : (s.dirEntries g cells).drop (g.dirSize cells) = [] :=
  List.drop_eq_nil_of_le (Nat.le_of_eq dirEntries_length)

/-- The window with the entry of a directory object. -/
theorem moveWindow_entry (wf : g.Wf) (coherent : s.Coherent g)
    (table : g.HasTable (s.fat g) sclust cells) (here : g.AtEntry sclust cells dj) :
    After (moveWindow g faults dj.sect) (fun _ s' => Kept g faults s s' ∧ s'.winsect = dj.sect ∧
      entryAt s'.win dj.dir = s.dirEntry g cells dj.index) (fun e _ => Broken faults e) s := by
  have own := table.own wf (dirEntry_sector wf here.index)
  rw [← here.sect] at own
  refine (moveWindow_loads wf coherent own).mono (fun _ s' => ?_) fun _ _ => id
  rintro ⟨kept, place, win⟩
  refine ⟨kept, place, ?_⟩
  rw [win, here.sect, here.dir]
  rfl

/-- From an entry on, a loop comes to what there is in the list of the entries. -/
theorem lookLoop_spec {σ β : Type} {look : Nat → Mem → σ → σ ⊕ β} {whileSect : Bool} (wf : g.Wf)
    (coherent : s.Coherent g) (table : g.HasTable (s.fat g) sclust cells) (fuel : Nat) (st : σ)
    (here : g.AtEntry sclust cells dj) (enough : g.dirSize cells ≤ dj.index + fuel) :
    After (lookLoop g faults look whileSect fuel dj st)
      (fun r s' => scan look dj.index (inUse ((s.dirEntries g cells).drop dj.index)) st =
        .inr (r.1.index, r.2) ∧ g.AtEntry sclust cells r.1 ∧ Kept g faults s s' ∧
        entryAt s'.win r.1.dir = s.dirEntry g cells r.1.index)
      (fun e s' => e = .noFile ∧ Kept g faults s s' ∧ (∃ next, scan look dj.index
          (inUse ((s.dirEntries g cells).drop dj.index)) st = .inl next) ∨ Broken faults e) s := by
  induction fuel generalizing dj st s with
  | zero => exact absurd here.index (Nat.not_lt.2 enough)
  | succ fuel ih =>
    have used : dj.sect ≠ 0 :=
      here.sect ▸ (table.own wf (dirEntry_sector wf here.index)).ne_zero wf
    unfold lookLoop
    rw [if_neg fun none => used none.2, after_bind, dirEntries_drop here.index]
    refine (moveWindow_entry wf coherent table here).mono (fun _ s₁ => ?_) fun _ _ => .inr
    rintro ⟨kept, -, entry⟩
    rw [after_bind, after_get, entry]
    generalize known : s.dirEntry g cells dj.index = e
    by_cases ended : e 0 = 0
    · rw [if_pos ended, inUse, List.takeWhile_cons_of_neg (by simpa using ended)]
      exact .inl ⟨rfl, kept, st, rfl⟩
    · rw [if_neg ended, inUse, List.takeWhile_cons_of_pos (by simpa using ended)]
      change After _ _ (fun e' s' => _ ∧ _ ∧ (∃ next, scan _ _ (e :: inUse _) _ = _) ∨ _) _
      cases seen : look dj.index e st with
      | inr found => exact ⟨scan_stop seen, here, kept, entry⟩
      | inl next =>
        dsimp only
        rw [after_bind]
        simp only [scan_next seen]
        refine (dirNext_spec wf kept.coherent (kept.hasTable wf table) here).mono
          (fun dj' s₂ => ?_) fun e' s₂ => ?_
        · rintro ⟨here', index, kept'⟩
          have both := kept.trans kept'
          have rest := ih both.coherent (both.hasTable wf table) next here' (by omega)
          rw [index, both.dirEntries wf table] at rest
          refine rest.mono (fun r s₃ => ?_) fun e'' s₃ => ?_
          · rintro ⟨found, there, kept'', window⟩
            refine ⟨found, there, both.trans kept'', window.trans ?_⟩
            exact both.dirEntry wf table there.index
          · rintro (⟨same, kept'', missing⟩ | broken)
            · exact .inl ⟨same, both.trans kept'', missing⟩
            · exact .inr broken
        · rintro (⟨same, last, kept'⟩ | broken)
          · refine .inl ⟨same, kept.trans kept', next, ?_⟩
            rw [last, dirEntries_drop_size]
            rfl
          · exact .inr broken

/-- A directory object with the place of a long name. -/
theorem Geometry.AtEntry.named (here : g.AtEntry sclust cells dj) (lfnIdx : Nat) :
    g.AtEntry sclust cells { dj with lfnIdx := lfnIdx } :=
  ⟨here.start, here.index, here.clust, here.sect, here.dir⟩

/-- `dir_find` finds what there is to be found in the list of the entries, and leaves the volume as
it is. -/
theorem dirFind_finds (wf : g.Wf) (coherent : s.Coherent g)
    (table : g.HasTable (s.fat g) dj.sclust cells) :
    After (dirFind g faults fn lfn dj)
      (fun dj' s' => findEntry fn lfn (s.dirEntries g cells) = some (dj'.index, dj'.lfnIdx) ∧
        g.AtEntry dj.sclust cells dj' ∧ Kept g faults s s')
      (fun e s' => e = .noFile ∧ findEntry fn lfn (s.dirEntries g cells) = none ∧
        Kept g faults s s' ∨ Broken faults e) s := by
  unfold dirFind
  rw [after_bind]
  refine (dirSdi_spec wf coherent table (HasTable.size_pos wf table)).mono (fun dj₁ s₁ => ?_)
    fun _ _ => .inr
  rintro ⟨here, index, kept⟩
  have forgot : findFrom fn lfn 0 (inUse (s.dirEntries g cells)) ⟨0xFF, 0xFF, dj₁.lfnIdx⟩ =
      findEntry fn lfn (s.dirEntries g cells) := findFrom_forgot (.inr ⟨rfl, rfl⟩)
  have size_le : g.dirSize cells ≤ 65536 := Nat.min_le_left _ _
  have loop : After (lookLoop g faults (findLook fn lfn) false 65536 dj₁
      ⟨0xFF, 0xFF, dj₁.lfnIdx⟩) _ _ s₁ :=
    lookLoop_spec wf kept.coherent (kept.hasTable wf table) 65536 _ here (by omega)
  rw [index, List.drop_zero, kept.dirEntries wf table] at loop
  rw [after_bind]
  refine loop.mono (fun found s₂ => ?_) fun e s₂ => ?_
  · rintro ⟨seen, there, kept', -⟩
    refine ⟨?_, there.named _, kept.trans kept'⟩
    rw [← forgot, findFrom, seen]
    rfl
  · rintro (⟨same, kept', next, missing⟩ | broken)
    · refine .inl ⟨same, ?_, kept.trans kept'⟩
      rw [← forgot, findFrom, missing]
      rfl
    · exact .inr broken

/-- `dir_find` comes to the first file that has the short name or, but for the case of its
characters, the long one. It leaves the volume as it is. -/
theorem dirFind_spec (wf : g.Wf) (coherent : s.Coherent g)
    (table : g.HasTable (s.fat g) dj.sclust cells) {name : List WChar} (given : Given lfn name) :
    After (dirFind g faults fn lfn dj)
      (fun dj' s' => g.AtEntry dj.sclust cells dj' ∧ Kept g faults s s' ∧
        ∃ _ : dj'.index < (inUse (s.dirEntries g cells)).length,
          FoundAs fn lfn name (inUse (s.dirEntries g cells)) dj'.index dj'.lfnIdx
            (inUse (s.dirEntries g cells))[dj'.index] ∧
          ∀ i (_ : i < dj'.index), IsFile (inUse (s.dirEntries g cells))[i] →
            Unnamed fn lfn name (inUse (s.dirEntries g cells)) i (inUse (s.dirEntries g cells))[i])
      (fun e s' => e = .noFile ∧ Kept g faults s s' ∧
          (∀ i (_ : i < (inUse (s.dirEntries g cells)).length),
            IsFile (inUse (s.dirEntries g cells))[i] →
              Unnamed fn lfn name (inUse (s.dirEntries g cells)) i
                (inUse (s.dirEntries g cells))[i]) ∨
        Broken faults e) s := by
  refine (dirFind_finds wf coherent table).mono (fun dj' s' => ?_) fun e s' => ?_
  · rintro ⟨found, here, kept⟩
    exact ⟨here, kept, findEntry_named given found⟩
  · rintro (⟨rfl, missing, kept⟩ | broken)
    · exact .inl ⟨rfl, kept, findEntry_unnamed given missing⟩
    · exact .inr broken

/-! ## Files in the small volume -/

/-- The first bytes of its root directory: a file `A`, and a file `A~1` with the long name `a b`. -/
def smallEntries : List UInt8 := [
  0x41, 0x20, 0x20, 0x20, 0x20, 0x20, 0x20, 0x20, 0x20, 0x20, 0x20, 0, 0, 0, 0, 0,
  0, 0, 0, 0, 0, 0, 0, 0, 0, 0, 2, 0, 3, 0, 0, 0,
  0x41, 0x61, 0, 0x20, 0, 0x62, 0, 0, 0, 0xFF, 0xFF, 0x0F, 0, 0x40, 0xFF, 0xFF,
  0xFF, 0xFF, 0xFF, 0xFF, 0xFF, 0xFF, 0xFF, 0xFF, 0xFF, 0xFF, 0, 0, 0xFF, 0xFF, 0xFF, 0xFF,
  0x41, 0x7E, 0x31, 0x20, 0x20, 0x20, 0x20, 0x20, 0x20, 0x20, 0x20]

/-- The small volume with these files. -/
def smallNamed : Fatfs :=
  { smallFs with
    disk := {
      sectors := fun n k => if n = 3 then smallEntries.getD k 0 else smallDisk.sectors n k
      ops := 0 } }

/-- A name as it is given: `A` is the short one, and `A B` the long one. -/
def smallName : Mem := fun k => if k = 0 then 0x41 else if k < 11 then 0x20 else 0

def smallLfn : Cells WChar := fun k => [0x41, 0x20, 0x42].getD k 0

/-- One that has no short form. -/
def lossyName : Mem := smallName.write 11 0x01

/-- An object of the root directory. -/
def rootDir : Dir := ⟨0, 0, 0, 0, 0, 0⟩

/-- The volume with names has just been mounted. -/
theorem smallNamed_coherent : smallNamed.Coherent small where
  winsect := by decide
  clean _ inside := absurd rfl inside
  dirty := fun dirty => by cases dirty

/-- Its root is the static one. -/
theorem smallNamed_table : small.HasTable (smallNamed.fat small) rootDir.sclust [] :=
  layout_hasTable small_layout small_regular (fun fat32 => by cases fat32) _

/-- The long name that is looked for. -/
theorem smallLfn_given : Given (some smallLfn) [0x41, 0x20, 0x42] := by
  rintro buf ⟨rfl⟩
  exact ⟨⟨by decide, rfl, by decide, rfl, by decide, rfl, rfl⟩, by decide⟩

theorem small_dirFind :
    findEntry lossyName (some smallLfn) (smallNamed.dirEntries small []) = some (2, 1) ∧
    After (dirFind small .never lossyName (some smallLfn) rootDir)
      (fun dj' s' => small.AtEntry 0 [] dj' ∧ Kept small .never smallNamed s' ∧
        ∃ _ : dj'.index < (inUse (smallNamed.dirEntries small [])).length,
          FoundAs lossyName (some smallLfn) [0x41, 0x20, 0x42]
            (inUse (smallNamed.dirEntries small [])) dj'.index dj'.lfnIdx
            (inUse (smallNamed.dirEntries small []))[dj'.index] ∧
          ∀ i (_ : i < dj'.index), IsFile (inUse (smallNamed.dirEntries small []))[i] →
            Unnamed lossyName (some smallLfn) [0x41, 0x20, 0x42]
              (inUse (smallNamed.dirEntries small [])) i
              (inUse (smallNamed.dirEntries small []))[i])
      (fun e s' => e = .noFile ∧ Kept small .never smallNamed s' ∧
          (∀ i (_ : i < (inUse (smallNamed.dirEntries small [])).length),
            IsFile (inUse (smallNamed.dirEntries small []))[i] →
              Unnamed lossyName (some smallLfn) [0x41, 0x20, 0x42]
                (inUse (smallNamed.dirEntries small [])) i
                (inUse (smallNamed.dirEntries small []))[i]) ∨
        Broken .never e) smallNamed :=
  ⟨by decide +kernel, dirFind_spec small_wf smallNamed_coherent smallNamed_table smallLfn_given⟩

end D2xCios.FatFs
