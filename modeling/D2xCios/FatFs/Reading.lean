import D2xCios.FatFs.Contents

/-!
# Reading a file

`f_read` yields the bytes of the file from its pointer on, through the window and past it alike,
and moves the pointer behind them. If the disk fails it has yielded the first ones of them.
-/

namespace D2xCios.FatFs

open D2xCios.Lib

variable {g : Geometry} {faults : Faults} {t : Transfer} {cells : List Nat}

/-! ## The cluster of the pointer -/

/-- The sector of the pointer in its cluster. -/
theorem csectOf_eq (wf : g.Wf) (fptr : Nat) : csectOf g fptr = fptr / g.ssize % g.csize := by
  obtain ⟨k, csize, -⟩ := wf.csize
  rw [csectOf, csize]
  exact Nat.and_two_pow_sub_one_eq_mod _ k

/-- The cluster of the pointer. -/
def Geometry.cellOf (g : Geometry) (cells : List Nat) (fptr : Nat) : Nat :=
  cells.getD (fptr / g.ssize / g.csize) 0

/-- The cluster of the pointer is one of the file's. -/
theorem cellOf_mem (wf : g.Wf) {fptr : Nat} (inside : fptr < g.room cells) :
    g.cellOf cells fptr ∈ cells := by
  obtain ⟨i_lt, cell⟩ := cell_of_sector wf (sector_lt wf inside)
  rw [Geometry.cellOf, cell]
  exact List.getElem_mem i_lt

/-- The clusters of a file that is not empty are the chain of its first one. -/
theorem HasFile.chain (file : HasFile g t.fs cells t.fp) (some : cells ≠ []) :
    IsChain g.links (t.fs.fat g) t.fp.sclust cells :=
  file.holds.chain some

/-- On the boundary of a cluster the file object knows the cluster before it. -/
theorem Geometry.Placed.before (wf : g.Wf) {fptr clust dsect : Nat}
    (placed : g.Placed cells fptr clust dsect) (positive : 0 < fptr) (boundary : fptr % g.ssize = 0)
    (first : fptr / g.ssize % g.csize = 0) :
    ∃ i, i + 1 = fptr / g.ssize / g.csize ∧ clust = cells.getD i 0 := by
  have cluster := placed.cluster positive
  have sector := pred_div_boundary positive wf.ssize_pos boundary
  generalize (fptr - 1) / g.ssize = p at sector cluster
  generalize fptr / g.ssize = q at sector first
  subst sector
  exact ⟨p / g.csize, pred_div_boundary (Nat.succ_pos p) wf.csize_pos first, cluster⟩

/-- Elsewhere it knows the cluster of the pointer. -/
theorem Geometry.Placed.within (wf : g.Wf) {fptr clust dsect : Nat}
    (placed : g.Placed cells fptr clust dsect)
    (inside : ¬ (fptr % g.ssize = 0 ∧ fptr / g.ssize % g.csize = 0)) :
    clust = g.cellOf cells fptr := by
  have positive : 0 < fptr := Nat.pos_of_ne_zero fun zero => inside (by simp [zero])
  rw [placed.cluster positive, Geometry.cellOf]
  congr 1
  by_cases boundary : fptr % g.ssize = 0
  · have sector := pred_div_boundary positive wf.ssize_pos boundary
    have first : fptr / g.ssize % g.csize ≠ 0 := fun zero => inside ⟨boundary, zero⟩
    rw [← pred_div_inside first, ← sector, Nat.add_sub_cancel]
  · rw [pred_div_inside boundary]

/-- Behind some bytes of one cluster. -/
theorem Geometry.Placed.next {fptr n dsect : Nat} (n_pos : 0 < n)
    (same : (fptr + (n - 1)) / g.ssize / g.csize = fptr / g.ssize / g.csize)
    (sector : (fptr + n) % g.ssize ≠ 0 → dsect = g.sectorAt cells ((fptr + n) / g.ssize)) :
    g.Placed cells (fptr + n) (g.cellOf cells fptr) dsect where
  cluster _ := by
    rw [Nat.add_sub_assoc n_pos, same, Geometry.cellOf]
  sector := sector

/-- Behind a part of one sector. -/
theorem Geometry.Placed.part {fptr n : Nat} (n_pos : 0 < n) (fits : fptr % g.ssize + n ≤ g.ssize) :
    g.Placed cells (fptr + n) (g.cellOf cells fptr) (g.sectorAt cells (fptr / g.ssize)) := by
  refine .next n_pos (congrArg (· / g.csize) (within_block (by omega)).1) fun next => ?_
  have short : fptr % g.ssize + n < g.ssize := by
    by_contra whole
    have split := Nat.div_add_mod fptr g.ssize
    have total : fptr + n = g.ssize * (fptr / g.ssize + 1) := by
      rw [Nat.mul_add]
      omega
    exact next (by rw [total, Nat.mul_mod_right])
  rw [(within_block short).1]

/-! ## Reading -/

/-- The cluster of the pointer is looked up. -/
theorem readCluster_spec (wf : g.Wf) (coherent : t.fs.Coherent g)
    (file : HasFile g t.fs cells t.fp) (more : t.fp.fptr < t.fp.fsize)
    (boundary : t.fp.fptr % g.ssize = 0) (first : t.fp.fptr / g.ssize % g.csize = 0) :
    After (readCluster g faults) (fun _ t' => ∃ fs, Kept g faults t.fs fs ∧
      t' = { t with fs := fs, fp := { t.fp with clust := g.cellOf cells t.fp.fptr } })
      (fun e t' => Broken faults e ∧ t'.moved = t.moved) t := by
  have member := cellOf_mem wf (Nat.lt_of_lt_of_le more file.room)
  have some := List.ne_nil_of_mem member
  have chain := file.chain some
  have range := chain.inside member
  have limit := wf.nFatent_lt
  have finish : ∀ clst, clst = g.cellOf cells t.fp.fptr → ∀ fs, Kept g faults t.fs fs → After (do
      if clst < 2 then abort .intErr
      else if clst = 0xFFFFFFFF then abort .diskErr
      else modifyFp fun fp => { fp with clust := clst })
      (fun _ t' => ∃ fs, Kept g faults t.fs fs ∧
        t' = { t with fs := fs, fp := { t.fp with clust := g.cellOf cells t.fp.fptr } })
      (fun e t' => Broken faults e ∧ t'.moved = t.moved) { t with fs := fs } := by
    rintro clst rfl fs kept
    rw [if_neg (Nat.not_lt.2 range.1),
      if_neg (Nat.ne_of_lt (Nat.lt_trans (Nat.lt_trans range.2 limit) (by decide)))]
    exact ⟨fs, kept, rfl⟩
  unfold readCluster
  simp only [after_bind, after_get]
  split
  case isTrue zero =>
    refine finish t.fp.sclust ?_ t.fs (.refl coherent)
    rw [Geometry.cellOf, zero, Nat.zero_div, Nat.zero_div,
      List.getD_eq_getElem _ _ (List.length_pos_of_ne_nil some)]
    exact (chain.head (List.length_pos_of_ne_nil some)).symm
  case isFalse middle =>
    -- the chain goes on from the cluster of the byte before the pointer
    obtain ⟨i, next, clust⟩ := file.placed.before wf (Nat.pos_of_ne_zero middle) boundary first
    obtain ⟨i_lt, -⟩ := cell_of_sector wf (sector_lt wf (Nat.lt_of_lt_of_le more file.room))
    rw [← next] at i_lt
    have link := chain.next_eq i_lt
    rw [List.getD_eq_getElem _ _ (Nat.lt_of_succ_lt i_lt)] at clust
    have inside := chain.inside (List.getElem_mem (Nat.lt_of_succ_lt i_lt))
    rw [after_bind, after_onFs, clust]
    refine (getFat_spec wf coherent inside.1 inside.2).mono (fun r fs => ?_) fun _ _ => False.elim
    rintro (⟨rfl, kept⟩ | ⟨rfl, broken⟩)
    · refine finish _ ?_ fs kept
      rw [link, Geometry.cellOf, ← next, List.getD_eq_getElem _ _ i_lt]
    · exact ⟨⟨rfl, broken⟩, rfl⟩

/-- Another operation of the disk that leaves it as it is. -/
theorem Kept.ops {s : Fatfs} (coherent : s.Coherent g) (ops : Nat) :
    Kept g faults s { s with disk := { s.disk with ops := ops } } :=
  ⟨⟨⟨fun _ _ _ => rfl, ⟨coherent.winsect, coherent.clean, coherent.dirty⟩, fun _ => id,
    fun _ _ => rfl⟩, fun _ _ => rfl⟩, rfl⟩

/-- How far the window is behind a sector tells whether it is one of some sectors. -/
theorem place_eq_iff {winsect sect cc i : Nat} (winsect_lt : winsect < 4294967296)
    (i_lt : i < cc) (sect_le : sect + cc ≤ 4294967296) :
    (winsect + 4294967296 - sect) % 4294967296 = i ↔ winsect = sect + i := by
  omega

/-- What has been read past the window is brought up to date from it. -/
theorem refreshed {s : Fatfs} (wf : g.Wf) (coherent : s.Coherent g) {sect cc i : Nat}
    (own : g.Own (sect + i)) (i_lt : i < cc) (sect_le : sect + cc ≤ 4294967296) :
    (if s.wflag = true ∧ (s.winsect + 4294967296 - sect) % 4294967296 < cc ∧
      i = (s.winsect + 4294967296 - sect) % 4294967296 then s.win
    else s.disk.sectors (sect + i)) = s.view (sect + i) := by
  have place := place_eq_iff coherent.winsect i_lt sect_le
  cases flag : s.wflag with
  | false => rw [if_neg (fun dirty => Bool.false_ne_true dirty.1), view_clean coherent flag]
  | true =>
    by_cases here : s.winsect = sect + i
    · rw [if_pos ⟨rfl, by rw [place.2 here]; exact i_lt, (place.2 here).symm⟩, ← here,
        view_window (here ▸ own.ne_zero wf)]
    · rw [if_neg fun dirty => here (place.1 dirty.2.2.symm), view_other (Ne.symm here)]

/-- The sectors of one cluster follow each other. -/
theorem sectorAt_add {q i : Nat} (fits : q % g.csize + i < g.csize) :
    g.sectorAt cells (q + i) = g.sectorAt cells q + i := by
  have place := within_block fits
  rw [Geometry.sectorAt, place.1, place.2, Geometry.sectorAt, Nat.add_assoc]

/-- The sectors up to the end of a cluster are the file's. -/
theorem sector_add_lt (wf : g.Wf) {q i : Nat} (q_lt : q < cells.length * g.csize)
    (fits : q % g.csize + i < g.csize) : q + i < cells.length * g.csize := by
  obtain ⟨i_lt, -⟩ := cell_of_sector wf q_lt
  have whole : (q / g.csize + 1) * g.csize ≤ cells.length * g.csize := Nat.mul_le_mul_right _ i_lt
  have split := Nat.div_add_mod q g.csize
  rw [Nat.add_mul, Nat.one_mul, Nat.mul_comm] at whole
  omega

/-- The sectors from one on to the end of its cluster are in the volume. -/
theorem sectorAt_le (wf : g.Wf) (inside : ∀ c ∈ cells, g.links.Inside c) {q cc : Nat}
    (q_lt : q < cells.length * g.csize) (fits : q % g.csize + cc ≤ g.csize) :
    g.sectorAt cells q + cc ≤ g.limit := by
  obtain ⟨c, member, cell, -⟩ := sectorAt_inCluster wf q_lt
  have last := cluster_le (inside c member)
  rw [Geometry.sectorAt, cell, clust2sect_eq wf (inside c member)]
  omega

/-- Whole sectors are read past the window. -/
theorem readSectors_spec (wf : g.Wf) (coherent : t.fs.Coherent g)
    (inside : ∀ c ∈ cells, g.links.Inside c) {q cc : Nat} (q_lt : q < cells.length * g.csize)
    (fits : q % g.csize + cc ≤ g.csize) :
    After (readSectors g faults (g.sectorAt cells q) cc) (fun bytes t' => ∃ fs,
      Kept g faults t.fs fs ∧ t' = { t with fs := fs } ∧
      bytes = Cells.window (t.fs.bytes g cells) (q * g.ssize) (cc * g.ssize))
      (fun e t' => Broken faults e ∧ t'.moved = t.moved) t := by
  have sect_le := Nat.le_trans (sectorAt_le wf inside q_lt fits) wf.sectors
  unfold readSectors
  rw [after_bind, after_onFs]
  refine (diskRead_spec (g.sectorAt cells q) cc).mono (fun read fs => ?_) fun _ _ => False.elim
  rintro ⟨⟨ops, rfl⟩, success, failure⟩
  cases ok : read.1 with
  | false => exact ⟨⟨rfl, failure ok⟩, rfl⟩
  | true =>
    refine ⟨_, .ops coherent ops, rfl, ?_⟩
    rw [Fatfs.bytes, window_blocks wf.ssize_pos, bytesOf]
    refine List.flatMap_congr fun i member => ?_
    have i_lt := List.mem_range.1 member
    have fits' : q % g.csize + i < g.csize := Nat.lt_of_lt_of_le (Nat.add_lt_add_left i_lt _) fits
    have next : g.sectorAt cells (q + i) = g.sectorAt cells q + i := sectorAt_add fits'
    have own := sectorAt_own wf inside (sector_add_lt wf q_lt fits')
    rw [next] at own
    have data := refreshed wf coherent own i_lt sect_le
    rw [success ok, next, ← data]

/-- A part of a sector is read through the window. -/
theorem readPart_spec (wf : g.Wf) (coherent : t.fs.Coherent g)
    (inside : ∀ c ∈ cells, g.links.Inside c) {fptr btr : Nat} (fptr_eq : t.fp.fptr = fptr)
    (fptr_lt : fptr < g.room cells) (dsect : t.fp.dsect = g.sectorAt cells (fptr / g.ssize)) :
    After (readPart g faults btr) (fun bytes t' => ∃ fs, Kept g faults t.fs fs ∧
      t' = { t with fs := fs } ∧ bytes = Cells.window (t.fs.bytes g cells) fptr
        (min btr (g.ssize - fptr % g.ssize)))
      (fun e t' => Broken faults e ∧ t'.moved = t.moved) t := by
  subst fptr_eq
  have rest := Nat.mod_lt t.fp.fptr wf.ssize_pos
  obtain ⟨c, member, -, here⟩ := sectorAt_inCluster wf (sector_lt wf fptr_lt)
  have own := InCluster.own wf (inside c member) here
  unfold readPart
  simp only [after_bind, after_get, after_tryCatch, after_onFs]
  rw [dsect]
  refine (moveWindow_loads wf coherent own).mono (fun _ fs => ?_) fun e _ broken => ⟨?_, rfl⟩
  · rintro ⟨kept, -, win⟩
    refine ⟨fs, kept, rfl, ?_⟩
    have count : (if g.ssize - t.fp.fptr % g.ssize > btr then btr
        else g.ssize - t.fp.fptr % g.ssize) = min btr (g.ssize - t.fp.fptr % g.ssize) := by
      split <;> omega
    rw [count, Fatfs.bytes, window_blocked (by omega), ← win]
  · exact ⟨rfl, broken.2⟩

/-- The first sector of a cluster has a number that is not 0. -/
theorem clust2sect_ne_zero (wf : g.Wf) {c : Nat} (inside : g.links.Inside c) :
    clust2sect g c ≠ 0 := by
  have first := wf.fatbase
  have data := wf.database
  rw [clust2sect_eq wf inside]
  omega

/-- A count of sectors ends with the cluster, and none of them is behind the bytes. -/
theorem clipped_spec (wf : g.Wf) (fptr : Nat) {n : Nat} (whole : n / g.ssize ≠ 0) :
    fptr / g.ssize % g.csize + clipped g (csectOf g fptr) (n / g.ssize) ≤ g.csize ∧
      0 < clipped g (csectOf g fptr) (n / g.ssize) ∧
      clipped g (csectOf g fptr) (n / g.ssize) * g.ssize ≤ n := by
  have csect_lt := Nat.mod_lt (fptr / g.ssize) wf.csize_pos
  have clipped_eq : clipped g (csectOf g fptr) (n / g.ssize) =
      min (n / g.ssize) (g.csize - fptr / g.ssize % g.csize) := by
    rw [csectOf_eq wf, clipped]
    split <;> omega
  rw [clipped_eq]
  refine ⟨by omega, Nat.lt_min.2 ⟨Nat.pos_of_ne_zero whole, by omega⟩, ?_⟩
  exact Nat.le_trans (Nat.mul_le_mul_right _ (Nat.min_le_left _ _)) (Nat.div_mul_le_self _ _)

/-- The sector of the pointer, as the calls compute it. -/
theorem sect_eq (wf : g.Wf) (fptr : Nat) :
    clust2sect g (g.cellOf cells fptr) + csectOf g fptr = g.sectorAt cells (fptr / g.ssize) := by
  rw [csectOf_eq wf]
  rfl

/-- The last byte of some whole sectors of one cluster. -/
theorem last_of_sectors {q cc ssize csize : Nat} (ssize_pos : 0 < ssize) (cc_pos : 0 < cc)
    (fits : q % csize + cc ≤ csize) :
    (q * ssize + (cc * ssize - 1)) / ssize / csize = q / csize := by
  obtain ⟨n, rfl⟩ : ∃ n, cc = n + 1 := ⟨cc - 1, by omega⟩
  have last : q * ssize + ((n + 1) * ssize - 1) = (q + n) * ssize + (ssize - 1) := by
    rw [Nat.add_mul n 1, Nat.one_mul, Nat.add_sub_assoc ssize_pos, ← Nat.add_assoc, ← Nat.add_mul]
  rw [last, Nat.mul_comm, Nat.mul_add_div ssize_pos, Nat.div_eq_of_lt
    (Nat.sub_lt ssize_pos Nat.one_pos),
    Nat.add_zero]
  exact (within_block (by omega)).1

/-- What one round of the loop of `f_read` does. -/
def ReadOne (g : Geometry) (faults : Faults) (cells : List Nat) (t : Transfer) (btr : Nat)
    (bytes : List UInt8) (t' : Transfer) : Prop :=
  ∃ fs clust dsect, Kept g faults t.fs fs ∧
    t' = { t with fs := fs, fp := { t.fp with clust := clust, dsect := dsect } } ∧
    0 < bytes.length ∧ bytes.length ≤ btr ∧
    bytes = Cells.window (t.fs.bytes g cells) t.fp.fptr bytes.length ∧
    g.Placed cells (t.fp.fptr + bytes.length) clust dsect

/-- A move of the window leaves the bytes of the file. -/
theorem Kept.window (wf : g.Wf) (inside : ∀ c ∈ cells, g.links.Inside c) {s s' : Fatfs}
    (kept : Kept g faults s s') {fptr n : Nat} (room : fptr + n ≤ g.room cells) :
    Cells.window (s'.bytes g cells) fptr n = Cells.window (s.bytes g cells) fptr n :=
  Cells.window_congr fun i i_lt => bytes_congr wf
    (fun c member n here => kept.same (InCluster.own wf (inside c member) here)) (by omega)

/-- What is left of the sector of the pointer, once its number is known. -/
theorem readPart_one (wf : g.Wf) (file : HasFile g t.fs cells t.fp) {btr : Nat}
    (btr_pos : 0 < btr) (btr_le : t.fp.fptr + btr ≤ t.fp.fsize) (fs : Fatfs) (clust dsect : Nat)
    (kept : Kept g faults t.fs fs) (clust_eq : clust = g.cellOf cells t.fp.fptr)
    (dsect_eq : dsect = g.sectorAt cells (t.fp.fptr / g.ssize)) :
    After (readPart g faults btr) (ReadOne g faults cells t btr)
      (fun e t' => Broken faults e ∧ t'.moved = t.moved)
      { t with fs := fs, fp := { t.fp with clust := clust, dsect := dsect } } := by
  subst clust_eq dsect_eq
  have fptr_lt : t.fp.fptr < g.room cells := Nat.lt_of_lt_of_le (by omega) file.room
  have inside : ∀ c ∈ cells, g.links.Inside c := fun c =>
    (file.chain (List.ne_nil_of_mem (cellOf_mem wf fptr_lt))).inside
  have rest := Nat.mod_lt t.fp.fptr wf.ssize_pos
  refine (readPart_spec
    (t := { t with fs := fs, fp := { t.fp with
      clust := g.cellOf cells t.fp.fptr, dsect := g.sectorAt cells (t.fp.fptr / g.ssize) } })
    wf kept.coherent inside (show _ = t.fp.fptr from rfl) fptr_lt rfl).mono (fun bytes t' => ?_)
      fun _ _ => id
  rintro ⟨fs', kept', rfl, rfl⟩
  refine ⟨fs', _, _, kept.trans kept', rfl, ?_⟩
  rw [Cells.window_length]
  refine ⟨by omega, Nat.min_le_left _ _, kept.window wf inside ?_, .part (by omega) (by omega)⟩
  have room := file.room
  omega

/-- Whole sectors come from the drive at once. -/
theorem readWhole_one (wf : g.Wf) (file : HasFile g t.fs cells t.fp)
    (boundary : t.fp.fptr % g.ssize = 0) {btr : Nat} (btr_le : t.fp.fptr + btr ≤ t.fp.fsize)
    (whole : btr / g.ssize ≠ 0) {fs : Fatfs} (kept : Kept g faults t.fs fs) :
    After (readSectors g faults (g.sectorAt cells (t.fp.fptr / g.ssize))
        (clipped g (csectOf g t.fp.fptr) (btr / g.ssize)))
      (ReadOne g faults cells t btr) (fun e t' => Broken faults e ∧ t'.moved = t.moved)
      { t with fs := fs, fp := { t.fp with clust := g.cellOf cells t.fp.fptr } } := by
  obtain ⟨fits, cc_pos, bytes_le⟩ := clipped_spec wf t.fp.fptr whole
  generalize clipped g (csectOf g t.fp.fptr) (btr / g.ssize) = cc at fits cc_pos bytes_le ⊢
  have bytes_pos := Nat.mul_pos cc_pos wf.ssize_pos
  have fptr_lt : t.fp.fptr < g.room cells := Nat.lt_of_lt_of_le (by omega) file.room
  have inside : ∀ c ∈ cells, g.links.Inside c := fun c =>
    (file.chain (List.ne_nil_of_mem (cellOf_mem wf fptr_lt))).inside
  have fptr_eq : t.fp.fptr / g.ssize * g.ssize = t.fp.fptr :=
    Nat.div_mul_cancel (Nat.dvd_of_mod_eq_zero boundary)
  have last := last_of_sectors wf.ssize_pos cc_pos fits
  rw [fptr_eq] at last
  refine (readSectors_spec wf kept.coherent inside (sector_lt wf fptr_lt) fits).mono
    (fun bytes t' => ?_) fun _ _ => id
  rintro ⟨fs', kept', rfl, rfl⟩
  refine ⟨fs', _, t.fp.dsect, kept.trans kept', rfl, ?_⟩
  rw [Cells.window_length, fptr_eq]
  refine ⟨bytes_pos, bytes_le, kept.window wf inside ?_, .next bytes_pos last fun next => ?_⟩
  · have room := file.room
    omega
  · exact absurd (by rw [Nat.add_mul_mod_self_right, boundary]) next

/-- A round of the loop reads the next bytes of the file. -/
theorem readStep_spec (wf : g.Wf) (coherent : t.fs.Coherent g) (file : HasFile g t.fs cells t.fp)
    {btr : Nat} (btr_pos : 0 < btr) (btr_le : t.fp.fptr + btr ≤ t.fp.fsize) :
    After (readStep g faults btr) (ReadOne g faults cells t btr)
      (fun e t' => Broken faults e ∧ t'.moved = t.moved) t := by
  have fptr_lt : t.fp.fptr < g.room cells := Nat.lt_of_lt_of_le (by omega) file.room
  have member := cellOf_mem wf fptr_lt
  have inside := (file.chain (List.ne_nil_of_mem member)).inside member
  unfold readStep
  simp only [after_bind, after_get]
  split
  case isFalse middle =>
    have placed := file.placed
    exact readPart_one wf file btr_pos btr_le t.fs t.fp.clust t.fp.dsect (.refl coherent)
      (placed.within wf fun both => middle both.1) (placed.sector middle)
  case isTrue boundary =>
    have go : ∀ fs, Kept g faults t.fs fs → After (do
        let sect := clust2sect g (← get).fp.clust
        if sect = 0 then abort .intErr
        else if btr / g.ssize ≠ 0 then
          readSectors g faults (sect + csectOf g t.fp.fptr)
            (clipped g (csectOf g t.fp.fptr) (btr / g.ssize))
        else
          modifyFp fun fp => { fp with dsect := sect + csectOf g t.fp.fptr }
          readPart g faults btr) (ReadOne g faults cells t btr)
        (fun e t' => Broken faults e ∧ t'.moved = t.moved)
        { t with fs := fs, fp := { t.fp with clust := g.cellOf cells t.fp.fptr } } := by
      intro fs kept
      simp only [after_bind, after_get, sect_eq wf]
      rw [if_neg (clust2sect_ne_zero wf inside)]
      split
      case isTrue whole => exact readWhole_one wf file boundary btr_le whole kept
      case isFalse =>
        rw [after_bind, after_modifyFp]
        exact readPart_one wf file btr_pos btr_le fs _ _ kept rfl rfl
    split
    case isTrue first =>
      rw [after_bind]
      rw [csectOf_eq wf] at first
      refine (readCluster_spec wf coherent file (by omega) boundary first).mono (fun _ t' => ?_)
        fun _ _ => id
      rintro ⟨fs, kept, rfl⟩
      exact go fs kept
    case isFalse middle =>
      have clust := file.placed.within wf fun both => middle ((csectOf_eq wf _).trans both.2)
      have done := go t.fs (.refl coherent)
      rw [← clust] at done
      exact done

/-- The loop of `f_read` yields the bytes of the file one part after the other. -/
theorem readLoop_spec (wf : g.Wf) (fuel : Nat) {btr : Nat} (coherent : t.fs.Coherent g)
    (file : HasFile g t.fs cells t.fp) (btr_le : t.fp.fptr + btr ≤ t.fp.fsize)
    (enough : btr ≤ fuel) :
    After (readLoop g faults fuel btr) (fun _ t' => ∃ fs clust dsect,
      Kept g faults t.fs fs ∧ g.Placed cells (t.fp.fptr + btr) clust dsect ∧
      t' = { t with
        fs := fs
        fp := { t.fp with clust := clust, dsect := dsect, fptr := t.fp.fptr + btr }
        moved := t.moved ++ Cells.window (t.fs.bytes g cells) t.fp.fptr btr })
      (fun e t' => Broken faults e ∧ ∃ n, n < btr ∧
        t'.moved = t.moved ++ Cells.window (t.fs.bytes g cells) t.fp.fptr n) t := by
  induction fuel generalizing t btr with
  | zero =>
    obtain rfl : btr = 0 := by omega
    exact ⟨t.fs, _, _, .refl coherent, file.placed, by simp [Cells.window_zero]⟩
  | succ fuel ih =>
    unfold readLoop
    split
    case isFalse none =>
      rw [not_not] at none
      subst none
      exact ⟨t.fs, _, _, .refl coherent, file.placed, by simp [Cells.window_zero]⟩
    case isTrue more =>
      rw [after_bind]
      refine (readStep_spec wf coherent file (Nat.pos_of_ne_zero more) btr_le).mono
        (fun bytes t₁ => ?_) fun e t' failed => ⟨failed.1, 0, Nat.pos_of_ne_zero more, ?_⟩
      · rintro ⟨fs, clust, dsect, kept, rfl, bytes_pos, bytes_le, bytes_eq, placed⟩
        have file' : HasFile g fs cells
            { t.fp with clust := clust, dsect := dsect, fptr := t.fp.fptr + bytes.length } :=
          ⟨by rw [kept.fat wf]; exact file.holds, placed,
            Nat.le_trans (Nat.add_le_add_left bytes_le _) btr_le, file.room, file.fsize⟩
        have inside : ∀ c ∈ cells, g.links.Inside c := fun c => file.holds.inside
        have same : ∀ n, n ≤ btr - bytes.length →
            Cells.window (fs.bytes g cells) (t.fp.fptr + bytes.length) n =
              Cells.window (t.fs.bytes g cells) (t.fp.fptr + bytes.length) n := fun n n_le => by
          refine Cells.window_congr fun i i_lt => bytes_congr wf (fun c member m here => ?_) ?_
          · exact kept.same (InCluster.own wf (inside c member) here)
          · have room := file.room
            omega
        have joined : ∀ n, bytes ++ Cells.window (t.fs.bytes g cells) (t.fp.fptr + bytes.length) n =
            Cells.window (t.fs.bytes g cells) t.fp.fptr (bytes.length + n) := fun n => by
          rw [← Cells.window_append, ← bytes_eq]
        rw [after_bind, after_modify]
        refine (ih kept.coherent file' ?_ ?_).mono (fun _ t₂ => ?_) fun e t' => ?_
        · change t.fp.fptr + bytes.length + (btr - bytes.length) ≤ t.fp.fsize
          omega
        · omega
        · rintro ⟨fs', clust', dsect', kept', placed', rfl⟩
          have total : t.fp.fptr + bytes.length + (btr - bytes.length) = t.fp.fptr + btr := by omega
          refine ⟨fs', clust', dsect', kept.trans kept', total ▸ placed', ?_⟩
          simp only [total, same _ (Nat.le_refl _), List.append_assoc, joined,
            Nat.add_sub_cancel' bytes_le]
        · rintro ⟨broken, n, n_lt, moved⟩
          refine ⟨broken, bytes.length + n, by omega, ?_⟩
          rw [moved, same n (by omega), List.append_assoc, joined]
      · rw [failed.2, Cells.window_zero, List.append_nil]

/-- The file object can be read from. -/
structure Readable (g : Geometry) (fp : Fil) : Prop where
  opened : fp.opened = true
  id : fp.id = g.id
  error : fp.error = false
  read : fp.read = true

/-- `f_read` yields the bytes of the file from the pointer on, as many as are asked for and as there
are. If the disk fails, what it has yielded are the first ones of them. -/
theorem fRead_spec (wf : g.Wf) (coherent : t.fs.Coherent g) (file : HasFile g t.fs cells t.fp)
    (readable : Readable g t.fp) (btr : Nat) :
    After (fRead g faults btr) (fun _ t' => Kept g faults t.fs t'.fs ∧ HasFile g t'.fs cells t'.fp ∧
      t'.moved = Cells.window (t.fs.bytes g cells) t.fp.fptr (min btr (t.fp.fsize - t.fp.fptr)) ∧
      ∃ clust dsect, t'.fp = { t.fp with
        clust := clust, dsect := dsect, fptr := min (t.fp.fptr + btr) t.fp.fsize })
      (fun e t' => Broken faults e ∧ ∃ n, n < min btr (t.fp.fsize - t.fp.fptr) ∧
        t'.moved = Cells.window (t.fs.bytes g cells) t.fp.fptr n) t := by
  have fptr_le := file.fptr
  have fsize_lt := file.fsize
  have count : (if btr > (t.fp.fsize + 4294967296 - t.fp.fptr) % 4294967296 then
      (t.fp.fsize + 4294967296 - t.fp.fptr) % 4294967296 else btr) =
      min btr (t.fp.fsize - t.fp.fptr) := by
    split <;> omega
  unfold fRead
  rw [after_bind, after_modify, after_bind,
    after_validate (t := { t with moved := [] }) readable.opened readable.id, after_bind, after_get,
    if_neg (by rw [readable.error]; exact Bool.false_ne_true),
    if_neg (not_not.2 readable.read)]
  simp only [count]
  refine (readLoop_spec (t := { t with moved := [] }) wf _ coherent file (by
    change t.fp.fptr + _ ≤ t.fp.fsize
    omega) (Nat.le_refl _)).mono (fun _ t' => ?_) fun e t' => ?_
  · rintro ⟨fs, clust, dsect, kept, placed, rfl⟩
    have total :
      t.fp.fptr + min btr (t.fp.fsize - t.fp.fptr) = min (t.fp.fptr + btr) t.fp.fsize := by
      omega
    refine ⟨kept, ⟨?_, placed, ?_, file.room, fsize_lt⟩, rfl, clust, dsect, ?_⟩
    · rw [kept.fat wf]
      exact file.holds
    · change t.fp.fptr + _ ≤ t.fp.fsize
      omega
    · simp only [total]
  · rintro ⟨broken, n, n_lt, moved⟩
    exact ⟨broken, n, n_lt, moved⟩

end D2xCios.FatFs
