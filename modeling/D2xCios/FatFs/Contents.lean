import D2xCios.FatFs.Files
import Mathlib.Data.List.GetD

/-!
# What a file holds

A file lies in the clusters of its chain, and its bytes in their sectors one after the other. No
sector is one of two clusters, nor of the FAT. The file object knows the cluster of the last byte
before its pointer, and the sector of the next one unless that is the first one of its sector.
-/

namespace D2xCios.FatFs

open D2xCios.Lib

variable (g : Geometry)

/-- The sectors of a cluster. -/
def Geometry.InCluster (c n : Nat) : Prop := clust2sect g c ≤ n ∧ n < clust2sect g c + g.csize

/-- The sector with index `q` of some clusters. -/
def Geometry.sectorAt (cells : List Nat) (q : Nat) : Nat :=
  clust2sect g (cells.getD (q / g.csize) 0) + q % g.csize

/-- The bytes in some clusters. -/
def Fatfs.bytes (s : Fatfs) (cells : List Nat) : Mem :=
  blocked g.ssize fun q => s.view (g.sectorAt cells q)

/-- How many bytes there are in some clusters. -/
def Geometry.room (cells : List Nat) : Nat := cells.length * g.csize * g.ssize

/-- A file with the first cluster `sclust` lies in these clusters. -/
def Geometry.Holds (fat : Nat → Nat) (sclust : Nat) (cells : List Nat) : Prop :=
  if cells = [] then sclust = 0 else IsChain g.links fat sclust cells

/-- The cluster and the sector of a file object are those of its pointer. -/
structure Geometry.Placed (cells : List Nat) (fptr clust dsect : Nat) : Prop where
  cluster : 0 < fptr → clust = cells.getD ((fptr - 1) / g.ssize / g.csize) 0
  sector : fptr % g.ssize ≠ 0 → dsect = g.sectorAt cells (fptr / g.ssize)

/-- A file object of a volume, and the clusters of its file. -/
structure HasFile (s : Fatfs) (cells : List Nat) (fp : Fil) : Prop where
  holds : g.Holds (s.fat g) fp.sclust cells
  placed : g.Placed cells fp.fptr fp.clust fp.dsect
  fptr : fp.fptr ≤ fp.fsize
  room : fp.fsize ≤ g.room cells
  fsize : fp.fsize < 4294967296

variable {g} {s : Fatfs}

/-! ## Clusters -/

theorem Geometry.Wf.csize_pos (wf : g.Wf) : 0 < g.csize := by
  obtain ⟨k, csize, -⟩ := wf.csize
  rw [csize]
  exact Nat.two_pow_pos k

/-- The last sector of a cluster is in the volume. -/
theorem cluster_le {c : Nat} (inside : g.links.Inside c) :
    (c - 2) * g.csize + g.database + g.csize ≤ g.limit := by
  have range := inside
  have next : (c - 2 + 1) * g.csize ≤ (g.nFatent - 2) * g.csize :=
    Nat.mul_le_mul_right _ (by have := range.1; have := range.2; omega)
  rw [Nat.add_mul, Nat.one_mul] at next
  unfold Geometry.limit
  omega

/-- The first sector of a cluster. -/
theorem clust2sect_eq (wf : g.Wf) {c : Nat} (inside : g.links.Inside c) :
    clust2sect g c = (c - 2) * g.csize + g.database := by
  have range := inside
  have last := Nat.le_trans (cluster_le inside) wf.sectors
  have some := wf.csize_pos
  unfold clust2sect
  rw [if_neg (not_or.2 ⟨Nat.not_lt.2 range.1, Nat.not_le.2 range.2⟩)]
  exact Nat.mod_eq_of_lt (by omega)

/-- The clusters lie behind the FATs and inside the volume. -/
theorem InCluster.behind (wf : g.Wf) {c n : Nat} (inside : g.links.Inside c)
    (here : g.InCluster c n) : g.fatbase + g.nFats * g.fsize ≤ n ∧ n < g.limit := by
  have last := cluster_le inside
  have data := wf.database
  obtain ⟨first, below⟩ := here
  rw [clust2sect_eq wf inside] at first below
  omega

/-- The sectors of a cluster are the file system's own. -/
theorem InCluster.own (wf : g.Wf) {c n : Nat} (inside : g.links.Inside c)
    (here : g.InCluster c n) : g.Own n := by
  have behind := InCluster.behind wf inside here
  exact ⟨Nat.le_trans (Nat.le_add_right _ _) behind.1, .inr behind.1, behind.2⟩

/-- The sectors of a cluster are in no FAT. -/
theorem InCluster.not_inFat (wf : g.Wf) {c n : Nat} (inside : g.links.Inside c)
    (here : g.InCluster c n) : ¬ g.InFat n := fun fat => by
  have behind := InCluster.behind wf inside here
  have first := copy_lt (k := 0) fat.2 wf.nFats
  omega

/-- No sector is in two clusters. -/
theorem InCluster.unique (wf : g.Wf) {c d n : Nat} (inside : g.links.Inside c)
    (inside' : g.links.Inside d) (here : g.InCluster c n) (there : g.InCluster d n) : c = d := by
  obtain ⟨first, last⟩ := here
  obtain ⟨first', last'⟩ := there
  rw [clust2sect_eq wf inside] at first last
  rw [clust2sect_eq wf inside'] at first' last'
  have range := inside.1
  have range' := inside'.1
  rcases Nat.lt_trichotomy c d with lt | eq | gt
  · have next : (c - 2 + 1) * g.csize ≤ (d - 2) * g.csize := Nat.mul_le_mul_right _ (by omega)
    rw [Nat.add_mul] at next
    omega
  · exact eq
  · have next : (d - 2 + 1) * g.csize ≤ (c - 2) * g.csize := Nat.mul_le_mul_right _ (by omega)
    rw [Nat.add_mul] at next
    omega

/-! ## Files -/

section Holds

variable {fat : Nat → Nat} {sclust : Nat} {cells : List Nat}

/-- The clusters of a file that is not empty are the chain of its first one. -/
theorem Geometry.Holds.chain (holds : g.Holds fat sclust cells) (some : cells ≠ []) :
    IsChain g.links fat sclust cells := by
  rwa [Geometry.Holds, if_neg some] at holds

theorem Geometry.holds_of_chain (chain : IsChain g.links fat sclust cells) (some : cells ≠ []) :
    g.Holds fat sclust cells := by
  rwa [Geometry.Holds, if_neg some]

/-- The clusters of a file are clusters of the volume. -/
theorem Geometry.Holds.inside (holds : g.Holds fat sclust cells) {c : Nat} (member : c ∈ cells) :
    g.links.Inside c :=
  (holds.chain (List.ne_nil_of_mem member)).inside member

/-- The file without clusters is the one without a first cluster. -/
theorem Geometry.Holds.nil_iff (holds : g.Holds fat sclust cells) : cells = [] ↔ sclust = 0 := by
  constructor
  · intro none
    rwa [Geometry.Holds, if_pos none] at holds
  · intro none
    by_contra some
    have positive := List.length_pos_of_ne_nil some
    have range := holds.inside (List.getElem_mem positive)
    rw [(holds.chain some).head positive, none] at range
    exact absurd range.1 (by decide)

/-- The clusters of a file are not free. -/
theorem Geometry.Holds.linked (wf : g.Wf) (holds : g.Holds fat sclust cells) {c : Nat}
    (member : c ∈ cells) : fat c ≠ 0 := by
  have some := wf.clusters
  rcases (holds.chain (List.ne_nil_of_mem member)).linked member with inside | ends
  · exact Nat.ne_of_gt (Nat.lt_of_lt_of_le (by decide) inside.1)
  · exact Nat.ne_of_gt (Nat.lt_of_lt_of_le (Nat.lt_of_lt_of_le (by decide) some) ends)

end Holds

/-- The cluster of a sector of a file. -/
theorem cell_of_sector (wf : g.Wf) {cells : List Nat} {q : Nat}
    (q_lt : q < cells.length * g.csize) :
    ∃ i_lt : q / g.csize < cells.length, cells.getD (q / g.csize) 0 = cells[q / g.csize] := by
  have i_lt := (Nat.div_lt_iff_lt_mul wf.csize_pos).2 q_lt
  exact ⟨i_lt, List.getD_eq_getElem _ _ i_lt⟩

/-- The sectors of a file are in its clusters. -/
theorem sectorAt_inCluster (wf : g.Wf) {cells : List Nat} {q : Nat}
    (q_lt : q < cells.length * g.csize) :
    ∃ c ∈ cells, cells.getD (q / g.csize) 0 = c ∧ g.InCluster c (g.sectorAt cells q) := by
  obtain ⟨i_lt, cell⟩ := cell_of_sector wf q_lt
  refine ⟨cells[q / g.csize], List.getElem_mem i_lt, cell, ?_, ?_⟩
  · rw [Geometry.sectorAt, cell]
    exact Nat.le_add_right _ _
  · rw [Geometry.sectorAt, cell]
    exact Nat.add_lt_add_left (Nat.mod_lt _ wf.csize_pos) _

/-- The sectors of a file are its own. -/
theorem sectorAt_own (wf : g.Wf) (inside : ∀ c ∈ cells, g.links.Inside c) {q : Nat}
    (q_lt : q < cells.length * g.csize) : g.Own (g.sectorAt cells q) := by
  obtain ⟨c, member, -, here⟩ := sectorAt_inCluster wf q_lt
  exact InCluster.own wf (inside c member) here

/-- The sectors of a file are apart. -/
theorem sectorAt_inj (wf : g.Wf) {fat : Nat → Nat} {c : Nat} {cells : List Nat}
    (chain : IsChain g.links fat c cells) {q q' : Nat} (q_lt : q < cells.length * g.csize)
    (q_lt' : q' < cells.length * g.csize) (same : g.sectorAt cells q = g.sectorAt cells q') :
    q = q' := by
  obtain ⟨c, member, cell, here⟩ := sectorAt_inCluster wf q_lt
  obtain ⟨c', member', cell', here'⟩ := sectorAt_inCluster wf q_lt'
  have equal : c = c' := InCluster.unique wf (chain.inside member) (chain.inside member') here
    (same ▸ here')
  obtain ⟨i_lt, getD⟩ := cell_of_sector wf q_lt
  obtain ⟨i_lt', getD'⟩ := cell_of_sector wf q_lt'
  have cells_eq : cells[q / g.csize] = cells[q' / g.csize] := by
    rw [← getD, ← getD', cell, cell', equal]
  have index : q / g.csize = q' / g.csize := congrArg Fin.val
    (List.nodup_iff_injective_getElem.1 chain.nodup
      (show cells[(⟨_, i_lt⟩ : Fin _)] = cells[(⟨_, i_lt'⟩ : Fin _)] from cells_eq))
  unfold Geometry.sectorAt at same
  rw [cell, cell', equal] at same
  rw [← Nat.div_add_mod q g.csize, ← Nat.div_add_mod q' g.csize, index]
  omega

/-- The sector of a byte of a file. -/
theorem sector_lt (wf : g.Wf) {cells : List Nat} {k : Nat} (k_lt : k < g.room cells) :
    k / g.ssize < cells.length * g.csize := (Nat.div_lt_iff_lt_mul wf.ssize_pos).2 k_lt

/-- What a file holds is in the sectors of its clusters. -/
theorem bytes_congr (wf : g.Wf) {s s' : Fatfs} {cells : List Nat}
    (same : ∀ c ∈ cells, ∀ n, g.InCluster c n → s'.view n = s.view n) {k : Nat}
    (k_lt : k < g.room cells) : s'.bytes g cells k = s.bytes g cells k := by
  obtain ⟨c, member, -, here⟩ := sectorAt_inCluster wf (sector_lt wf k_lt)
  rw [Fatfs.bytes, blocked, Fatfs.bytes, blocked, same c member _ here]

/-! ## The file of the small volume -/

/-- The file when it has been opened. -/
def smallFil : Fil where
  opened := true
  id := 1
  read := true
  write := true
  written := false
  error := false
  fptr := 0
  fsize := 3
  sclust := 2
  clust := 0
  dsect := 0
  dirSect := 3
  dirPtr := 0

/-- The chain of the small file. -/
theorem small_chain : IsChain small.links (smallFs.fat small) 2 [2] := by
  have mark : smallFs.fat small 2 = 0xFFF := by decide +kernel
  refine isChain_single ⟨by decide, by decide⟩ ?_
  rw [mark]
  exact (by decide : 10 ≤ 0xFFF)

/-- The small file. -/
theorem small_file : HasFile small smallFs [2] smallFil where
  holds := Geometry.holds_of_chain small_chain (List.cons_ne_nil _ _)
  placed := ⟨fun positive => absurd positive (Nat.lt_irrefl 0), fun inside => absurd rfl inside⟩
  fptr := by decide
  room := by decide
  fsize := by decide

end D2xCios.FatFs
