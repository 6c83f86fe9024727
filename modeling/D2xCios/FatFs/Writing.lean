import D2xCios.FatFs.Seeking
import D2xCios.Lib.BlockFiles

/-!
# Writing a file

`f_write` puts the bytes of a buffer in the file from its pointer on, and takes clusters that are
free as it needs them. It stops early only if there is none. Behind the end of the file a sector is
not read before a part of it is written, so that what the window has held before gets there; it is
not part of the file.
-/

namespace D2xCios.FatFs

open D2xCios.Lib

variable {g : Geometry} {faults : Faults} {t : Transfer} {cells : List Nat} {s s' : Fatfs}

/-! ## What a step of a write does -/

/-- No entry of the FAT is 1. -/
def Fatfs.Proper (g : Geometry) (s : Fatfs) : Prop := ∀ c, g.links.Inside c → s.fat g c ≠ 1

/-- A step that stretches the chain of a file and changes nothing outside the FAT and its
clusters. -/
structure Grew (g : Geometry) (faults : Faults) (cells cells' : List Nat) (s s' : Fatfs) :
    Prop where
  new : ∃ more, cells' = cells ++ more ∧ ∀ c ∈ more, g.links.Inside c ∧ c ∉ cells ∧ s.fat g c = 0
  fat : ∀ c, g.links.Inside c → c ∉ cells' → s'.fat g c = s.fat g c
  changed : Changed g faults (fun n => g.InFat n ∨ ∃ c ∈ cells', g.InCluster c n) s s'
  proper : s.Proper g → s'.Proper g
  counted : s.Counted g → s'.Counted g

/-- A step that puts bytes in a file from `fptr` on. What is behind `limit` is not known. -/
structure Put (g : Geometry) (faults : Faults) (cells : List Nat) (fptr limit : Nat)
    (data : List UInt8) (s s' : Fatfs) : Prop extends
    Changed g faults (fun n => ∃ c ∈ cells, g.InCluster c n) s s' where
  counts : s'.counts = s.counts
  bytes : ∀ k, k < g.room cells → k < limit → s'.bytes g cells k =
    if fptr ≤ k ∧ k < fptr + data.length then data.getD (k - fptr) 0 else s.bytes g cells k

theorem Grew.refl (coherent : s.Coherent g) : Grew g faults cells cells s s :=
  ⟨⟨[], (List.append_nil _).symm, nofun⟩, fun _ _ _ => rfl, .refl coherent, id, id⟩

/-- No cluster is lost. -/
theorem Grew.subset {cells' : List Nat} (grew : Grew g faults cells cells' s s') {c : Nat}
    (member : c ∈ cells) : c ∈ cells' := by
  obtain ⟨more, rfl, -⟩ := grew.new
  exact List.mem_append_left _ member

theorem Grew.trans {cells' cells'' : List Nat} {s'' : Fatfs}
    (first : Grew g faults cells cells' s s')
    (second : Grew g faults cells' cells'' s' s'') : Grew g faults cells cells'' s s'' where
  new := by
    obtain ⟨more, rfl, free⟩ := first.new
    obtain ⟨more', rfl, free'⟩ := second.new
    refine ⟨more ++ more', List.append_assoc .., fun c member => ?_⟩
    rcases List.mem_append.1 member with early | late
    · exact free c early
    · obtain ⟨inside, apart, zero⟩ := free' c late
      exact ⟨inside, fun member' => apart (List.mem_append_left _ member'),
        first.fat c inside apart ▸ zero⟩
  fat c inside apart :=
    (second.fat c inside apart).trans
      (first.fat c inside fun member => apart (second.subset member))
  changed := (first.changed.mono fun _ => Or.imp_right fun ⟨c, member, here⟩ =>
    ⟨c, second.subset member, here⟩).trans second.changed
  proper := second.proper ∘ first.proper
  counted := second.counted ∘ first.counted

/-- A file that is kept has grown by nothing. -/
theorem Kept.grew (wf : g.Wf) (kept : Kept g faults s s') : Grew g faults cells cells s s' where
  new := ⟨[], (List.append_nil _).symm, nofun⟩
  fat c _ _ := congrFun (kept.fat wf) c
  changed := kept.changed
  proper proper c inside := by
    rw [kept.fat wf]
    exact proper c inside
  counted := (kept.counted wf).2

/-- What is put in the clusters of a file is not in the FAT. -/
theorem Put.fat (wf : g.Wf) (inside : ∀ c ∈ cells, g.links.Inside c) {fptr limit : Nat}
    {data : List UInt8} (put : Put g faults cells fptr limit data s s') : s'.fat g = s.fat g := by
  have area := put.toAltered.area wf fun n inFat ⟨c, member, here⟩ =>
    InCluster.not_inFat wf (inside c member) here inFat
  funext c
  rw [Fatfs.fat, area, Fatfs.fat]

/-- A file that was written in its clusters has grown by nothing. -/
theorem Put.grew (wf : g.Wf) (inside : ∀ c ∈ cells, g.links.Inside c) {fptr limit : Nat}
    {data : List UInt8} (put : Put g faults cells fptr limit data s s') :
    Grew g faults cells cells s s' where
  new := ⟨[], (List.append_nil _).symm, nofun⟩
  fat c _ _ := congrFun (put.fat wf inside) c
  changed := put.toChanged.mono fun _ => .inr
  proper proper c member := by
    rw [put.fat wf inside]
    exact proper c member
  counted counted := by
    rw [Fatfs.Counted, put.fat wf inside,
      show s'.freeClust = s.freeClust from congrArg (fun c => c.2.2) put.counts]
    exact counted

/-! ## Storing bytes -/

/-- A part of one sector is stored. -/
theorem Stored.put (wf : g.Wf) {start fptr limit : Nat} {data : List UInt8} {w : Sector}
    (chain : IsChain g.links (s.fat g) start cells) (fptr_lt : fptr < g.room cells)
    (fits : fptr % g.ssize + data.length ≤ g.ssize)
    (old : ∀ k, k / g.ssize = fptr / g.ssize → k < limit → ¬ (fptr ≤ k ∧ k < fptr + data.length) →
      w (k % g.ssize) = s.bytes g cells k)
    (stored : Stored g faults (g.sectorAt cells (fptr / g.ssize))
      (Cells.overlay w (fptr % g.ssize) data) s s') :
    Put g faults cells fptr limit data s s' where
  toChanged := by
    refine stored.toChanged.mono ?_
    rintro n rfl
    obtain ⟨c, member, -, here⟩ := sectorAt_inCluster wf (sector_lt wf fptr_lt)
    exact ⟨c, member, here⟩
  counts := stored.counts
  bytes k k_lt k_lt' := by
    have own := sectorAt_own wf (fun c => chain.inside) (sector_lt wf k_lt)
    have split := Nat.div_add_mod k g.ssize
    have split' := Nat.div_add_mod fptr g.ssize
    by_cases same : k / g.ssize = fptr / g.ssize
    · have here : s'.bytes g cells k = Cells.overlay w (fptr % g.ssize) data (k % g.ssize) := by
        rw [Fatfs.bytes, blocked, same, stored.stored]
      rw [here]
      rw [same] at split
      by_cases inside : fptr ≤ k ∧ k < fptr + data.length
      · have place : k % g.ssize = fptr % g.ssize + (k - fptr) := by omega
        have index : k - fptr < data.length := by omega
        rw [if_pos inside, place, Cells.overlay_inside w _ _ index, List.getD_eq_getElem _ _ index]
      · rw [if_neg inside, Cells.overlay_outside w _ _ (by omega)]
        exact old k same k_lt' inside
    · have apart : g.sectorAt cells (k / g.ssize) ≠ g.sectorAt cells (fptr / g.ssize) :=
        fun equal =>
        same (sectorAt_inj wf chain (sector_lt wf k_lt) (sector_lt wf fptr_lt) equal)
      have other : ¬ (fptr ≤ k ∧ k < fptr + data.length) := fun inside => same (by
        have place : (fptr + (k - fptr)) / g.ssize = fptr / g.ssize ∧
            (fptr + (k - fptr)) % g.ssize = fptr % g.ssize + (k - fptr) := within_block (by omega)
        rw [show fptr + (k - fptr) = k by omega] at place
        exact place.1)
      rw [if_neg other]
      exact congrFun (stored.view _ own apart) _

/-- A part of a sector at the end of a file is stored without having been read. -/
theorem stored_edge (coherent : s.Coherent g) (clean : s.wflag = false) (wf : g.Wf) {sector : Nat}
    (own : g.Own sector) (w : Sector) :
    Stored g faults sector w s { s with winsect := sector, win := w, wflag := true } where
  view n _ other := (if_neg fun here => other here.1).trans (view_clean coherent clean n).symm
  coherent := ⟨own.lt wf, nofun, fun _ => own⟩
  mirrored _ mirrored n first last _ := mirrored n first last fun dirty =>
    absurd (clean.symm.trans dirty) Bool.false_ne_true
  foreign _ _ := rfl
  reserved _ _ := rfl
  counts := rfl
  stored := if_pos ⟨rfl, own.ne_zero wf⟩

/-- Whole sectors are written past the window, which is brought up to date. -/
theorem directWrite (wf : g.Wf) (coherent : s.Coherent g) {sect cc : Nat}
    (behind : g.fatbase + g.nFats * g.fsize ≤ sect) (within : sect + cc ≤ g.limit)
    (data : Nat → Sector) (ops : Nat) {s' : Fatfs}
    (state : s' = if (s.winsect + 4294967296 - sect) % 4294967296 < cc then
        { s with
          disk := ⟨written s.disk.sectors sect cc data, ops⟩
          win := data ((s.winsect + 4294967296 - sect) % 4294967296), wflag := false }
      else { s with disk := ⟨written s.disk.sectors sect cc data, ops⟩ }) :
    Changed g faults (fun n => sect ≤ n ∧ n < sect + cc) s s' ∧ s'.counts = s.counts ∧
      ∀ i, i < cc → s'.view (sect + i) = data i := by
  have first := wf.fatbase
  have winsect := coherent.winsect
  have sect_le := Nat.le_trans within wf.sectors
  have inside : ∀ i, i < cc → written s.disk.sectors sect cc data (sect + i) = data i := by
    intro i i_lt
    rw [written, if_pos ⟨by omega, by omega⟩, Nat.add_sub_cancel_left]
  have outside : ∀ n, ¬ (sect ≤ n ∧ n < sect + cc) →
      written s.disk.sectors sect cc data n = s.disk.sectors n := fun n apart => if_neg apart
  have beside : ∀ n, g.Beside n → written s.disk.sectors sect cc data n = s.disk.sectors n := by
    rintro n (before | after)
    · exact outside n (by omega)
    · exact outside n (by omega)
  -- the sectors of the FAT and their copies are before those that are written
  have mirrored : ∀ n k, g.fatbase ≤ n → n < g.fatbase + g.fsize → k < g.nFats →
      written s.disk.sectors sect cc data (n + k * g.fsize) = s.disk.sectors (n + k * g.fsize) ∧
      written s.disk.sectors sect cc data n = s.disk.sectors n := by
    intro n k _ last k_lt
    have copy := copy_lt last k_lt
    exact ⟨outside _ (by omega), outside _ (by omega)⟩
  by_cases here : (s.winsect + 4294967296 - sect) % 4294967296 < cc
  · rw [if_pos here] at state
    generalize place : (s.winsect + 4294967296 - sect) % 4294967296 = p at here state
    have winsect_eq : s.winsect = sect + p := (place_eq_iff winsect here sect_le).1 place
    subst state
    refine ⟨⟨⟨fun n own apart => ?_, ⟨winsect, fun _ _ => ?_, fun dirty => by cases dirty⟩,
      fun _ before n first last _ k k_lt => ?_, fun n foreign => beside n foreign.beside⟩,
      fun n before => beside n (.inl before)⟩, rfl, fun i i_lt => ?_⟩
    · have other : n ≠ s.winsect := by omega
      rw [view_other (s := s) other]
      exact (if_neg fun same => other same.1).trans (outside n apart)
    · exact winsect_eq ▸ (inside p here).symm
    · have same := mirrored n k first last k_lt
      have copy := copy_lt last k_lt
      exact same.1.trans ((before n first last (fun _ => by omega) k k_lt).trans same.2.symm)
    · unfold Fatfs.view
      split
      case isTrue same =>
        have equal : sect + i = s.winsect := same.1
        exact congrArg data (by omega)
      case isFalse => exact inside i i_lt
  · rw [if_neg here] at state
    have apart : ∀ i, i < cc → s.winsect ≠ sect + i := fun i i_lt equal =>
      here (by rw [(place_eq_iff winsect i_lt sect_le).2 equal]; exact i_lt)
    have window : ¬ (sect ≤ s.winsect ∧ s.winsect < sect + cc) := fun inside =>
      apart (s.winsect - sect) (by omega) (by omega)
    subst state
    refine ⟨⟨⟨fun n own other => ?_, ⟨winsect, fun clean some => ?_, coherent.dirty⟩,
      fun _ before n first last rest k k_lt => ?_, fun n foreign => beside n foreign.beside⟩,
      fun n before => beside n (.inl before)⟩, rfl, fun i i_lt => ?_⟩
    · unfold Fatfs.view
      split
      case isTrue => rfl
      case isFalse => exact outside n other
    · exact (coherent.clean clean some).trans (outside _ window).symm
    · have same := mirrored n k first last k_lt
      exact same.1.trans ((before n first last rest k k_lt).trans same.2.symm)
    · exact (if_neg fun same => apart i i_lt same.1.symm).trans (inside i i_lt)

section Clean

/-! No operation of the disk fails. -/

variable (clean : ¬ faults.Any)
include clean

/-- Whole sectors are written. -/
theorem writeSectors_spec (wf : g.Wf) (coherent : t.fs.Coherent g) {start q cc : Nat}
    (chain : IsChain g.links (t.fs.fat g) start cells) (q_lt : q < cells.length * g.csize)
    (fits : q % g.csize + cc ≤ g.csize) {wbuff : List UInt8} (enough : cc * g.ssize ≤ wbuff.length)
    (limit : Nat) :
    After (writeSectors g faults wbuff (g.sectorAt cells q) cc) (fun n t' => n = g.ssize * cc ∧
      ∃ fs, t' = { t with fs := fs } ∧
        Put g faults cells (q * g.ssize) limit (wbuff.take (cc * g.ssize)) t.fs fs)
      (fun _ _ => False) t := by
  have inside : ∀ c ∈ cells, g.links.Inside c := fun c => chain.inside
  have sect_le := sectorAt_le wf inside q_lt fits
  obtain ⟨c, member, -, here⟩ := sectorAt_inCluster wf q_lt
  have behind := InCluster.behind wf (inside c member) here
  have put : ∀ fs, Changed g faults
      (fun n => g.sectorAt cells q ≤ n ∧ n < g.sectorAt cells q + cc) t.fs fs ∧
      fs.counts = t.fs.counts ∧
      (∀ i, i < cc → fs.view (g.sectorAt cells q + i) = sectorsOf g wbuff i) →
      Put g faults cells (q * g.ssize) limit (wbuff.take (cc * g.ssize)) t.fs fs := by
    rintro fs ⟨changed, counts, data⟩
    refine ⟨changed.mono fun n range => ⟨c, member, ?_⟩, counts, fun k k_lt _ => ?_⟩
    · obtain ⟨first, last⟩ := here
      have base : g.sectorAt cells q = clust2sect g c + q % g.csize := by
        obtain ⟨c', member', cell, here'⟩ := sectorAt_inCluster wf q_lt
        rw [Geometry.sectorAt, cell, InCluster.unique wf (inside c member) (inside c' member')
          ⟨first, last⟩ here']
      exact ⟨Nat.le_trans first range.1, by omega⟩
    · have own := sectorAt_own wf inside (sector_lt wf k_lt)
      have split := Nat.div_add_mod k g.ssize
      have rest := Nat.mod_lt k wf.ssize_pos
      have length : (wbuff.take (cc * g.ssize)).length = cc * g.ssize :=
        List.length_take_of_le enough
      rw [length, ← Nat.add_mul]
      by_cases range : q ≤ k / g.ssize ∧ k / g.ssize < q + cc
      · obtain ⟨i, place⟩ := Nat.exists_eq_add_of_le range.1
        have i_lt : i < cc := by omega
        have lower : q * g.ssize ≤ k := (Nat.le_div_iff_mul_le wf.ssize_pos).1 range.1
        have upper : k < (q + cc) * g.ssize := (Nat.div_lt_iff_lt_mul wf.ssize_pos).1 range.2
        have offset : k - q * g.ssize = i * g.ssize + k % g.ssize := by
          rw [place, Nat.mul_comm, Nat.add_mul] at split
          omega
        have index : k - q * g.ssize < cc * g.ssize := by
          rw [Nat.add_mul] at upper
          omega
        rw [if_pos ⟨lower, upper⟩, Fatfs.bytes, blocked, place, sectorAt_add (by omega),
          data i i_lt,
          sectorsOf, ← offset]
        rw [List.getD_eq_getElem _ _ (Nat.lt_of_lt_of_le index enough),
          List.getD_eq_getElem _ _ (by rw [length]; exact index), List.getElem_take]
      · rw [if_neg fun both => range ⟨(Nat.le_div_iff_mul_le wf.ssize_pos).2 both.1,
          (Nat.div_lt_iff_lt_mul wf.ssize_pos).2 both.2⟩]
        refine congrFun (changed.view _ own fun there => range ?_) _
        obtain ⟨i, place⟩ := Nat.exists_eq_add_of_le there.1
        have i_lt : i < cc := by omega
        have fits' : q % g.csize + i < g.csize := by omega
        rw [← sectorAt_add fits'] at place
        have equal := sectorAt_inj wf chain (sector_lt wf k_lt) (sector_add_lt wf q_lt fits') place
        omega
  unfold writeSectors
  rw [after_bind, after_onFs]
  refine (diskWrite_spec _ _ _).mono (fun r fs => ?_) fun _ _ => id
  rintro ⟨⟨left, ops, rfl, success⟩, failure⟩
  cases r with
  | false => exact absurd (failure rfl) clean
  | true =>
    obtain rfl := success rfl
    rw [if_neg (by simp), after_bind, after_get]
    dsimp only
    split
    case isTrue near =>
      rw [after_bind, after_modify]
      exact ⟨rfl, _, rfl, put _ (directWrite wf coherent behind.1 sect_le _ ops (if_pos near).symm)⟩
    case isFalse far =>
      exact ⟨rfl, _, rfl, put _ (directWrite wf coherent behind.1 sect_le _ ops (if_neg far).symm)⟩

omit clean in
/-- A part of a sector ends with the sector or with the data. -/
theorem writePart_count (fptr : Nat) (wbuff : List UInt8) :
    (if g.ssize - fptr % g.ssize > wbuff.length then wbuff.length else g.ssize - fptr % g.ssize) =
      min wbuff.length (g.ssize - fptr % g.ssize) := by
  split <;> omega

/-- A part of a sector is written in the window. -/
theorem writePart_spec (wf : g.Wf) (coherent : t.fs.Coherent g) {start fptr : Nat}
    (chain : IsChain g.links (t.fs.fat g) start cells) (fptr_eq : t.fp.fptr = fptr)
    (fptr_lt : fptr < g.room cells) (dsect : t.fp.dsect = g.sectorAt cells (fptr / g.ssize))
    (limit : Nat) (wbuff : List UInt8) :
    After (writePart g faults wbuff) (fun n t' => n = min wbuff.length (g.ssize - fptr % g.ssize) ∧
      ∃ fs, t' = { t with fs := fs } ∧ Put g faults cells fptr limit (wbuff.take n) t.fs fs)
      (fun _ _ => False) t := by
  subst fptr_eq
  have rest := Nat.mod_lt t.fp.fptr wf.ssize_pos
  have own := sectorAt_own wf (fun c => chain.inside) (sector_lt wf fptr_lt)
  unfold writePart
  rw [after_bind, after_get]
  simp only [writePart_count]
  rw [after_bind, after_tryCatch, after_onFs, dsect]
  refine (moveWindow_loads wf coherent own).mono (fun _ fs => ?_) fun e _ broken => ?_
  · rintro ⟨kept, place, win⟩
    rw [after_bind, after_modify]
    have stored : Stored g faults _ _ fs _ := stored_window wf place own
      (Cells.overlay fs.win (t.fp.fptr % g.ssize)
        (wbuff.take (min wbuff.length (g.ssize - t.fp.fptr % g.ssize))))
    have stored' : Stored g faults (g.sectorAt cells (t.fp.fptr / g.ssize)) _ t.fs _ :=
      ⟨kept.changed.trans stored.toChanged, stored.counts.trans kept.counts, stored.stored⟩
    refine ⟨rfl, _, rfl, stored'.put wf chain fptr_lt ?_ fun k same _ _ => ?_⟩
    · rw [List.length_take]
      omega
    · rw [win, Fatfs.bytes, blocked, same]
  · exact absurd broken.2 clean

omit clean in
/-- A part of a sector at the end of a file is written in the window, which has been moved there. -/
theorem writePart_edge (wf : g.Wf) (coherent : s.Coherent g) (unchanged : s.wflag = false)
    {start fptr limit : Nat} (chain : IsChain g.links (s.fat g) start cells)
    (fptr_eq : t.fp.fptr = fptr) (fptr_lt : fptr < g.room cells) (boundary : fptr % g.ssize = 0)
    (dsect : t.fp.dsect = g.sectorAt cells (fptr / g.ssize))
    (window : t.fs = { s with winsect := g.sectorAt cells (fptr / g.ssize) }) {wbuff : List UInt8}
    (behind : limit ≤ fptr + min wbuff.length g.ssize) :
    After (writePart g faults wbuff) (fun n t' => n = min wbuff.length (g.ssize - fptr % g.ssize) ∧
      ∃ fs, t' = { t with fs := fs } ∧ Put g faults cells fptr limit (wbuff.take n) s fs)
      (fun _ _ => False) t := by
  subst fptr_eq
  have own := sectorAt_own wf (fun c => chain.inside) (sector_lt wf fptr_lt)
  unfold writePart
  rw [after_bind, after_get]
  simp only [writePart_count]
  rw [after_bind, after_tryCatch, after_onFs, moveWindow_here (by rw [window, dsect]), after_bind,
    after_modify]
  refine ⟨rfl, _, rfl, ?_⟩
  rw [window]
  refine (stored_edge coherent unchanged wf own _).put wf chain fptr_lt ?_
    fun k same k_lt other => ?_
  · rw [List.length_take, boundary]
    omega
  · -- what is behind the bytes in their sector is behind the limit
    rw [List.length_take, boundary] at other
    have split := Nat.div_add_mod k g.ssize
    have split' := Nat.div_add_mod t.fp.fptr g.ssize
    rw [same] at split
    omega

/-! ## The cluster of the pointer -/

omit clean in
/-- The clusters of a file with another one behind them. -/
theorem Grown.grew {clst ncl : Nat} (apart : ncl ∉ cells) (last : clst ≠ 0 → clst ∈ cells)
    (grown : Grown g faults clst ncl s s') : Grew g faults cells (cells ++ [ncl]) s s' where
  new := ⟨[ncl], rfl, fun c member => by
    rw [List.mem_singleton.1 member]
    exact ⟨grown.inside, apart, grown.free⟩⟩
  fat c inside outside := by
    rw [List.mem_append, not_or, List.mem_singleton] at outside
    have range := inside
    have some : c ≠ 0 := Nat.ne_of_gt (Nat.lt_of_lt_of_le (by decide) range.1)
    exact grown.others c outside.2 fun same => outside.1 (same ▸ last (same ▸ some))
  changed := grown.toChanged.mono fun _ => .inl
  proper proper c inside := by
    have new := grown.inside
    have range := inside
    have two_le : 2 ≤ ncl := new.1
    have two_le' : 2 ≤ c := range.1
    by_cases same : c = ncl
    · have mark : g.nFatent ≤ s'.fat g ncl := grown.last
      have below : ncl < g.nFatent := new.2
      rw [same]
      omega
    · by_cases linked : c = clst
      · rw [linked, grown.linked (by omega)]
        omega
      · rw [grown.others c same linked]
        exact proper c inside
  counted := grown.counted

omit clean in
/-- The first cluster of a file. -/
theorem Grown.single {ncl : Nat} (grown : Grown g faults 0 ncl s s') :
    g.Holds (s'.fat g) ncl [ncl] :=
  Geometry.holds_of_chain (isChain_single grown.inside grown.last) (List.cons_ne_nil _ _)

omit clean in
/-- Another cluster behind the last one of a file. -/
theorem Grown.holds {ncl sclust last : Nat} {before : List Nat}
    (chain : IsChain g.links (s.fat g) sclust (before ++ [last])) (apart : ncl ∉ before)
    (grown : Grown g faults last ncl s s') :
    IsChain g.links (s'.fat g) sclust (before ++ [last] ++ [ncl]) := by
  have inside := chain.inside (List.mem_append_right before List.mem_cons_self)
  have some : last ≠ 0 := Nat.ne_of_gt (Nat.lt_of_lt_of_le (by decide) inside.1)
  refine chain.stretch grown.inside (fun d member => ?_) (grown.linked some) grown.last
  refine grown.others d (fun same => apart (same ▸ member)) fun same => ?_
  exact (List.nodup_append.1 chain.nodup).2.2 d member last List.mem_cons_self same

omit clean in
/-- The clusters that are there already hold what they have held. -/
theorem bytes_append (wf : g.Wf) (more : List Nat) {k : Nat} (k_lt : k < g.room cells) :
    s.bytes g (cells ++ more) k = s.bytes g cells k := by
  obtain ⟨i_lt, -⟩ := cell_of_sector wf (sector_lt wf k_lt)
  have cell : (cells ++ more).getD (k / g.ssize / g.csize) 0 =
      cells.getD (k / g.ssize / g.csize) 0 := List.getD_append _ _ _ _ i_lt
  rw [Fatfs.bytes, blocked, Geometry.sectorAt, cell]
  rfl

omit clean in
theorem room_append (more : List Nat) : g.room cells ≤ g.room (cells ++ more) := by
  unfold Geometry.room
  rw [List.length_append, Nat.add_mul, Nat.add_mul]
  exact Nat.le_add_right _ _

omit clean in
theorem room_snoc (c : Nat) : g.room (cells ++ [c]) = g.room cells + g.csize * g.ssize := by
  unfold Geometry.room
  rw [List.length_append, List.length_singleton, Nat.add_mul, Nat.add_mul, Nat.one_mul]

omit clean in
/-- Where the clusters end. -/
theorem room_of_boundary {fptr : Nat} (boundary : fptr % g.ssize = 0)
    (first : fptr / g.ssize % g.csize = 0) (behind : fptr / g.ssize / g.csize = cells.length) :
    fptr = g.room cells := by
  rw [Geometry.room, ← behind, Nat.div_mul_cancel (Nat.dvd_of_mod_eq_zero first),
    Nat.div_mul_cancel (Nat.dvd_of_mod_eq_zero boundary)]

/-- A file that is being written: its pointer may be behind its end. -/
structure Lies (g : Geometry) (s : Fatfs) (cells : List Nat) (fp : Fil) : Prop where
  holds : g.Holds (s.fat g) fp.sclust cells
  placed : g.Placed cells fp.fptr fp.clust fp.dsect
  fptr : fp.fptr ≤ g.room cells
  room : fp.fsize ≤ g.room cells

/-- Clusters are taken one at a time, and none before there are bytes for it. -/
def Geometry.Tight (g : Geometry) (cells cells' : List Nat) (fptr : Nat) : Prop :=
  cells' = cells ∨ g.room cells' < fptr + g.csize * g.ssize

omit clean in
theorem Geometry.Tight.mono {cells' : List Nat} {n m : Nat} (tight : g.Tight cells cells' n)
    (le : n ≤ m) : g.Tight cells cells' m :=
  tight.imp_right fun small => Nat.lt_of_lt_of_le small (Nat.add_le_add_right le _)

/-- No cluster is free, and the pointer is behind the ones that the file has. -/
def Full (g : Geometry) (fat : Nat → Nat) (cells : List Nat) (fptr : Nat) : Prop :=
  g.free fat = ∅ ∧ fptr = g.room cells

/-- There is a cluster for the pointer, or none is free. -/
def TookCluster (g : Geometry) (faults : Faults) (cells : List Nat) (t : Transfer) (r : Bool)
    (t' : Transfer) : Prop :=
  (r = true ∧ ∃ fs cells' sclust, Grew g faults cells cells' t.fs fs ∧
    g.Tight cells cells' (t.fp.fptr + 1) ∧
    Changed g faults g.InFat t.fs fs ∧ g.Holds (fs.fat g) sclust cells' ∧
    t.fp.fptr < g.room cells' ∧ t' = { t with
      fs := fs, fp := { t.fp with sclust := sclust, clust := g.cellOf cells' t.fp.fptr } }) ∨
  (r = false ∧ ∃ fs, Kept g faults t.fs fs ∧ Full g (t.fs.fat g) cells t.fp.fptr ∧
    t' = { t with fs := fs })

omit clean in
/-- What `f_write` does with the number of the cluster. -/
theorem writeCluster_finish (wf : g.Wf) {cells' : List Nat} {clst sclust : Nat} {fs : Fatfs}
    (grew : Grew g faults cells cells' t.fs fs) (tight : g.Tight cells cells' (t.fp.fptr + 1))
    (changed : Changed g faults g.InFat t.fs fs) (holds : g.Holds (fs.fat g) sclust cells')
    (fptr_lt : t.fp.fptr < g.room cells') (clst_eq : clst = g.cellOf cells' t.fp.fptr) :
    After (do
      if clst = 0 then return false
      else if clst = 1 then abort .intErr
      else if clst = 0xFFFFFFFF then abort .diskErr
      else
        modifyFp fun fp => { fp with clust := clst }
        return true) (TookCluster g faults cells t) (fun _ _ => False)
      { t with fs := fs, fp := { t.fp with sclust := sclust } } := by
  have range := holds.inside (cellOf_mem wf fptr_lt)
  rw [← clst_eq] at range
  have limit := wf.nFatent_lt
  have two_le : 2 ≤ clst := range.1
  have below : clst < g.nFatent := range.2
  rw [if_neg (by omega), if_neg (by omega), if_neg (by omega), after_bind, after_modifyFp]
  exact .inl ⟨rfl, fs, cells', sclust, grew, tight, changed, holds, fptr_lt, by rw [clst_eq]⟩

/-- `create_chain` follows the chain of the file or stretches it. -/
theorem writeCluster_spec (wf : g.Wf) (coherent : t.fs.Coherent g) (proper : t.fs.Proper g)
    (lies : Lies g t.fs cells t.fp) (boundary : t.fp.fptr % g.ssize = 0)
    (first : t.fp.fptr / g.ssize % g.csize = 0) :
    After (writeCluster g faults) (TookCluster g faults cells t) (fun _ _ => False) t := by
  have inRoom : ∀ cells' : List Nat, t.fp.fptr / g.ssize / g.csize < cells'.length →
      t.fp.fptr < g.room cells' := fun cells' i_lt =>
    (Nat.div_lt_iff_lt_mul wf.ssize_pos).1 ((Nat.div_lt_iff_lt_mul wf.csize_pos).1 i_lt)
  unfold writeCluster
  rw [after_bind, after_get]
  dsimp only
  split
  case isTrue top =>
    have index : ∀ cells' : List Nat, g.cellOf cells' t.fp.fptr = cells'.getD 0 0 :=
      fun cells' => by
      rw [Geometry.cellOf, top, Nat.zero_div, Nat.zero_div]
    split
    case isTrue none =>
      -- the file has no cluster yet
      have empty := lies.holds.nil_iff.2 none
      subst empty
      have ended : t.fp.fptr = g.room [] := room_of_boundary boundary first (by
        rw [top, Nat.zero_div, Nat.zero_div]
        rfl)
      rw [after_bind, after_onFs]
      refine (createChain_grows clean wf coherent wf.clusters proper
        (fun some => absurd rfl some)).mono
        (fun clst fs => ?_) fun _ _ => id
      rw [after_bind, after_modifyFp, after_bind, after_pure]
      rintro (grown | ⟨rfl, kept, full⟩)
      · refine writeCluster_finish wf (grown.grew List.not_mem_nil fun some => absurd rfl some)
          (.inr ?_) grown.toChanged grown.single (inRoom _ ?_) (index [clst]).symm
        · rw [room_snoc, ← ended]
          omega
        · rw [top, Nat.zero_div, Nat.zero_div]
          exact Nat.one_pos
      · have same : ({ t.fp with sclust := 0 } : Fil) = t.fp := by rw [← none]
        exact .inr ⟨rfl, fs, kept, ⟨full, ended⟩, by rw [same]⟩
    case isFalse some =>
      have nonempty : cells ≠ [] := fun empty => some (lies.holds.nil_iff.1 empty)
      have holds := lies.holds.chain nonempty
      have positive := List.length_pos_of_ne_nil nonempty
      refine writeCluster_finish wf (.refl coherent) (.inl rfl) (.refl coherent) lies.holds
        (inRoom _ ?_) ?_
      · rw [top, Nat.zero_div, Nat.zero_div]
        exact positive
      · rw [index, List.getD_eq_getElem _ _ positive, holds.head positive]
  case isFalse middle =>
    obtain ⟨i, next, clust⟩ := lies.placed.before wf (Nat.pos_of_ne_zero middle) boundary first
    have i_lt : i < cells.length := by
      have sectors := Nat.div_le_div_right (c := g.ssize) lies.fptr
      rw [Geometry.room, Nat.mul_div_cancel _ wf.ssize_pos] at sectors
      have clusters := Nat.div_le_div_right (c := g.csize) sectors
      rw [Nat.mul_div_cancel _ wf.csize_pos, ← next] at clusters
      exact clusters
    have nonempty := List.ne_nil_of_length_pos (Nat.lt_of_le_of_lt (Nat.zero_le i) i_lt)
    have holds := lies.holds.chain nonempty
    rw [List.getD_eq_getElem _ _ i_lt] at clust
    have inside := holds.inside (List.getElem_mem i_lt)
    rw [after_bind, after_onFs, clust]
    by_cases last : i + 1 = cells.length
    · -- the chain ends here, and a cluster that is free is put behind it
      have split : cells = cells.dropLast ++ [cells[i]] := by
        have whole := List.dropLast_append_getLast nonempty
        rw [List.getLast_eq_getElem] at whole
        simp only [← last, Nat.add_sub_cancel] at whole
        exact whole.symm
      refine (createChain_grows clean wf coherent wf.clusters proper
        fun _ => ⟨inside, holds.next_last last⟩).mono (fun clst fs => ?_) fun _ _ => id
      have ended := room_of_boundary boundary first (next.symm.trans last)
      rintro (grown | ⟨rfl, kept, full⟩)
      · have apart : clst ∉ cells := fun member => lies.holds.linked wf member grown.free
        have holds' : g.Holds (fs.fat g) t.fp.sclust (cells ++ [clst]) := by
          refine Geometry.holds_of_chain ?_ (by simp)
          rw [split] at holds apart ⊢
          exact grown.holds holds fun member => apart (List.mem_append_left _ member)
        refine writeCluster_finish wf (grown.grew apart fun _ => List.getElem_mem i_lt) (.inr ?_)
          grown.toChanged holds' (inRoom _ ?_) ?_
        · rw [room_snoc, ← ended]
          omega
        · rw [← next, last, List.length_append]
          exact Nat.lt_succ_self _
        · rw [Geometry.cellOf, ← next, last, List.getD_append_right _ _ _ _ (Nat.le_refl _),
            Nat.sub_self]
          rfl
      · exact .inr ⟨rfl, fs, kept, ⟨full, ended⟩, rfl⟩
    · have next_lt : i + 1 < cells.length := by omega
      have link := holds.next_eq next_lt
      refine (createChain_follows clean wf coherent inside
        (by rw [link]; exact holds.inside (List.getElem_mem next_lt))).mono (fun clst fs => ?_)
        fun _ _ => id
      rintro ⟨rfl, kept⟩
      refine writeCluster_finish wf (kept.grew wf) (.inl rfl) kept.changed
        (by rw [kept.fat wf]; exact lies.holds) (inRoom _ (next ▸ next_lt)) ?_
      rw [link, Geometry.cellOf, ← next, List.getD_eq_getElem _ _ next_lt]

/-! ## A round of the loop -/

/-- Some bytes have been written from the pointer on. -/
structure Wrote (g : Geometry) (faults : Faults) (cells cells' : List Nat) (t : Transfer)
    (data : List UInt8) (fs : Fatfs) (sclust clust dsect : Nat) : Prop where
  grew : Grew g faults cells cells' t.fs fs
  tight : g.Tight cells cells' (t.fp.fptr + data.length)
  holds : g.Holds (fs.fat g) sclust cells'
  room : t.fp.fptr + data.length ≤ g.room cells'
  placed : g.Placed cells' (t.fp.fptr + data.length) clust dsect
  bytes : ∀ k, k < max t.fp.fsize (t.fp.fptr + data.length) → fs.bytes g cells' k =
    if t.fp.fptr ≤ k ∧ k < t.fp.fptr + data.length then data.getD (k - t.fp.fptr) 0
    else t.fs.bytes g cells k

/-- What one round of the loop of `f_write` does. -/
def WroteOne (g : Geometry) (faults : Faults) (cells : List Nat) (t : Transfer) (wbuff : List UInt8)
    (r : Option Nat) (t' : Transfer) : Prop :=
  (∃ n cells' fs sclust clust dsect, r = some n ∧ 0 < n ∧ n ≤ wbuff.length ∧
    Wrote g faults cells cells' t (wbuff.take n) fs sclust clust dsect ∧
    t' = { t with
      fs := fs, fp := { t.fp with sclust := sclust, clust := clust, dsect := dsect } }) ∨
  (r = none ∧ ∃ fs, Kept g faults t.fs fs ∧ Full g (t.fs.fat g) cells t.fp.fptr ∧
    t' = { t with fs := fs })

/-- The file has a cluster for the pointer, and still the bytes that it has had. -/
structure Reached (g : Geometry) (faults : Faults) (cells cells' : List Nat) (t : Transfer)
    (fs : Fatfs) (sclust : Nat) : Prop where
  grew : Grew g faults cells cells' t.fs fs
  tight : g.Tight cells cells' (t.fp.fptr + 1)
  same : ∀ k, k < g.room cells → fs.bytes g cells' k = t.fs.bytes g cells k
  holds : g.Holds (fs.fat g) sclust cells'
  fptr_lt : t.fp.fptr < g.room cells'

section Reached

variable {cells' : List Nat} {fs : Fatfs} {sclust : Nat}

omit clean in
/-- The pointer is in a cluster that the file has already. -/
theorem Reached.start (coherent : t.fs.Coherent g) (lies : Lies g t.fs cells t.fp)
    (fptr_lt : t.fp.fptr < g.room cells) :
    Reached g faults cells cells t t.fs t.fp.sclust where
  grew := .refl coherent
  tight := .inl rfl
  same _ _ := rfl
  holds := lies.holds
  fptr_lt := fptr_lt

omit clean in
theorem Reached.chain (wf : g.Wf) (reached : Reached g faults cells cells' t fs sclust) :
    IsChain g.links (fs.fat g) sclust cells' :=
  reached.holds.chain (List.ne_nil_of_mem (cellOf_mem wf reached.fptr_lt))

omit clean in
/-- A move of the window changes nothing of it. -/
theorem Reached.kept (wf : g.Wf) (reached : Reached g faults cells cells' t fs sclust)
    {fs' : Fatfs} (kept : Kept g faults fs fs') :
    Reached g faults cells cells' t fs' sclust where
  grew := reached.grew.trans (kept.grew wf)
  tight := reached.tight
  same k k_lt := by
    obtain ⟨more, cells_eq, -⟩ := reached.grew.new
    have rooms : g.room cells ≤ g.room cells' := cells_eq ▸ room_append more
    rw [← reached.same k k_lt]
    exact bytes_congr wf
      (fun c member n here => kept.same (InCluster.own wf (reached.holds.inside member) here))
      (Nat.lt_of_lt_of_le k_lt rooms)
  holds := by
    rw [kept.fat wf]
    exact reached.holds
  fptr_lt := reached.fptr_lt

omit clean in
/-- The bytes get into the file that has a cluster for them. -/
theorem Put.wrote (wf : g.Wf) (lies : Lies g t.fs cells t.fp)
    (reached : Reached g faults cells cells' t fs sclust) {data : List UInt8}
    (more : 0 < data.length) {fs' : Fatfs} {clust dsect : Nat}
    (room : t.fp.fptr + data.length ≤ g.room cells')
    (placed : g.Placed cells' (t.fp.fptr + data.length) clust dsect)
    (put : Put g faults cells' t.fp.fptr (max t.fp.fsize (t.fp.fptr + data.length)) data fs fs') :
    Wrote g faults cells cells' t data fs' sclust clust dsect where
  grew := reached.grew.trans (put.grew wf fun c => reached.holds.inside)
  tight := reached.tight.mono (Nat.add_le_add_left more _)
  holds := by
    rw [put.fat wf fun c => reached.holds.inside]
    exact reached.holds
  room := room
  placed := placed
  bytes k k_lt := by
    have fsize_le := lies.room
    have fptr_le := lies.fptr
    obtain ⟨new, cells_eq, -⟩ := reached.grew.new
    have rooms : g.room cells ≤ g.room cells' := cells_eq ▸ room_append new
    rw [put.bytes k (by omega) k_lt]
    split
    case isTrue => rfl
    case isFalse outside => exact reached.same k (by omega)

/-- Whole sectors go to the drive at once. -/
theorem writeWhole_spec (wf : g.Wf) (lies : Lies g t.fs cells t.fp)
    (boundary : t.fp.fptr % g.ssize = 0) {wbuff : List UInt8}
    (reached : Reached g faults cells cells' t fs sclust) (coherent : fs.Coherent g)
    (whole : wbuff.length / g.ssize ≠ 0) :
    After (do
      return some (← writeSectors g faults wbuff (g.sectorAt cells' (t.fp.fptr / g.ssize))
        (clipped g (csectOf g t.fp.fptr) (wbuff.length / g.ssize))))
      (WroteOne g faults cells t wbuff) (fun _ _ => False)
      { t with
        fs := fs, fp := { t.fp with sclust := sclust, clust := g.cellOf cells' t.fp.fptr } } := by
  have ssize_pos := wf.ssize_pos
  have fptr_eq : t.fp.fptr / g.ssize * g.ssize = t.fp.fptr :=
    Nat.div_mul_cancel (Nat.dvd_of_mod_eq_zero boundary)
  have q_lt := sector_lt wf reached.fptr_lt
  obtain ⟨fits, count_pos, enough⟩ := clipped_spec wf t.fp.fptr whole
  generalize clipped g (csectOf g t.fp.fptr) (wbuff.length / g.ssize) = count at *
  have bytes_pos : 0 < count * g.ssize := Nat.mul_pos count_pos ssize_pos
  have length : (wbuff.take (count * g.ssize)).length = count * g.ssize :=
    List.length_take_of_le enough
  have last := last_of_sectors ssize_pos count_pos fits
  rw [after_bind]
  refine (writeSectors_spec clean wf coherent (reached.chain wf) q_lt fits enough
    (max t.fp.fsize (t.fp.fptr + (wbuff.take (count * g.ssize)).length))).mono
    (fun n t' => ?_) fun _ _ => id
  rintro ⟨rfl, fs', rfl, put⟩
  rw [fptr_eq] at put last
  have placed : g.Placed cells' (t.fp.fptr + count * g.ssize) (g.cellOf cells' t.fp.fptr)
      t.fp.dsect := .next bytes_pos last fun next =>
    absurd (by rw [Nat.add_mul_mod_self_right, boundary]) next
  have room : t.fp.fptr + count * g.ssize ≤ g.room cells' := by
    have behind := sector_add_lt (i := count - 1) wf q_lt (by omega)
    have sectors : t.fp.fptr / g.ssize + count ≤ cells'.length * g.csize := by omega
    have bytes := Nat.mul_le_mul_right g.ssize sectors
    rw [Nat.add_mul, fptr_eq] at bytes
    exact bytes
  rw [Nat.mul_comm g.ssize]
  exact .inl ⟨count * g.ssize, cells', fs', sclust, _, t.fp.dsect, rfl, bytes_pos, enough,
    put.wrote wf lies reached (length.symm ▸ bytes_pos) (by rw [length]; exact room)
      (by rw [length]; exact placed), rfl⟩

omit clean in
/-- Less than a sector is in the window, whose sector is the one of the pointer. -/
theorem Put.wrotePart (wf : g.Wf) (lies : Lies g t.fs cells t.fp)
    (boundary : t.fp.fptr % g.ssize = 0) {wbuff : List UInt8} (more : wbuff ≠ [])
    (short : wbuff.length < g.ssize) (reached : Reached g faults cells cells' t fs sclust)
    {n : Nat} {fs' : Fatfs} (n_eq : n = min wbuff.length (g.ssize - t.fp.fptr % g.ssize))
    (put : Put g faults cells' t.fp.fptr (max t.fp.fsize (t.fp.fptr + wbuff.length))
      (wbuff.take n) fs fs') :
    WroteOne g faults cells t wbuff (some n) { t with
      fs := fs'
      fp := { t.fp with
        sclust := sclust, clust := g.cellOf cells' t.fp.fptr
        dsect := g.sectorAt cells' (t.fp.fptr / g.ssize) } } := by
  have length_pos := List.length_pos_of_ne_nil more
  have fptr_eq : t.fp.fptr / g.ssize * g.ssize = t.fp.fptr :=
    Nat.div_mul_cancel (Nat.dvd_of_mod_eq_zero boundary)
  have count : n = wbuff.length := by omega
  have room : t.fp.fptr + wbuff.length ≤ g.room cells' := by
    have bytes := Nat.mul_le_mul_right g.ssize (Nat.succ_le_of_lt (sector_lt wf reached.fptr_lt))
    rw [Nat.succ_mul, fptr_eq] at bytes
    exact Nat.le_trans (Nat.add_le_add_left (Nat.le_of_lt short) _) bytes
  have placed : g.Placed cells' (t.fp.fptr + wbuff.length) (g.cellOf cells' t.fp.fptr)
      (g.sectorAt cells' (t.fp.fptr / g.ssize)) := .part length_pos (by omega)
  have all : wbuff.take wbuff.length = wbuff := List.take_length
  subst count
  rw [all] at put
  refine .inl ⟨wbuff.length, cells', fs', sclust, _, _, rfl, length_pos, Nat.le_refl _, ?_, rfl⟩
  rw [all]
  exact put.wrote wf lies reached length_pos room placed

/-- Less than a sector goes through the window; at the end of the file the sector is not read. -/
theorem writeShort_spec (wf : g.Wf) (lies : Lies g t.fs cells t.fp)
    (boundary : t.fp.fptr % g.ssize = 0) {wbuff : List UInt8} (more : wbuff ≠ [])
    (short : wbuff.length < g.ssize) (reached : Reached g faults cells cells' t fs sclust)
    (coherent : fs.Coherent g) :
    After (do
      if (← get).fp.fsize ≤ (← get).fp.fptr then
        tryCatch (onFs (moveWindow g faults 0)) fun _ => abort .diskErr
        modify fun u =>
          { u with fs := { u.fs with winsect := g.sectorAt cells' (t.fp.fptr / g.ssize) } }
      modifyFp fun fp => { fp with dsect := g.sectorAt cells' (t.fp.fptr / g.ssize) }
      return some (← writePart g faults wbuff))
      (WroteOne g faults cells t wbuff) (fun _ _ => False)
      { t with
        fs := fs, fp := { t.fp with sclust := sclust, clust := g.cellOf cells' t.fp.fptr } } := by
  rw [after_bind, after_get]
  dsimp only
  rw [after_bind, after_get]
  split
  case isTrue edge =>
    rw [after_bind, after_tryCatch, after_onFs]
    refine (moveWindow_spec wf coherent (by decide : 0 < 4294967296)).mono (fun _ fs₁ => ?_)
      fun _ _ broken => absurd broken.2 clean
    rintro ⟨kept, -, moved⟩
    have reached' := reached.kept wf kept
    have only : max t.fp.fsize (t.fp.fptr + wbuff.length) ≤
        t.fp.fptr + min wbuff.length g.ssize := by
      have edge' : t.fp.fsize ≤ t.fp.fptr := edge
      omega
    rw [after_bind, after_modify, after_bind, after_modifyFp, after_bind]
    refine (writePart_edge (t := { t with
        fs := { fs₁ with winsect := g.sectorAt cells' (t.fp.fptr / g.ssize) }
        fp := { t.fp with
          sclust := sclust, clust := g.cellOf cells' t.fp.fptr
          dsect := g.sectorAt cells' (t.fp.fptr / g.ssize) } }) (s := fs₁) wf
      kept.coherent (moved rfl).1 (reached'.chain wf) (show _ = t.fp.fptr from rfl)
      reached.fptr_lt boundary rfl rfl only).mono (fun n t' => ?_) fun _ _ => id
    rintro ⟨n_eq, fs₂, rfl, put⟩
    exact put.wrotePart wf lies boundary more short reached' n_eq
  case isFalse =>
    rw [after_bind, after_modifyFp, after_bind]
    refine (writePart_spec (t := { t with
        fs := fs
        fp := { t.fp with
          sclust := sclust, clust := g.cellOf cells' t.fp.fptr
          dsect := g.sectorAt cells' (t.fp.fptr / g.ssize) } }) clean wf coherent
      (reached.chain wf) (show _ = t.fp.fptr from rfl) reached.fptr_lt rfl
      (max t.fp.fsize (t.fp.fptr + wbuff.length)) wbuff).mono (fun n t' => ?_) fun _ _ => id
    rintro ⟨n_eq, fs₁, rfl, put⟩
    exact put.wrotePart wf lies boundary more short reached n_eq

/-- The part of a round behind the look-up of the cluster. -/
theorem writeRest_spec (wf : g.Wf) (lies : Lies g t.fs cells t.fp)
    (boundary : t.fp.fptr % g.ssize = 0) {wbuff : List UInt8} (more : wbuff ≠ [])
    (reached : Reached g faults cells cells' t fs sclust) :
    After (do
      let u ← get
      if u.fs.winsect = u.fp.dsect then
        tryCatch (onFs (moveWindow g faults 0)) fun _ => abort .diskErr
      let sect := clust2sect g (← get).fp.clust
      if sect = 0 then abort .intErr
      else if wbuff.length / g.ssize ≠ 0 then
        return some (← writeSectors g faults wbuff (sect + csectOf g t.fp.fptr)
          (clipped g (csectOf g t.fp.fptr) (wbuff.length / g.ssize)))
      else
        if (← get).fp.fsize ≤ (← get).fp.fptr then
          tryCatch (onFs (moveWindow g faults 0)) fun _ => abort .diskErr
          modify fun u => { u with fs := { u.fs with winsect := sect + csectOf g t.fp.fptr } }
        modifyFp fun fp => { fp with dsect := sect + csectOf g t.fp.fptr }
        return some (← writePart g faults wbuff))
      (WroteOne g faults cells t wbuff) (fun _ _ => False)
      { t with
        fs := fs, fp := { t.fp with sclust := sclust, clust := g.cellOf cells' t.fp.fptr } } := by
  have inside := reached.holds.inside (cellOf_mem wf reached.fptr_lt)
  -- the window may have moved, which the rest does not see
  have go : ∀ fs₁, Kept g faults fs fs₁ → After (do
      let sect := clust2sect g (← get).fp.clust
      if sect = 0 then abort .intErr
      else if wbuff.length / g.ssize ≠ 0 then
        return some (← writeSectors g faults wbuff (sect + csectOf g t.fp.fptr)
          (clipped g (csectOf g t.fp.fptr) (wbuff.length / g.ssize)))
      else
        if (← get).fp.fsize ≤ (← get).fp.fptr then
          tryCatch (onFs (moveWindow g faults 0)) fun _ => abort .diskErr
          modify fun u => { u with fs := { u.fs with winsect := sect + csectOf g t.fp.fptr } }
        modifyFp fun fp => { fp with dsect := sect + csectOf g t.fp.fptr }
        return some (← writePart g faults wbuff))
      (WroteOne g faults cells t wbuff) (fun _ _ => False)
      { t with
        fs := fs₁, fp := { t.fp with sclust := sclust, clust := g.cellOf cells' t.fp.fptr } } := by
    intro fs₁ kept
    rw [after_bind, after_get]
    simp only [sect_eq wf]
    rw [if_neg (clust2sect_ne_zero wf inside)]
    split
    case isTrue whole =>
      exact writeWhole_spec clean wf lies boundary (reached.kept wf kept) kept.coherent whole
    case isFalse part =>
      have short : wbuff.length < g.ssize := by
        rw [not_not] at part
        exact (Nat.div_eq_zero_iff_lt wf.ssize_pos).1 part
      exact writeShort_spec clean wf lies boundary more short (reached.kept wf kept) kept.coherent
  rw [after_bind, after_get]
  dsimp only
  split
  case isTrue =>
    rw [after_bind, after_tryCatch, after_onFs]
    refine (moveWindow_spec wf reached.grew.changed.coherent (by decide : 0 < 4294967296)).mono
      (fun _ fs₁ => ?_) fun _ _ broken => absurd broken.2 clean
    rintro ⟨kept, -⟩
    exact go fs₁ kept
  case isFalse => exact go fs (.refl reached.grew.changed.coherent)

end Reached

/-- One round of the loop of `f_write`. -/
theorem writeStep_spec (wf : g.Wf) (coherent : t.fs.Coherent g) (proper : t.fs.Proper g)
    (lies : Lies g t.fs cells t.fp) {wbuff : List UInt8} (more : wbuff ≠ []) :
    After (writeStep g faults wbuff) (WroteOne g faults cells t wbuff) (fun _ _ => False) t := by
  have length_pos := List.length_pos_of_ne_nil more
  unfold writeStep
  rw [after_bind, after_get]
  dsimp only
  split
  case isFalse middle =>
    have rest := Nat.mod_lt t.fp.fptr wf.ssize_pos
    -- the pointer is in a sector of the file
    have fptr_lt : t.fp.fptr < g.room cells := by
      refine Nat.lt_of_le_of_ne lies.fptr fun equal => middle ?_
      rw [equal, Geometry.room, Nat.mul_mod_left]
    have chain := lies.holds.chain (List.ne_nil_of_mem (cellOf_mem wf fptr_lt))
    have clust := lies.placed.within wf fun both => middle both.1
    have dsect := lies.placed.sector middle
    rw [after_bind]
    refine (writePart_spec clean wf coherent chain rfl fptr_lt dsect
      (max t.fp.fsize (t.fp.fptr +
        (wbuff.take (min wbuff.length (g.ssize - t.fp.fptr % g.ssize))).length)) wbuff).mono
      (fun n t' => ?_) fun _ _ => id
    rintro ⟨rfl, fs, rfl, put⟩
    have count : (wbuff.take (min wbuff.length (g.ssize - t.fp.fptr % g.ssize))).length =
        min wbuff.length (g.ssize - t.fp.fptr % g.ssize) :=
      List.length_take_of_le (Nat.min_le_left _ _)
    refine .inl ⟨_, cells, fs, t.fp.sclust, t.fp.clust, t.fp.dsect, rfl, by omega,
      Nat.min_le_left _ _, ?_, rfl⟩
    refine put.wrote wf lies (.start coherent lies fptr_lt) (by omega) ?_ ?_
    · have sector := Nat.mul_le_mul_right g.ssize (Nat.succ_le_of_lt (sector_lt wf fptr_lt))
      have split := Nat.div_add_mod t.fp.fptr g.ssize
      rw [Nat.succ_mul, Nat.mul_comm (t.fp.fptr / g.ssize)] at sector
      have sector' : g.ssize * (t.fp.fptr / g.ssize) + g.ssize ≤ g.room cells := sector
      omega
    · rw [count, clust, dsect]
      exact .part (by omega) (by omega)
  case isTrue boundary =>
    split
    case isTrue first =>
      rw [csectOf_eq wf] at first
      rw [after_bind]
      refine (writeCluster_spec clean wf coherent proper lies boundary first).mono (fun r t' => ?_)
        fun _ _ => id
      rintro (⟨rfl, fs, cells', sclust, grew, tight, changed, holds, fptr_lt, rfl⟩ |
        ⟨rfl, fs, kept, full, rfl⟩)
      · rw [if_neg (by simp)]
        refine writeRest_spec clean wf lies boundary more ⟨grew, tight, fun k k_lt => ?_, holds,
          fptr_lt⟩
        obtain ⟨more', rfl, -⟩ := grew.new
        rw [bytes_append wf more' k_lt]
        refine bytes_congr wf (fun c member n here => ?_) k_lt
        have inside := lies.holds.inside member
        exact changed.view n (InCluster.own wf inside here) (InCluster.not_inFat wf inside here)
      · exact .inr ⟨rfl, fs, kept, full, rfl⟩
    case isFalse middle =>
      have clust := lies.placed.within wf fun both => middle ((csectOf_eq wf _).trans both.2)
      have fptr_lt : t.fp.fptr < g.room cells := by
        refine Nat.lt_of_le_of_ne lies.fptr fun equal => middle ?_
        rw [csectOf_eq wf, equal, Geometry.room, Nat.mul_div_cancel _ wf.ssize_pos,
          Nat.mul_mod_left]
      rw [after_bind, after_pure, if_neg (by simp)]
      have done := writeRest_spec clean wf lies boundary more (.start coherent lies fptr_lt)
      rw [← clust] at done
      exact done

omit clean in
/-- Bytes that have been written one part after the other. -/
theorem Wrote.trans {cells' cells'' : List Nat} {data data' : List UInt8} {fs fs' : Fatfs}
    {sclust clust dsect sclust' clust' dsect' : Nat}
    (first : Wrote g faults cells cells' t data fs sclust clust dsect) {t' : Transfer}
    (second : Wrote g faults cells' cells'' t' data' fs' sclust' clust' dsect')
    (fs_eq : t'.fs = fs) (fptr : t'.fp.fptr = t.fp.fptr + data.length)
    (fsize : t'.fp.fsize = t.fp.fsize) :
    Wrote g faults cells cells'' t (data ++ data') fs' sclust' clust' dsect' where
  grew := first.grew.trans (fs_eq ▸ second.grew)
  tight := by
    have tight := second.tight
    rw [fptr] at tight
    rw [List.length_append, ← Nat.add_assoc]
    rcases tight with rfl | small
    · exact first.tight.mono (Nat.le_add_right _ _)
    · exact .inr small
  holds := second.holds
  room := by
    have room := second.room
    rw [fptr] at room
    rw [List.length_append, ← Nat.add_assoc]
    exact room
  placed := by
    have placed := second.placed
    rw [fptr] at placed
    rw [List.length_append, ← Nat.add_assoc]
    exact placed
  bytes k k_lt := by
    have bytes' := second.bytes k
    rw [fptr, fsize, fs_eq] at bytes'
    rw [List.length_append] at k_lt ⊢
    rw [bytes' (by omega)]
    by_cases late : t.fp.fptr + data.length ≤ k ∧ k < t.fp.fptr + data.length + data'.length
    · rw [if_pos late, if_pos (by omega), List.getD_append_right _ _ _ _ (by omega), Nat.sub_sub]
    · rw [if_neg late, first.bytes k (by omega)]
      by_cases early : t.fp.fptr ≤ k ∧ k < t.fp.fptr + data.length
      · rw [if_pos early, if_pos (by omega), List.getD_append _ _ _ _ (by omega)]
      · rw [if_neg early, if_neg (by omega)]

omit clean in
/-- Nothing has been written. -/
theorem Wrote.nothing (wf : g.Wf) (lies : Lies g t.fs cells t.fp) {fs : Fatfs}
    (kept : Kept g faults t.fs fs) :
    Wrote g faults cells cells t [] fs t.fp.sclust t.fp.clust t.fp.dsect where
  grew := kept.grew wf
  tight := .inl rfl
  holds := by
    rw [kept.fat wf]
    exact lies.holds
  room := lies.fptr
  placed := lies.placed
  bytes k k_lt := by
    have fsize_le := lies.room
    have fptr_le := lies.fptr
    rw [List.length_nil] at k_lt ⊢
    rw [if_neg (by omega)]
    refine bytes_congr wf (fun c member n here => ?_) (by omega)
    exact kept.same (InCluster.own wf (lies.holds.inside member) here)

/-- The loop of `f_write` writes all bytes, unless no cluster is free. -/
theorem writeLoop_spec (wf : g.Wf) (fuel : Nat) {wbuff : List UInt8} (coherent : t.fs.Coherent g)
    (proper : t.fs.Proper g) (lies : Lies g t.fs cells t.fp) (enough : wbuff.length ≤ fuel) :
    After (writeLoop g faults fuel wbuff) (fun _ t' => ∃ n cells' fs sclust clust dsect,
      n ≤ wbuff.length ∧ Wrote g faults cells cells' t (wbuff.take n) fs sclust clust dsect ∧
      (n < wbuff.length → Full g (fs.fat g) cells' (t.fp.fptr + n)) ∧
      t' = { t with
        fs := fs
        fp := { t.fp with
          sclust := sclust, clust := clust, dsect := dsect, fptr := t.fp.fptr + n }
        moved := t.moved ++ wbuff.take n }) (fun _ _ => False) t := by
  induction fuel generalizing t cells wbuff with
  | zero =>
    obtain rfl : wbuff = [] := List.length_eq_zero_iff.1 (by omega)
    exact ⟨0, cells, t.fs, _, _, _, Nat.le_refl 0, .nothing wf lies (.refl coherent),
      nofun, by simp⟩
  | succ fuel ih =>
    unfold writeLoop
    split
    case isFalse none =>
      rw [not_not] at none
      subst none
      exact ⟨0, cells, t.fs, _, _, _, Nat.le_refl 0, .nothing wf lies (.refl coherent),
        nofun, by simp⟩
    case isTrue more =>
      rw [after_bind]
      refine (writeStep_spec clean wf coherent proper lies more).mono (fun r t₁ => ?_) fun _ _ => id
      rintro (⟨n, cells₁, fs₁, sclust, clust, dsect, rfl, n_pos, n_le, wrote, rfl⟩ |
        ⟨rfl, fs₁, kept, full, rfl⟩)
      · have count : (wbuff.take n).length = n := List.length_take_of_le n_le
        have rooms : g.room cells ≤ g.room cells₁ := by
          obtain ⟨more', rfl, -⟩ := wrote.grew.new
          exact room_append more'
        have room := wrote.room
        have placed := wrote.placed
        rw [count] at room placed
        dsimp only
        rw [after_bind, after_modify]
        refine (ih (t := { t with
            fs := fs₁
            fp := { t.fp with
              sclust := sclust, clust := clust, dsect := dsect, fptr := t.fp.fptr + n }
            moved := t.moved ++ wbuff.take n })
          wrote.grew.changed.coherent (wrote.grew.proper proper)
            ⟨wrote.holds, placed, room, Nat.le_trans lies.room rooms⟩
          (by rw [List.length_drop]; omega)).mono (fun _ t₂ => ?_) fun _ _ => id
        rintro ⟨m, cells₂, fs₂, sclust', clust', dsect', m_le, wrote', full, rfl⟩
        rw [List.length_drop] at m_le full
        have joined : wbuff.take n ++ (wbuff.drop n).take m = wbuff.take (n + m) :=
          (List.take_add ..).symm
        refine ⟨n + m, cells₂, fs₂, sclust', clust', dsect', by omega, ?_, fun short => ?_, ?_⟩
        · rw [← joined]
          exact wrote.trans wrote' rfl (by rw [count]) rfl
        · have full' := full (by omega)
          rwa [Nat.add_assoc] at full'
        · simp only [List.append_assoc, joined, Nat.add_assoc]
      · refine ⟨0, cells, fs₁, _, _, _, Nat.zero_le _, .nothing wf lies kept, fun _ => ?_, by simp⟩
        rw [kept.fat wf]
        exact full

/-! ## The whole write -/

omit clean in
/-- No cluster is in a file twice. -/
theorem Geometry.Holds.nodup {fat : Nat → Nat} {sclust : Nat} (holds : g.Holds fat sclust cells) :
    cells.Nodup := by
  unfold Geometry.Holds at holds
  split at holds
  case isTrue none => exact none ▸ List.nodup_nil
  case isFalse => exact holds.nodup

omit clean in
/-- The clusters that a file has taken are the ones that are no longer free. -/
theorem Grew.free_card (wf : g.Wf) {cells' : List Nat} {sclust sclust' : Nat}
    (grew : Grew g faults cells cells' s s') (before : g.Holds (s.fat g) sclust cells)
    (holds : g.Holds (s'.fat g) sclust' cells') :
    (g.free (s'.fat g)).card + cells'.length = (g.free (s.fat g)).card + cells.length := by
  obtain ⟨more, rfl, new⟩ := grew.new
  have nodup := (List.nodup_append.1 holds.nodup).2.1
  have disjoint : Disjoint (g.free (s'.fat g)) more.toFinset :=
    Finset.disjoint_left.2 fun c free member => holds.linked wf
      (List.mem_append_right _ (List.mem_toFinset.1 member)) (mem_free.1 free).2
  have union : g.free (s'.fat g) ∪ more.toFinset = g.free (s.fat g) := by
    ext c
    rw [Finset.mem_union, List.mem_toFinset, mem_free, mem_free]
    constructor
    · rintro (⟨inside, free⟩ | member)
      · have apart : c ∉ cells ++ more := fun member => holds.linked wf member free
        exact ⟨inside, by rw [← grew.fat c inside apart, free]⟩
      · exact ⟨(new c member).1, (new c member).2.2⟩
    · rintro ⟨inside, free⟩
      by_cases member : c ∈ more
      · exact .inr member
      · have apart : c ∉ cells ++ more := fun both =>
          (List.mem_append.1 both).elim (fun old => before.linked wf old free) member
        exact .inl ⟨inside, by rw [grew.fat c inside apart, free]⟩
  rw [← union, Finset.card_union_of_disjoint disjoint, List.toFinset_card_of_nodup nodup,
    List.length_append]
  omega

/-- The bytes of a file, its pointer, and the number of its clusters. -/
def Fatfs.blockFile (g : Geometry) (s : Fatfs) (cells : List Nat) (fp : Fil) : BlockFile where
  bytes := Cells.window (s.bytes g cells) 0 fp.fsize
  pos := fp.fptr
  blocks := cells.length

/-- The file object can be written to. -/
structure Writable (g : Geometry) (fp : Fil) : Prop extends Usable g fp where
  write : fp.write = true

omit clean in
/-- As many bytes are written as there is room for. -/
theorem taken_eq {cells' : List Nat} {n free free' : Nat} {buff : List UInt8}
    (n_le : n ≤ buff.length) (room : t.fp.fptr + n ≤ g.room cells')
    (counted : free' + cells'.length = free + cells.length)
    (full : n < buff.length → free' = 0 ∧ t.fp.fptr + n = g.room cells') :
    buff.take n = buff.take ((cells.length + free) * (g.csize * g.ssize) - t.fp.fptr) := by
  have rooms : ∀ l : List Nat, g.room l = l.length * (g.csize * g.ssize) := fun l =>
    Nat.mul_assoc ..
  rw [rooms] at room full
  by_cases short : n < buff.length
  · obtain ⟨none, ended⟩ := full short
    rw [none, Nat.zero_add] at counted
    rw [Nat.add_comm cells.length, ← counted, ← ended, Nat.add_sub_cancel_left]
  · have most : cells'.length * (g.csize * g.ssize) ≤ (cells.length + free) * (g.csize * g.ssize) :=
      Nat.mul_le_mul_right _ (by omega)
    rw [List.take_of_length_le (by omega), List.take_of_length_le (by omega)]

/-- `f_write` puts as many bytes in the file as it and the free clusters have room for, unless the
file would grow to 4 GiB. -/
theorem fWrite_spec (wf : g.Wf) (coherent : t.fs.Coherent g) (proper : t.fs.Proper g)
    (file : HasFile g t.fs cells t.fp) (writable : Writable g t.fp) {buff : List UInt8}
    (buff_lt : buff.length < 4294967296) :
    After (fWrite g faults buff) (fun _ t' => ∃ cells' bytes,
      bytes = (t.fs.blockFile g cells t.fp).accepted (g.csize * g.ssize) 4294967296
        (g.free (t.fs.fat g)).card buff ∧
      t'.moved = bytes ∧ Grew g faults cells cells' t.fs t'.fs ∧ HasFile g t'.fs cells' t'.fp ∧
      t'.fs.blockFile g cells' t'.fp =
        (t.fs.blockFile g cells t.fp).write (g.csize * g.ssize) bytes ∧
      (g.free (t'.fs.fat g)).card + cells'.length = (g.free (t.fs.fat g)).card + cells.length ∧
      ∃ sclust clust dsect, t'.fp = { t.fp with
        sclust := sclust, clust := clust, dsect := dsect, fptr := t.fp.fptr + bytes.length
        fsize := max t.fp.fsize (t.fp.fptr + bytes.length), written := true })
      (fun _ _ => False) t := by
  have fptr_le := file.fptr
  have fsize_lt := file.fsize
  have bcs_pos : 0 < g.csize * g.ssize := Nat.mul_pos wf.csize_pos wf.ssize_pos
  have limit : (if (t.fp.fsize + buff.length) % 4294967296 < t.fp.fsize then [] else buff) =
      if 4294967296 ≤ t.fp.fsize + buff.length then [] else buff := by
    split <;> split <;> first | rfl | omega
  unfold fWrite
  rw [after_bind, after_modify, after_bind,
    after_validate (t := { t with moved := [] }) writable.opened writable.id, after_bind, after_get,
    if_neg (by rw [writable.error]; exact Bool.false_ne_true), if_neg (not_not.2 writable.write)]
  dsimp only
  rw [limit]
  generalize bounded : (if 4294967296 ≤ t.fp.fsize + buff.length then [] else buff) = data
  have data_lt : t.fp.fsize + data.length < 4294967296 := by
    rw [← bounded]
    split
    · exact fsize_lt
    · omega
  have accepted : (t.fs.blockFile g cells t.fp).accepted (g.csize * g.ssize) 4294967296
      (g.free (t.fs.fat g)).card buff =
      data.take
        ((cells.length + (g.free (t.fs.fat g)).card) * (g.csize * g.ssize) - t.fp.fptr) := by
    rw [← bounded, BlockFile.accepted, Fatfs.blockFile, Cells.window_length]
    split
    · rw [List.take_nil]
    · rfl
  rw [accepted, after_bind]
  refine (writeLoop_spec (t := { t with moved := [] }) clean wf data.length coherent proper
    ⟨file.holds, file.placed, Nat.le_trans file.fptr file.room, file.room⟩ (Nat.le_refl _)).mono
    (fun _ t' => ?_) fun _ _ => id
  rintro ⟨n, cells', fs, sclust, clust, dsect, n_le, wrote, full, rfl⟩
  have count : (data.take n).length = n := List.length_take_of_le n_le
  have rooms : g.room cells ≤ g.room cells' := by
    obtain ⟨more, rfl, -⟩ := wrote.grew.new
    exact room_append more
  have lengths : cells.length ≤ cells'.length := by
    obtain ⟨more, rfl, -⟩ := wrote.grew.new
    rw [List.length_append]
    exact Nat.le_add_right _ _
  have room := wrote.room
  have placed := wrote.placed
  have tight := wrote.tight
  have bytes := wrote.bytes
  rw [count] at room placed tight bytes
  have counted := wrote.grew.free_card wf file.holds wrote.holds
  have taken := taken_eq n_le room counted fun short => by
    obtain ⟨none, ended⟩ := full short
    exact ⟨Finset.card_eq_zero.2 none, ended⟩
  rw [after_modifyFp]
  refine ⟨cells', data.take n, taken, List.nil_append _, wrote.grew, ?_, ?_, counted, sclust, clust,
    dsect, ?_⟩
  · refine ⟨wrote.holds, placed, Nat.le_max_right _ _, ?_, ?_⟩
    · exact Nat.max_le.2 ⟨Nat.le_trans file.room rooms, room⟩
    · change max t.fp.fsize (t.fp.fptr + n) < 4294967296
      omega
  · have contents := window_patch (t.fs.bytes g cells) (fs.bytes g cells') (data.take n)
      fptr_le (by rw [count]; exact bytes)
    have blocks := blocks_eq (t.fp.fptr + n) cells.length cells'.length bcs_pos
      (by rw [← Nat.mul_assoc]; exact room) lengths
      (by
        rcases tight with rfl | small
        · exact .inl rfl
        · rw [← Nat.mul_assoc]
          exact .inr small)
    rw [count] at contents
    simp only [Fatfs.blockFile, BlockFile.write, contents, blocks, count]
  · rw [count]

end Clean

end D2xCios.FatFs
