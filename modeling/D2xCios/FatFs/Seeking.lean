import D2xCios.FatFs.Reading

/-!
# Seeking in a file

`f_lseek` goes along the chain, from the cluster of the pointer if the offset is not before it. It
ends at the offset, or at the end of the file, with the cluster and the sector that reading and
writing go on with.
-/

namespace D2xCios.FatFs

open D2xCios.Lib

variable {g : Geometry} {faults : Faults} {t : Transfer} {cells : List Nat}

/-- Where the cluster of an offset starts. -/
theorem cluster_start (wf : g.Wf) {n : Nat} (n_lt : n < 4294967296) :
    n &&& (0xFFFFFFFF ^^^ (g.csize * g.ssize - 1)) = n / (g.csize * g.ssize) *
      (g.csize * g.ssize) := by
  obtain ⟨j, csize, -⟩ := wf.csize
  obtain ⟨k, ssize, -, -⟩ := wf.ssize
  rw [csize, ssize, ← Nat.pow_add]
  exact and_xor_mask (w := 32) n_lt

/-- The loop of `f_lseek` goes on to the cluster of the byte before the offset. -/
theorem seekLoop_spec (wf : g.Wf) {bcs start : Nat} (bcs_pos : 0 < bcs) (fuel : Nat) {i rest : Nat}
    (coherent : t.fs.Coherent g) (chain : IsChain g.links (t.fs.fat g) start cells)
    (rest_pos : 0 < rest) (enough : rest ≤ fuel) (inside : i * bcs + rest ≤ cells.length * bcs)
    (clust : t.fp.clust = cells.getD i 0) (fptr : t.fp.fptr = i * bcs) :
    After (seekLoop g faults bcs fuel (cells.getD i 0) rest) (fun r t' => ∃ fs j,
      Kept g faults t.fs fs ∧ r.1 = cells.getD j 0 ∧ 0 < r.2 ∧ r.2 ≤ bcs ∧
      j * bcs + r.2 = i * bcs + rest ∧
      t' = { t with fs := fs, fp := { t.fp with clust := r.1, fptr := j * bcs } })
      (fun e _ => Broken faults e) t := by
  induction fuel generalizing t i rest with
  | zero => omega
  | succ fuel ih =>
    unfold seekLoop
    split
    case isFalse near =>
      exact ⟨t.fs, i, .refl coherent, rfl, rest_pos, Nat.not_lt.1 near,
        rfl, by rw [← clust, ← fptr]⟩
    case isTrue far =>
      have next_lt : i + 1 < cells.length := by
        have more : (i + 1) * bcs < cells.length * bcs := by
          rw [Nat.add_mul, Nat.one_mul]
          omega
        exact Nat.lt_of_mul_lt_mul_right more
      have link := chain.next_eq next_lt
      have here := chain.inside (List.getElem_mem (Nat.lt_of_succ_lt next_lt))
      have there := chain.inside (List.getElem_mem next_lt)
      have limit := wf.nFatent_lt
      rw [after_bind, after_onFs, List.getD_eq_getElem _ _ (Nat.lt_of_succ_lt next_lt)]
      refine (getFat_spec wf coherent here.1 here.2).mono (fun r fs => ?_) fun _ _ => False.elim
      rintro (⟨rfl, kept⟩ | ⟨rfl, broken⟩)
      · rw [link, if_neg (Nat.ne_of_lt (Nat.lt_trans (Nat.lt_trans there.2 limit) (by decide))),
          if_neg (not_or.2 ⟨Nat.not_le.2 there.1, Nat.not_le.2 there.2⟩), after_bind,
            after_modifyFp]
        have cell : cells[i + 1] = cells.getD (i + 1) 0 := (List.getD_eq_getElem _ _ next_lt).symm
        rw [cell]
        refine (ih (t := { t with
          fs := fs
          fp := { t.fp with clust := cells.getD (i + 1) 0, fptr := t.fp.fptr + bcs } })
          kept.coherent (by rw [kept.fat wf]; exact chain) (by omega) (by omega) (by
            rw [Nat.add_mul, Nat.one_mul]
            omega) rfl (by
            change t.fp.fptr + bcs = _
            rw [fptr, Nat.add_mul, Nat.one_mul])).mono (fun r' t' => ?_) fun _ _ => id
        rintro ⟨fs', j, kept', cluster, positive, le, total, rfl⟩
        refine ⟨fs', j, kept.trans kept', cluster, positive, le, ?_, rfl⟩
        rw [total, Nat.add_mul, Nat.one_mul]
        omega
      · exact ⟨rfl, broken⟩

/-- The sector of an offset that is not on the boundary of one. -/
theorem sectorAt_rest (wf : g.Wf) {j rest : Nat} (rest_le : rest ≤ g.csize * g.ssize)
    (inside : rest % g.ssize ≠ 0) :
    g.sectorAt cells ((j * (g.csize * g.ssize) + rest) / g.ssize) =
      clust2sect g (cells.getD j 0) + rest / g.ssize := by
  have rest_lt : rest / g.ssize < g.csize := by
    refine (Nat.div_lt_iff_lt_mul wf.ssize_pos).2
      (Nat.lt_of_le_of_ne rest_le fun whole => inside ?_)
    rw [whole, Nat.mul_mod_left]
  have sector : (j * (g.csize * g.ssize) + rest) / g.ssize = g.csize * j + rest / g.ssize := by
    rw [← Nat.mul_assoc, Nat.mul_comm j, Nat.mul_comm _ g.ssize, Nat.mul_add_div wf.ssize_pos]
  rw [sector, Geometry.sectorAt, Nat.mul_add_div wf.csize_pos, Nat.div_eq_of_lt rest_lt,
    Nat.add_zero,
    Nat.mul_add_mod, Nat.mod_eq_of_lt rest_lt]

/-- The cluster of the byte before an offset. -/
theorem cell_before (wf : g.Wf) {j rest : Nat} (rest_pos : 0 < rest)
    (rest_le : rest ≤ g.csize * g.ssize) :
    (j * (g.csize * g.ssize) + rest - 1) / g.ssize / g.csize = j := by
  have small : rest - 1 < g.csize * g.ssize := by omega
  rw [Nat.add_sub_assoc rest_pos, Nat.div_div_eq_div_mul, Nat.mul_comm g.ssize,
    Nat.mul_comm j, Nat.mul_add_div (Nat.mul_pos wf.csize_pos wf.ssize_pos), Nat.div_eq_of_lt small,
    Nat.add_zero]

/-- The part of `f_lseek` for an offset other than 0. -/
theorem seekTo_spec (wf : g.Wf) (coherent : t.fs.Coherent g) {fp : Fil}
    (file : HasFile g t.fs cells fp) {ofs : Nat} (ofs_pos : 0 < ofs) (ofs_le : ofs ≤ fp.fsize)
    (current : t.fp = { fp with fptr := 0 }) :
    After (seekTo g faults fp.fptr ofs) (fun nsect t' => ∃ fs clust, Kept g faults t.fs fs ∧
      t' = { t with fs := fs, fp := { fp with clust := clust, fptr := ofs } } ∧
      g.Placed cells ofs clust nsect)
      (fun e _ => Broken faults e) t := by
  have some : cells ≠ [] := fun none => by
    have room := file.room
    rw [none, Geometry.room, List.length_nil, Nat.zero_mul, Nat.zero_mul] at room
    omega
  have chain := file.holds.chain some
  have bcs_pos : 0 < g.csize * g.ssize := Nat.mul_pos wf.csize_pos wf.ssize_pos
  have room : fp.fsize ≤ cells.length * (g.csize * g.ssize) := Nat.mul_assoc .. ▸ file.room
  -- the search starts in cluster `i`, which is not behind the offset
  have go : ∀ i clst start, clst = cells.getD i 0 → start = i * (g.csize * g.ssize) → start < ofs →
      i < cells.length → After (do
        modifyFp fun fp => { fp with fptr := start, clust := clst }
        if clst ≠ 0 then
          let r ← seekLoop g faults (g.csize * g.ssize) ofs clst (ofs - start)
          modifyFp fun fp => { fp with fptr := fp.fptr + r.2 }
          if r.2 % g.ssize ≠ 0 then
            let nsect := clust2sect g r.1
            if nsect = 0 then abort .intErr
            else return nsect + r.2 / g.ssize
          else return 0
        else return 0) (fun nsect t' => ∃ fs clust, Kept g faults t.fs fs ∧
          t' = { t with fs := fs, fp := { fp with clust := clust, fptr := ofs } } ∧
          g.Placed cells ofs clust nsect)
        (fun e _ => Broken faults e) t := by
    rintro i clst start rfl rfl start_lt i_lt
    have range := chain.inside (List.getElem_mem i_lt)
    have clst_ne : cells.getD i 0 ≠ 0 := by
      rw [List.getD_eq_getElem _ _ i_lt]
      exact Nat.ne_of_gt (Nat.lt_of_lt_of_le (by decide) range.1)
    rw [after_bind, after_modifyFp, if_pos clst_ne, after_bind]
    refine (seekLoop_spec (t := { t with
      fp := { t.fp with fptr := i * (g.csize * g.ssize), clust := cells.getD i 0 } }) wf bcs_pos ofs
      coherent chain (by omega) (by omega) (by omega) rfl rfl).mono (fun r t' => ?_) fun _ _ => id
    rintro ⟨fs, j, kept, cluster, positive, le, total, rfl⟩
    have total' : j * (g.csize * g.ssize) + r.2 = ofs := by omega
    have state : ({ t with
        fs := fs
        fp := { t.fp with clust := r.1, fptr := j * (g.csize * g.ssize) + r.2 } } : Transfer) =
        { t with fs := fs, fp := { fp with clust := r.1, fptr := ofs } } := by
      rw [total', current]
    have placed : ∀ nsect, (r.2 % g.ssize ≠ 0 → nsect = clust2sect g r.1 + r.2 / g.ssize) →
        g.Placed cells ofs r.1 nsect := by
      intro nsect sector
      refine ⟨fun _ => ?_, fun inside => ?_⟩
      · rw [cluster, ← total', cell_before wf positive le]
      · have inside' : r.2 % g.ssize ≠ 0 := by
          rw [← total', ← Nat.mul_assoc, Nat.mul_add_mod'] at inside
          exact inside
        rw [sector inside', cluster, ← total', sectorAt_rest wf le inside']
    rw [after_bind, after_modifyFp]
    split
    case isFalse boundary =>
      exact ⟨fs, r.1, kept, state, placed 0 fun inside => absurd inside boundary⟩
    case isTrue inside =>
      have j_lt : j < cells.length := by
        have below : j * (g.csize * g.ssize) < cells.length * (g.csize * g.ssize) := by omega
        exact Nat.lt_of_mul_lt_mul_right below
      have valid : clust2sect g r.1 ≠ 0 := by
        rw [cluster, List.getD_eq_getElem _ _ j_lt]
        exact clust2sect_ne_zero wf (chain.inside (List.getElem_mem j_lt))
      rw [if_neg valid]
      exact ⟨fs, r.1, kept, state, placed _ fun _ => rfl⟩
  unfold seekTo
  rw [after_bind, after_get, current]
  by_cases near : 0 < fp.fptr ∧
      (fp.fptr - 1) / (g.csize * g.ssize) ≤ (ofs - 1) / (g.csize * g.ssize)
  case pos =>
    have fptr_le := file.fptr
    have fsize_lt := file.fsize
    simp only [near, and_self, if_true]
    refine go ((fp.fptr - 1) / (g.csize * g.ssize)) _ _ ?_ (cluster_start wf (by omega)) ?_ ?_
    · rw [file.placed.cluster near.1, Nat.div_div_eq_div_mul, Nat.mul_comm g.ssize]
    · rw [cluster_start wf (by omega)]
      have split := Nat.div_mul_le_self (ofs - 1) (g.csize * g.ssize)
      have below := Nat.mul_le_mul_right (g.csize * g.ssize) near.2
      omega
    · refine (Nat.div_lt_iff_lt_mul bcs_pos).2 ?_
      omega
  case neg =>
    simp only [near, if_false]
    refine go 0 _ _ ?_ (Nat.zero_mul _).symm ofs_pos (List.length_pos_of_ne_nil some)
    rw [List.getD_eq_getElem _ _ (List.length_pos_of_ne_nil some),
      chain.head (List.length_pos_of_ne_nil some)]

/-- The file object can be used. -/
structure Usable (g : Geometry) (fp : Fil) : Prop where
  opened : fp.opened = true
  id : fp.id = g.id
  error : fp.error = false

/-- `f_lseek` moves the pointer to the offset, or to the end of the file if that is before it. -/
theorem fLseek_spec (wf : g.Wf) (coherent : t.fs.Coherent g) (file : HasFile g t.fs cells t.fp)
    (usable : Usable g t.fp) (ofs : Nat) :
    After (fLseek g faults ofs)
      (fun _ t' => Kept g faults t.fs t'.fs ∧ HasFile g t'.fs cells t'.fp ∧
      t'.moved = t.moved ∧ ∃ clust dsect, t'.fp = { t.fp with
        clust := clust, dsect := dsect, fptr := min ofs t.fp.fsize })
      (fun e _ => Broken faults e) t := by
  have clip : (if ofs > t.fp.fsize then t.fp.fsize else ofs) = min ofs t.fp.fsize := by
    split <;> omega
  have fsize_lt := file.fsize
  have finish : ∀ nsect fs clust, Kept g faults t.fs fs →
      g.Placed cells (min ofs t.fp.fsize) clust nsect → After (do
        let fp := (← get).fp
        if fp.fptr % g.ssize ≠ 0 ∧ nsect ≠ fp.dsect then
          modifyFp fun fp => { fp with dsect := nsect })
        (fun _ t' => Kept g faults t.fs t'.fs ∧ HasFile g t'.fs cells t'.fp ∧
          t'.moved = t.moved ∧ ∃ clust dsect, t'.fp = { t.fp with
            clust := clust, dsect := dsect, fptr := min ofs t.fp.fsize })
        (fun e _ => Broken faults e)
        { t with fs := fs, fp := { t.fp with clust := clust, fptr := min ofs t.fp.fsize } } := by
    intro nsect fs clust kept placed
    have holds : g.Holds (fs.fat g) t.fp.sclust cells := by
      rw [kept.fat wf]
      exact file.holds
    have le : min ofs t.fp.fsize ≤ t.fp.fsize := Nat.min_le_right _ _
    rw [after_bind, after_get]
    dsimp only
    split
    case isTrue => exact ⟨kept, ⟨holds, placed, le, file.room, fsize_lt⟩, rfl, _, _, rfl⟩
    case isFalse same =>
      refine ⟨kept, ⟨holds, ⟨placed.cluster, fun inside => ?_⟩, le, file.room, fsize_lt⟩, rfl, _,
        _, rfl⟩
      have equal : nsect = t.fp.dsect := by
        by_contra other
        exact same ⟨inside, other⟩
      exact equal ▸ placed.sector inside
  unfold fLseek
  rw [after_bind, after_validate usable.opened usable.id, after_bind, after_get,
    if_neg (by rw [usable.error]; exact Bool.false_ne_true)]
  simp only [clip]
  rw [after_bind, after_modifyFp]
  split
  case isFalse zero =>
    rw [not_not] at zero
    have done := finish 0 t.fs t.fp.clust (.refl coherent)
      ⟨fun positive => absurd positive (by omega), fun inside => absurd (by rw [zero, Nat.zero_mod])
        inside⟩
    rw [zero] at done ⊢
    exact done
  case isTrue more =>
    rw [after_bind]
    refine (seekTo_spec (t := { t with fp := { t.fp with fptr := 0 } }) wf coherent file
      (Nat.pos_of_ne_zero more) (Nat.min_le_right _ _) rfl).mono (fun nsect t' => ?_) fun _ _ => id
    rintro ⟨fs, clust, kept, rfl, placed⟩
    exact finish nsect fs clust kept placed

/-! ## Reading at an offset -/

/-- Whatever the disk does: a read behind a seek yields the bytes of the file from the offset on, as
many as there are, and changes nothing. If the disk fails, what has been moved are the first ones of
them. -/
theorem seek_read (wf : g.Wf) (coherent : t.fs.Coherent g) (file : HasFile g t.fs cells t.fp)
    (readable : Readable g t.fp) (ofs btr : Nat) :
    After (fLseek g faults ofs) (fun _ t₁ => After (fRead g faults btr)
      (fun _ t' => Kept g faults t.fs t'.fs ∧ HasFile g t'.fs cells t'.fp ∧
        t'.moved = Cells.window (t.fs.bytes g cells) (min ofs t.fp.fsize)
          (min btr (t.fp.fsize - ofs)) ∧
        t'.fp.fptr = min (ofs + btr) t.fp.fsize)
      (fun e t' => Broken faults e ∧ ∃ n, n < min btr (t.fp.fsize - ofs) ∧
        t'.moved = Cells.window (t.fs.bytes g cells) (min ofs t.fp.fsize) n) t₁)
      (fun e _ => Broken faults e) t := by
  refine (fLseek_spec wf coherent file ⟨readable.opened, readable.id, readable.error⟩ ofs).mono
    (fun _ t₁ => ?_) fun _ _ => id
  rintro ⟨kept, file₁, -, clust, dsect, fp⟩
  have readable₁ : Readable g t₁.fp := by
    rw [fp]
    exact ⟨readable.opened, readable.id, readable.error, readable.read⟩
  have fptr : t₁.fp.fptr = min ofs t.fp.fsize := by rw [fp]
  have fsize : t₁.fp.fsize = t.fp.fsize := by rw [fp]
  have left : t.fp.fsize - min ofs t.fp.fsize = t.fp.fsize - ofs := by omega
  -- the seek has left the bytes as they were
  have same : ∀ n, n ≤ t.fp.fsize - ofs →
      Cells.window (t₁.fs.bytes g cells) (min ofs t.fp.fsize) n =
        Cells.window (t.fs.bytes g cells) (min ofs t.fp.fsize) n := fun n n_le => by
    refine Cells.window_congr fun i i_lt => bytes_congr wf (fun c member m here => ?_) ?_
    · exact kept.same (InCluster.own wf (file.holds.inside member) here)
    · have room := file.room
      omega
  refine (fRead_spec wf kept.coherent file₁ readable₁ btr).mono (fun _ t' => ?_) fun e t' => ?_
  · rintro ⟨kept', file', moved, clust', dsect', fp'⟩
    rw [fptr, fsize, left] at moved
    refine ⟨kept.trans kept', file', moved.trans (same _ (Nat.min_le_right _ _)), ?_⟩
    rw [fp', fptr, fsize]
    dsimp only
    omega
  · rintro ⟨broken, n, n_lt, moved⟩
    rw [fptr, fsize, left] at n_lt
    rw [fptr] at moved
    exact ⟨broken, n, n_lt, moved.trans (same n (by omega))⟩

theorem small_seek_read :
    After (fLseek small .never 1) (fun _ t₁ => After (fRead small .never 2)
      (fun _ t' => Kept small .never smallFs t'.fs ∧ HasFile small t'.fs [2] t'.fp ∧
        t'.moved = Cells.window (smallFs.bytes small [2]) (min 1 3) (min 2 (3 - 1)) ∧
        t'.fp.fptr = min (1 + 2) 3)
      (fun e t' => Broken .never e ∧ ∃ n, n < min 2 (3 - 1) ∧
        t'.moved = Cells.window (smallFs.bytes small [2]) (min 1 3) n) t₁)
      (fun e _ => Broken .never e) ⟨smallFs, smallFil, []⟩ :=
  seek_read (t := ⟨smallFs, smallFil, []⟩) small_wf small_coherent small_file
    ⟨rfl, rfl, rfl, rfl⟩ 1 2

end D2xCios.FatFs
