import D2xCios.FatFs.Writing

/-!
# Bringing the disk up to date

`f_sync` puts the first cluster and the size of a file in its directory entry, and nothing else in
the sector of it but the archive bit and a time. Behind it the window has no changes, so that the
disk alone holds the volume: whoever mounts it next finds the file as it was.
-/

namespace D2xCios.FatFs

open D2xCios.Lib

variable {g : Geometry} {faults : Faults} {t : Transfer} {cells : List Nat} {s : Fatfs}

/-! ## Directory entries -/

/-- `LD_CLUST` -/
def ldClust (dir : Mem) (p : Nat) : Nat := le16 dir (p + 20) <<< 16 ||| le16 dir (p + 26)

/-- A directory entry has the first cluster and the size of a file. -/
structure Names (dir : Mem) (fp : Fil) : Prop where
  sclust : ldClust dir fp.dirPtr = fp.sclust
  fsize : le32 dir (fp.dirPtr + 28) = fp.fsize

/-- A directory entry is changed in its own 32 bytes only. -/
theorem updated_outside (fp : Fil) (win : Sector) {i : Nat}
    (outside : i < fp.dirPtr ∨ fp.dirPtr + 32 ≤ i) : updated fp win i = win i := by
  unfold updated
  rw [putLe32_outside _ _ _ (by omega), putLe16_outside _ _ _ (by omega),
    putLe16_outside _ _ _ (by omega), putLe32_outside _ _ _ (by omega),
    Cells.write_other _ _ (by omega)]

/-- What has been stored in a directory entry can be loaded from it. -/
theorem updated_names (fp : Fil) (win : Sector) (sclust_lt : fp.sclust < 4294967296)
    (fsize_lt : fp.fsize < 4294967296) : Names (updated fp win) fp where
  sclust := by
    have low : le16 (updated fp win) (fp.dirPtr + 26) = fp.sclust % 65536 := by
      rw [← le16_putLe16 (putLe32 (win.write (fp.dirPtr + 11) (win (fp.dirPtr + 11) ||| 0x20))
        (fp.dirPtr + 28) fp.fsize) (fp.dirPtr + 26)]
      refine le16_congr fun i first last => ?_
      unfold updated
      rw [putLe32_outside _ _ _ (by omega), putLe16_outside _ _ _ (by omega)]
    have high : le16 (updated fp win) (fp.dirPtr + 20) = (fp.sclust >>> 16) % 65536 := by
      rw [← le16_putLe16 (putLe16 (putLe32 (win.write (fp.dirPtr + 11)
        (win (fp.dirPtr + 11) ||| 0x20)) (fp.dirPtr + 28) fp.fsize) (fp.dirPtr + 26) fp.sclust)
        (fp.dirPtr + 20)]
      refine le16_congr fun i first last => ?_
      unfold updated
      rw [putLe32_outside _ _ _ (by omega)]
    rw [ldClust, low, high, Nat.shiftRight_eq_div_pow, Nat.shiftLeft_eq, Nat.or_comm,
      or_upper _ (show fp.sclust % 65536 < 2 ^ 16 by omega)]
    omega
  fsize := by
    have stored : le32 (updated fp win) (fp.dirPtr + 28) = fp.fsize % 4294967296 := by
      rw [← le32_putLe32 (win.write (fp.dirPtr + 11) (win (fp.dirPtr + 11) ||| 0x20))
        (fp.dirPtr + 28)]
      refine le32_congr fun i first last => ?_
      unfold updated
      rw [putLe32_outside _ _ _ (by omega), putLe16_outside _ _ _ (by omega),
        putLe16_outside _ _ _ (by omega)]
    rw [stored, Nat.mod_eq_of_lt fsize_lt]

/-- An entry depends on its own 32 bytes only. -/
theorem Names.congr {dir dir' : Mem} {fp : Fil} (names : Names dir fp)
    (same : ∀ i, fp.dirPtr ≤ i → i < fp.dirPtr + 32 → dir' i = dir i) : Names dir' fp where
  sclust := by
    rw [← names.sclust, ldClust, ldClust, le16_congr fun i first last => same i (by omega)
      (by omega),
      le16_congr fun i first last => same i (by omega) (by omega)]
  fsize := by
    rw [← names.fsize, le32_congr fun i first last => same i (by omega) (by omega)]

/-! ## What `sync` does -/

/-- The volume stays as it is, and is on the disk. -/
theorem sync_spec (wf : g.Wf) (coherent : s.Coherent g) :
    After (sync g faults) (fun _ s' => Altered g faults (fun _ => False) s s' ∧ s'.wflag = false ∧
      s'.lastClust = s.lastClust ∧ s'.freeClust = s.freeClust) (fun e _ => Broken faults e) s := by
  unfold sync
  rw [after_bind]
  refine (moveWindow_spec wf coherent (by decide : 0 < 4294967296)).mono (fun _ s₁ => ?_)
    fun _ _ => id
  rintro ⟨kept, -, clean⟩
  have lastClust : s₁.lastClust = s.lastClust := congrArg (fun c => c.2.1) kept.counts
  rw [after_bind, after_get]
  split
  case isFalse => exact ⟨kept.toAltered, (clean rfl).1, lastClust, kept.freeClust⟩
  case isTrue info =>
    have reserved := wf.fsiSector info.1
    rw [after_bind, after_modify, after_bind]
    refine (diskWrite_spec _ g.fsiSector 1).mono (fun _ s₂ => ?_) fun _ _ => False.elim
    rintro ⟨⟨left, ops, rfl, -⟩, -⟩
    rw [after_modify]
    have others : ∀ n, n ≠ g.fsiSector →
        written s₁.disk.sectors g.fsiSector 1 left n = s₁.disk.sectors n :=
      fun n other => if_neg (by omega)
    refine ⟨kept.toAltered.trans
      ⟨fun n own _ => ?_, ⟨by change 0 < 4294967296; decide, fun _ none =>
      absurd rfl none, fun dirty => ?_⟩, fun _ mirrored n first last _ k k_lt => ?_,
      fun n foreign => ?_⟩, (clean rfl).1, lastClust, kept.freeClust⟩
    · have some : n ≠ 0 := own.ne_zero wf
      have first := own.1
      rw [view_clean kept.coherent (clean rfl).1]
      exact (view_other some).trans (others n (by omega))
    · exact absurd ((clean rfl).1.symm.trans dirty) Bool.false_ne_true
    · have stays :=
        (others (n + k * g.fsize) (by omega)).trans ((mirrored n first last (fun dirty =>
        absurd ((clean rfl).1.symm.trans dirty) Bool.false_ne_true) k k_lt).trans
        (others n (by omega)).symm)
      exact stays
    · refine others n ?_
      rcases foreign with ⟨-, other⟩ | beyond
      · exact other info.1
      · have data := wf.database
        unfold Geometry.limit at beyond
        omega

/-! ## What `f_sync` does -/

theorem Geometry.Holds.sclust_lt (wf : g.Wf) {fat : Nat → Nat} {sclust : Nat}
    (holds : g.Holds fat sclust cells) : sclust < 4294967296 := by
  unfold Geometry.Holds at holds
  split at holds
  case isTrue => omega
  case isFalse some =>
    have positive := List.length_pos_of_ne_nil some
    have range := holds.inside (List.getElem_mem positive)
    rw [holds.head positive] at range
    have limit := wf.nFatent_lt
    have below : sclust < g.nFatent := range.2
    omega

/-- A file that has been written gets its directory entry, and everything is on the disk. -/
theorem fSync_spec (wf : g.Wf) (coherent : t.fs.Coherent g) (usable : Usable g t.fp)
    (own : g.Own t.fp.dirSect) (written : t.fp.written = true) :
    After (fSync g faults) (fun _ t' => Altered g faults (fun n => n = t.fp.dirSect) t.fs t'.fs ∧
      t'.fs.view t.fp.dirSect = updated t.fp (t.fs.view t.fp.dirSect) ∧ t'.fs.wflag = false ∧
      t'.fs.lastClust = t.fs.lastClust ∧ t'.fs.freeClust = t.fs.freeClust ∧
      t'.moved = t.moved ∧ t'.fp = { t.fp with written := false })
      (fun e _ => Broken faults e) t := by
  unfold fSync
  rw [after_bind, after_validate usable.opened usable.id, after_bind, after_get, if_pos written,
    after_bind, after_onFs]
  refine (moveWindow_loads wf coherent own).mono (fun _ s₁ => ?_) fun _ _ => id
  rintro ⟨kept, place, win⟩
  have stored : Stored g faults t.fp.dirSect _ s₁ _ :=
    stored_window wf place own (updated t.fp s₁.win)
  rw [after_bind, after_modify, after_onFs]
  refine (sync_spec wf stored.coherent).mono (fun _ s₂ => ?_) fun _ _ => id
  rintro ⟨altered, clean, lastClust, freeClust⟩
  have lastClust' : s₁.lastClust = t.fs.lastClust := congrArg (fun c => c.2.1) kept.counts
  refine ⟨(kept.changed.trans stored.toChanged).toAltered.trans (altered.mono fun _ => False.elim),
    ?_, clean,
    lastClust.trans lastClust', freeClust.trans kept.freeClust, rfl, rfl⟩
  rw [altered.view _ own id, stored.stored, win]

/-- A file that has not been written stays as it is. -/
theorem fSync_unwritten (usable : Usable g t.fp) (unwritten : t.fp.written = false) :
    After (fSync g faults) (fun _ t' => t' = t) (fun _ _ => False) t := by
  unfold fSync
  rw [after_bind, after_validate usable.opened usable.id, after_bind, after_get,
    if_neg (by rw [unwritten]; exact Bool.false_ne_true)]
  exact rfl

end D2xCios.FatFs
