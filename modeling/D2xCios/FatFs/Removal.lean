import D2xCios.FatFs.Directories

/-!
# Removing a file from a directory

`dir_remove` marks the entry of a file as deleted, and those of its long name in front of it. Under
all other names is found what has been found before.
-/

namespace D2xCios.FatFs

open D2xCios.Lib
open D2xCios.Fat.Wrapper (FError)

variable (g : Geometry) (faults : Faults)

/-! ## The source -/

/-- The loop of `dir_remove` up to the entry `i`. -/
def removeEntries (i : Nat) : (fuel : Nat) → Dir → FsM Unit
  | 0, _ => return
  | fuel + 1, dj => do
    moveWindow g faults dj.sect
    modifyWin fun win => win.write dj.dir 0xE5
    setWflag
    if i ≤ dj.index then return
    else
      let dj ← tryCatch (dirNext g faults dj false)
        fun e => throw (if e = .noFile then .intErr else e)
      removeEntries i fuel dj

/-- Where `dir_remove` starts. -/
def Dir.top (dj : Dir) : Nat := if dj.lfnIdx = 0xFFFF then dj.index else dj.lfnIdx

/-- `dir_remove` -/
def dirRemove (dj : Dir) : FsM Unit := do
  let top ← dirSdi g faults dj dj.top
  removeEntries g faults dj.index 65536 top

variable {g faults} {s : Fatfs} {cells : List Nat} {dj : Dir} {sclust : Nat}

/-! ## Marking entries as deleted -/

/-- The sectors of the table of a directory. -/
def Geometry.InTable (g : Geometry) (cells : List Nat) (n : Nat) : Prop :=
  ∃ q < g.dirSectors cells, n = g.dirSector cells q

variable (g faults cells) in
/-- A step that marks some entries as deleted and leaves everything else as it was. -/
structure Marked (first last : Nat) (s s' : Fatfs) : Prop extends
    Changed g faults (g.InTable cells) s s' where
  counts : s'.counts = s.counts
  entry : ∀ k < g.dirSize cells, s'.dirEntry g cells k =
    if first ≤ k ∧ k ≤ last then (s.dirEntry g cells k).write 0 0xE5 else s.dirEntry g cells k

/-- A map that does not depend on the place. -/
theorem mapIdx_eq_map {α : Type} {f : Nat → α → α} {h : α → α} {l : List α}
    (same : ∀ i < l.length, ∀ a, f i a = h a) : l.mapIdx f = l.map h := by
  refine List.ext_getElem (by rw [List.length_mapIdx, List.length_map]) fun i i_lt _ => ?_
  rw [List.length_mapIdx] at i_lt
  rw [List.getElem_mapIdx, List.getElem_map, same i i_lt]

/-- The entries with some of them marked. -/
theorem Marked.entries {first last : Nat} {s' : Fatfs}
    (marked : Marked g faults cells first last s s') :
    s'.dirEntries g cells = (s.dirEntries g cells).mapIdx fun k e =>
      if first ≤ k ∧ k ≤ last then e.write 0 0xE5 else e := by
  refine List.ext_getElem (by rw [List.length_mapIdx, dirEntries_length, dirEntries_length])
    fun k k_lt _ => ?_
  rw [dirEntries_length] at k_lt
  rw [List.getElem_mapIdx]
  simp only [Fatfs.dirEntries, List.getElem_map, List.getElem_range]
  exact marked.entry k k_lt

/-- The sectors of a table are in no FAT. -/
theorem Geometry.HasTable.not_inFat {fat : Nat → Nat} (table : g.HasTable fat sclust cells)
    (wf : g.Wf) {n : Nat} (inside : g.InTable cells n) : ¬ g.InFat n := by
  obtain ⟨q, q_lt, rfl⟩ := inside
  by_cases none : cells = []
  · have behind := (table.root none).2.behind
    rw [Geometry.dirSector, if_pos none]
    intro fat
    have first := copy_lt (k := 0) fat.2 wf.nFats
    omega
  · rw [Geometry.dirSectors, if_neg none] at q_lt
    rw [Geometry.dirSector, if_neg none]
    obtain ⟨c, member, -, here⟩ := sectorAt_inCluster wf q_lt
    exact InCluster.not_inFat wf (table.inside member) here

/-- The sectors of the table are apart. -/
theorem Geometry.HasTable.sector_inj {fat : Nat → Nat} (table : g.HasTable fat sclust cells)
    (wf : g.Wf) {q q' : Nat} (q_lt : q < g.dirSectors cells) (q_lt' : q' < g.dirSectors cells)
    (same : g.dirSector cells q = g.dirSector cells q') : q = q' := by
  by_cases none : cells = []
  · rw [Geometry.dirSector, if_pos none, Geometry.dirSector, if_pos none] at same
    exact Nat.add_left_cancel same
  · rw [Geometry.dirSectors, if_neg none] at q_lt q_lt'
    rw [Geometry.dirSector, if_neg none, Geometry.dirSector, if_neg none] at same
    exact sectorAt_inj wf (table.chain none) q_lt q_lt' same

/-- A table that has changed inside is still one. -/
theorem Changed.hasTable {s' : Fatfs} (changed : Changed g faults (g.InTable cells) s s')
    (wf : g.Wf) (table : g.HasTable (s.fat g) sclust cells) :
    g.HasTable (s'.fat g) sclust cells := by
  have area := changed.toAltered.area wf fun n fat inside => table.not_inFat wf inside fat
  have same : s'.fat g = s.fat g := by
    funext c
    rw [Fatfs.fat, area, Fatfs.fat]
  rw [same]
  exact table

/-- A byte that is written at the start of an entry. -/
theorem entryAt_write (win : Sector) (place : Nat) (b : UInt8) :
    entryAt (win.write place b) place = (entryAt win place).write 0 b := by
  funext k
  by_cases first : k = 0
  · rw [first, Cells.write_same, entryAt, if_pos (by decide), Nat.add_zero, Cells.write_same]
  · rw [Cells.write_other _ _ first, entryAt, entryAt, Cells.write_other _ _ (by omega)]

/-- A byte that is written leaves the other entries. -/
theorem entryAt_write_other (win : Sector) {m n : Nat} (apart : m ≠ n) (b : UInt8) :
    entryAt (win.write (n * 32) b) (m * 32) = entryAt win (m * 32) := by
  funext k
  unfold entryAt
  split
  case isTrue inside => rw [Cells.write_other _ _ (by omega)]
  case isFalse => rfl

/-- One entry is marked in the window. -/
theorem marked_window (wf : g.Wf) (table : g.HasTable (s.fat g) sclust cells)
    (here : g.AtEntry sclust cells dj) (place : s.winsect = dj.sect) :
    Marked g faults cells dj.index dj.index s
      { s with win := s.win.write dj.dir 0xE5, wflag := true } := by
  have sector := dirEntry_sector wf here.index
  have own : g.Own dj.sect := here.sect ▸ table.own wf sector
  have stored : Stored g faults dj.sect (s.win.write dj.dir 0xE5) s _ :=
    stored_window wf place own _
  have win : s.view dj.sect = s.win := by
    rw [← place, view_window (place ▸ own.ne_zero wf)]
  refine ⟨stored.toChanged.mono fun n same => ⟨_, sector, same.trans here.sect⟩, stored.counts,
    fun k k_lt => ?_⟩
  unfold Fatfs.dirEntry
  by_cases same : k / g.perSector = dj.index / g.perSector
  · rw [same, ← here.sect, stored.stored, win, here.dir]
    by_cases equal : k = dj.index
    · rw [if_pos (by omega), equal, entryAt_write]
    · have apart : k % g.perSector ≠ dj.index % g.perSector := fun rest => equal (by
        rw [← Nat.div_add_mod k g.perSector, same, rest, Nat.div_add_mod])
      rw [if_neg (by omega), entryAt_write_other _ apart]
  · have other : g.dirSector cells (k / g.perSector) ≠ dj.sect := fun equal =>
      same (table.sector_inj wf (dirEntry_sector wf k_lt) sector (equal.trans here.sect))
    have apart : k ≠ dj.index := fun equal => same (by rw [equal])
    rw [if_neg (by omega), stored.view _ (table.own wf (dirEntry_sector wf k_lt)) other]

/-- Entries are marked behind what is kept. -/
theorem Kept.marked {first last : Nat} {s' s'' : Fatfs} (kept : Kept g faults s s')
    (marked : Marked g faults cells first last s' s'') (wf : g.Wf)
    (table : g.HasTable (s.fat g) sclust cells) : Marked g faults cells first last s s'' := by
  refine ⟨kept.changed.trans marked.toChanged, marked.counts.trans kept.counts, fun k k_lt => ?_⟩
  have same : s'.dirEntry g cells k = s.dirEntry g cells k := by
    rw [Fatfs.dirEntry, kept.same (table.own wf (dirEntry_sector wf k_lt)), Fatfs.dirEntry]
  rw [marked.entry k k_lt, same]

/-- One entry is marked, and then the others. -/
theorem Marked.trans {first last : Nat} {s' s'' : Fatfs}
    (one : Marked g faults cells first first s s')
    (rest : Marked g faults cells (first + 1) last s' s'') (first_le : first ≤ last) :
    Marked g faults cells first last s s'' := by
  refine ⟨one.toChanged.trans rest.toChanged, rest.counts.trans one.counts, fun k k_lt => ?_⟩
  rw [rest.entry k k_lt, one.entry k k_lt]
  by_cases here : k = first
  · rw [if_neg (by omega), if_pos (by omega), if_pos (by omega)]
  · by_cases later : first + 1 ≤ k ∧ k ≤ last
    · rw [if_pos later, if_neg (by omega), if_pos (by omega)]
    · rw [if_neg later, if_neg (by omega), if_neg (by omega)]

/-- The loop marks the entries up to the one that it is given. -/
theorem removeEntries_spec (wf : g.Wf) (coherent : s.Coherent g)
    (table : g.HasTable (s.fat g) sclust cells) {i : Nat} (i_lt : i < g.dirSize cells) (fuel : Nat)
    (here : g.AtEntry sclust cells dj) (index_le : dj.index ≤ i) (enough : i < dj.index + fuel) :
    After (removeEntries g faults i fuel dj)
      (fun _ s' => Marked g faults cells dj.index i s s') (fun e _ => Broken faults e) s := by
  induction fuel generalizing dj s with
  | zero => omega
  | succ fuel ih =>
    unfold removeEntries
    rw [after_bind]
    refine (moveWindow_entry wf coherent table here).mono (fun _ s₁ => ?_) fun _ _ => id
    rintro ⟨kept, place, -⟩
    have one : Marked g faults cells dj.index dj.index s _ :=
      kept.marked (marked_window wf (kept.hasTable wf table) here place) wf table
    rw [after_bind, modifyWin, after_modify, after_bind, setWflag, after_modify]
    by_cases last : i ≤ dj.index
    · rw [if_pos last, after_pure]
      obtain rfl := Nat.le_antisymm last index_le
      exact one
    · rw [if_neg last, after_bind, after_tryCatch]
      refine (dirNext_spec wf one.coherent (one.toChanged.hasTable wf table) here).mono
        (fun dj' s₂ => ?_) fun e s₂ => ?_
      · rintro ⟨here', index, kept'⟩
        have table' := kept'.hasTable wf (one.toChanged.hasTable wf table)
        refine (ih kept'.coherent table' here' (by omega) (by omega)).mono (fun _ s₃ => ?_)
          fun _ _ => id
        rw [index]
        exact fun rest => one.trans (kept'.marked rest wf (one.toChanged.hasTable wf table))
          index_le
      · rintro (⟨-, ended, -⟩ | ⟨rfl, broken⟩)
        · omega
        · exact ⟨rfl, broken⟩

/-- `dir_remove` marks the entries of a file, and those of its long name. -/
theorem dirRemove_spec (wf : g.Wf) (coherent : s.Coherent g)
    (table : g.HasTable (s.fat g) dj.sclust cells) (index_lt : dj.index < g.dirSize cells)
    (top_le : dj.top ≤ dj.index) :
    After (dirRemove g faults dj) (fun _ s' => Marked g faults cells dj.top dj.index s s')
      (fun e _ => Broken faults e) s := by
  unfold dirRemove
  rw [after_bind]
  refine (dirSdi_spec wf coherent table (Nat.lt_of_le_of_lt top_le index_lt)).mono
    (fun dj' s₁ => ?_) fun _ _ => id
  rintro ⟨here, index, kept⟩
  have size_le : g.dirSize cells ≤ 65536 := Nat.min_le_left _ _
  refine (removeEntries_spec wf kept.coherent (kept.hasTable wf table) index_lt 65536 here
    (by omega) (by omega)).mono (fun _ s₂ => ?_) fun _ _ => id
  rw [index]
  exact fun marked => kept.marked marked wf table

/-! ## Removing a file -/

variable {fn : Mem} {lfn : Option (Cells WChar)}

/-- The entries that `dir_remove` marks are those of the file that has been found. -/
theorem Marked.removed {before segs after : List Mem} {e : Mem} {s' : Fatfs}
    (marked : Marked g faults cells before.length (before.length + segs.length) s s')
    (whole : s.dirEntries g cells = before ++ ((segs ++ [e]) ++ after))
    (used : ∀ b ∈ before ++ (segs ++ [e]), b 0 ≠ 0) (nameless : Nameless segs) (file : IsFile e) :
    Removed (s.dirEntries g cells) (s'.dirEntries g cells) before segs e := by
  refine ⟨used, ⟨after, whole, ?_⟩, nameless, file⟩
  rw [marked.entries, whole, List.mapIdx_append, List.mapIdx_append]
  congr 1
  · refine (mapIdx_eq_map fun k k_lt e => ?_).trans (List.map_id _)
    exact if_neg (by omega)
  · congr 1
    · refine mapIdx_eq_map fun k k_lt e => if_pos ?_
      rw [List.length_append, List.length_singleton] at k_lt
      omega
    · refine (mapIdx_eq_map fun k k_lt e => ?_).trans (List.map_id _)
      rw [List.length_append, List.length_singleton]
      exact if_neg (by omega)

/-- `dir_remove` takes the file that has been found out of the directory. -/
theorem dirRemove_found (wf : g.Wf) (coherent : s.Coherent g)
    (table : g.HasTable (s.fat g) dj.sclust cells)
    (found : findEntry fn lfn (s.dirEntries g cells) = some (dj.index, dj.lfnIdx)) :
    After (dirRemove g faults dj) (fun _ s' => Marked g faults cells dj.top dj.index s s' ∧
      ∃ before segs e, dj.index = before.length + segs.length ∧
        Removed (s.dirEntries g cells) (s'.dirEntries g cells) before segs e)
      (fun e _ => Broken faults e) s := by
  obtain ⟨before, segs, e, after, next, used, index, file, -, top⟩ := findEntry_some found
  have size_le : g.dirSize cells ≤ 65536 := Nat.min_le_left _ _
  obtain ⟨rest, whole⟩ :=
    List.takeWhile_prefix (l := s.dirEntries g cells) fun e => decide (e 0 ≠ 0)
  have whole' : s.dirEntries g cells = before ++ ((segs ++ [e]) ++ (after ++ rest)) := by
    rw [← whole, show List.takeWhile _ _ = before ++ ((segs ++ [e]) ++ after) from used]
    simp only [List.append_assoc]
  have live : ∀ b ∈ before ++ (segs ++ [e]), b 0 ≠ 0 := fun b member => by
    have inside : b ∈ inUse (s.dirEntries g cells) := by
      rw [used, ← List.append_assoc]
      exact List.mem_append_left _ member
    exact ne_of_mem_inUse inside
  have index_lt : dj.index < g.dirSize cells := by
    rw [← dirEntries_length (s := s), whole', index]
    simp only [List.length_append, List.length_cons, List.length_nil]
    omega
  have start : dj.top = before.length ∧ Nameless segs := by
    unfold Dir.top
    rcases top with ⟨place, run, -⟩ | ⟨none, rfl, -⟩
    · have some := List.length_pos_iff.2 run.ne_nil
      rw [if_neg (by omega), place]
      exact ⟨rfl, fun b member => .inr (run.live b member).2⟩
    · rw [if_pos none, index, List.length_nil, Nat.add_zero]
      exact ⟨rfl, nofun⟩
  refine (dirRemove_spec wf coherent table index_lt (by omega)).mono (fun _ s' => ?_) fun _ _ => id
  intro marked
  refine ⟨marked, before, segs, e, index, ?_⟩
  rw [start.1, index] at marked
  exact marked.removed whole' live start.2 file

/-- A file that is found by its name is removed: its entries get a mark, and nothing else is
changed. Under any name is found afterwards what has been found before, but for the file itself. -/
theorem find_remove (wf : g.Wf) (coherent : s.Coherent g)
    (table : g.HasTable (s.fat g) dj.sclust cells) (fn : Mem) (lfn : Option (Cells WChar)) :
    After (do let found ← dirFind g faults fn lfn dj; dirRemove g faults found; return found)
      (fun found s' => Marked g faults cells found.top found.index s s' ∧
        findEntry fn lfn (s.dirEntries g cells) = some (found.index, found.lfnIdx) ∧
        ∀ fn' lfn', findEntry fn' lfn' (s'.dirEntries g cells) =
            findEntry fn' lfn' (s.dirEntries g cells) ∨
          (∃ lfnIdx, findEntry fn' lfn' (s.dirEntries g cells) = some (found.index, lfnIdx)) ∧
            ∀ place ∈ findEntry fn' lfn' (s'.dirEntries g cells), found.index < place.1)
      (fun e s' => e = .noFile ∧ findEntry fn lfn (s.dirEntries g cells) = none ∧
        Kept g faults s s' ∨ Broken faults e) s := by
  rw [after_bind]
  refine (dirFind_finds wf coherent table).mono (fun found s₁ => ?_) fun _ _ => id
  rintro ⟨there, here, kept⟩
  have same := kept.dirEntries wf table
  rw [after_bind]
  have table' : g.HasTable (s₁.fat g) found.sclust cells := here.start ▸ kept.hasTable wf table
  refine (dirRemove_found wf kept.coherent table' (same ▸ there)).mono (fun _ s₂ => ?_)
    fun _ _ => .inr
  rintro ⟨marked, before, segs, e, index, removed⟩
  rw [same] at removed
  refine ⟨kept.marked marked wf table, there, fun fn' lfn' => ?_⟩
  rw [index]
  exact removed.findEntry fn' lfn'

/-- The file with the long name is removed, and its two entries get marks. -/
theorem small_find_remove :
    findEntry lossyName (some smallLfn) (smallNamed.dirEntries small []) = some (2, 1) ∧
    After (do
        let found ← dirFind small .never lossyName (some smallLfn) rootDir
        dirRemove small .never found
        return found)
      (fun found s' => Marked small .never [] found.top found.index smallNamed s' ∧
        findEntry lossyName (some smallLfn) (smallNamed.dirEntries small []) =
          some (found.index, found.lfnIdx) ∧
        ∀ fn' lfn', findEntry fn' lfn' (s'.dirEntries small []) =
            findEntry fn' lfn' (smallNamed.dirEntries small []) ∨
          (∃ lfnIdx, findEntry fn' lfn' (smallNamed.dirEntries small []) =
              some (found.index, lfnIdx)) ∧
            ∀ place ∈ findEntry fn' lfn' (s'.dirEntries small []), found.index < place.1)
      (fun e s' => e = .noFile ∧
        findEntry lossyName (some smallLfn) (smallNamed.dirEntries small []) = none ∧
        Kept small .never smallNamed s' ∨ Broken .never e) smallNamed :=
  ⟨by decide +kernel, find_remove small_wf smallNamed_coherent smallNamed_table _ _⟩

end D2xCios.FatFs
