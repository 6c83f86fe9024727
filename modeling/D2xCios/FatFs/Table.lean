import D2xCios.FatFs.Window
import D2xCios.Lib.Blocks

/-!
# The entries of the FAT

`get_fat` and `put_fat` reach an entry through the window, one of 12 bits that lies across two
sectors in two steps. The bytes of the first FAT are an area in which the entries are packed:
`get_fat` is the entry there, and `put_fat` stores it and changes nothing else.
-/

namespace D2xCios.FatFs

open D2xCios.Lib

variable (g : Geometry) (faults : Faults)

/-! ## The source -/

/-- The part of `get_fat` that looks at the sub-type. -/
def loadEntry (clst : Nat) : FsM Nat :=
  match g.fsType with
  | .fat12 => do
    let bc := clst + clst / 2
    moveWindow g faults (g.fatbase + bc / g.ssize)
    let low := ((← get).win (bc % g.ssize)).toNat
    moveWindow g faults (g.fatbase + (bc + 1) / g.ssize)
    let wc := low ||| ((← get).win ((bc + 1) % g.ssize)).toNat <<< 8
    return if clst % 2 = 1 then wc >>> 4 else wc &&& 0xFFF
  | .fat16 => do
    moveWindow g faults (g.fatbase + clst / (g.ssize / 2))
    return le16 (← get).win (clst * 2 % g.ssize)
  | .fat32 => do
    moveWindow g faults (g.fatbase + clst / (g.ssize / 4))
    return le32 (← get).win (clst * 4 % g.ssize) &&& 0x0FFFFFFF

/-- `get_fat`: 0xFFFFFFFF for an error of the disk, and 1 for a cluster that there is not. -/
def getFat (clst : Nat) : FsM Nat :=
  if clst < 2 ∨ g.nFatent ≤ clst then return 1
  else tryCatch (loadEntry g faults clst) fun _ => return 0xFFFFFFFF

/-- `win` gets other bytes. -/
def modifyWin (f : Sector → Sector) : FsM Unit := modify fun s => { s with win := f s.win }

/-- `wflag` is set. -/
def setWflag : FsM Unit := modify fun s => { s with wflag := true }

/-- The first byte of an entry of 12 bits. -/
def lowByte (clst val : Nat) (p : UInt8) : UInt8 :=
  if clst % 2 = 1 then (p &&& (0x0F : UInt8)) ||| UInt8.ofNat val <<< (4 : UInt8)
  else UInt8.ofNat val

/-- The second byte of an entry of 12 bits. -/
def highByte (clst val : Nat) (p : UInt8) : UInt8 :=
  if clst % 2 = 1 then UInt8.ofNat (val >>> 4)
  else (p &&& (0xF0 : UInt8)) ||| (UInt8.ofNat (val >>> 8) &&& (0x0F : UInt8))

/-- The part of `put_fat` that looks at the sub-type. -/
def storeEntry (clst val : Nat) : FsM Unit :=
  match g.fsType with
  | .fat12 => do
    let bc := clst + clst / 2
    moveWindow g faults (g.fatbase + bc / g.ssize)
    modifyWin fun win => win.write (bc % g.ssize) (lowByte clst val (win (bc % g.ssize)))
    setWflag
    moveWindow g faults (g.fatbase + (bc + 1) / g.ssize)
    modifyWin fun win =>
      win.write ((bc + 1) % g.ssize) (highByte clst val (win ((bc + 1) % g.ssize)))
  | .fat16 => do
    moveWindow g faults (g.fatbase + clst / (g.ssize / 2))
    modifyWin fun win => putLe16 win (clst * 2 % g.ssize) val
  | .fat32 => do
    moveWindow g faults (g.fatbase + clst / (g.ssize / 4))
    modifyWin fun win => putLe32 win (clst * 4 % g.ssize)
      (val ||| le32 win (clst * 4 % g.ssize) &&& 0xF0000000)

/-- `put_fat`. The window counts as changed even behind an error. -/
def putFat (clst val : Nat) : FsM Unit :=
  if clst < 2 ∨ g.nFatent ≤ clst then throw .intErr
  else do
    tryCatch (storeEntry g faults clst val) fun e => do
      setWflag
      throw e
    setWflag

/-! ## The FAT -/

/-- The bytes of the first FAT, and 0 behind it. -/
def Fatfs.area (s : Fatfs) : Mem := fun k =>
  if k < g.fsize * g.ssize then s.view (g.fatbase + k / g.ssize) (k % g.ssize) else 0

/-- The entry of a cluster. -/
def Fatfs.fat (s : Fatfs) (clst : Nat) : Nat := g.fsType.packing.get (s.area g) clst

/-- A sector of the first FAT. -/
def Geometry.InFat (n : Nat) : Prop := g.fatbase ≤ n ∧ n < g.fatbase + g.fsize

variable {g faults} {s : Fatfs}

/-- The sectors of a FAT are the file system's own. -/
theorem Geometry.InFat.own {n : Nat} (inside : g.InFat n) (wf : g.Wf) : g.Own n :=
  ⟨inside.1, .inl inside.2, inFat_limit wf inside.2⟩

theorem Geometry.Wf.ssize_pos (wf : g.Wf) : 0 < g.ssize := by
  obtain ⟨k, ssize, -, -⟩ := wf.ssize
  rw [ssize]
  exact Nat.two_pow_pos k

/-- An entry of two or of four bytes does not lie across sectors. -/
theorem Geometry.Wf.four_dvd (wf : g.Wf) : 4 ∣ g.ssize := by
  obtain ⟨k, ssize, low, -⟩ := wf.ssize
  rw [ssize]
  exact Nat.pow_dvd_pow 2 (show 2 ≤ k by omega)

/-- The bytes of a FAT are in its sectors. -/
theorem inFat_of_lt (wf : g.Wf) {k : Nat} (k_lt : k < g.fsize * g.ssize) :
    g.InFat (g.fatbase + k / g.ssize) := by
  have sector := (Nat.div_lt_iff_lt_mul wf.ssize_pos).2 k_lt
  exact ⟨Nat.le_add_right _ _, Nat.add_lt_add_left sector _⟩

/-- The bytes of the FAT are kept. -/
theorem Kept.area {s' : Fatfs} (wf : g.Wf) (kept : Kept g faults s s') : s'.area g = s.area g := by
  funext k
  unfold Fatfs.area
  split
  case isFalse => rfl
  case isTrue k_lt => rw [kept.same ((inFat_of_lt wf k_lt).own wf)]

/-- The entries of the FAT are kept. -/
theorem Kept.fat {s' : Fatfs} (wf : g.Wf) (kept : Kept g faults s s') : s'.fat g = s.fat g := by
  funext c
  rw [Fatfs.fat, kept.area wf, Fatfs.fat]

/-- A step that does not change the FAT leaves the entries as they are. -/
theorem Altered.area {W : Nat → Prop} {s' : Fatfs} (wf : g.Wf) (altered : Altered g faults W s s')
    (outside : ∀ n, g.InFat n → ¬ W n) : s'.area g = s.area g := by
  funext k
  unfold Fatfs.area
  split
  case isFalse => rfl
  case isTrue k_lt =>
    have inside := inFat_of_lt wf k_lt
    rw [altered.view _ (inside.own wf) (outside _ inside)]

/-- A byte of the window is a byte of the FAT. -/
theorem view_area {k : Nat} (k_lt : k < g.fsize * g.ssize) :
    s.view (g.fatbase + k / g.ssize) (k % g.ssize) = s.area g k := (if_pos k_lt).symm

/-- Bytes of an entry in one sector. -/
theorem place_add {k i d : Nat} (wf : g.Wf) (divides : d ∣ g.ssize) (aligned : d ∣ k)
    (i_lt : i < d) :
    (k + i) / g.ssize = k / g.ssize ∧ (k + i) % g.ssize = k % g.ssize + i := by
  obtain ⟨m, ssize⟩ := divides
  obtain ⟨c, rfl⟩ := aligned
  have m_pos : 0 < m := by
    by_contra none
    have zero := wf.ssize_pos
    rw [ssize, Nat.eq_zero_of_not_pos none] at zero
    omega
  have rest : d * c % g.ssize + i < g.ssize := by
    rw [ssize, Nat.mul_mod_mul_left]
    have next : d * (c % m + 1) ≤ d * m := Nat.mul_le_mul_left d (Nat.mod_lt c m_pos)
    rw [Nat.mul_add] at next
    omega
  exact within_block rest

/-- The window is changed in one byte. -/
theorem area_write (wf : g.Wf) {k : Nat} (k_lt : k < g.fsize * g.ssize)
    (place : s.winsect = g.fatbase + k / g.ssize) (b : UInt8) :
    Fatfs.area g { s with win := s.win.write (k % g.ssize) b, wflag := true } =
      Cells.write (s.area g) k b := by
  have own := (inFat_of_lt wf k_lt).own wf
  have inside := own.ne_zero wf
  funext j
  by_cases same : j = k
  · subst same
    rw [Cells.write_same, Fatfs.area, if_pos k_lt, ← place]
    exact (congrFun (view_window (place ▸ inside)) _).trans (Cells.write_same ..)
  · rw [Cells.write_other _ _ same]
    unfold Fatfs.area
    split
    case isFalse => rfl
    case isTrue j_lt =>
      by_cases here : g.fatbase + j / g.ssize = s.winsect
      · have apart : j % g.ssize ≠ k % g.ssize := by
          intro equal
          have sector : j / g.ssize = k / g.ssize := by omega
          exact same
            (by rw [← Nat.div_add_mod j g.ssize, ← Nat.div_add_mod k g.ssize, sector, equal])
        rw [here, view_window (s := s) (place ▸ inside)]
        exact (congrFun (view_window (place ▸ inside)) _).trans (Cells.write_other _ _ apart)
      · rw [view_other (s := s) here]
        exact congrFun (if_neg fun both => here both.1) _

/-- The sector of a byte of the FAT gets into the window. -/
theorem moveWindow_area (wf : g.Wf) (coherent : s.Coherent g) {k : Nat}
    (k_lt : k < g.fsize * g.ssize) :
    After (moveWindow g faults (g.fatbase + k / g.ssize)) (fun _ s' => Kept g faults s s' ∧
      s'.winsect = g.fatbase + k / g.ssize ∧ s'.win (k % g.ssize) = s.area g k)
      (fun e _ => Broken faults e) s := by
  refine (moveWindow_loads wf coherent ((inFat_of_lt wf k_lt).own wf)).mono (fun _ s' => ?_)
    fun _ _ => id
  rintro ⟨kept, place, win⟩
  exact ⟨kept, place, by rw [win, view_area k_lt]⟩

/-- The bytes of an entry in a sector. -/
theorem view_area_add (wf : g.Wf) {k i d : Nat} (divides : d ∣ g.ssize) (aligned : d ∣ k)
    (i_lt : i < d) (inside : k + i < g.fsize * g.ssize) :
    s.view (g.fatbase + k / g.ssize) (k % g.ssize + i) = s.area g (k + i) := by
  have place := place_add wf divides aligned i_lt
  rw [← view_area inside, place.1, place.2]

/-- The sector in which an entry of a power of two bytes lies. -/
theorem entry_sector {d c : Nat} (d_pos : 0 < d) (divides : d ∣ g.ssize) :
    c / (g.ssize / d) = d * c / g.ssize := by
  obtain ⟨m, ssize⟩ := divides
  rw [ssize, Nat.mul_div_cancel_left m d_pos, Nat.mul_div_mul_left c m d_pos]

/-- An aligned word of 16 bits lies in one sector of the FAT. -/
theorem le16_view (wf : g.Wf) {k : Nat} (aligned : 2 ∣ k) (inside : k + 2 ≤ g.fsize * g.ssize) :
    le16 (s.view (g.fatbase + k / g.ssize)) (k % g.ssize) = le16 (s.area g) k := by
  have even : 2 ∣ g.ssize := Nat.dvd_trans (by decide) wf.four_dvd
  have b0 := view_area_add (s := s) wf (i := 0) even aligned (by omega) (by omega)
  have b1 := view_area_add (s := s) wf (i := 1) even aligned (by omega) (by omega)
  rw [Nat.add_zero, Nat.add_zero] at b0
  rw [le16, b0, b1, le16]

/-- An aligned word of 32 bits lies in one sector of the FAT. -/
theorem le32_view (wf : g.Wf) {k : Nat} (aligned : 4 ∣ k) (inside : k + 4 ≤ g.fsize * g.ssize) :
    le32 (s.view (g.fatbase + k / g.ssize)) (k % g.ssize) = le32 (s.area g) k := by
  have b0 := view_area_add (s := s) wf (i := 0) wf.four_dvd aligned (by omega) (by omega)
  have b1 := view_area_add (s := s) wf (i := 1) wf.four_dvd aligned (by omega) (by omega)
  have b2 := view_area_add (s := s) wf (i := 2) wf.four_dvd aligned (by omega) (by omega)
  have b3 := view_area_add (s := s) wf (i := 3) wf.four_dvd aligned (by omega) (by omega)
  rw [Nat.add_zero, Nat.add_zero] at b0
  rw [le32, b0, b1, b2, b3, le32]

/-! ## Loading an entry -/

/-- An entry is loaded as it stands in the FAT. -/
theorem loadEntry_spec (wf : g.Wf) (coherent : s.Coherent g) {clst : Nat}
    (clst_lt : clst < g.nFatent) :
    After (loadEntry g faults clst) (fun r s' => r = s.fat g clst ∧ Kept g faults s s')
      (fun e _ => Broken faults e) s := by
  have fits := wf.table clst clst_lt
  unfold loadEntry Fatfs.fat
  cases type : g.fsType with
  | fat12 =>
    rw [type] at fits
    change clst + clst / 2 + 2 ≤ _ at fits
    rw [after_bind]
    refine (moveWindow_area (k := clst + clst / 2) wf coherent (by omega)).mono (fun _ s₁ => ?_)
      fun _ _ => id
    rintro ⟨kept, -, low⟩
    simp only [after_bind, after_get]
    refine (moveWindow_area (k := clst + clst / 2 + 1) wf kept.coherent (by omega)).mono
      (fun _ s₂ => ?_) fun _ _ => id
    rintro ⟨kept', -, high⟩
    refine ⟨?_, kept.trans kept'⟩
    have byte := (s.area g (clst + clst / 2)).toNat_lt
    rw [low, high, kept.area wf, Nat.shiftLeft_eq, or_upper _ byte]
    change _ = get12 (s.area g) clst
    unfold get12 pair12 le16
    split
    case isTrue =>
      rw [Nat.shiftRight_eq_div_pow, Nat.mul_comm _ (2 ^ 8)]
      rfl
    case isFalse =>
      rw [Nat.mul_comm _ (2 ^ 8)]
      exact Nat.and_two_pow_sub_one_eq_mod _ 12
  | fat16 =>
    rw [type] at fits
    change 2 * clst + 2 ≤ _ at fits
    have even : 2 ∣ g.ssize := Nat.dvd_trans (by decide) wf.four_dvd
    rw [after_bind, entry_sector (c := clst) (by decide : 0 < 2) even]
    refine (moveWindow_loads wf coherent ((inFat_of_lt wf (by omega)).own wf)).mono (fun _ s₁ => ?_)
      fun _ _ => id
    rintro ⟨kept, -, win⟩
    refine ⟨?_, kept⟩
    rw [win, Nat.mul_comm clst, le16_view wf ⟨clst, rfl⟩ fits]
    rfl
  | fat32 =>
    rw [type] at fits
    change 4 * clst + 4 ≤ _ at fits
    rw [after_bind, entry_sector (c := clst) (by decide : 0 < 4) wf.four_dvd]
    refine (moveWindow_loads wf coherent ((inFat_of_lt wf (by omega)).own wf)).mono (fun _ s₁ => ?_)
      fun _ _ => id
    rintro ⟨kept, -, win⟩
    refine ⟨?_, kept⟩
    rw [win, Nat.mul_comm clst, le32_view wf ⟨clst, rfl⟩ fits]
    exact Nat.and_two_pow_sub_one_eq_mod _ 28

/-- `get_fat` yields the entry, or says that the disk has failed. -/
theorem getFat_spec (wf : g.Wf) (coherent : s.Coherent g) {clst : Nat} (two_le : 2 ≤ clst)
    (clst_lt : clst < g.nFatent) :
    After (getFat g faults clst) (fun r s' =>
      (r = s.fat g clst ∧ Kept g faults s s') ∨ (r = 0xFFFFFFFF ∧ faults.Any))
      (fun _ _ => False) s := by
  unfold getFat
  rw [if_neg (by omega), after_tryCatch]
  exact (loadEntry_spec wf coherent clst_lt).mono (fun _ _ => .inl) fun _ _ broken =>
    .inr ⟨rfl, broken.2⟩

/-! ## Storing an entry -/

/-- The window is changed in the two bytes of an entry. -/
theorem area_putLe16 (wf : g.Wf) {k : Nat} (aligned : 2 ∣ k) (fits : k + 2 ≤ g.fsize * g.ssize)
    (place : s.winsect = g.fatbase + k / g.ssize) (v : Nat) :
    Fatfs.area g { s with win := putLe16 s.win (k % g.ssize) v, wflag := true } =
      putLe16 (s.area g) k v := by
  have next := place_add wf (Nat.dvd_trans (by decide) wf.four_dvd) aligned (by decide : 1 < 2)
  have first := area_write wf (show k < _ by omega) place (UInt8.ofNat v)
  have second := area_write
    (s := { s with win := s.win.write (k % g.ssize) (UInt8.ofNat v), wflag := true }) wf
    (show k + 1 < _ by omega) (by rw [next.1]; exact place) (UInt8.ofNat (v / 256))
  rw [first, next.2] at second
  exact second

/-- The window is changed in the four bytes of an entry. -/
theorem area_putLe32 (wf : g.Wf) {k : Nat} (aligned : 4 ∣ k) (fits : k + 4 ≤ g.fsize * g.ssize)
    (place : s.winsect = g.fatbase + k / g.ssize) (v : Nat) :
    Fatfs.area g { s with win := putLe32 s.win (k % g.ssize) v, wflag := true } =
      putLe32 (s.area g) k v := by
  have next := place_add wf wf.four_dvd aligned (by decide : 2 < 4)
  have last := place_add wf wf.four_dvd aligned (by decide : 3 < 4)
  have low := area_putLe16 wf (Nat.dvd_trans (by decide) aligned) (show k + 2 ≤ _ by omega) place v
  have third := area_write
    (s := { s with win := putLe16 s.win (k % g.ssize) v, wflag := true }) wf
    (show k + 2 < _ by omega) (by rw [next.1]; exact place) (UInt8.ofNat (v / 65536))
  rw [low, next.2] at third
  have fourth := area_write
    (s := { s with
      win := (putLe16 s.win (k % g.ssize) v).write (k % g.ssize + 2) (UInt8.ofNat (v / 65536))
      wflag := true }) wf
    (show k + 3 < _ by omega) (by rw [last.1]; exact place) (UInt8.ofNat (v / 16777216))
  rw [third, last.2] at fourth
  exact fourth

/-- The first byte of a 12-bit entry, of the two bytes together. -/
theorem lowByte_eq (clst val : Nat) (p q : UInt8) :
    lowByte clst val p = UInt8.ofNat (paired12 (p.toNat + 256 * q.toNat) clst val) := by
  apply UInt8.toNat_inj.1
  rw [UInt8.toNat_ofNat']
  unfold lowByte paired12
  split
  case isFalse =>
    rw [UInt8.toNat_ofNat']
    omega
  case isTrue =>
    have low : p.toNat &&& 15 = p.toNat % 16 := Nat.and_two_pow_sub_one_eq_mod _ 4
    have high : (UInt8.ofNat val <<< (4 : UInt8)).toNat = val % 16 * 2 ^ 4 := by
      simp only [UInt8.toNat_shiftLeft, UInt8.toNat_ofNat', Nat.shiftLeft_eq, UInt8.reduceToNat]
      have amount : 2 ^ (4 % 8) = 16 := rfl
      rw [amount]
      omega
    rw [UInt8.toNat_or, UInt8.toNat_and, high]
    change p.toNat &&& 15 ||| _ = _
    rw [low, or_upper _ (show p.toNat % 16 < 2 ^ 4 by omega)]
    omega

/-- The second byte of a 12-bit entry, of the two bytes together. -/
theorem highByte_eq (clst val : Nat) (p q : UInt8) :
    highByte clst val q = UInt8.ofNat (paired12 (p.toNat + 256 * q.toNat) clst val / 256) := by
  have p_lt := p.toNat_lt
  have q_lt := q.toNat_lt
  apply UInt8.toNat_inj.1
  rw [UInt8.toNat_ofNat']
  unfold highByte paired12
  split
  case isTrue =>
    rw [UInt8.toNat_ofNat', Nat.shiftRight_eq_div_pow]
    omega
  case isFalse =>
    have low : (val >>> 8) % 256 &&& 15 = val / 256 % 16 := by
      rw [Nat.and_two_pow_sub_one_eq_mod _ 4, Nat.shiftRight_eq_div_pow]
      omega
    have high : q.toNat &&& 240 = q.toNat / 16 * 2 ^ 4 :=
      (and_upperMask q.toNat 4 4).trans (by omega)
    rw [UInt8.toNat_or, UInt8.toNat_and, UInt8.toNat_and, UInt8.toNat_ofNat']
    change q.toNat &&& 240 ||| (val >>> 8) % 256 &&& 15 = _
    rw [low, high, Nat.or_comm, or_upper _ (show val / 256 % 16 < 2 ^ 4 by omega)]
    omega

variable (g faults) in
/-- A step that puts `val` in the entry of a cluster. -/
structure Entered (clst val : Nat) (s s' : Fatfs) : Prop extends
    Changed g faults g.InFat s s' where
  counts : s'.counts = s.counts
  fat_same : s'.fat g clst = val % g.fsType.packing.size
  fat_other : ∀ {c}, c ≠ clst → s'.fat g c = s.fat g c

/-- What `put_fat` makes of an entry of 28 bits: all that is stored in the lower ones is the value,
whatever it has in the upper four. -/
theorem get_merged28 (m : Mem) (c v : Nat) :
    packing28.get (putLe32 m (4 * c) (v ||| le32 m (4 * c) &&& 0xF0000000)) c = v % 268435456 := by
  have word := le32_lt m (4 * c)
  have upper : le32 m (4 * c) &&& 0xF0000000 = le32 m (4 * c) / 268435456 * 2 ^ 28 :=
    (and_upperMask _ 28 4).trans (by omega)
  change le32 _ _ % 268435456 = _
  rw [le32_putLe32, upper, show (268435456 : Nat) = 2 ^ 28 from rfl,
    Nat.mod_mod_of_dvd _ (show 2 ^ 28 ∣ 4294967296 by decide), Nat.or_mod_two_pow,
    Nat.mul_mod_left, Nat.or_zero]

/-- A window with a sector of the FAT is changed. -/
theorem changed_window (wf : g.Wf) {s' : Fatfs} (kept : Kept g faults s s') {k : Nat}
    (k_lt : k < g.fsize * g.ssize) (place : s'.winsect = g.fatbase + k / g.ssize) (w : Sector) :
    Changed g faults g.InFat s { s' with win := w, wflag := true } := by
  have inside := inFat_of_lt wf k_lt
  have stored : Stored g faults _ w s' _ := stored_window wf place (inside.own wf) w
  exact kept.changed.trans (stored.toChanged.mono fun n here => here ▸ inside)

/-- The entry is stored, once the window counts as changed. -/
theorem storeEntry_spec (wf : g.Wf) (coherent : s.Coherent g) {clst val : Nat}
    (clst_lt : clst < g.nFatent) :
    After (storeEntry g faults clst val)
      (fun _ s' => Entered g faults clst val s { s' with wflag := true })
      (fun e _ => Broken faults e) s := by
  have fits := wf.table clst clst_lt
  have packed : ∀ {s' : Fatfs} (type : FsType), g.fsType = type →
      Changed g faults g.InFat s s' → s'.counts = s.counts →
      s'.area g = type.packing.put (s.area g) clst val → Entered g faults clst val s s' := by
    rintro s' type rfl changed counts area
    refine ⟨changed, counts, ?_, fun other => ?_⟩
    · rw [Fatfs.fat, area, g.fsType.packing.get_put]
    · rw [Fatfs.fat, area, g.fsType.packing.get_put_other _ _ other, Fatfs.fat]
  unfold storeEntry
  cases type : g.fsType with
  | fat12 =>
    rw [type] at fits
    change clst + clst / 2 + 2 ≤ _ at fits
    simp only [modifyWin, setWflag]
    rw [after_bind]
    refine (moveWindow_area (k := clst + clst / 2) wf coherent (by omega)).mono (fun _ s₁ => ?_)
      fun _ _ => id
    rintro ⟨kept, place, low⟩
    simp only [after_bind, after_modify]
    have changed := changed_window wf kept (by omega) place
      (s₁.win.write ((clst + clst / 2) % g.ssize)
        (lowByte clst val (s₁.win ((clst + clst / 2) % g.ssize))))
    have area := area_write wf (by omega) place
      (lowByte clst val (s₁.win ((clst + clst / 2) % g.ssize)))
    refine (moveWindow_area (k := clst + clst / 2 + 1) wf changed.coherent (by omega)).mono
      (fun _ s₂ => ?_) fun _ _ => id
    rintro ⟨kept', place', high⟩
    have area' := area_write wf (by omega) place'
      (highByte clst val (s₂.win ((clst + clst / 2 + 1) % g.ssize)))
    refine packed .fat12 type (changed.trans (changed_window wf kept' (by omega) place' _))
      (kept'.counts.trans kept.counts) (area'.trans ?_)
    rw [high, kept'.area wf, area, kept.area wf, low, Cells.write_other _ _ (by omega),
      lowByte_eq clst val _ (s.area g (clst + clst / 2 + 1)),
      highByte_eq clst val (s.area g (clst + clst / 2))]
    rfl
  | fat16 =>
    rw [type] at fits
    change 2 * clst + 2 ≤ _ at fits
    have even : 2 ∣ g.ssize := Nat.dvd_trans (by decide) wf.four_dvd
    rw [modifyWin, after_bind, entry_sector (by decide) even]
    refine (moveWindow_area wf coherent (show 2 * clst < _ by omega)).mono (fun _ s₁ => ?_)
      fun _ _ => id
    rintro ⟨kept, place, -⟩
    rw [Nat.mul_comm clst]
    refine packed .fat16 type (changed_window wf kept (by omega) place _) kept.counts
      ((area_putLe16 wf ⟨clst, rfl⟩ fits place val).trans ?_)
    rw [kept.area wf]
    rfl
  | fat32 =>
    rw [type] at fits
    change 4 * clst + 4 ≤ _ at fits
    rw [modifyWin, after_bind, entry_sector (by decide) wf.four_dvd]
    refine (moveWindow_loads wf coherent
      ((inFat_of_lt wf (show 4 * clst < _ by omega)).own wf)).mono
      (fun _ s₁ => ?_) fun _ _ => id
    rintro ⟨kept, place, win⟩
    rw [Nat.mul_comm clst]
    have area := (area_putLe32 wf ⟨clst, rfl⟩ fits place
      (val ||| le32 s₁.win (4 * clst % g.ssize) &&& 0xF0000000)).trans <|
      show _ = putLe32 (s.area g) (4 * clst) (val ||| le32 (s.area g) (4 * clst) &&& 0xF0000000) by
        rw [kept.area wf, win, le32_view wf ⟨clst, rfl⟩ fits]
    refine ⟨changed_window wf kept (by omega) place _, kept.counts, ?_, fun {c} other => ?_⟩
    · rw [Fatfs.fat, type]
      exact (congrArg (packing28.get · clst) area).trans (get_merged28 _ _ _)
    · rw [Fatfs.fat, Fatfs.fat, type]
      refine (congrArg (packing28.get · c) area).trans (packing28.get_congr fun i first last => ?_)
      change 4 * c ≤ i at first
      change i < 4 * c + 4 at last
      exact putLe32_outside _ _ _ (by omega)

/-- `put_fat` stores the entry and changes no other one, and no sector outside the FAT. -/
theorem putFat_spec (wf : g.Wf) (coherent : s.Coherent g) {clst val : Nat} (two_le : 2 ≤ clst)
    (clst_lt : clst < g.nFatent) :
    After (putFat g faults clst val) (fun _ s' => Entered g faults clst val s s')
      (fun e _ => Broken faults e) s := by
  unfold putFat
  rw [if_neg (by omega), after_bind, after_tryCatch]
  exact (storeEntry_spec wf coherent clst_lt).mono (fun _ _ => id) fun _ _ => id

/-! ## Storing and loading -/

/-- Whichever entry is loaded behind a store, through the window and across sectors: it is what has
been stored, as far as the entries have room for it, or what it has been before. Only a disk that
fails makes a difference, and `get_fat` says so. -/
theorem putFat_getFat (wf : g.Wf) (coherent : s.Coherent g) {clst val c : Nat} (two_le : 2 ≤ clst)
    (clst_lt : clst < g.nFatent) (two_le' : 2 ≤ c) (c_lt : c < g.nFatent) :
    After (do putFat g faults clst val; getFat g faults c)
      (fun r s' => r = (if c = clst then val % g.fsType.packing.size else s.fat g c) ∧
          Changed g faults g.InFat s s' ∨ r = 0xFFFFFFFF ∧ faults.Any)
      (fun e _ => Broken faults e) s := by
  rw [after_bind]
  refine (putFat_spec wf coherent two_le clst_lt).mono (fun _ s₁ => ?_) fun _ _ => id
  intro entered
  refine (getFat_spec wf entered.coherent two_le' c_lt).mono (fun r s' => ?_) fun _ _ => False.elim
  rintro (⟨rfl, kept⟩ | broken)
  · refine .inl ⟨?_, entered.toChanged.trans kept.changed⟩
    split
    case isTrue same => rw [same, entered.fat_same]
    case isFalse other => exact entered.fat_other other
  · exact .inr broken

theorem small_putFat_getFat : After (do putFat small .never 3 0x12345; getFat small .never 2)
    (fun r s' => r = (if 2 = 3 then 0x12345 % 4096 else smallFs.fat small 2) ∧
        Changed small .never small.InFat smallFs s' ∨ r = 0xFFFFFFFF ∧ Faults.never.Any)
    (fun e _ => Broken .never e) smallFs :=
  putFat_getFat small_wf small_coherent (by decide) (by decide) (by decide) (by decide)

end D2xCios.FatFs
