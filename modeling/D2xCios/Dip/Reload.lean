import D2xCios.Dip.Backends

/-!
# Emulation over a reload

A session is a module's life from its boot, with the reloads that the emulation
has survived. In every session the saved record is the one of the latest backend
that was set: `Recorded` says how it relates to the backend in use. From that
follows which one the next reload restores, and when it is the same.
-/

namespace D2xCios.Dip

open D2xCios.Lib

variable {σ φ : Type}

/-! ## Backends -/

/-- Where `__DI_ReadUnencrypted` reads from: a fragment list on a device, a WBFS disc on a device,
the drive, or a backend that is not open. -/
inductive Backend where
  | frag (device : Nat) (list : FragList)
  | wbfs (device : UInt32) (discid : List UInt8)
  | disc
  | closed

def Drive.backend (s : Drive σ φ) : Backend :=
  if s.chkMode modeFrag then
    if s.frag.fragList then .frag s.frag.fragDev (.ofMem s.frag.fraglistData) else .closed
  else if s.chkMode modeWbfs then
    match s.wbfs with
    | some (device, discid) => .wbfs device discid
    | none => .closed
  else .disc

/-- The same backend is selected, and no emulation has come up. -/
structure Survives (s s' : Drive σ φ) : Prop where
  backend : s'.backend = s.backend
  frag : s'.chkMode modeFrag = true → s.chkMode modeFrag = true
  wbfs : s'.chkMode modeWbfs = true → s.chkMode modeWbfs = true

/-! ## Mode bits of a record -/

/-- A set bit is set among more bits. -/
theorem and_ne_zero_of_part {mode bits all : UInt32} (part : all &&& bits = bits)
    (set : mode &&& bits ≠ 0) : mode &&& all ≠ 0 := by
  intro clear
  apply set
  rw [← part, ← UInt32.and_assoc, clear, UInt32.zero_and]

/-- A disc is emulated from a WBFS partition or from a fragment list. -/
theorem chkMode_emul (s : Drive σ φ) :
    s.chkMode modeEmul = (s.chkMode modeWbfs || s.chkMode modeFrag) := by
  have distrib : s.config.mode &&& modeEmul =
      (s.config.mode &&& modeWbfs) ||| (s.config.mode &&& modeFrag) := by
    apply UInt32.toBitVec_inj.mp
    exact BitVec.and_or_distrib_left
  rw [Bool.eq_iff_iff]
  simp only [Drive.chkMode, distrib, bne_iff_ne, ne_eq, UInt32.or_eq_zero_iff, Bool.or_eq_true]
  exact Decidable.not_and_iff_or_not

/-! ## Files -/

/-- Every operation on a file or a device succeeds. -/
structure DrivePort.Works (port : DrivePort σ φ) (view : φ → FileStore CfgFile) : Prop
    extends port.Stores view where
  storageInit : ∀ device st, (port.storage.init device st).1 = true
  alloc : ∀ size st, (port.storage.alloc size st).1 ≠ none
  wbfsOpenDevice : ∀ device st, 0 ≤ (port.wbfsOpenDevice device st).1
  wbfsOpenDisc : ∀ fd discid st, (port.wbfsOpenDisc fd discid st).1 = 0
  isfsGetMode : ∀ st, 0 ≤ (port.isfsGetMode st).1

section Files

variable {port : DrivePort σ φ} {view : φ → FileStore CfgFile} (s : Drive σ φ)

/-- Saving the record of the FFS plugin keeps the one of the drive. -/
theorem ffsConfigSave_dip (stores : port.Stores view) : ∃ flash,
    ffsConfigSave port s = ((ffsConfigSize : Int), { s with flash := flash }) ∧
    (view flash).file .dip = (view s.flash).file .dip := by
  obtain ⟨flash, _, save, -, frame⟩ := ffsConfigSave_saved stores s
  exact ⟨flash, save, frame .dip (by decide)⟩

/-- Loading the record of the FFS plugin keeps the one of the drive. -/
theorem ffsConfigLoad_dip (stores : port.Stores view) : ∃ ret ffs flash,
    ffsConfigLoad port s = (ret, { s with ffsCfgState := ffs, flash := flash }) ∧
    (view flash).file .dip = (view s.flash).file .dip := by
  cases file : (view s.flash).file .ffs with
  | none =>
    obtain ⟨ret, flash, load, -, same⟩ := ffsConfigLoad_missing stores s file
    exact ⟨ret, s.ffsCfgState, flash, load, by rw [same]⟩
  | some contents =>
    obtain ⟨flash, load, -, frame⟩ := ffsConfigLoad_found stores s file
    exact ⟨_, _, flash, load, frame .dip (by decide)⟩

/-- Saving for the FFS plugin keeps the record of the drive. -/
theorem diSaveFfs_dip (works : port.Works view) : ∃ ret ffs io flash,
    diSaveFfs port s = (ret, { s with ffsCfgState := ffs, io := io, flash := flash }) ∧
    0 ≤ ret ∧ (view flash).file .dip = (view s.flash).file .dip := by
  have succeeds := works.isfsGetMode s.io
  obtain ⟨ret, mode, path, io, got⟩ : ∃ ret mode path io,
    port.isfsGetMode s.io = (ret, mode, path, io) := ⟨_, _, _, _, rfl⟩
  rw [got] at succeeds
  have positive : ¬ret < 0 := Int.not_lt.mpr succeeds
  by_cases off : mode = 0
  case pos =>
    exact ⟨ret, { s.ffsCfgState with mode := mode, path := path }, io, s.flash, by
      simp only [diSaveFfs, got, positive, if_false, off, if_true], succeeds, rfl⟩
  case neg =>
    obtain ⟨partition, io', mounted⟩ : ∃ partition io',
      port.fatGetPartition (ffsDevice mode) io = (partition, io') := ⟨_, _, rfl⟩
    have step : diSaveFfs port s = ffsConfigSave port { s with
        io := port.isfsSetMode 0 [] io'
        ffsCfgState := {
          mode := mode
          path := path
          partition := partition.getD s.ffsCfgState.partition } } := by
      simp only [diSaveFfs, got, positive, if_false, off, mounted]
    obtain ⟨flash, saved, same⟩ := ffsConfigSave_dip { s with
      io := port.isfsSetMode 0 [] io'
      ffsCfgState := {
        mode := mode
        path := path
        partition := partition.getD s.ffsCfgState.partition } } works.toStores
    exact ⟨_, _, _, flash, step.trans saved, by simp [ffsConfigSize], same⟩

/-- A save by ES leaves the selection in the file when there is one, and the file as it is when
there is none. -/
theorem diSaveConfig_dip (works : port.Works view) (out : Mem) : ∃ ffs io flash,
    (diSaveConfig port out s).drive = { s with ffsCfgState := ffs, io := io, flash := flash } ∧
    if s.chkMode modeEmul then
      ∃ contents, (view flash).file .dip = some contents ∧
        SavedAs contents s.dipCfgState s.frag.fraglistData
    else (view flash).file .dip = (view s.flash).file .dip := by
  obtain ⟨ret, ffs, io, flash₁, ffsSaved, succeeds, same⟩ := diSaveFfs_dip s works
  have positive : ¬ret < 0 := Int.not_lt.mpr succeeds
  obtain ⟨s₁, s₁_eq⟩ : ∃ s₁, s₁ = { s with ffsCfgState := ffs, io := io, flash := flash₁ } :=
    ⟨_, rfl⟩
  have emul : s₁.chkMode modeEmul = s.chkMode modeEmul := by rw [s₁_eq]; rfl
  rw [← s₁_eq] at ffsSaved
  simp only [diSaveConfig, ffsSaved, positive, if_false, emul]
  cases s.chkMode modeEmul with
  | false => exact ⟨ffs, io, flash₁, s₁_eq, same⟩
  | true =>
    obtain ⟨flash, contents, saved, -, file, savedAs⟩ := diConfigSave_saved works.toStores s₁
    subst s₁_eq
    exact ⟨ffs, io, flash, saved, contents, file, savedAs⟩

end Files

/-! ## Reloads -/

/-- A reload behind a save by ES: the files stay, and everything else starts over. -/
def diReload (port : DrivePort σ φ) (save : Request) (out : Mem) (io : σ) (s : Drive σ φ) :
    Drive σ φ :=
  diStart port io (diEmulateCmd port save out s).drive.flash

/-- `IOCTL_DI_SAVE_CONFIG` from ES. -/
def Request.SavesConfig (req : Request) : Prop := req.command = .saveConfig ∧ req.esRequest ≠ 0

/-- The state from which the next reload restores the same backend: the record is the one of the
selected backend alone. -/
def Drive.Restorable (view : φ → FileStore CfgFile) (s : Drive σ φ) : Prop :=
  if s.chkMode modeFrag then
    s.dipCfgState.mode = modeFrag ∨
    s.dipCfgState.mode &&& modeWbfs = 0 ∧
      FragList.ofMem s.frag.fraglistData = FragList.ofMem fun _ => 0
  else if s.chkMode modeWbfs then s.dipCfgState.mode &&& modeFrag = 0
  else (view s.flash).file .dip = none

/-- A drive with a fragment list has no WBFS disc in its record. -/
theorem Drive.Restorable.wbfs_clear {view : φ → FileStore CfgFile} {s : Drive σ φ}
    (restorable : s.Restorable view) (fragOn : s.chkMode modeFrag = true) :
    s.dipCfgState.mode &&& modeWbfs = 0 := by
  rw [Restorable, if_pos fragOn] at restorable
  rcases restorable with mode | ⟨clear, -⟩
  · rw [mode]
    decide
  · exact clear

/-! ## What the record says -/

/-- The record describes the fragment list in use. -/
structure FragRecorded (s : Drive σ φ) : Prop where
  mode : s.dipCfgState.mode &&& modeFrag ≠ 0
  device : s.frag.fragDev = s.dipCfgState.device.toNat
  known : s.frag.fragDev = devUsb ∨ s.frag.fragDev = devSdhc
  nonempty : s.dipCfgState.fragSize ≠ 0
  fits : s.dipCfgState.fragSize.toNat ≤ fragListSize
  data : fragCopy s.frag.fraglistData s.dipCfgState.fragSize.toNat = s.frag.fraglistData

/-- The record describes the WBFS disc in use. -/
structure WbfsRecorded (s : Drive σ φ) : Prop where
  mode : s.dipCfgState.mode &&& modeWbfs ≠ 0
  disc : ∃ discid, s.wbfs = some (s.dipCfgState.device - 1, discid)

/-- A record that a reload can read back, of a mode with emulation. -/
structure Readable (cfg : DipConfigState) : Prop where
  emul : cfg.mode &&& modeEmul ≠ 0
  fits : cfg.mode = modeFrag → cfg.fragSize.toNat ≤ fragListSize

/-- Each backend in use is described by the record, unless the other was on when that was made. -/
structure Recorded (view : φ → FileStore CfgFile) (s : Drive σ φ) : Prop where
  list : s.chkMode modeFrag = true → s.frag.fragList = true
  frag : s.chkMode modeFrag = true → s.dipCfgState.mode &&& modeWbfs ≠ 0 ∨ FragRecorded s
  wbfs : s.chkMode modeWbfs = true → s.dipCfgState.mode &&& modeFrag ≠ 0 ∨ WbfsRecorded s
  fits : s.dipCfgState.mode = modeFrag → s.dipCfgState.fragSize.toNat ≤ fragListSize
  file : ∀ contents, (view s.flash).file .dip = some contents →
    ∃ cfg list, SavedAs contents cfg list ∧ Readable cfg

/-- A mode is set if one of its bits is. -/
theorem Drive.chkMode_eq_true {s : Drive σ φ} {bits : UInt32} :
    s.chkMode bits = true ↔ s.config.mode &&& bits ≠ 0 := by
  simp [Drive.chkMode]

namespace Recorded

variable {view : φ → FileStore CfgFile} {s s' : Drive σ φ}

/-- The record stays true over what keeps the drive. -/
theorem of_keeps (recorded : Recorded view s) (keeps : Keeps s s') : Recorded view s' where
  list bit := by
    rw [keeps.list]
    exact recorded.list (keeps.fragBit ▸ bit)
  frag bit := by
    rw [keeps.record]
    refine (recorded.frag (keeps.fragBit ▸ bit)).imp_right fun described => ?_
    obtain ⟨mode, device, known, nonempty, fits, data⟩ := described
    rw [← keeps.record] at mode device nonempty fits data
    have same := keeps.list
    exact {
      mode := mode
      device := by rw [same]; exact device
      known := by rw [same]; exact known
      nonempty := nonempty
      fits := fits
      data := by rw [same]; exact data }
  wbfs bit := by
    rw [keeps.record]
    refine (recorded.wbfs (keeps.wbfsBit ▸ bit)).imp_right fun described => ?_
    exact ⟨keeps.record ▸ described.mode, by rw [keeps.disc, keeps.record]; exact described.disc⟩
  fits := keeps.record ▸ recorded.fits
  file := keeps.flash ▸ recorded.file

/-- The record stays true over the selection of a WBFS disc. -/
theorem of_wbfsSet (recorded : Recorded view s) (keeps : KeepsFrag s s')
    (selected : s'.chkMode modeWbfs = false ∧ s'.dipCfgState = s.dipCfgState ∨ WbfsSelected s') :
    Recorded view s' := by
  have list : s'.chkMode modeFrag = true → s'.frag.fragList = true := fun bit => by
    rw [keeps.frag]
    exact recorded.list (keeps.bit ▸ bit)
  have file : ∀ contents, (view s'.flash).file .dip = some contents →
      ∃ cfg list, SavedAs contents cfg list ∧ Readable cfg := keeps.flash ▸ recorded.file
  rcases selected with ⟨off, record⟩ | selected
  case inl =>
    refine ⟨list, fun bit => ?_, fun bit => absurd (off.symm.trans bit) Bool.false_ne_true,
      record ▸ recorded.fits, file⟩
    rw [record]
    refine (recorded.frag (keeps.bit ▸ bit)).imp_right fun described => ?_
    obtain ⟨mode, device, known, nonempty, fits, data⟩ := described
    rw [← record] at mode device nonempty fits data
    rw [← keeps.frag] at device known data
    exact ⟨mode, device, known, nonempty, fits, data⟩
  case inr =>
    have wbfs : s'.dipCfgState.mode &&& modeWbfs ≠ 0 := by
      rw [selected.mode]
      exact Drive.chkMode_eq_true.mp selected.bit
    refine ⟨list, fun _ => .inl wbfs, fun _ => .inr ⟨wbfs, selected.disc⟩, fun frag => ?_, file⟩
    rw [frag] at wbfs
    exact absurd (by decide) wbfs

/-- The record stays true over the selection of a fragment list. -/
theorem of_fragSet (recorded : Recorded view s) (keeps : KeepsWbfs s s')
    (selected : s'.chkMode modeFrag = false ∧ s'.dipCfgState = s.dipCfgState ∨ FragSelected s') :
    Recorded view s' := by
  have file : ∀ contents, (view s'.flash).file .dip = some contents →
      ∃ cfg list, SavedAs contents cfg list ∧ Readable cfg := keeps.flash ▸ recorded.file
  rcases selected with ⟨off, record⟩ | selected
  case inl =>
    refine ⟨fun bit => absurd (off.symm.trans bit) Bool.false_ne_true,
      fun bit => absurd (off.symm.trans bit) Bool.false_ne_true, fun bit => ?_,
      record ▸ recorded.fits, file⟩
    rw [record]
    refine (recorded.wbfs (keeps.bit ▸ bit)).imp_right fun described => ?_
    exact ⟨record ▸ described.mode, by rw [keeps.disc, record]; exact described.disc⟩
  case inr =>
    have frag : s'.dipCfgState.mode &&& modeFrag ≠ 0 := by
      rw [selected.mode]
      exact Drive.chkMode_eq_true.mp selected.bit
    exact ⟨fun _ => selected.list,
      fun _ => .inr ⟨frag, selected.device, selected.known, selected.nonempty, selected.fits,
        selected.data⟩,
      fun _ => .inl frag, fun _ => selected.fits, file⟩

/-- With emulation on the record can be read back. -/
theorem readable (recorded : Recorded view s) (on : s.chkMode modeEmul = true) :
    Readable s.dipCfgState := by
  refine ⟨?_, recorded.fits⟩
  have wbfs : s.dipCfgState.mode &&& modeWbfs ≠ 0 → s.dipCfgState.mode &&& modeEmul ≠ 0 :=
    and_ne_zero_of_part (by decide)
  have frag : s.dipCfgState.mode &&& modeFrag ≠ 0 → s.dipCfgState.mode &&& modeEmul ≠ 0 :=
    and_ne_zero_of_part (by decide)
  rw [chkMode_emul, Bool.or_eq_true] at on
  rcases on with wbfsOn | fragOn
  · exact (recorded.wbfs wbfsOn).elim frag fun described => wbfs described.mode
  · exact (recorded.frag fragOn).elim wbfs fun described => frag described.mode

/-- The record is true once it has been saved. -/
theorem of_save {port : DrivePort σ φ} (works : port.Works view) (recorded : Recorded view s)
    (out : Mem) : Recorded view (diSaveConfig port out s).drive := by
  obtain ⟨ffs, io, flash, saved, file⟩ := diSaveConfig_dip s works out
  rw [saved]
  refine ⟨recorded.list, fun bit => (recorded.frag bit).imp_right fun described => ?_,
    fun bit => (recorded.wbfs bit).imp_right fun described => ?_, recorded.fits,
    fun contents found => ?_⟩
  · exact ⟨described.mode, described.device, described.known, described.nonempty, described.fits,
      described.data⟩
  · exact ⟨described.mode, described.disc⟩
  cases on : s.chkMode modeEmul with
  | false =>
    rw [on] at file
    exact recorded.file contents (file ▸ found)
  | true =>
    rw [on] at file
    obtain ⟨contents', file, savedAs⟩ := file
    obtain rfl : contents' = contents := Option.some.inj (file.symm.trans found)
    exact ⟨_, _, savedAs, recorded.readable on⟩

end Recorded

/-! ## The restore -/

/-- What a restore of `cfg`, saved with `list`, makes of the statics. -/
structure Restored (port : DrivePort σ φ) (cfg : DipConfigState) (list : Mem) (io : σ)
    (s : Drive σ φ) : Prop where
  mode : s.config.mode = cfg.mode
  record : s.dipCfgState = cfg
  wbfs : cfg.mode &&& modeWbfs ≠ 0 → s.frag.fragList = false ∧
    s.wbfs = some (cfg.device - 1, (port.memory 0 (port.handleInitDrive io)).window 0 6)
  frag : cfg.mode &&& modeWbfs = 0 → cfg.mode &&& modeFrag ≠ 0 →
    cfg.device.toNat = devUsb ∨ cfg.device.toNat = devSdhc → cfg.fragSize ≠ 0 →
    cfg.fragSize.toNat ≤ fragListSize →
    s.frag.fragList = true ∧ s.frag.fragDev = cfg.device.toNat ∧
    s.frag.fraglistData = if cfg.mode = modeFrag then fragCopy list cfg.fragSize.toNat
      else fun _ => 0

section Restore

variable {port : DrivePort σ φ} {view : φ → FileStore CfgFile} (works : port.Works view)

include works

/-- Restoring the FFS plugin keeps the record of the drive. -/
theorem diRestoreFfs_dip (s : Drive σ φ) : ∃ ffs io flash,
    diRestoreFfs port s = { s with ffsCfgState := ffs, io := io, flash := flash } ∧
    (view flash).file .dip = (view s.flash).file .dip := by
  obtain ⟨ret, ffs, flash, load, same⟩ := ffsConfigLoad_dip s works.toStores
  by_cases enabled : ret > 0 ∧ ffs.mode ≠ 0
  · have step : diRestoreFfs port s = { s with
        ffsCfgState := ffs
        flash := flash
        io := port.isfsSetMode ffs.mode ffs.path.toList
          (port.fatMount (ffsDevice ffs.mode) ffs.partition s.io) } := by
      simp only [diRestoreFfs, load, if_pos enabled]
    exact ⟨_, _, _, step, same⟩
  · have step : diRestoreFfs port s = { s with ffsCfgState := ffs, flash := flash } := by
      simp only [diRestoreFfs, load, if_neg enabled]
    exact ⟨_, _, _, step, same⟩

/-- Without a file every emulation stays off. -/
theorem diStart_blank (io : σ) {flash : φ} (blank : (view flash).file .dip = none) :
    (∀ bits, (diStart port io flash).chkMode bits = false) ∧
    (diStart port io flash).dipCfgState = ⟨0, 0, 0⟩ ∧
    (view (diStart port io flash).flash).file .dip = none := by
  obtain ⟨flash₁, load, failed, none₁⟩ := diConfigLoad_missing works.toStores
    { Drive.boot io flash with io := port.handleInitDrive io } blank
  have restore : diRestore port { Drive.boot io flash with io := port.handleInitDrive io } =
      { Drive.boot io flash with io := port.handleInitDrive io, flash := flash₁ } := by
    have negative : ¬(diConfigLoad port
      { Drive.boot io flash with io := port.handleInitDrive io }).1 > 0 := by omega
    simp only [diRestore, negative, if_false, load]
  obtain ⟨ffs, io', flash', ffsRestored, same⟩ := diRestoreFfs_dip works
    (diRestore port { Drive.boot io flash with io := port.handleInitDrive io })
  have start : diStart port io flash = _ := ffsRestored
  rw [restore] at start same
  rw [start]
  exact ⟨fun bits => by simp [Drive.chkMode, Drive.boot], rfl, same.trans none₁⟩

/-- The backend that a record selects is opened. -/
theorem diRestoreMode_restored {s : Drive σ φ} (data : Mem)
    (closed : s.frag = { FragState.boot with fraglistData := data }) :
    let s' := diRestoreMode port s
    s'.config.mode = s.dipCfgState.mode ∧ s'.dipCfgState = s.dipCfgState ∧ s'.flash = s.flash ∧
    (s.dipCfgState.mode &&& modeWbfs ≠ 0 → s'.frag.fragList = false ∧
      s'.wbfs = some (s.dipCfgState.device - 1, (port.memory 0 s.io).window 0 6)) ∧
    (s.dipCfgState.mode &&& modeWbfs = 0 → s.dipCfgState.mode &&& modeFrag ≠ 0 →
      s.dipCfgState.device.toNat = devUsb ∨ s.dipCfgState.device.toNat = devSdhc →
      s.dipCfgState.fragSize ≠ 0 → s.dipCfgState.fragSize.toNat ≤ fragListSize →
      s'.frag.fragList = true ∧ s'.frag.fragDev = s.dipCfgState.device.toNat ∧
      s'.frag.fraglistData = data) := by
  obtain ⟨s₁, moded⟩ :
    ∃ s₁, s₁ = { s with config := { s.config with mode := s.dipCfgState.mode } } :=
    ⟨_, rfl⟩
  have bit : ∀ bits, s₁.chkMode bits = (s.dipCfgState.mode &&& bits != 0) := fun _ => by
    rw [moded, Drive.chkMode]
  have restore : diRestoreMode port s =
      if s₁.chkMode modeWbfs then
        (wbfsOpen port (s.dipCfgState.device - 1) ((port.memory 0 s.io).window 0 6) s₁).2
      else if s₁.chkMode modeFrag then
        { s₁ with
          frag := (fragInit port.storage s.dipCfgState.device.toNat none
            s.dipCfgState.fragSize.toNat s.frag s.io).2.1
          io := (fragInit port.storage s.dipCfgState.device.toNat none
            s.dipCfgState.fragSize.toNat s.frag s.io).2.2 }
      else s₁ := by
    rw [moded]
    rfl
  intro s'
  have s'_eq : s' = _ := restore
  clear_value s'
  by_cases wbfs : s.dipCfgState.mode &&& modeWbfs = 0
  case neg =>
    obtain ⟨ret, fd, io, disc, opened, stored, -⟩ := wbfsOpen_cases port s₁
      (s.dipCfgState.device - 1) ((port.memory 0 s.io).window 0 6)
    have zero : ret = 0 := by
      have iff := wbfsOpen_eq_zero_iff port (s.dipCfgState.device - 1)
        ((port.memory 0 s.io).window 0 6) s₁
      rw [opened] at iff
      exact iff.mpr ⟨works.wbfsOpenDevice _ _, works.wbfsOpenDisc _ _ _⟩
    have on : s₁.chkMode modeWbfs = true := by simp [bit, wbfs]
    rw [if_pos on, opened, moded] at s'_eq
    rw [s'_eq]
    exact ⟨rfl, rfl, rfl, fun _ => ⟨by simp only [closed, FragState.boot], stored zero⟩,
      fun off => absurd off wbfs⟩
  case pos =>
    have off : ¬s₁.chkMode modeWbfs = true := by simp [bit, wbfs]
    rw [if_neg off] at s'_eq
    by_cases frag : s.dipCfgState.mode &&& modeFrag = 0
    case pos =>
      have fragOff : ¬s₁.chkMode modeFrag = true := by simp [bit, frag]
      rw [if_neg fragOff, moded] at s'_eq
      rw [s'_eq]
      exact ⟨rfl, rfl, rfl, fun on => absurd wbfs on, fun _ on => absurd frag on⟩
    case neg =>
      have fragOn : s₁.chkMode modeFrag = true := by simp [bit, frag]
      rw [if_pos fragOn, moded] at s'_eq
      rw [s'_eq]
      refine ⟨rfl, rfl, rfl, fun on => absurd wbfs on, fun _ _ known nonempty fits => ?_⟩
      have zero := (fragInit_eq_zero_iff port.storage s.dipCfgState.device.toNat none
        s.dipCfgState.fragSize.toNat s.frag s.io).mpr
        ⟨known, fun empty => nonempty (UInt32.toNat_inj.mp empty), fits, works.storageInit _ _,
          works.alloc _ _⟩
      obtain ⟨sectorSize, buf, ok⟩ := fragInit_ok zero
      rw [ok]
      exact ⟨rfl, rfl, congrArg FragState.fraglistData closed⟩

/-- A record that can be read back is restored, and its file is gone. -/
theorem diStart_saved (io : σ) {flash : φ} {contents : List UInt8} {cfg : DipConfigState}
    {list : Mem} (file : (view flash).file .dip = some contents)
    (saved : SavedAs contents cfg list) (readable : Readable cfg) :
    Restored port cfg list io (diStart port io flash) ∧
    (view (diStart port io flash).flash).file .dip = none := by
  obtain ⟨flash₁, load, none₁⟩ := diConfigLoad_saved works.toStores
    { Drive.boot io flash with io := port.handleInitDrive io } file saved readable.fits
  obtain ⟨s₁, loaded⟩ : ∃ s₁, s₁ = (diConfigLoad port
    { Drive.boot io flash with io := port.handleInitDrive io }).2 := ⟨_, rfl⟩
  have restore : diRestore port { Drive.boot io flash with io := port.handleInitDrive io } =
      diRestoreMode port s₁ := by
    have positive : (diConfigLoad port
        { Drive.boot io flash with io := port.handleInitDrive io }).1 > 0 := by
      rw [load]
      exact Int.natCast_pos.mpr (by decide)
    simp only [diRestore, positive, if_true, loaded]
  rw [load] at loaded
  obtain ⟨mode, record, sameFlash, wbfs, frag⟩ := diRestoreMode_restored works (s := s₁)
    (if cfg.mode = modeFrag then fragCopy list cfg.fragSize.toNat else fun _ => 0)
    (by rw [loaded]; rfl)
  obtain ⟨ffs, io', flash', ffsRestored, same⟩ := diRestoreFfs_dip works
    (diRestore port { Drive.boot io flash with io := port.handleInitDrive io })
  have start : diStart port io flash = _ := ffsRestored
  rw [restore] at start same
  have cfg_eq : s₁.dipCfgState = cfg := by rw [loaded]
  have io_eq : s₁.io = port.handleInitDrive io := by rw [loaded]
  rw [cfg_eq] at mode record wbfs frag
  rw [io_eq] at wbfs
  rw [start]
  refine ⟨⟨mode, record, wbfs, frag⟩, ?_⟩
  rw [same, sameFlash, loaded]
  exact none₁

end Restore

/-! ## Sessions -/

/-- The states of a module that booted without a saved record, with the reloads it survived. -/
inductive Session (port : DrivePort σ φ) (view : φ → FileStore CfgFile) : Drive σ φ → Prop
  | boot (io : σ) (flash : φ) (blank : (view flash).file .dip = none) :
      Session port view (diStart port io flash)
  | command {s : Drive σ φ} (prior : Session port view s) (req : Request) (out : Mem) :
      Session port view (diEmulateCmd port req out s).drive
  | reload {s : Drive σ φ} (prior : Session port view s) (restorable : s.Restorable view)
      {save : Request} (saves : save.SavesConfig) (out : Mem) (io : σ) :
      Session port view (diReload port save out io s)

section Sessions

variable {port : DrivePort σ φ} {view : φ → FileStore CfgFile} (works : port.Works view)

include works

/-- What the file holds after a save by ES. -/
theorem diEmulateCmd_saves (s : Drive σ φ) {save : Request} (saves : save.SavesConfig) (out : Mem) :
    let flash := (diEmulateCmd port save out s).drive.flash
    if s.chkMode modeEmul then
      ∃ contents, (view flash).file .dip = some contents ∧
        SavedAs contents s.dipCfgState s.frag.fraglistData
    else (view flash).file .dip = (view s.flash).file .dip := by
  have command : diEmulateCmd port save out s = diSaveConfig port out (s.setError 0) := by
    simp only [diEmulateCmd, diDispatch, saves.1, saves.2, if_false, reduceCtorEq]
  obtain ⟨ffs, io, flash, saved, file⟩ := diSaveConfig_dip (s.setError 0) works out
  rw [command, saved]
  exact file

/-- The three ways a reload goes. -/
theorem diReload_cases {s : Drive σ φ} (recorded : Recorded view s) {save : Request}
    (saves : save.SavesConfig) (out : Mem) (io : σ) :
    (s.chkMode modeEmul = true ∧
      Restored port s.dipCfgState s.frag.fraglistData io (diReload port save out io s) ∧
      (view (diReload port save out io s).flash).file .dip = none) ∨
    (s.chkMode modeEmul = false ∧ (∃ contents, (view s.flash).file .dip = some contents) ∧
      ∃ cfg list, Readable cfg ∧ Restored port cfg list io (diReload port save out io s)) ∨
    (s.chkMode modeEmul = false ∧ (view s.flash).file .dip = none ∧
      (∀ bits, (diReload port save out io s).chkMode bits = false) ∧
      (diReload port save out io s).dipCfgState = ⟨0, 0, 0⟩ ∧
      (view (diReload port save out io s).flash).file .dip = none) := by
  have file := diEmulateCmd_saves works s saves out
  cases on : s.chkMode modeEmul with
  | true =>
    rw [on] at file
    obtain ⟨contents, file, saved⟩ := file
    exact .inl ⟨rfl, diStart_saved works io file saved (recorded.readable on)⟩
  | false =>
    rw [on] at file
    cases before : (view s.flash).file .dip with
    | none =>
      exact .inr (.inr ⟨rfl, rfl, diStart_blank works io (file.trans before)⟩)
    | some contents =>
      obtain ⟨cfg, list, saved, readable⟩ := recorded.file contents before
      have restored := diStart_saved works io (file.trans before) saved readable
      exact .inr (.inl ⟨rfl, ⟨contents, rfl⟩, cfg, list, readable, restored.1⟩)

omit works in
/-- A restored record describes the backends again, if only one of them was on. -/
theorem Restored.recorded {cfg : DipConfigState} {list : Mem} {io : σ} {s : Drive σ φ}
    (restored : Restored port cfg list io s) (none₁ : (view s.flash).file .dip = none)
    (frag : cfg.mode &&& modeFrag ≠ 0 → cfg.mode &&& modeWbfs = 0 ∧
      (cfg.device.toNat = devUsb ∨ cfg.device.toNat = devSdhc) ∧ cfg.fragSize ≠ 0 ∧
      cfg.fragSize.toNat ≤ fragListSize ∧ fragCopy list cfg.fragSize.toNat = list)
    (fits : cfg.mode = modeFrag → cfg.fragSize.toNat ≤ fragListSize) : Recorded view s := by
  have bit : ∀ bits, s.chkMode bits = true ↔ cfg.mode &&& bits ≠ 0 := fun bits => by
    rw [Drive.chkMode_eq_true, restored.mode]
  refine ⟨fun on => ?_, fun on => .inr ?_, fun on => ?_, by rw [restored.record]; exact fits,
    fun contents found => by rw [none₁] at found; exact absurd found (by simp)⟩
  · obtain ⟨off, known, nonempty, size_le, -⟩ := frag ((bit _).mp on)
    exact (restored.frag off ((bit _).mp on) known nonempty size_le).1
  · obtain ⟨off, known, nonempty, size_le, copied⟩ := frag ((bit _).mp on)
    obtain ⟨-, device, data⟩ := restored.frag off ((bit _).mp on) known nonempty size_le
    refine ⟨?_, ?_, ?_, ?_, ?_, ?_⟩
    · rw [restored.record]
      exact (bit _).mp on
    · rw [restored.record, device]
    · rw [device]
      exact known
    · rw [restored.record]
      exact nonempty
    · rw [restored.record]
      exact size_le
    · rw [restored.record, data]
      split
      · rw [copied, copied]
      · funext i
        simp [fragCopy]
  · by_cases clear : cfg.mode &&& modeFrag = 0
    case neg => exact .inl (by rw [restored.record]; exact clear)
    case pos =>
      refine .inr ⟨by rw [restored.record]; exact (bit _).mp on, ?_⟩
      rw [restored.record]
      exact ⟨_, (restored.wbfs ((bit _).mp on)).2⟩

/-- The record is true behind a reload. -/
theorem Recorded.of_reload {s : Drive σ φ} (recorded : Recorded view s)
    (restorable : s.Restorable view) {save : Request} (saves : save.SavesConfig) (out : Mem)
    (io : σ) : Recorded view (diReload port save out io s) := by
  obtain ⟨on, restored, none₁⟩ | ⟨off, ⟨contents, found⟩, -⟩ | ⟨-, -, clear, record, none₁⟩ :=
    diReload_cases works recorded saves out io
  · refine restored.recorded none₁ (fun frag => ?_) recorded.fits
    cases fragOn : s.chkMode modeFrag with
    | false =>
      rw [chkMode_emul, fragOn, Bool.or_false] at on
      simp only [Drive.Restorable, fragOn, on, Bool.false_eq_true, if_false, if_true] at restorable
      exact absurd restorable frag
    | true =>
      have off := restorable.wbfs_clear fragOn
      rcases recorded.frag fragOn with set | described
      · exact absurd off set
      · exact ⟨off, described.device ▸ described.known, described.nonempty, described.fits,
          described.data⟩
  · -- An older file is left, so the selection was not restorable.
    rw [chkMode_emul, Bool.or_eq_false_iff] at off
    simp only [Drive.Restorable, off.1, off.2, Bool.false_eq_true, if_false, found] at restorable
    exact absurd restorable (by simp)
  · have off : ∀ bits, ¬(diReload port save out io s).chkMode bits = true := by simp [clear]
    exact ⟨fun on => absurd on (off _), fun on => absurd on (off _), fun on => absurd on (off _),
      fun mode => by rw [record] at mode; exact absurd mode (by decide),
      fun contents found => by rw [none₁] at found; exact absurd found (by simp)⟩

/-- In every session the record is true. -/
theorem Recorded.of_session {s : Drive σ φ} (session : Session port view s) : Recorded view s := by
  induction session with
  | boot io flash blank =>
    obtain ⟨clear, record, none₁⟩ := diStart_blank works io blank
    have off : ∀ bits, ¬(diStart port io flash).chkMode bits = true := by simp [clear]
    exact ⟨fun on => absurd on (off _), fun on => absurd on (off _), fun on => absurd on (off _),
      fun mode => by rw [record] at mode; exact absurd mode (by decide),
      fun contents found => by rw [none₁] at found; exact absurd found (by simp)⟩
  | @command s prior req out ih =>
    obtain ⟨s₀, cleared, keeps | wbfs | frag | save⟩ := diEmulateCmd_cases port req out s
    · exact (ih.of_keeps cleared).of_keeps keeps
    · obtain ⟨keeps, selected⟩ := diWbfsSet_cases port req out s₀
      rw [wbfs]
      exact (ih.of_keeps cleared).of_wbfsSet keeps selected
    · obtain ⟨keeps, selected⟩ := diFragSet_cases port req out s₀
      rw [frag]
      exact (ih.of_keeps cleared).of_fragSet keeps selected
    · rw [save]
      exact (ih.of_keeps cleared).of_save works out
  | reload prior restorable saves out io ih => exact ih.of_reload works restorable saves out io

omit works in
/-- A selection with one record is compared with what the record restores. -/
theorem Restored.survives_iff {s s' : Drive σ φ} {io : σ}
    (restored : Restored port s.dipCfgState s.frag.fraglistData io s')
    (recorded : Recorded view s) (on : s.chkMode modeEmul = true)
    (sameDisc : ∀ device discid, s.wbfs = some (device, discid) →
      (port.memory 0 (port.handleInitDrive io)).window 0 6 = discid) :
    Survives s s' ↔ s.Restorable view := by
  have bit : ∀ bits, s'.chkMode bits = true ↔ s.dipCfgState.mode &&& bits ≠ 0 := fun bits => by
    rw [Drive.chkMode_eq_true, restored.mode]
  have clear : ∀ bits, s.dipCfgState.mode &&& bits = 0 → s'.chkMode bits = false := fun bits zero =>
    Bool.eq_false_iff.mpr fun set => (bit bits).mp set zero
  cases fragOn : s.chkMode modeFrag with
  | true =>
    have before : s.backend = .frag s.frag.fragDev (.ofMem s.frag.fraglistData) := by
      simp only [Drive.backend, fragOn, recorded.list fragOn, if_true]
    by_cases both : s.dipCfgState.mode &&& modeWbfs = 0
    case neg =>
      -- The disc is opened in place of the list.
      have unlisted := (restored.wbfs both).1
      refine ⟨fun survives => ?_, fun restorable => absurd (restorable.wbfs_clear fragOn) both⟩
      have after := survives.backend.trans before
      simp only [Drive.backend, unlisted, Bool.false_eq_true, if_false, (bit _).mpr both, if_true,
        (restored.wbfs both).2] at after
      split at after <;> cases after
    case pos =>
      have described := (recorded.frag fragOn).resolve_left (not_not.mpr both)
      obtain ⟨listed, device, data⟩ := restored.frag both described.mode
        (described.device ▸ described.known) described.nonempty described.fits
      have after : s'.backend = .frag s.frag.fragDev (.ofMem s'.frag.fraglistData) := by
        simp only [Drive.backend, (bit _).mpr described.mode, listed, if_true, device,
          described.device]
      have only : Survives s s' ↔ FragList.ofMem s'.frag.fraglistData =
          FragList.ofMem s.frag.fraglistData := by
        refine ⟨fun survives => ?_, fun same => ⟨?_, fun _ => fragOn, fun set => ?_⟩⟩
        · have backend := survives.backend
          rw [after, before] at backend
          exact (Backend.frag.inj backend).2
        · rw [after, before, same]
        · exact absurd ((clear _ both).symm.trans set) Bool.false_ne_true
      rw [only, data]
      by_cases alone : s.dipCfgState.mode = modeFrag
      · simp only [Drive.Restorable, fragOn, alone, if_true, described.data, true_or]
      · simp only [Drive.Restorable, fragOn, alone, if_true, if_false, false_or, both, true_and]
        exact eq_comm
  | false =>
    have wbfsOn : s.chkMode modeWbfs = true := by
      rwa [chkMode_emul, fragOn, Bool.or_false] at on
    have condition : s.Restorable view ↔ s.dipCfgState.mode &&& modeFrag = 0 := by
      simp only [Drive.Restorable, fragOn, wbfsOn, Bool.false_eq_true, if_false, if_true]
    rw [condition]
    refine ⟨fun survives => ?_, fun single => ?_⟩
    · by_contra both
      exact absurd (fragOn.symm.trans (survives.frag ((bit _).mpr both))) Bool.false_ne_true
    · have described := (recorded.wbfs wbfsOn).resolve_left (not_not.mpr single)
      obtain ⟨discid, disc⟩ := described.disc
      refine ⟨?_, fun set => absurd ((clear _ single).symm.trans set) Bool.false_ne_true,
        fun _ => wbfsOn⟩
      simp only [Drive.backend, fragOn, clear _ single, Bool.false_eq_true, if_false, wbfsOn,
        (bit _).mpr described.mode, if_true, (restored.wbfs described.mode).2, disc,
        sameDisc _ _ disc]

/-- In every session a reload restores the backend in use, and no other, exactly when the record is
the one of that backend alone. -/
theorem emulation_survives_iff {s : Drive σ φ} (session : Session port view s) {save : Request}
    (saves : save.SavesConfig) (out : Mem) (io : σ)
    (sameDisc : ∀ device discid, s.wbfs = some (device, discid) →
      (port.memory 0 (port.handleInitDrive io)).window 0 6 = discid) :
    Survives s (diReload port save out io s) ↔ s.Restorable view := by
  have recorded := Recorded.of_session works session
  obtain ⟨on, restored, -⟩ | ⟨off, ⟨contents, found⟩, cfg, list, readable, restored⟩ |
    ⟨off, blank, clear, -, -⟩ := diReload_cases works recorded saves out io
  · exact restored.survives_iff recorded on sameDisc
  · -- An older file is restored while nothing was on.
    have up : (diReload port save out io s).chkMode modeEmul = true := by
      rw [Drive.chkMode_eq_true, restored.mode]
      exact readable.emul
    rw [chkMode_emul, Bool.or_eq_true] at up
    rw [chkMode_emul, Bool.or_eq_false_iff] at off
    simp only [Drive.Restorable, off.1, off.2, Bool.false_eq_true, if_false, found, reduceCtorEq,
      iff_false]
    intro survives
    rcases up with wbfs | frag
    · exact absurd (off.1.symm.trans (survives.wbfs wbfs)) Bool.false_ne_true
    · exact absurd (off.2.symm.trans (survives.frag frag)) Bool.false_ne_true
  · -- Nothing was on, and nothing comes up.
    rw [chkMode_emul, Bool.or_eq_false_iff] at off
    simp only [Drive.Restorable, off.1, off.2, Bool.false_eq_true, if_false, blank, iff_true]
    have down : ∀ bits, ¬(diReload port save out io s).chkMode bits = true := by simp [clear]
    refine ⟨?_, fun set => absurd set (down _), fun set => absurd set (down _)⟩
    simp only [Drive.backend, off.1, off.2, clear, Bool.false_eq_true, if_false]

end Sessions

/-! ## Two sessions -/

/-- Memory that holds ones, at every address. -/
def onesPort : DrivePort Unit (FileStore CfgFile) :=
  .ready (.holding (fun _ _ => 0) 512) fun _ _ => 1

theorem onesPort_works : onesPort.Works id where
  toStores := DrivePort.ready_stores _ _
  storageInit device st := by
    by_cases usb : device = devUsb <;>
      simp [Storage.init, onesPort, DrivePort.ready, Storage.holding]
  alloc _ _ := by simp [onesPort, DrivePort.ready, Storage.holding]
  wbfsOpenDevice _ _ := by simp [onesPort, DrivePort.ready]
  wbfsOpenDisc _ _ _ := rfl
  isfsGetMode _ := by simp [onesPort, DrivePort.ready]

/-- A request of a loader, or of ES when `esRequest` is not zero. -/
def loaderRequest (code : UInt32) (args : List UInt32) (esRequest : UInt32) : Request where
  inbuf i := (code <<< 24 :: args).getD i 0
  size := 32
  runningTitle := 0
  esRequest := esRequest

def cryptOn : Request := loaderRequest 0xF2 [1] 0
def wbfsOn : Request := loaderRequest 0xF4 [1, 0x01010101, 0x01010101] 0
def fragOn : Request := loaderRequest 0xF9 [1, 0x1000, 24] 0
def esSave : Request := loaderRequest 0xFE [] 1

theorem esSave_saves : esSave.SavesConfig := ⟨by decide, by decide⟩

/-- The state behind a boot and two commands. -/
def afterBoot (first second : Request) : Drive Unit (FileStore CfgFile) :=
  let s := diStart onesPort () blankFlash
  let s := (diEmulateCmd onesPort first (fun _ => 0) s).drive
  (diEmulateCmd onesPort second (fun _ => 0) s).drive

theorem afterBoot_session (first second : Request) :
    Session onesPort id (afterBoot first second) :=
  .command (.command (.boot () blankFlash rfl) first _) second _

/-- A WBFS disc that is selected twice is there after the reload. -/
theorem emulation_survives_wbfs :
    Survives (afterBoot wbfsOn wbfsOn)
      (diReload onesPort esSave (fun _ => 0) () (afterBoot wbfsOn wbfsOn)) := by
  have disc : (afterBoot wbfsOn wbfsOn).wbfs = some (0, [1, 1, 1, 1, 1, 1]) := by decide
  refine (emulation_survives_iff onesPort_works (afterBoot_session wbfsOn wbfsOn) esSave_saves _ ()
    fun device discid selected => ?_).mpr ?_
  · rw [disc] at selected
    rw [← (Prod.mk.inj (Option.some.inj selected)).2]
    decide
  · have mode : (afterBoot wbfsOn wbfsOn).dipCfgState.mode &&& modeFrag = 0 := by decide
    have fragOff : (afterBoot wbfsOn wbfsOn).chkMode modeFrag = false := by decide
    have wbfs : (afterBoot wbfsOn wbfsOn).chkMode modeWbfs = true := by decide
    simp only [Drive.Restorable, fragOff, wbfs, mode, Bool.false_eq_true, if_false, if_true]

/-- The number of image sectors behind a backend. -/
def Backend.sectors : Backend → Nat
  | .frag _ list => list.size
  | _ => 0

/-- With encryption off the saved mode is not `MODE_FRAG` alone, and the list is not saved. -/
theorem crypt_loses_list :
    onesPort.Works id ∧ Session onesPort id (afterBoot cryptOn fragOn) ∧ esSave.SavesConfig ∧
    (afterBoot cryptOn fragOn).wbfs = none ∧
    ¬Survives (afterBoot cryptOn fragOn)
      (diReload onesPort esSave (fun _ => 0) () (afterBoot cryptOn fragOn)) := by
  refine ⟨onesPort_works, afterBoot_session _ _, esSave_saves, by decide, fun survives => ?_⟩
  have sectors := congrArg Backend.sectors survives.backend
  revert sectors
  decide

end D2xCios.Dip
