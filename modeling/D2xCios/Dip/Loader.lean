import D2xCios.Dip.Frame

/-!
# What a loader changes

The three commands that do not keep the emulation, each with all it can do:
`IOCTL_DI_WBFS_SET` and `IOCTL_DI_FRAG_SET` end with their backend off, or with it
on, set up and recorded; `IOCTL_DI_SAVE_CONFIG` writes the configuration files.
Every command is one of the three or keeps the emulation.
-/

namespace D2xCios.Dip

open D2xCios.Lib

variable {σ φ : Type} (port : DrivePort σ φ) (req : Request) (out : Mem) (s : Drive σ φ)

/-! ## Selecting a backend -/

/-- The part of the emulation that `IOCTL_DI_WBFS_SET` leaves alone. -/
structure KeepsFrag (s s' : Drive σ φ) : Prop where
  bit : s'.chkMode modeFrag = s.chkMode modeFrag
  frag : s'.frag = s.frag
  flash : s'.flash = s.flash
  trace : s'.trace = s.trace

/-- The part of the emulation that `IOCTL_DI_FRAG_SET` leaves alone. -/
structure KeepsWbfs (s s' : Drive σ φ) : Prop where
  bit : s'.chkMode modeWbfs = s.chkMode modeWbfs
  disc : s'.wbfs = s.wbfs
  flash : s'.flash = s.flash
  trace : s'.trace = s.trace

/-- A WBFS disc has just been selected. -/
structure WbfsSelected (s : Drive σ φ) : Prop where
  bit : s.chkMode modeWbfs = true
  mode : s.dipCfgState.mode = s.config.mode
  disc : ∃ discid, s.wbfs = some (s.dipCfgState.device - 1, discid)

/-- A fragment list has just been selected. -/
structure FragSelected (s : Drive σ φ) : Prop where
  bit : s.chkMode modeFrag = true
  mode : s.dipCfgState.mode = s.config.mode
  inited : s.frag.fragInited = true
  list : s.frag.fragList = true
  buf : s.frag.sectorBuf.isSome = true
  device : s.frag.fragDev = s.dipCfgState.device.toNat
  known : s.frag.fragDev = devUsb ∨ s.frag.fragDev = devSdhc
  nonempty : s.dipCfgState.fragSize ≠ 0
  fits : s.dipCfgState.fragSize.toNat ≤ fragListSize
  data : fragCopy s.frag.fraglistData s.dipCfgState.fragSize.toNat = s.frag.fraglistData

/-- `WBFS_Open` opens the disc or none, and changes nothing else. -/
theorem wbfsOpen_cases (device : UInt32) (discid : List UInt8) : ∃ ret fd io disc,
    wbfsOpen port device discid s = (ret, { s with devFd := fd, io := io, wbfs := disc }) ∧
    (ret = 0 → disc = some (device, discid)) ∧ (ret ≠ 0 → disc = none) := by
  unfold wbfsOpen
  simp only
  split
  case isTrue negative => exact ⟨_, _, _, _, rfl, fun zero => by omega, fun _ => rfl⟩
  case isFalse =>
    exact ⟨_, _, _, _, rfl, fun zero => by rw [if_pos zero], fun failed => by rw [if_neg failed]⟩

/-- What the selection of a WBFS disc leaves. -/
theorem diWbfsSet_cases :
    let s' := (diWbfsSet port req out s).drive
    KeepsFrag s s' ∧
    (s'.chkMode modeWbfs = false ∧ s'.dipCfgState = s.dipCfgState ∨ WbfsSelected s') := by
  have closed : ((wbfsClose port s).delMode modeWbfs).chkMode modeWbfs = false :=
    chkMode_delMode _
  have keeps : KeepsFrag s ((wbfsClose port s).delMode modeWbfs) :=
    ⟨chkMode_delMode_of_disjoint _ (by decide), rfl, rfl, rfl⟩
  have record : ((wbfsClose port s).delMode modeWbfs).dipCfgState = s.dipCfgState := rfl
  unfold diWbfsSet
  generalize (wbfsClose port s).delMode modeWbfs = s₁ at closed keeps record ⊢
  simp only
  split
  · exact ⟨keeps, .inl ⟨closed, record⟩⟩
  generalize (bytes32 (req.inbuf 2) ++ bytes32 (req.inbuf 3)).take 6 = discid
  obtain ⟨ret, fd, io, disc, opened, stored, -⟩ :=
    wbfsOpen_cases port s₁ (req.inbuf 1 - 1) discid
  rw [opened]
  simp only
  split
  case isTrue failed =>
    exact ⟨⟨keeps.bit, keeps.frag, keeps.flash, keeps.trace⟩, .inl ⟨closed, record⟩⟩
  case isFalse succeeded =>
    have zero : ret = 0 := by simpa using succeeded
    refine ⟨⟨?_, keeps.frag, keeps.flash, keeps.trace⟩, .inr ⟨?_, rfl, discid, ?_⟩⟩
    · exact (chkMode_setMode_of_disjoint _ (by decide)).trans keeps.bit
    · exact chkMode_setMode _ (by decide)
    · simp [answer, Drive.setMode, stored zero]

/-- What the selection of a fragment list leaves. -/
theorem diFragSet_cases :
    let s' := (diFragSet port req out s).drive
    KeepsWbfs s s' ∧
    (s'.chkMode modeFrag = false ∧ s'.dipCfgState = s.dipCfgState ∨ FragSelected s') := by
  have closed : (Drive.delMode modeFrag { s with frag := fragClose s.frag }).chkMode modeFrag =
    false := chkMode_delMode _
  have keeps : KeepsWbfs s (Drive.delMode modeFrag { s with frag := fragClose s.frag }) :=
    ⟨chkMode_delMode_of_disjoint _ (by decide), rfl, rfl, rfl⟩
  have record : (Drive.delMode modeFrag { s with frag := fragClose s.frag }).dipCfgState =
    s.dipCfgState := rfl
  unfold diFragSet
  generalize Drive.delMode modeFrag { s with frag := fragClose s.frag } = s₁
    at closed keeps record ⊢
  simp only
  split
  case isFalse => exact ⟨keeps, .inl ⟨closed, record⟩⟩
  generalize port.memory (port.virtToPhys (req.inbuf 2)) s₁.io = source
  have inits := fragInit_eq_zero_iff port.storage (req.inbuf 1).toNat (some source)
    (req.inbuf 3).toNat s₁.frag s₁.io
  have ok := @fragInit_ok σ port.storage (req.inbuf 1).toNat (some source) (req.inbuf 3).toNat
    s₁.frag s₁.io
  generalize fragInit port.storage (req.inbuf 1).toNat (some source) (req.inbuf 3).toNat
    s₁.frag s₁.io = result at inits ok ⊢
  obtain ⟨ret, frag, io⟩ := result
  simp only at inits ok ⊢
  split
  case isTrue failed =>
    exact ⟨⟨keeps.bit, keeps.disc, keeps.flash, keeps.trace⟩, .inl ⟨closed, record⟩⟩
  case isFalse succeeded =>
    have zero : ret = 0 := by simpa using succeeded
    obtain ⟨known, nonempty, fits, -, -⟩ := inits.mp zero
    obtain ⟨sectorSize, buf, rfl⟩ := ok zero
    refine ⟨⟨?_, keeps.disc, keeps.flash, keeps.trace⟩, .inr ?_⟩
    · exact (chkMode_setMode_of_disjoint _ (by decide)).trans keeps.bit
    · exact {
        bit := chkMode_setMode _ (by decide)
        mode := rfl
        inited := rfl
        list := rfl
        buf := rfl
        device := rfl
        known := known
        nonempty := fun empty => nonempty (congrArg UInt32.toNat empty)
        fits := fits
        data := by
          simp only [answer, initData, Drive.setMode]
          funext i
          simp only [fragCopy]
          split <;> rfl }

/-! ## Saving the configuration -/

omit req out in
/-- Saving the record of the FFS plugin changes nothing but the flash. -/
theorem ffsConfigSave_frame : ∃ flash, (ffsConfigSave port s).2 = { s with flash := flash } := by
  unfold ffsConfigSave
  simp only
  split
  · exact ⟨_, rfl⟩
  · exact ⟨_, rfl⟩

omit req out in
/-- Saving the record of the drive changes nothing but the flash. -/
theorem diConfigSave_frame : ∃ flash, (diConfigSave port s).2 = { s with flash := flash } := by
  unfold diConfigSave
  simp only
  split
  · exact ⟨_, rfl⟩
  · exact ⟨_, rfl⟩

omit req out in
/-- Saving for the FFS plugin changes nothing of the drive. -/
theorem diSaveFfs_frame : ∃ ffs io flash,
    (diSaveFfs port s).2 = { s with ffsCfgState := ffs, io := io, flash := flash } := by
  unfold diSaveFfs
  simp only
  split
  · exact ⟨_, _, _, rfl⟩
  split
  · exact ⟨_, _, _, rfl⟩
  · obtain ⟨flash, saved⟩ := ffsConfigSave_frame port _
    exact ⟨_, _, _, saved⟩

omit req in
/-- The statics that select a backend stay as they are. -/
theorem diSaveConfig_frame : ∃ ffs io flash,
    (diSaveConfig port out s).drive = { s with ffsCfgState := ffs, io := io, flash := flash } := by
  obtain ⟨ffs, io, flash, saved⟩ := diSaveFfs_frame port s
  unfold diSaveConfig
  generalize diSaveFfs port s = result at saved ⊢
  obtain ⟨ret, s₁⟩ := result
  simp only at saved ⊢
  split
  · exact ⟨_, _, _, saved⟩
  split
  · obtain ⟨flash', saved'⟩ := diConfigSave_frame port s₁
    refine ⟨ffs, io, flash', saved'.trans ?_⟩
    rw [saved]
  · exact ⟨_, _, _, saved⟩

/-! ## All commands -/

/-- The commands that do not keep the emulation. -/
def DiCommand.selects : DiCommand → Bool
  | .wbfsSet | .fragSet | .saveConfig => true
  | _ => false

/-- A command that a title does not get keeps the drive if its handler does. -/
theorem unlessTitle_keeps {custom : Reply σ φ} (keeps : Keeps s custom.drive) :
    Keeps s (unlessTitle port req out s custom).drive := by
  unfold unlessTitle
  split
  · exact (diHandleCmd_quiet port req out s).toKeeps
  · exact keeps

/-- `DI_CRYPT_SET` keeps the drive. -/
theorem diCryptSet_keeps : Keeps s (diCryptSet req out s).drive := by
  unfold diCryptSet
  simp only [answer]
  split
  · exact .of_config s s.io (or_and_of_disjoint (by decide)) (or_and_of_disjoint (by decide))
  · have wbfs : ~~~modeCrypt &&& modeWbfs = modeWbfs := by decide
    have frag : ~~~modeCrypt &&& modeFrag = modeFrag := by decide
    exact .of_config s s.io (by rw [UInt32.and_assoc, wbfs]) (by rw [UInt32.and_assoc, frag])

/-- A command that selects no source keeps the drive. -/
theorem diDispatch_keeps (other : req.command.selects = false) :
    Keeps s (diDispatch port req out s).drive := by
  cases custom : req.command.custom with
  | false => exact (diDispatch_quiet port req out s custom).toKeeps
  | true =>
    unfold diDispatch
    cases command : req.command with
    | offsetSet => exact unlessTitle_keeps port req out s (.of_config s s.io rfl rfl)
    | offsetGet => exact unlessTitle_keeps port req out s (.refl s)
    | cryptSet => exact unlessTitle_keeps port req out s (diCryptSet_keeps req out s)
    | cryptGet => exact unlessTitle_keeps port req out s (.refl s)
    | wbfsGet => exact unlessTitle_keeps port req out s (.refl s)
    | modeGet => exact unlessTitle_keeps port req out s (.refl s)
    | resetDisable => exact unlessTitle_keeps port req out s (.of_config s s.io rfl rfl)
    | customcmd => exact unlessTitle_keeps port req out s (.of_config s _ rfl rfl)
    | wbfsSet | fragSet | saveConfig => simp [command, DiCommand.selects] at other
    | _ => simp [command, DiCommand.custom] at custom

/-- What a command can do: once the error has been cleared it keeps the emulation, selects a
backend or saves the configuration. -/
theorem diEmulateCmd_cases : ∃ s₀, Keeps s s₀ ∧
    (Keeps s₀ (diEmulateCmd port req out s).drive ∨
     diEmulateCmd port req out s = diWbfsSet port req out s₀ ∨
     diEmulateCmd port req out s = diFragSet port req out s₀ ∨
     diEmulateCmd port req out s = diSaveConfig port out s₀) := by
  refine ⟨if req.command = .reqerror then s else s.setError 0, ?_, ?_⟩
  · split
    · exact .refl s
    · exact (Quiet.setError s 0).toKeeps
  unfold diEmulateCmd
  generalize (if req.command = .reqerror then s else s.setError 0) = s₀
  cases selects : req.command.selects with
  | false => exact .inl (diDispatch_keeps port req out s₀ selects)
  | true =>
    have refused := (diHandleCmd_quiet port req out s₀).toKeeps
    unfold diDispatch
    cases command : req.command with
    | wbfsSet =>
      simp only [unlessTitle]
      split
      · exact .inl refused
      · exact .inr (.inl rfl)
    | fragSet =>
      simp only [unlessTitle]
      split
      · exact .inl refused
      · exact .inr (.inr (.inl rfl))
    | saveConfig =>
      simp only
      split
      · exact .inl refused
      · exact .inr (.inr (.inr rfl))
    | _ => simp [command, DiCommand.selects] at selects

end D2xCios.Dip
