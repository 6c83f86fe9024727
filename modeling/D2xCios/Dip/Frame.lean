import D2xCios.Dip.Commands

/-!
# What the commands leave alone

The emulation of a disc is more than its two mode bits: the configuration record,
the fragment list and the WBFS descriptor belong to it. Only three commands
change any of it, and every other one, as well as every custom command that is
refused, `Keeps` it. `Tames` says the same about the settings a loader makes:
such a command can only clear them.
-/

namespace D2xCios.Dip

open D2xCios.Lib

variable {σ φ : Type}

/-! ## Mode bits -/

section Bits

/-- Setting bits leaves the others. -/
theorem or_and_of_disjoint {a b c : UInt32} (disjoint : b &&& c = 0) :
    (a ||| b) &&& c = a &&& c := by
  have distrib : (a ||| b) &&& c = (a &&& c) ||| (b &&& c) := by
    apply UInt32.toBitVec_inj.mp
    exact BitVec.and_or_distrib_right
  rw [distrib, disjoint, UInt32.or_zero]

/-- Bits that were set are set. -/
theorem or_and_absorb (a b : UInt32) : (a ||| b) &&& b = b := by
  apply UInt32.toBitVec_inj.mp
  simp only [UInt32.toBitVec_and, UInt32.toBitVec_or]
  ext i
  simp only [BitVec.getElem_and, BitVec.getElem_or, Bool.and_eq_right_iff_imp, Bool.or_eq_true]
  exact Or.inr

variable (s : Drive σ φ) {bits other : UInt32}

/-- A mode is not touched by the setting of another one. -/
theorem chkMode_setMode_of_disjoint (disjoint : bits &&& other = 0) :
    (s.setMode bits).chkMode other = s.chkMode other := by
  simp only [Drive.chkMode, Drive.setMode, or_and_of_disjoint disjoint]

/-- A mode is not touched by the removal of another one. -/
theorem chkMode_delMode_of_disjoint (disjoint : ~~~bits &&& other = other) :
    (s.delMode bits).chkMode other = s.chkMode other := by
  simp [Drive.chkMode, Drive.delMode, UInt32.and_assoc, disjoint]

/-- A mode that was set is set. -/
theorem chkMode_setMode (nonempty : bits ≠ 0) : (s.setMode bits).chkMode bits = true := by
  simp [Drive.chkMode, Drive.setMode, or_and_absorb, nonempty]

/-- A mode that was removed is not set. -/
theorem chkMode_delMode : (s.delMode bits).chkMode bits = false := by
  simp [Drive.chkMode, Drive.delMode, UInt32.and_assoc]

end Bits

/-! ## Frames -/

/-- A backend read that goes where the state says. -/
def Drive.Allows (s : Drive σ φ) : BackendRead → Prop
  | .frag list buf =>
    s.chkMode modeFrag = true ∧ list = s.frag.fragList ∧ buf = s.frag.sectorBuf.isSome
  | .wbfs opened =>
    s.chkMode modeFrag = false ∧ s.chkMode modeWbfs = true ∧ opened = s.wbfs.isSome

/-- The emulation is the same in `s'` as in `s`, and only allowed reads lie in between. -/
structure Keeps (s s' : Drive σ φ) : Prop where
  wbfsBit : s'.chkMode modeWbfs = s.chkMode modeWbfs
  fragBit : s'.chkMode modeFrag = s.chkMode modeFrag
  record : s'.dipCfgState = s.dipCfgState
  list : s'.frag = { s.frag with sectorBuf := s'.frag.sectorBuf }
  buf : s'.frag.sectorBuf.isSome = s.frag.sectorBuf.isSome
  devFd : s'.devFd = s.devFd
  disc : s'.wbfs = s.wbfs
  flash : s'.flash = s.flash
  reads : ∃ new, s'.trace = new ++ s.trace ∧ ∀ read, read ∈ new → s.Allows read

/-- The settings of a loader are the same in `s'` as in `s`, or cleared. -/
structure Tames (s s' : Drive σ φ) : Prop where
  crypt : s'.chkMode modeCrypt = true → s.chkMode modeCrypt = true
  offset : s'.config.offset0 = s.config.offset0 ∨ s'.config.offset0 = 0
  noreset : s'.config.noreset = s.config.noreset ∨ s'.config.noreset = 0

/-- Neither the emulation nor the settings of a loader are touched, except to clear the latter. -/
structure Quiet (s s' : Drive σ φ) : Prop extends Keeps s s', Tames s s'

namespace Keeps

variable {s s' s'' : Drive σ φ}

theorem refl (s : Drive σ φ) : Keeps s s :=
  ⟨rfl, rfl, rfl, rfl, rfl, rfl, rfl, rfl, [], rfl, fun _ member => absurd member (by simp)⟩

/-- What is allowed later was allowed before. -/
theorem allows (keeps : Keeps s s') {read : BackendRead} (allowed : s'.Allows read) :
    s.Allows read := by
  cases read with
  | frag list buf =>
    obtain ⟨bit, list_eq, buf_eq⟩ := allowed
    rw [keeps.list] at list_eq
    exact ⟨keeps.fragBit ▸ bit, list_eq, keeps.buf ▸ buf_eq⟩
  | wbfs opened =>
    obtain ⟨fragBit, wbfsBit, opened_eq⟩ := allowed
    exact ⟨keeps.fragBit ▸ fragBit, keeps.wbfsBit ▸ wbfsBit, keeps.disc ▸ opened_eq⟩

theorem trans (first : Keeps s s') (second : Keeps s' s'') : Keeps s s'' where
  wbfsBit := second.wbfsBit.trans first.wbfsBit
  fragBit := second.fragBit.trans first.fragBit
  record := second.record.trans first.record
  list := by rw [second.list, first.list]
  buf := second.buf.trans first.buf
  devFd := second.devFd.trans first.devFd
  disc := second.disc.trans first.disc
  flash := second.flash.trans first.flash
  reads := by
    obtain ⟨early, early_eq, early_allowed⟩ := first.reads
    obtain ⟨late, late_eq, late_allowed⟩ := second.reads
    refine ⟨late ++ early, by rw [late_eq, early_eq, List.append_assoc], fun read member => ?_⟩
    rcases List.mem_append.mp member with is_late | is_early
    · exact first.allows (late_allowed read is_late)
    · exact early_allowed read is_early

/-- A change of the other mode bits and of settings the emulation does not depend on. -/
theorem of_config (s : Drive σ φ) {config : DipConfig} (io : σ)
    (wbfsBit : config.mode &&& modeWbfs = s.config.mode &&& modeWbfs)
    (fragBit : config.mode &&& modeFrag = s.config.mode &&& modeFrag) :
    Keeps s { s with config := config, io := io } where
  wbfsBit := by simp only [Drive.chkMode, wbfsBit]
  fragBit := by simp only [Drive.chkMode, fragBit]
  record := rfl
  list := rfl
  buf := rfl
  devFd := rfl
  disc := rfl
  flash := rfl
  reads := ⟨[], rfl, fun _ member => absurd member (by simp)⟩

end Keeps

theorem Tames.refl (s : Drive σ φ) : Tames s s := ⟨id, .inl rfl, .inl rfl⟩

theorem Tames.trans {s s' s'' : Drive σ φ} (first : Tames s s') (second : Tames s' s'') :
    Tames s s'' where
  crypt set := first.crypt (second.crypt set)
  offset := by
    rcases second.offset with same | cleared
    · rw [same]
      exact first.offset
    · exact .inr cleared
  noreset := by
    rcases second.noreset with same | cleared
    · rw [same]
      exact first.noreset
    · exact .inr cleared

namespace Quiet

variable {s s' s'' : Drive σ φ}

theorem refl (s : Drive σ φ) : Quiet s s := ⟨.refl s, .refl s⟩

theorem trans (first : Quiet s s') (second : Quiet s' s'') : Quiet s s'' :=
  ⟨first.toKeeps.trans second.toKeeps, first.toTames.trans second.toTames⟩

/-- The outside moves on. -/
theorem io (s : Drive σ φ) (io : σ) : Quiet s { s with io := io } :=
  ⟨.of_config s io rfl rfl, id, .inl rfl, .inl rfl⟩

/-- The error code is no part of the frame. -/
theorem setError (s : Drive σ φ) (error : UInt32) : Quiet s (s.setError error) :=
  ⟨.of_config s s.io rfl rfl, id, .inl rfl, .inl rfl⟩

/-- The type of the disc is no part of the frame. -/
theorem setType (s : Drive σ φ) (type : DiscType) : Quiet s (s.setType type) :=
  ⟨.of_config s s.io rfl rfl, id, .inl rfl, .inl rfl⟩

/-- The mode of a plain DVD is no part of the frame. -/
theorem setDvdrom (s : Drive σ φ) : Quiet s (s.setMode modeDvdrom) :=
  ⟨.of_config s s.io (or_and_of_disjoint (by decide)) (or_and_of_disjoint (by decide)),
    fun set => by rwa [chkMode_setMode_of_disjoint s (by decide)] at set, .inl rfl, .inl rfl⟩

end Quiet

/-! ## Reads -/

section Reads

variable (port : DrivePort σ φ)

/-- The check of an offset is quiet. -/
theorem diCheckOffset_quiet (offset : UInt32) (s : Drive σ φ) :
    Quiet s (diCheckOffset offset s).2 := by
  unfold diCheckOffset
  split
  · split
    · exact .setError s _
    · exact .refl s
  · split
    · exact .setError s _
    · exact .refl s
  · exact .refl s

/-- A read of a fragment list is quiet. -/
theorem fragReadDisc_quiet (out : Mem) (len offset : UInt32) (s : Drive σ φ)
    (selected : s.chkMode modeFrag = true) :
    Quiet s (fragReadDisc port out len offset s).2.2 where
  wbfsBit := rfl
  fragBit := rfl
  record := rfl
  list := rfl
  buf := by simp [fragReadDisc]
  devFd := rfl
  disc := rfl
  flash := rfl
  reads := ⟨[.frag s.frag.fragList s.frag.sectorBuf.isSome], rfl, fun read member => by
    rw [List.mem_singleton.mp member]
    exact ⟨selected, rfl, rfl⟩⟩
  crypt := id
  offset := .inl rfl
  noreset := .inl rfl

/-- A read of a WBFS partition is quiet. -/
theorem wbfsRead_quiet (out : Mem) (len offset : UInt32) (s : Drive σ φ)
    (other : s.chkMode modeFrag = false) (selected : s.chkMode modeWbfs = true) :
    Quiet s (wbfsRead port out len offset s).2.2 where
  wbfsBit := rfl
  fragBit := rfl
  record := rfl
  list := rfl
  buf := rfl
  devFd := rfl
  disc := rfl
  flash := rfl
  reads := ⟨[.wbfs s.wbfs.isSome], rfl, fun read member => by
    rw [List.mem_singleton.mp member]
    exact ⟨other, selected, rfl⟩⟩
  crypt := id
  offset := .inl rfl
  noreset := .inl rfl

/-- An unencrypted read is quiet, whichever source is selected. -/
theorem diReadUnencrypted_quiet (out : Mem) (len offset : UInt32) (s : Drive σ φ) :
    Quiet s (diReadUnencrypted port out len offset s).2.2 := by
  have checked := diCheckOffset_quiet offset s
  unfold diReadUnencrypted
  generalize diCheckOffset offset s = result at checked ⊢
  obtain ⟨ret, s₁⟩ := result
  simp only at checked ⊢
  split
  · exact checked
  split
  case isTrue selected => exact checked.trans (fragReadDisc_quiet port _ _ _ s₁ selected)
  split
  case isTrue other selected =>
    exact checked.trans (wbfsRead_quiet port _ _ _ s₁ (by simpa using other) selected)
  split
  · exact checked.trans (.io s₁ _)
  · exact checked.trans (.io s₁ _)

/-- The read of the disc ID is quiet. -/
theorem diReadDiscId_quiet (out : Mem) (len : UInt32) (s : Drive σ φ) :
    Quiet s (diReadDiscId port out len s).2.2 := by
  have read := diReadUnencrypted_quiet port out len 0 s
  unfold diReadDiscId
  generalize diReadUnencrypted port out len 0 s = result at read ⊢
  obtain ⟨ret, out₁, s₁⟩ := result
  simp only at read ⊢
  split
  · exact read
  split
  · split
    · exact read.trans (.io s₁ _)
    · exact read.trans (.io s₁ _)
  · exact read

/-- The check of the disc is quiet. -/
theorem diCheckDisc_quiet (s : Drive σ φ) : Quiet s (diCheckDisc port s) := by
  unfold diCheckDisc
  generalize port.storage.alloc discSectorSize.toNat s.io = allocated
  obtain ⟨buffer, io⟩ := allocated
  simp only
  split
  · exact .io s io
  case h_2 buffer =>
    have read := diReadUnencrypted_quiet port buffer discSectorSize 0x47000000 { s with io := io }
    exact ((Quiet.io s io).trans read).trans (.setType _ _)

end Reads

/-! ## Commands of the drive -/

section Commands

variable (port : DrivePort σ φ) (req : Request) (out : Mem) (s : Drive σ φ)

/-- The drive's own handler of commands is quiet. -/
theorem diHandleCmd_quiet : Quiet s (diHandleCmd port req out s).drive := .io s _

/-- A reset of the configuration is quiet. -/
theorem diResetConfig_quiet : Quiet s (diResetConfig s) := by
  have wbfs : ~~~modeCrypt &&& (~~~modeDvdrom &&& modeWbfs) = modeWbfs := by decide
  have frag : ~~~modeCrypt &&& (~~~modeDvdrom &&& modeFrag) = modeFrag := by decide
  have crypt : ~~~modeCrypt &&& (~~~modeDvdrom &&& modeCrypt) = 0 := by decide
  refine ⟨.of_config s s.io ?_ ?_, fun set => ?_, .inr rfl, .inr rfl⟩
  · simp only [Drive.delMode, UInt32.and_assoc, wbfs]
  · simp only [Drive.delMode, UInt32.and_assoc, frag]
  · simp [Drive.chkMode, diResetConfig, Drive.delMode, UInt32.and_assoc, crypt] at set

/-- `DI_CMD_RESET` is quiet. -/
theorem diReset_quiet : Quiet s (diReset port req out s).drive := by
  unfold diReset
  split
  · exact .refl s
  · refine (diResetConfig_quiet s).trans ?_
    generalize diResetConfig s = s₁
    simp only
    split
    · exact ⟨.of_config s₁ _ rfl rfl, id, .inl rfl, .inl rfl⟩
    · exact diHandleCmd_quiet port req out s₁

/-- `DI_CMD_READ` is quiet. -/
theorem diRead_quiet (len offset : UInt32) : Quiet s (diRead port len offset out s).drive :=
  diReadUnencrypted_quiet port out len offset s

/-- `DI_CMD_READID` is quiet where it asks the drive. -/
theorem diReadidDrive_quiet : Quiet s (diReadidDrive port req out s).drive := by
  unfold diReadidDrive
  simp only
  split
  · exact (diHandleCmd_quiet port req out s).trans (.setDvdrom _)
  · exact diHandleCmd_quiet port req out s

omit s out in
/-- `DI_CMD_READID` is quiet where it finds out the type of the disc. -/
theorem diReadidType_quiet (r : Reply σ φ) : Quiet r.drive (diReadidType port r).drive := by
  unfold diReadidType
  split
  · exact .refl _
  split
  · exact .setType _ _
  · exact diCheckDisc_quiet port _

/-- `DI_CMD_READID` is quiet. -/
theorem diReadid_quiet : Quiet s (diReadid port req out s).drive := by
  unfold diReadid
  have begins : Quiet s (if s.chkMode modeEmul then answer 0 out s
      else diReadidDrive port req out s).drive := by
    split
    · exact .refl s
    · exact diReadidDrive_quiet port req out s
  generalize (if s.chkMode modeEmul then answer 0 out s
    else diReadidDrive port req out s) = r at begins ⊢
  simp only
  split
  · exact (begins.trans (diReadDiscId_quiet port _ _ _)).trans (diReadidType_quiet port ⟨_, _, _⟩)
  · exact begins.trans (diReadidType_quiet port r)

/-- The low-level read is quiet. -/
theorem diLowRead_quiet : Quiet s (diLowRead port req out s).drive := by
  unfold diLowRead
  split
  · exact diRead_quiet port out s _ _
  · exact diHandleCmd_quiet port req out s

/-- `DI_CMD_OFFSET` is quiet. -/
theorem diOffset_quiet : Quiet s (diOffset port req out s).drive := by
  unfold diOffset
  split
  · exact ⟨.of_config s s.io rfl rfl, id, .inl rfl, .inl rfl⟩
  · exact diHandleCmd_quiet port req out s

/-- A command that an emulated disc does not get is quiet. -/
theorem diUnlessEmulated_quiet : Quiet s (diUnlessEmulated port req out s).drive := by
  unfold diUnlessEmulated
  split
  · exact .refl s
  · exact diHandleCmd_quiet port req out s

/-- `DI_CMD_REPORTKEY` is quiet. -/
theorem diReportKey_quiet : Quiet s (diReportKey port req out s).drive := by
  unfold diReportKey
  split
  · exact .setError s _
  · exact diHandleCmd_quiet port req out s

/-- `DI_CMD_REQCOVER` is quiet. -/
theorem diReqcover_quiet : Quiet s (diReqcover port req out s).drive := by
  unfold diReqcover
  split
  · exact .refl s
  · exact diHandleCmd_quiet port req out s

/-- `DI_CMD_REQERROR` is quiet. -/
theorem diReqerror_quiet : Quiet s (diReqerror port req out s).drive := by
  unfold diReqerror
  split
  · exact .refl s
  · exact diHandleCmd_quiet port req out s

end Commands

/-- The commands that are the plugin's own. -/
def DiCommand.custom : DiCommand → Bool
  | .offsetSet | .offsetGet | .cryptSet | .cryptGet | .wbfsSet | .wbfsGet | .fragSet | .modeGet
  | .saveConfig | .resetDisable | .customcmd => true
  | _ => false

section Dispatch

variable (port : DrivePort σ φ) (req : Request) (out : Mem) (s : Drive σ φ)

/-- A command of the drive leaves the emulation and the settings of a loader alone. -/
theorem diDispatch_quiet (ordinary : req.command.custom = false) :
    Quiet s (diDispatch port req out s).drive := by
  unfold diDispatch
  cases command : req.command with
  | reset => exact diReset_quiet port req out s
  | readid => exact diReadid_quiet port req out s
  | lowRead => exact diLowRead_quiet port req out s
  | unencread => exact diRead_quiet port out s _ _
  | readA8 => exact diRead_quiet port out s _ _
  | readD0 => exact diRead_quiet port out s _ _
  | readbca => exact diRead_quiet port out s _ _
  | offset => exact diOffset_quiet port req out s
  | seek => exact diUnlessEmulated_quiet port req out s
  | audioConfig => exact diUnlessEmulated_quiet port req out s
  | reportKey => exact diReportKey_quiet port req out s
  | reqcover => exact diReqcover_quiet port req out s
  | reqerror => exact diReqerror_quiet port req out s
  | other => exact diHandleCmd_quiet port req out s
  | _ => simp [command, DiCommand.custom] at ordinary

/-- A custom command is not recognized while a title is running that is not ES. -/
theorem diDispatch_refused (custom : req.command.custom = true) (title : req.runningTitle ≠ 0)
    (notEs : req.esRequest = 0) : diDispatch port req out s = diHandleCmd port req out s := by
  unfold diDispatch
  cases command : req.command with
  | saveConfig => simp [notEs]
  | offsetSet | offsetGet | cryptSet | cryptGet | wbfsSet | wbfsGet | fragSet | modeGet
  | resetDisable | customcmd => simp [unlessTitle, title]
  | _ => simp [command, DiCommand.custom] at custom

end Dispatch

end D2xCios.Dip
