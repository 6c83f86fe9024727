import D2xCios.Dip.Flash
import D2xCios.Dip.Loader

/-!
# Reads go through open backends

`DI_EmulateCmd` sets a mode bit behind a successful open, and never lets the two
part: this is `Drive.Sound`. `__DI_InitDriveEmulation` sets the bits of the saved
mode first, and its opens may then fail, or not be tried at all when both bits
are set. So the backends are open in every state exactly when that restore opens
what it selects.
-/

namespace D2xCios.Dip

open D2xCios.Lib

variable {σ φ : Type}

/-! ## Backends behind mode bits -/

/-- The read found what it relies on. -/
def BackendRead.Safe : BackendRead → Prop
  | .frag list buf => list = true ∧ buf = true
  | .wbfs opened => opened = true

/-- `Frag_Init` has succeeded, and `Frag_Close` has not followed. -/
def Drive.FragOpen (s : Drive σ φ) : Prop :=
  s.frag.fragInited = true ∧ s.frag.fragList = true ∧ s.frag.sectorBuf.isSome = true

/-- The selected backend is open, and so it was for every read. -/
structure Drive.Backed (s : Drive σ φ) : Prop where
  frag : s.chkMode modeFrag = true → s.FragOpen
  wbfs : s.chkMode modeWbfs = true → s.chkMode modeFrag = false → s.wbfs.isSome = true
  reads : ∀ read, read ∈ s.trace → read.Safe

/-- Every backend with its bit set is open, also one that the other hides. -/
structure Drive.Sound (s : Drive σ φ) : Prop where
  frag : s.chkMode modeFrag = true → s.FragOpen
  wbfs : s.chkMode modeWbfs = true → s.wbfs.isSome = true
  reads : ∀ read, read ∈ s.trace → read.Safe

namespace Drive.Sound

variable {s s' : Drive σ φ}

/-- In a sound drive the selected source is open. -/
theorem backed (sound : s.Sound) : s.Backed :=
  ⟨sound.frag, fun bit _ => sound.wbfs bit, sound.reads⟩

/-- What keeps the drive keeps it sound. -/
theorem of_keeps (sound : s.Sound) (keeps : Keeps s s') : s'.Sound where
  frag bit := by
    obtain ⟨inited, list, buf⟩ := sound.frag (keeps.fragBit ▸ bit)
    rw [FragOpen, keeps.list]
    exact ⟨inited, list, keeps.buf.trans buf⟩
  wbfs bit := by
    rw [keeps.disc]
    exact sound.wbfs (keeps.wbfsBit ▸ bit)
  reads read member := by
    obtain ⟨new, trace, allowed⟩ := keeps.reads
    rcases List.mem_append.mp (trace ▸ member) with recent | earlier
    case inr => exact sound.reads read earlier
    have allows := allowed read recent
    cases read with
    | frag list buf =>
      obtain ⟨bit, rfl, rfl⟩ := allows
      exact (sound.frag bit).2
    | wbfs opened =>
      obtain ⟨-, bit, rfl⟩ := allows
      exact sound.wbfs bit

/-- The selection of a WBFS disc keeps the drive sound. -/
theorem of_wbfsSet (sound : s.Sound) (keeps : KeepsFrag s s')
    (selected : s'.chkMode modeWbfs = false ∧ s'.dipCfgState = s.dipCfgState ∨ WbfsSelected s') :
    s'.Sound where
  frag bit := by
    rw [FragOpen, keeps.frag]
    exact sound.frag (keeps.bit ▸ bit)
  wbfs bit := by
    rcases selected with ⟨off, -⟩ | selected
    · exact absurd (off.symm.trans bit) Bool.false_ne_true
    · obtain ⟨discid, disc⟩ := selected.disc
      rw [disc]
      rfl
  reads := keeps.trace ▸ sound.reads

/-- The selection of a fragment list keeps the drive sound. -/
theorem of_fragSet (sound : s.Sound) (keeps : KeepsWbfs s s')
    (selected : s'.chkMode modeFrag = false ∧ s'.dipCfgState = s.dipCfgState ∨ FragSelected s') :
    s'.Sound where
  frag bit := by
    rcases selected with ⟨off, -⟩ | selected
    · exact absurd (off.symm.trans bit) Bool.false_ne_true
    · exact ⟨selected.inited, selected.list, selected.buf⟩
  wbfs bit := by
    rw [keeps.disc]
    exact sound.wbfs (keeps.bit ▸ bit)
  reads := keeps.trace ▸ sound.reads

/-- The rest of the state does not matter. -/
theorem of_statics (sound : s.Sound) {ffs : FfsConfigState} {io : σ} {flash : φ} :
    Drive.Sound { s with ffsCfgState := ffs, io := io, flash := flash } :=
  ⟨sound.frag, sound.wbfs, sound.reads⟩

end Drive.Sound

/-! ## Commands -/

variable (port : DrivePort σ φ)

/-- Every command keeps the drive sound. -/
theorem diEmulateCmd_sound (req : Request) (out : Mem) {s : Drive σ φ} (sound : s.Sound) :
    (diEmulateCmd port req out s).drive.Sound := by
  obtain ⟨s₀, cleared, keeps | wbfs | frag | save⟩ := diEmulateCmd_cases port req out s
  · exact (sound.of_keeps cleared).of_keeps keeps
  · obtain ⟨keeps, selected⟩ := diWbfsSet_cases port req out s₀
    rw [wbfs]
    exact (sound.of_keeps cleared).of_wbfsSet keeps selected
  · obtain ⟨keeps, selected⟩ := diFragSet_cases port req out s₀
    rw [frag]
    exact (sound.of_keeps cleared).of_fragSet keeps selected
  · obtain ⟨ffs, io, flash, saved⟩ := diSaveConfig_frame port out s₀
    rw [save, saved]
    exact (sound.of_keeps cleared).of_statics

/-- Every run of commands keeps the drive sound. -/
theorem runCmds_sound (cmds : List (Request × Mem)) {s : Drive σ φ} (sound : s.Sound) :
    (runCmds port cmds s).Sound := by
  induction cmds generalizing s with
  | nil => exact sound
  | cons cmd rest ih => exact ih (diEmulateCmd_sound port cmd.1 cmd.2 sound)

/-! ## The restore -/

/-- The fragment list of a saved record is read as well. -/
def savedList (fd : Int) (cfg : DipConfigState) (flash : φ) : Bool :=
  let ret2 := if cfg.fragSize.toNat > fragListSize then -1
    else (port.readFile fd cfg.fragSize.toNat flash).1
  UInt32.ofInt ret2 == cfg.fragSize

/-- The record that `DI_Config_Load` accepts, if it accepts one. -/
def savedRecord (flash : φ) : Option DipConfigState :=
  let (fd, flash) := port.openFile .dip .read flash
  if fd < 0 then none
  else
    let (ret, bytes, flash) := port.readFile fd dipConfigSize flash
    let cfg :=
      DipConfigState.ofBytes (readInto (DipConfigState.bytes ⟨0, 0, 0⟩) bytes dipConfigSize)
    if ret = dipConfigSize ∧ (cfg.mode = modeFrag → savedList port fd cfg flash) then some cfg
    else none

/-- The open of a WBFS disc gets through. -/
def WbfsOpens (device : UInt32) (discid : List UInt8) (io : σ) : Prop :=
  let opened := port.wbfsOpenDevice device io
  0 ≤ opened.1 ∧ (port.wbfsOpenDisc opened.1 discid opened.2).1 = 0

/-- A restore of `cfg` opens each backend it selects. -/
def RestoreOpens (cfg : DipConfigState) (io : σ) : Prop :=
  if cfg.mode &&& modeFrag ≠ 0 then
    cfg.mode &&& modeWbfs = 0 ∧
    FragInits port.storage cfg.device.toNat cfg.fragSize.toNat io
  else if cfg.mode &&& modeWbfs ≠ 0 then
    WbfsOpens port (cfg.device - 1) ((port.memory 0 io).window 0 6) io
  else True

/-- When the open of a WBFS disc succeeds. -/
theorem wbfsOpen_eq_zero_iff (device : UInt32) (discid : List UInt8) (s : Drive σ φ) :
    (wbfsOpen port device discid s).1 = 0 ↔ WbfsOpens port device discid s.io := by
  obtain ⟨fd, io, opened⟩ : ∃ fd io, port.wbfsOpenDevice device s.io = (fd, io) := ⟨_, _, rfl⟩
  simp only [wbfsOpen, WbfsOpens, opened]
  split
  case isTrue negative =>
    exact ⟨fun zero => absurd zero (by simp only; omega), fun opens => absurd opens.1 (by omega)⟩
  case isFalse positive => exact ⟨fun zero => ⟨by omega, zero⟩, And.right⟩

/-- The saved list is loaded, or the load fails. -/
theorem diConfigLoadList_cases (fd ret : Int) (cfg : DipConfigState) (s : Drive σ φ) :
    ∃ flash data, diConfigLoadList port fd ret cfg s =
      (if savedList port fd cfg s.flash then ret else -1,
        { s with flash := flash, frag := { s.frag with fraglistData := data } }) := by
  unfold diConfigLoadList savedList
  by_cases large : cfg.fragSize.toNat > fragListSize
  · simp only [large, if_true, beq_iff_eq, ite_not]
    exact ⟨_, _, rfl⟩
  · simp only [large, if_false, beq_iff_eq, ite_not]
    exact ⟨_, _, rfl⟩

/-- What `DI_Config_Load` does to the statics of a module just loaded. -/
theorem diConfigLoad_cases (s : Drive σ φ) (fresh : s.dipCfgState = ⟨0, 0, 0⟩) :
    ∃ ret cfg flash data, diConfigLoad port s = (ret, { s with
      dipCfgState := cfg
      flash := flash
      frag := { s.frag with fraglistData := data } }) ∧
    savedRecord port s.flash = if 0 < ret then some cfg else none := by
  obtain ⟨fd, flash₁, opened⟩ : ∃ fd flash₁,
    port.openFile .dip .read s.flash = (fd, flash₁) := ⟨_, _, rfl⟩
  by_cases negative : fd < 0
  case pos =>
    have load : diConfigLoad port s = (fd, { s with flash := flash₁ }) := by
      simp only [diConfigLoad, opened, negative, if_true]
    have record : savedRecord port s.flash = none := by
      simp only [savedRecord, opened, negative, if_true]
    exact ⟨_, _, _, _, load, by rw [record, if_neg (by omega)]⟩
  obtain ⟨ret, bytes, flash₂, read⟩ : ∃ ret bytes flash₂,
    port.readFile fd dipConfigSize flash₁ = (ret, bytes, flash₂) := ⟨_, _, _, rfl⟩
  obtain ⟨cfg, loaded⟩ : ∃ cfg, DipConfigState.ofBytes
    (readInto (DipConfigState.bytes ⟨0, 0, 0⟩) bytes dipConfigSize) = cfg := ⟨_, rfl⟩
  by_cases whole : ret = dipConfigSize
  case neg =>
    have record : savedRecord port s.flash = none := by
      simp only [savedRecord, opened, negative, if_false, read, whole, false_and]
    by_cases short : ret ≥ 0
    · have load : diConfigLoad port s = (-1, { s with
          dipCfgState := cfg, flash := port.deleteFile .dip (port.closeFile fd flash₂) }) := by
        simp only [diConfigLoad, opened, negative, if_false, read, fresh, loaded, whole, short,
          if_true]
      exact ⟨_, _, _, _, load, record⟩
    · have load : diConfigLoad port s = (ret, { s with
          dipCfgState := cfg, flash := port.deleteFile .dip (port.closeFile fd flash₂) }) := by
        simp only [diConfigLoad, opened, negative, if_false, read, fresh, loaded, whole, short]
      exact ⟨_, _, _, _, load, by rw [record, if_neg (by omega)]⟩
  case pos =>
    subst whole
    by_cases frag : cfg.mode = modeFrag
    case neg =>
      have record : savedRecord port s.flash = some cfg := by
        simp only [savedRecord, opened, negative, if_false, read, loaded, frag, false_implies,
          and_self, if_true]
      have load : diConfigLoad port s = ((dipConfigSize : Int), { s with
          dipCfgState := cfg, flash := port.deleteFile .dip (port.closeFile fd flash₂) }) := by
        simp only [diConfigLoad, opened, negative, if_false, read, fresh, loaded, frag, if_true]
      exact ⟨_, _, _, _, load, record⟩
    case pos =>
      obtain ⟨flash₃, data, list⟩ := diConfigLoadList_cases port fd dipConfigSize cfg
        { s with dipCfgState := cfg, flash := flash₂ }
      have record : savedRecord port s.flash =
          if savedList port fd cfg flash₂ then some cfg else none := by
        simp only [savedRecord, opened, negative, if_false, read, loaded, frag, true_implies,
          true_and]
      have load : diConfigLoad port s =
          (if savedList port fd cfg flash₂ then (dipConfigSize : Int) else -1, { s with
            dipCfgState := cfg
            flash := port.deleteFile .dip (port.closeFile fd flash₃)
            frag := { s.frag with fraglistData := data } }) := by
        simp only [diConfigLoad, opened, negative, if_false, read, fresh, loaded, frag, if_true,
          list]
      refine ⟨_, _, _, _, load, ?_⟩
      rw [record]
      cases savedList port fd cfg flash₂ <;> rfl

/-- The statics of a module just loaded. -/
structure Drive.Fresh (s : Drive σ φ) : Prop where
  mode : s.config.mode = 0
  record : s.dipCfgState = ⟨0, 0, 0⟩
  frag : s.frag.fragInited = false
  trace : s.trace = []

/-- The backends that a saved mode selects are opened, or the bits are set without them. -/
theorem diRestoreMode_cases {s : Drive σ φ} (closed : s.frag.fragInited = false)
    (noReads : ∀ read, read ∈ s.trace → read.Safe) :
    (RestoreOpens port s.dipCfgState s.io → (diRestoreMode port s).Sound) ∧
    ((diRestoreMode port s).Backed → RestoreOpens port s.dipCfgState s.io) := by
  obtain ⟨s₁, moded⟩ :
    ∃ s₁, s₁ = { s with config := { s.config with mode := s.dipCfgState.mode } } :=
    ⟨_, rfl⟩
  have bit : ∀ bits, s₁.chkMode bits = (s.dipCfgState.mode &&& bits != 0) := fun _ => by
    rw [moded, Drive.chkMode]
  have io : s₁.io = s.io := by rw [moded]
  have record : s₁.dipCfgState = s.dipCfgState := by rw [moded]
  have closed₁ : s₁.frag.fragInited = false := by rw [moded]; exact closed
  have noReads₁ : ∀ read, read ∈ s₁.trace → read.Safe := by rw [moded]; exact noReads
  have restore : diRestoreMode port s =
      if s₁.chkMode modeWbfs then
        (wbfsOpen port (s.dipCfgState.device - 1) ((port.memory 0 s.io).window 0 6) s₁).2
      else if s₁.chkMode modeFrag then
        { s₁ with
          frag := (fragInit port.storage s.dipCfgState.device.toNat none
            s.dipCfgState.fragSize.toNat s₁.frag s.io).2.1
          io := (fragInit port.storage s.dipCfgState.device.toNat none
            s.dipCfgState.fragSize.toNat s₁.frag s.io).2.2 }
      else s₁ := by
    rw [moded]
    rfl
  clear moded
  rw [restore]
  by_cases wbfs : s.dipCfgState.mode &&& modeWbfs = 0
  case neg =>
    have wbfsOn : s₁.chkMode modeWbfs = true := by simp [bit, wbfs]
    obtain ⟨ret, fd, io₁, disc, opened, stored, failed⟩ := wbfsOpen_cases port s₁
      (s.dipCfgState.device - 1) ((port.memory 0 s.io).window 0 6)
    have opens := wbfsOpen_eq_zero_iff port (s.dipCfgState.device - 1)
      ((port.memory 0 s.io).window 0 6) s₁
    simp only [wbfsOn, if_true, opened] at opens ⊢
    rw [io] at opens
    by_cases frag : s.dipCfgState.mode &&& modeFrag = 0
    case neg =>
      -- Both bits are set, and only the WBFS disc has been tried.
      have fragOn : s₁.chkMode modeFrag = true := by simp [bit, frag]
      refine ⟨fun restores => ?_, fun backed => ?_⟩
      · rw [RestoreOpens, if_pos frag] at restores
        exact absurd restores.1 wbfs
      · exact absurd (closed₁.symm.trans (backed.frag fragOn).1) Bool.false_ne_true
    case pos =>
      have fragOff : s₁.chkMode modeFrag = false := by simp [bit, frag]
      rw [RestoreOpens, if_neg (not_not.mpr frag), if_pos wbfs, ← opens]
      refine ⟨fun zero => ⟨fun on => absurd (fragOff.symm.trans on) Bool.false_ne_true,
        fun _ => by rw [stored zero]; rfl, noReads₁⟩, fun backed => ?_⟩
      by_contra nonzero
      have isSome := backed.wbfs wbfsOn fragOff
      rw [failed nonzero] at isSome
      exact Bool.false_ne_true isSome
  case pos =>
    have wbfsOff : s₁.chkMode modeWbfs = false := by simp [bit, wbfs]
    simp only [wbfsOff, Bool.false_eq_true, if_false]
    by_cases frag : s.dipCfgState.mode &&& modeFrag = 0
    case pos =>
      have fragOff : s₁.chkMode modeFrag = false := by simp [bit, frag]
      simp only [RestoreOpens, frag, wbfs, ne_eq, not_true_eq_false, if_false, implies_true,
        and_true, forall_const, fragOff, Bool.false_eq_true]
      exact ⟨fun on => absurd (fragOff.symm.trans on) Bool.false_ne_true,
        fun on => absurd (wbfsOff.symm.trans on) Bool.false_ne_true, noReads₁⟩
    case neg =>
      have fragOn : s₁.chkMode modeFrag = true := by simp [bit, frag]
      have zero := fragInit_eq_zero_iff port.storage s.dipCfgState.device.toNat none
        s.dipCfgState.fragSize.toNat s₁.frag s.io
      rw [RestoreOpens, if_pos frag, ← zero, if_pos fragOn]
      refine ⟨fun restores => ⟨fun _ => ?_, fun on => absurd (wbfsOff.symm.trans on)
        Bool.false_ne_true, noReads₁⟩, fun backed => ⟨wbfs, ?_⟩⟩
      · obtain ⟨sectorSize, buf, ok⟩ := fragInit_ok restores.2
        simp only [Drive.FragOpen, ok, Option.isSome_some, and_self]
      · by_contra nonzero
        exact absurd ((fragInit_failed nonzero).symm.trans (backed.frag fragOn).1)
          Bool.false_ne_true

/-- The backends that the saved record selects are opened, or the bits are set without them. -/
theorem diRestore_cases {s : Drive σ φ} (fresh : s.Fresh) :
    ((∀ cfg, savedRecord port s.flash = some cfg → RestoreOpens port cfg s.io) →
      (diRestore port s).Sound) ∧
    ((diRestore port s).Backed →
      ∀ cfg, savedRecord port s.flash = some cfg → RestoreOpens port cfg s.io) := by
  obtain ⟨ret, cfg, flash, data, load, record⟩ := diConfigLoad_cases port s fresh.record
  have noReads : ∀ read, read ∈ s.trace → read.Safe := by simp [fresh.trace]
  by_cases found : 0 < ret
  case neg =>
    have off : ∀ bits, s.chkMode bits = false := by simp [Drive.chkMode, fresh.mode]
    rw [record, if_neg found]
    simp only [diRestore, load, gt_iff_lt, found, if_false]
    exact ⟨fun _ => ⟨fun bit => absurd ((off _).symm.trans bit) Bool.false_ne_true,
      fun bit => absurd ((off _).symm.trans bit) Bool.false_ne_true, noReads⟩,
      fun _ _ absent => absurd absent (by simp)⟩
  case pos =>
    obtain ⟨opens, backed⟩ := diRestoreMode_cases port (s := { s with
      dipCfgState := cfg
      flash := flash
      frag := { s.frag with fraglistData := data } }) fresh.frag noReads
    simp only [record, diRestore, load, gt_iff_lt, found, if_true, Option.some.injEq]
    exact ⟨fun restores => opens (restores cfg rfl), fun sound _ same => same ▸ backed sound⟩

/-- `DI_EmulateInitDrive` on the statics of a module just loaded. -/
def diStart (io : σ) (flash : φ) : Drive σ φ := diEmulateInitDrive port (Drive.boot io flash)

/-- Restoring the FFS plugin changes nothing of the drive. -/
theorem diRestoreFfs_frame (s : Drive σ φ) : ∃ ffs io flash,
    diRestoreFfs port s = { s with ffsCfgState := ffs, io := io, flash := flash } := by
  have load : ∃ ret ffs flash,
      ffsConfigLoad port s = (ret, { s with ffsCfgState := ffs, flash := flash }) := by
    unfold ffsConfigLoad
    simp only
    split
    · exact ⟨_, _, _, rfl⟩
    · exact ⟨_, _, _, rfl⟩
  obtain ⟨ret, ffs, flash, load⟩ := load
  unfold diRestoreFfs
  rw [load]
  simp only
  split
  · exact ⟨_, _, _, rfl⟩
  · exact ⟨_, _, _, rfl⟩

/-- In every state that commands lead to the selected backend is open, exactly when the restore
behind the boot opens what it selects. -/
theorem backends_open_iff (io : σ) (flash : φ) :
    (∀ cmds, (runCmds port cmds (diStart port io flash)).Backed) ↔
    ∀ cfg, savedRecord port flash = some cfg → RestoreOpens port cfg (port.handleInitDrive io) := by
  have fresh : Drive.Fresh { Drive.boot io flash with io := port.handleInitDrive io } :=
    ⟨rfl, rfl, rfl, rfl⟩
  obtain ⟨opens, backed⟩ := diRestore_cases port fresh
  obtain ⟨ffs, io', flash', ffsRestored⟩ := diRestoreFfs_frame port
    (diRestore port { Drive.boot io flash with io := port.handleInitDrive io })
  have start : diStart port io flash =
      { diRestore port { Drive.boot io flash with io := port.handleInitDrive io } with
        ffsCfgState := ffs, io := io', flash := flash' } := ffsRestored
  constructor
  · intro always
    have restored := always []
    rw [runCmds, List.foldl_nil, start] at restored
    exact backed ⟨restored.frag, restored.wbfs, restored.reads⟩
  · intro restores cmds
    have sound : (diStart port io flash).Sound := start ▸ (opens restores).of_statics
    exact (runCmds_sound port cmds sound).backed

/-! ## A disc that has gone -/

/-- A flash with a record of a WBFS disc on the first device. -/
def wbfsFlash : FileStore CfgFile where
  file name := if name = .dip then some (DipConfigState.bytes ⟨modeWbfs, 1, 0⟩) else none
  handle _ := none

/-- The device with the disc cannot be opened any more. -/
def unplugged : DrivePort Unit (FileStore CfgFile) :=
  { DrivePort.ready (.holding (fun _ _ => 0) 512) fun _ _ => 0 with
    wbfsOpenDevice := fun _ _ => (-6, ()) }

/-- A read behind the restore goes to a closed descriptor. -/
theorem unplugged_read_closed :
    let s := diStart unplugged () wbfsFlash
    ¬s.Backed ∧
    (diRead unplugged 32 0 (fun _ => 0) s).drive.trace = [.wbfs false] := by
  intro s
  refine ⟨fun backed => ?_, by decide⟩
  have isSome : s.wbfs.isSome = true := backed.wbfs (by decide) (by decide)
  exact Bool.false_ne_true isSome

end D2xCios.Dip
