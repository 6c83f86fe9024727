import D2xCios.Es.Plugin
import D2xCios.Lib.Responses

/-!
# Launches that fail

A launch may come back with an error, and the title that has asked for it goes on. Before the step
that is most likely to fail, the plugin has already noted the title ID that is to be verified behind
the reload, and the NAND emulation has been switched off. Nothing takes that back: what comes next
is told from a title that has never asked, unless nothing was done that the launch leaves behind.
-/

namespace D2xCios.Es

open D2xCios.Lib D2xCios.Ffs D2xCios.Fat D2xCios.Dip

/-! ## The way of a launch -/

/-- The ways that a launch takes. -/
inductive LaunchPath where
  /-- The NAND emulation is switched off, and the title is launched that is set in place of the
  system menu, if there is one. -/
  | menu (title : Option UInt64)
  /-- The emulation is saved, and the cIOS is launched. -/
  | cios (ios : UInt32)
  /-- The request goes to the handler of ES as it is. -/
  | handler
  deriving DecidableEq

/-- The launch of an IOS that is to be the cIOS. -/
def ReloadsCios (o : Outcomes) (tid : UInt64) (config : EsConfig) : Prop :=
  tidHigh tid = 1 ∧ 3 ≤ tidLow tid ∧ tidLow tid ≤ 255 ∧ config.fakelaunch ≠ 0 ∧
    config.titleId = 0 ∧ 0 ≤ (getTitleId o).1 ∧ isDiscBasedGame (getTitleId o).2 = true

instance (o : Outcomes) (tid : UInt64) (config : EsConfig) : Decidable (ReloadsCios o tid config) :=
  inferInstanceAs (Decidable (_ ∧ _))

def launchPath (o : Outcomes) (tid : UInt64) (config : EsConfig) : LaunchPath :=
  if tidHigh tid = 1 ∧ tidLow tid = 2 then
    .menu (if config.smTitleId ≠ 0 then some config.smTitleId else none)
  else if ReloadsCios o tid config then .cios config.ios
  else .handler

section Paths

variable {ω ψ : Type} (files : FatModule ω) (media : Media) (base : DrivePort (Nand ω) ψ)
  (o : Outcomes)

/-- The plugin with the title ID of the title that runs. -/
def Console.marked (c : Console ω ψ) : Console ω ψ :=
  { c with config := { c.config with titleId := (getTitleId o).2 } }

/-- What each of the ways does. -/
def LaunchPath.run (tidh : UInt32) (c : Console ω ψ) : LaunchPath → Int × Console ω ψ
  | .menu none => (o.handler, menuLaunch files o c)
  | .menu (some title) => (customLaunch o (tidHigh title) (tidLow title), menuLaunch files o c)
  | .cios _ => fakeIosLaunch files media base o tidh (c.marked o)
  | .handler => (o.handler, c)

/-- A change of the NAND mode keeps the configuration. -/
theorem isfsSetModeNand_config (c : Console ω ψ) :
    (isfsSetModeNand o files c).config = c.config := by
  unfold isfsSetModeNand
  split <;> rfl

/-- The way of the system menu keeps the configuration. -/
theorem menuLaunch_config (c : Console ω ψ) : (menuLaunch files o c).config = c.config :=
  isfsSetModeNand_config files o (c.setEsRequest 1)

/-- A launch runs the way that the configuration asks for. -/
theorem launch_eq (tid : UInt64) (c : Console ω ψ) :
    launch files media base o tid c =
      (launchPath o tid c.config).run files media base o (tidHigh tid) c := by
  unfold launch launchPath
  by_cases system : tidHigh tid = 1
  case neg =>
    have other : ¬ ReloadsCios o tid c.config := fun reloads => system reloads.1
    simp only [system, false_and, other, if_false, LaunchPath.run]
  by_cases menu : tidLow tid = 2
  case pos =>
    simp only [system, menu, true_and, and_self, if_true, menuLaunch_config]
    by_cases title : c.config.smTitleId ≠ 0
    · simp only [if_pos title, LaunchPath.run]
    · have small : ¬ (3 : UInt32) ≤ 2 := by decide
      simp only [if_neg title, small, false_and, and_false, if_false, LaunchPath.run]
  case neg =>
    simp only [system, menu, and_false, false_and, if_false, if_true]
    by_cases fake : c.config.fakelaunch ≠ 0 ∧ 3 ≤ tidLow tid ∧ tidLow tid ≤ 255 ∧
      c.config.titleId = 0
    case neg =>
      have other : ¬ ReloadsCios o tid c.config :=
        fun ⟨_, least, most, on, free, _⟩ => fake ⟨on, least, most, free⟩
      simp only [if_neg fake, if_neg other, LaunchPath.run]
    case pos =>
      obtain ⟨on, least, most, free⟩ := fake
      rw [if_pos ⟨on, least, most, free⟩]
      by_cases disc : 0 ≤ (getTitleId o).1 ∧ isDiscBasedGame (getTitleId o).2 = true
      case pos =>
        have reloads : ReloadsCios o tid c.config :=
          ⟨system, least, most, on, free, disc.1, disc.2⟩
        simp only [if_pos disc, if_pos reloads, LaunchPath.run, Console.marked]
      case neg =>
        have other : ¬ ReloadsCios o tid c.config :=
          fun ⟨_, _, _, _, _, got, game⟩ => disc ⟨got, game⟩
        have unmarked : { c with config := { c.config with titleId := 0 } } = c := by
          rw [← free]
        simp only [if_neg disc, if_neg other, LaunchPath.run, unmarked]

end Paths

/-! ## What a launch leaves -/

section Effects

variable {ω ψ : Type} {files : FatModule ω} {media : Media} {base : DrivePort (Nand ω) ψ}
  {o : Outcomes}

/-- The plugin's own state, the flags and the kernel version. -/
structure Console.Alike (c c' : Console ω ψ) : Prop where
  config : c'.config = c.config
  swi : c'.swi = c.swi
  kernelVersion : c'.kernelVersion = c.kernelVersion

theorem Console.Alike.refl (c : Console ω ψ) : c.Alike c := ⟨rfl, rfl, rfl⟩

/-- A switch of the flag back to 0, and whatever the other modules have done in between. -/
structure Console.Asked (c c' : Console ω ψ) : Prop where
  config : c'.config = c.config
  swi : c'.swi = { c.swi with esRequest := 0 }
  kernelVersion : c'.kernelVersion = c.kernelVersion
  stage2Done : c'.stage2Done = c.stage2Done

variable (files o) in
/-- The way of the system menu leaves nothing but what a launch asks for. -/
theorem menuLaunch_asked (c : Console ω ψ) : c.Asked (menuLaunch files o c) := by
  unfold menuLaunch isfsSetModeNand
  split <;> exact ⟨rfl, rfl, rfl, rfl⟩

variable (files media base o) in
/-- The way of the fake IOS leaves nothing but what a launch asks for. -/
theorem fakeIosLaunch_asked (tidh : UInt32) (c : Console ω ψ) :
    c.Asked (fakeIosLaunch files media base o tidh c).2 := by
  unfold fakeIosLaunch diConfigSave configSave
  split <;> split <;> exact ⟨rfl, rfl, rfl, rfl⟩

/-- A console without a request is alike afterwards. -/
theorem Console.Asked.alike {c c' : Console ω ψ} (asked : c.Asked c') (idle : c.swi.esRequest = 0) :
    c.Alike c' where
  config := asked.config
  swi := by
    rw [asked.swi, ← idle]
  kernelVersion := asked.kernelVersion

/-- The mode without emulation is one of the modes that the FFS plugin accepts from ES while a title
is running. -/
theorem isfsSetModeNand_mode (c : Console ω ψ) :
    (isfsSetModeNand o files (c.setEsRequest 1)).nandMode =
      if o.openFs < 0 then c.nandMode else 0 := by
  unfold isfsSetModeNand
  split
  case isTrue closed => rfl
  case isFalse opened =>
    have es : (c.setEsRequest 1).env.esRequest = true := Bool.or_true _
    have device : ¬ (0 : UInt32) &&& (modeSdhc ||| modeUsb) ≠ 0 := by decide
    simp only [Console.nandMode, fsIoctlv_setmode, fsSetModeRequest, fsSetMode, if_neg device, es,
      Bool.true_eq_false, not_true, and_false, if_false]
    rfl

/-- The way of the system menu resets the NAND mode, if the FS can be opened. -/
theorem menuLaunch_mode (c : Console ω ψ) :
    (menuLaunch files o c).nandMode = if o.openFs < 0 then c.nandMode else 0 :=
  isfsSetModeNand_mode c

/-! ## The flag between requests -/

/-- A launch leaves no request behind. -/
theorem launch_idle {c : Console ω ψ} (idle : c.swi.esRequest = 0) (tid : UInt64) :
    (launch files media base o tid c).2.swi = c.swi := by
  have back : { c.swi with esRequest := 0 } = c.swi := by rw [← idle]
  rw [launch_eq]
  cases launchPath o tid c.config with
  | menu title => cases title <;> exact (menuLaunch_asked files o c).swi.trans back
  | cios ios => exact (fakeIosLaunch_asked files media base o _ _).swi.trans back
  | handler => rfl

/-- An ioctlv leaves no request behind. -/
theorem emulateIoctlv_idle {c : Console ω ψ} (idle : c.swi.esRequest = 0) (request : EsRequest) :
    (emulateIoctlv files media base o request c).2.swi.esRequest = 0 := by
  cases request with
  | diVerify tmd =>
    show (removeError002 tmd c).swi.esRequest = 0
    unfold removeError002
    split
    · cases tmd with
      | none => exact idle
      | some tmd => by_cases other : tmd.titleId ≠ c.config.titleId <;> simp [other, idle]
    · exact idle
  | getTicketViews justCounting tid => exact idle
  | launch tid => exact (congrArg Swi.esRequest (launch_idle idle tid)).trans idle
  | koreanCheck => exact idle
  | setFakeIosLaunch mode ios =>
    simp only [emulateIoctlv]
    split <;> exact idle
  | setFakeSmLaunch smTitleId =>
    simp only [emulateIoctlv]
    split <;> exact idle
  | other => exact idle

/-- An open leaves no request behind. -/
theorem emulateOpen_idle {c : Console ω ψ} (idle : c.swi.esRequest = 0) :
    (emulateOpen o c).2.swi.esRequest = 0 := by
  unfold emulateOpen
  split
  · exact idle
  · by_cases free : c.config.titleId = 0 <;> simp [free, setFakeIosLaunch, idle]

/-- Between two requests the flag is 0. -/
theorem Reachable.idle {c : Console ω ψ} (reachable : Reachable files media base c) :
    c.swi.esRequest = 0 := by
  induction reachable with
  | boot loaded first => exact loaded
  | opened o before ih => exact emulateOpen_idle ih
  | request o request before ih => exact emulateIoctlv_idle ih request
  | others before config esRequest stage2Done ih => exact esRequest.trans ih

/-! ## States that are alike -/

/-- Alike consoles are alike after the same launch. -/
theorem Console.Asked.kept {c c' d d' : Console ω ψ} (asked : c.Asked d) (asked' : c'.Asked d')
    (alike : c.Alike c') : d.Alike d' where
  config := by rw [asked'.config, asked.config, alike.config]
  swi := by rw [asked'.swi, asked.swi, alike.swi]
  kernelVersion := by rw [asked'.kernelVersion, asked.kernelVersion, alike.kernelVersion]

/-- The patch against error 002 keeps consoles alike. -/
theorem removeError002_alike {c c' : Console ω ψ} (alike : c.Alike c') (tmd : Option Tmd) :
    (removeError002 tmd c).Alike (removeError002 tmd c') := by
  unfold removeError002
  rw [alike.config]
  split
  case isFalse => exact alike
  case isTrue =>
    cases tmd with
    | none =>
      refine ⟨?_, alike.swi, alike.kernelVersion⟩
      simp only [alike.config]
    | some tmd =>
      by_cases other : tmd.titleId ≠ c.config.titleId
      · simp only [if_pos other]
        exact ⟨rfl, alike.swi, alike.kernelVersion⟩
      · simp only [if_neg other]
        exact ⟨rfl, alike.swi, rfl⟩

variable (files media base o) in
/-- The result of the fake IOS's way is that of the launch. -/
theorem fakeIosLaunch_ret (tidh : UInt32) (c : Console ω ψ) :
    (fakeIosLaunch files media base o tidh c).1 = customLaunch o tidh c.config.ios :=
  congrArg (fun config : EsConfig => customLaunch o tidh config.ios)
    (fakeIosLaunch_asked files media base o tidh c).config

/-- The mark of a launch keeps consoles alike. -/
theorem marked_alike {c c' : Console ω ψ} (alike : c.Alike c') :
    (c.marked o).Alike (c'.marked o) :=
  ⟨congrArg (fun config : EsConfig => { config with titleId := (getTitleId o).2 }) alike.config,
    alike.swi, alike.kernelVersion⟩

variable (files media base o) in
/-- A way ends alike on alike consoles. -/
theorem LaunchPath.run_alike {c c' : Console ω ψ} (alike : c.Alike c') (tidh : UInt32)
    (path : LaunchPath) :
    (path.run files media base o tidh c).1 = (path.run files media base o tidh c').1 ∧
      (path.run files media base o tidh c).2.Alike (path.run files media base o tidh c').2 := by
  cases path with
  | menu title =>
    have kept := (menuLaunch_asked files o c).kept (menuLaunch_asked files o c') alike
    cases title <;> exact ⟨rfl, kept⟩
  | cios ios =>
    have marked := marked_alike (o := o) alike
    refine ⟨?_, (fakeIosLaunch_asked files media base o tidh _).kept
      (fakeIosLaunch_asked files media base o tidh _) marked⟩
    show (fakeIosLaunch files media base o tidh _).1 = (fakeIosLaunch files media base o tidh _).1
    rw [fakeIosLaunch_ret, fakeIosLaunch_ret, marked.config]
  | handler => exact ⟨rfl, alike⟩

variable (files media base) in
/-- One request, with what the calls return that are made for it. -/
def answerTo (request : Outcomes × EsRequest) (c : Console ω ψ) : Answer × Console ω ψ :=
  emulateIoctlv files media base request.1 request.2 c

variable (files media base) in
/-- No request tells two states apart that are alike. -/
theorem answerTo_keptAlike : KeptAlike (answerTo files media base) Console.Alike := by
  have both : ∀ request (c c' : Console ω ψ), c.Alike c' →
      (answerTo files media base request c).1 = (answerTo files media base request c').1 ∧
        (answerTo files media base request c).2.Alike (answerTo files media base request c').2 := by
    rintro ⟨o, request⟩ c c' alike
    simp only [answerTo]
    cases request with
    | diVerify tmd =>
      have removed := removeError002_alike alike tmd
      refine ⟨rfl, removed.config, ?_, removed.kernelVersion⟩
      simp only [emulateIoctlv]
      rw [removed.swi]
    | getTicketViews justCounting tid =>
      refine ⟨?_, alike⟩
      simp only [emulateIoctlv]
      rw [alike.config]
    | launch tid =>
      simp only [emulateIoctlv, launch_eq, alike.config]
      obtain ⟨ret, behind⟩ :=
        LaunchPath.run_alike files media base o alike (tidHigh tid) (launchPath o tid c.config)
      exact ⟨congrArg (fun ret : Int => ({ ret := ret } : Answer)) ret, behind⟩
    | koreanCheck => exact ⟨rfl, alike⟩
    | setFakeIosLaunch mode ios =>
      simp only [emulateIoctlv, alike.swi]
      split
      · exact ⟨rfl, alike⟩
      · refine ⟨rfl, ?_, alike.swi, alike.kernelVersion⟩
        simp only [setFakeIosLaunch, alike.config]
    | setFakeSmLaunch smTitleId =>
      simp only [emulateIoctlv, alike.swi]
      split
      · exact ⟨rfl, alike⟩
      · refine ⟨rfl, ?_, rfl, alike.kernelVersion⟩
        simp only [alike.config]
    | other => exact ⟨rfl, alike⟩
  exact ⟨fun request c c' alike => (both request c c' alike).1,
    fun request c c' alike => (both request c c' alike).2⟩

/-! ## Failed launches -/

variable (files media base) in
/-- A launch of `tid` that has come back is as good as none: nothing that the plugin goes by has
changed, the same request takes the same way again, and no later request tells the difference. -/
structure Unaffected (tid : UInt64) (before after : Console ω ψ) : Prop where
  titleId : after.config.titleId = before.config.titleId
  fakelaunch : after.config.fakelaunch = before.config.fakelaunch
  ios : after.config.ios = before.config.ios
  nandMode : after.nandMode = before.nandMode
  esRequest : after.swi.esRequest = 0
  again : ∀ o, launchPath o tid after.config = launchPath o tid before.config
  later : ∀ requests,
    (responses (answerTo files media base) requests before).1 =
        (responses (answerTo files media base) requests after).1 ∧
      (responses (answerTo files media base) requests before).2.Alike
        (responses (answerTo files media base) requests after).2

/-- On alike consoles nothing is affected. -/
theorem Unaffected.of_alike {c c' : Console ω ψ} (tid : UInt64) (alike : c.Alike c')
    (nandMode : c'.nandMode = c.nandMode) (idle : c.swi.esRequest = 0) :
    Unaffected files media base tid c c' where
  titleId := congrArg EsConfig.titleId alike.config
  fakelaunch := congrArg EsConfig.fakelaunch alike.config
  ios := congrArg EsConfig.ios alike.config
  nandMode := nandMode
  esRequest := (congrArg Swi.esRequest alike.swi).trans idle
  again o := by rw [alike.config]
  later requests := (answerTo_keptAlike files media base).responses requests alike

/-- No step of `__ES_CustomLaunch` fails. -/
def TitleStarts (o : Outcomes) (tidh tidl : UInt32) : Prop :=
  0 ≤ o.openTicket tidh tidl ∧ 0 ≤ (o.readTicket tidh tidl).1 ∧
    0 ≤ o.launchTitle tidh tidl (ticketView (o.readTicket tidh tidl).2)

/-- A launch succeeds exactly if the title starts. -/
theorem customLaunch_nonneg_iff (o : Outcomes) (tidh tidl : UInt32) :
    0 ≤ customLaunch o tidh tidl ↔ TitleStarts o tidh tidl := by
  unfold customLaunch getTicketView TitleStarts
  by_cases missing : o.openTicket tidh tidl < 0
  case pos =>
    simp only [if_pos missing]
    exact ⟨fun ret => absurd ret (not_le.mpr missing),
      fun starts => absurd starts.1 (not_le.mpr missing)⟩
  by_cases unread : (o.readTicket tidh tidl).1 < 0
  case pos =>
    simp only [if_neg missing, if_pos unread]
    exact ⟨fun ret => absurd ret (not_le.mpr unread),
      fun starts => absurd starts.2.1 (not_le.mpr unread)⟩
  simp only [if_neg missing, if_neg unread]
  exact ⟨fun ret => ⟨not_lt.mp missing, not_lt.mp unread, ret⟩, fun starts => starts.2.2⟩

/-- A launch that changes nothing before it may fail, or does not fail behind that. -/
def SafeToFail (o : Outcomes) (tid : UInt64) (c : Console ω ψ) : Prop :=
  match launchPath o tid c.config with
  | .menu title =>
    c.nandMode = 0 ∨ o.openFs < 0 ∨
      match title with
      | none => 0 ≤ o.handler
      | some title => TitleStarts o (tidHigh title) (tidLow title)
  | .cios ios => TitleStarts o (tidHigh tid) ios
  | .handler => True

/-- A launch in place of the system menu leaves the emulation off if it is on. -/
theorem menuLaunch_unaffected_iff {c : Console ω ψ} (idle : c.swi.esRequest = 0) (tid : UInt64)
    (ret : Int) :
    (ret < 0 → Unaffected files media base tid c (menuLaunch files o c)) ↔
      c.nandMode = 0 ∨ o.openFs < 0 ∨ 0 ≤ ret := by
  constructor
  · intro holds
    by_contra unguarded
    simp only [not_or, not_lt, not_le] at unguarded
    obtain ⟨on, opened, failed⟩ := unguarded
    have mode := (holds failed).nandMode
    rw [menuLaunch_mode, if_neg (not_lt.mpr opened)] at mode
    exact on mode.symm
  · intro safe failed
    refine .of_alike tid ((menuLaunch_asked files o c).alike idle) ?_ idle
    rw [menuLaunch_mode]
    rcases safe with off | closed | starts
    · rw [off, ite_self]
    · rw [if_pos closed]
    · exact absurd failed (not_lt.mpr starts)

/-- A disc game has a title. -/
theorem isDiscBasedGame_ne_zero {tid : UInt64} (game : isDiscBasedGame tid = true) : tid ≠ 0 := by
  rintro rfl
  exact absurd game (by decide)

/-- A launch of the cIOS leaves the title ID that it has noted. -/
theorem fakeIosLaunch_not_unaffected {c : Console ω ψ} {tid : UInt64}
    (reloads : ReloadsCios o tid c.config) :
    ¬ Unaffected files media base tid c
      (fakeIosLaunch files media base o (tidHigh tid) (c.marked o)).2 := by
  intro unaffected
  obtain ⟨_, _, _, _, free, _, game⟩ := reloads
  have kept := unaffected.titleId
  rw [(fakeIosLaunch_asked files media base o _ _).config, free] at kept
  exact isDiscBasedGame_ne_zero game kept

variable (o) in
/-- A launch that fails changes nothing exactly if it has changed nothing before it fails: it is not
that of the system menu while the emulation is on, nor that of the cIOS. -/
theorem launch_unaffected_iff {c : Console ω ψ} (reachable : Reachable files media base c)
    (tid : UInt64) :
    ((emulateIoctlv files media base o (.launch tid) c).1.ret < 0 →
        Unaffected files media base tid c
          (emulateIoctlv files media base o (.launch tid) c).2) ↔
      SafeToFail o tid c := by
  have idle := reachable.idle
  have ran : emulateIoctlv files media base o (.launch tid) c =
      ({ ret := (launch files media base o tid c).1 }, (launch files media base o tid c).2) := rfl
  rw [ran, launch_eq, SafeToFail]
  cases way : launchPath o tid c.config with
  | menu title =>
    cases title with
    | none => exact menuLaunch_unaffected_iff idle tid o.handler
    | some title =>
      simp only [LaunchPath.run, ← customLaunch_nonneg_iff]
      exact menuLaunch_unaffected_iff idle tid _
  | cios ios =>
    obtain ⟨reloads, same⟩ : ReloadsCios o tid c.config ∧ c.config.ios = ios := by
      unfold launchPath at way
      split at way
      · cases way
      · split at way
        · exact ⟨‹_›, LaunchPath.cios.inj way⟩
        · cases way
    have ret : (fakeIosLaunch files media base o (tidHigh tid) (c.marked o)).1 =
        customLaunch o (tidHigh tid) ios := by
      rw [fakeIosLaunch_ret, ← same]
      rfl
    simp only [LaunchPath.run, ret, ← customLaunch_nonneg_iff]
    exact ⟨fun holds => not_lt.mp fun failed => fakeIosLaunch_not_unaffected reloads (holds failed),
      fun starts failed => absurd failed (not_lt.mpr starts)⟩
  | handler =>
    exact ⟨fun _ => trivial, fun _ _ => .of_alike tid (.refl c) rfl idle⟩

end Effects

/-! ## A missing cIOS -/

/-- A disc game runs, and no ticket can be opened. -/
def ticketMissing : Outcomes where
  handler := 0
  count := 0
  titleId := (0, 0x0001000052534245)
  openFs := 0
  openDi := 0
  getModeFs := 0
  setModeFs := 0
  openFat := 0
  saves := true
  openTicket _ _ := -106
  readTicket _ _ := (-106, fun _ => 0)
  launchTitle _ _ _ := 0
  requiredIos := 0

/-- The plugin in cIOS 249, with the NAND on the SD card. -/
def cios249 : Console Unit (FileStore CfgFile) :=
  (emulateOpen ticketMissing
    { config := ⟨0, 0, 0, 0⟩
      swi := ⟨1, 0, 0⟩
      drive := .boot (served "/nand".toList) blankFlash
      stage2Done := false
      kernelVersion := 0x00F90000
      espCfg := none }).2

/-- The console with the cIOS is reachable. -/
theorem cios249_reachable : Reachable idleFat wellFormatted stillPort cios249 :=
  .opened ticketMissing (.boot rfl rfl)

/-- The rule for a launch of IOS58. -/
theorem launch_unaffected_iff_ios58 :
    ((emulateIoctlv idleFat wellFormatted stillPort ticketMissing (.launch 0x10000003A)
          cios249).1.ret < 0 →
        Unaffected idleFat wellFormatted stillPort 0x10000003A cios249
          (emulateIoctlv idleFat wellFormatted stillPort ticketMissing (.launch 0x10000003A)
            cios249).2) ↔
      SafeToFail ticketMissing 0x10000003A cios249 :=
  launch_unaffected_iff ticketMissing cios249_reachable 0x10000003A

/-- IOS58 is asked for where the cIOS has no ticket: the launch fails, and the title ID stays. The
next launch of IOS58 is then not taken for a reload of the cIOS. -/
theorem launch_missing_cios :
    Reachable idleFat wellFormatted stillPort cios249 ∧
      (emulateIoctlv idleFat wellFormatted stillPort ticketMissing (.launch 0x10000003A)
        cios249).1.ret = -106 ∧
      launchPath ticketMissing 0x10000003A
        (emulateIoctlv idleFat wellFormatted stillPort ticketMissing (.launch 0x10000003A)
          cios249).2.config = .handler ∧
      ¬ Unaffected idleFat wellFormatted stillPort 0x10000003A cios249
        (emulateIoctlv idleFat wellFormatted stillPort ticketMissing (.launch 0x10000003A)
          cios249).2 := by
  have way : launchPath ticketMissing 0x10000003A cios249.config = .cios 249 := by decide
  have reloads : ReloadsCios ticketMissing 0x10000003A cios249.config := by decide
  have ran := launch_eq idleFat wellFormatted stillPort ticketMissing 0x10000003A cios249
  rw [way] at ran
  refine ⟨cios249_reachable, ?_, ?_, ?_⟩
  · simp only [emulateIoctlv, ran, LaunchPath.run, fakeIosLaunch_ret]
    decide
  · simp only [emulateIoctlv, ran, LaunchPath.run]
    rw [(fakeIosLaunch_asked idleFat wellFormatted stillPort ticketMissing _ _).config]
    decide
  · simp only [emulateIoctlv, ran, LaunchPath.run]
    exact fakeIosLaunch_not_unaffected reloads

end D2xCios.Es
