import D2xCios.Dip.NandReload

/-!
# The ES plugin

`plugin.c` of the ES plugin. It launches one title in place of another one: a title that the user
has chosen in place of the system menu, and the cIOS in place of the IOS that a disc asks for.
Before it does so it has the NAND emulation switched off and, for the cIOS, saved. When the title
that has been launched verifies its disc, the plugin of the next IOS takes away what the reload has
left.

The NAND emulation is that of the FFS plugin, with the DI plugin in front of it.
-/

namespace D2xCios.Es

open D2xCios.Lib D2xCios.Ffs D2xCios.Fat D2xCios.Dip

/-! ## State -/

/-- `struct esConfig` -/
structure EsConfig where
  fakelaunch : UInt32
  ios : UInt32
  titleId : UInt64
  smTitleId : UInt64
  deriving DecidableEq

/-- The flags that the modules share through MLOAD. -/
structure Swi where
  stealthMode : UInt32
  runningTitle : UInt32
  esRequest : UInt32

/-- `Swi_GetRunningTitle` -/
def Swi.getRunningTitle (swi : Swi) : Bool := swi.stealthMode ≠ 0 && swi.runningTitle ≠ 0

/-- `Swi_GetEsRequest` -/
def Swi.getEsRequest (swi : Swi) : Bool := swi.stealthMode = 0 || swi.esRequest ≠ 0

/-- The plugin, the flags, and the DI plugin with the FFS plugin. `espCfg` is what is saved in
`/sys/esp.cfg`. -/
structure Console (ω ψ : Type) where
  config : EsConfig
  swi : Swi
  drive : Drive (Nand ω) ψ
  stage2Done : Bool
  kernelVersion : UInt32
  espCfg : Option EsConfig

/-- The NAND emulation mode. -/
def Console.nandMode {ω ψ : Type} (c : Console ω ψ) : UInt32 := c.drive.io.plugin.config.mode

/-- `Swi_SetEsRequest` -/
def Console.setEsRequest {ω ψ : Type} (value : UInt32) (c : Console ω ψ) : Console ω ψ :=
  { c with swi := { c.swi with esRequest := value } }

/-- What the FFS plugin reads of the system. -/
def Console.env {ω ψ : Type} (c : Console ω ψ) : Surroundings :=
  { c.drive.io.env with
    runningTitle := c.swi.getRunningTitle
    esRequest := c.swi.getEsRequest }

/-- What the calls return that are made for one request: those of the ES module that the plugin is
put in front of, and those of the system. -/
structure Outcomes where
  /-- `ES_HandleOpen` or `ES_HandleIoctlv` of the request, and what the latter counts. -/
  handler : Int
  count : UInt32
  /-- `ES_HandleIoctlv` of the command 0x20, with the title ID. -/
  titleId : Int × UInt64
  /-- `os_open` of `/dev/fs` and of `/dev/di`. -/
  openFs : Int
  openDi : Int
  /-- `os_open` of `/dev/fs` in the DI plugin, for `ISFS_GetMode` and for `ISFS_SetMode`, and of the
  FAT module for `FAT_GetPartition`. -/
  getModeFs : Int
  setModeFs : Int
  openFat : Int
  /-- `/sys/esp.cfg` is written. -/
  saves : Bool
  /-- `os_open` and `os_read` of a ticket on the real NAND. -/
  openTicket : (tidh tidl : UInt32) → Int
  readTicket : (tidh tidl : UInt32) → Int × Mem
  /-- `ES_LaunchTitle` -/
  launchTitle : (tidh tidl : UInt32) → (view : List UInt8) → Int
  /-- The word at 0x3140. -/
  requiredIos : UInt32

/-- The upper and the lower word of a title ID. -/
def tidHigh (tid : UInt64) : UInt32 := (tid >>> 32).toUInt32
def tidLow (tid : UInt64) : UInt32 := tid.toUInt32

/-- `IS_DISC_BASED_GAME` -/
def isDiscBasedGame (tid : UInt64) : Bool := tid >>> 32 = 0x00010000 || tid >>> 32 = 0x00010004

/-! ## Calls -/

/-- The ticket view of a ticket. -/
def ticketView (buffer : Mem) : List UInt8 :=
  bytes32 (be32 buffer 0x1BC &&& 0xFF000000) ++ buffer.window 0x1D0 0x92 ++ [0, 0] ++
    buffer.window 0x264 0x40

section Calls

variable (o : Outcomes)

/-- `__ES_GetTitleID`: the result, and the title ID that is stored. -/
def getTitleId : Int × UInt64 := (o.titleId.1, if o.titleId.1 < 0 then 0 else o.titleId.2)

/-- `__ES_GetTicketView`: the result, and the view that is made with success. -/
def getTicketView (tidh tidl : UInt32) : Int × Option (List UInt8) :=
  if o.openTicket tidh tidl < 0 then (o.openTicket tidh tidl, none)
  else if (o.readTicket tidh tidl).1 < 0 then ((o.readTicket tidh tidl).1, none)
  else (0, some (ticketView (o.readTicket tidh tidl).2))

/-- `__ES_CustomLaunch` -/
def customLaunch (tidh tidl : UInt32) : Int :=
  match getTicketView o tidh tidl with
  | (ret, none) => ret
  | (_, some view) => o.launchTitle tidh tidl view

variable {ω ψ : Type} (files : FatModule ω) (media : Media) (base : DrivePort (Nand ω) ψ)

/-- `ISFS_SetMode` with `ISFS_MODE_NAND` and an empty string. -/
def isfsSetModeNand (c : Console ω ψ) : Console ω ψ :=
  if o.openFs < 0 then c
  else
    let plugin := (fsIoctlv (fatModule files) c.env ioctlSetmode
      (some { word0 := 0, path1 := [] }) 2 0 c.drive.io.plugin).2
    { c with drive := { c.drive with io := { c.drive.io with plugin := plugin } } }

/-- The request of `DI_Config_Save`. -/
def saveConfigRequest (swi : Swi) : Dip.Request where
  inbuf i := if i = 0 then 0xFE000000 else 0
  size := 0x20
  runningTitle := if swi.getRunningTitle then 1 else 0
  esRequest := if swi.getEsRequest then 1 else 0

/-- The outside of the DI plugin, in which the modules that it asks may not be opened. -/
def savePort (old : Vector UInt8 64) : DrivePort (Nand ω) ψ :=
  let port := nandPort files media base old
  { port with
    isfsGetMode := fun n =>
      if o.getModeFs < 0 then (o.getModeFs, 0, old, n) else port.isfsGetMode n
    isfsSetMode := fun mode path n => if o.setModeFs < 0 then n else port.isfsSetMode mode path n
    fatGetPartition := fun device n =>
      if o.openFat < 0 then (none, n) else port.fatGetPartition device n }

/-- `DI_Config_Save` of the plugin. -/
def diConfigSave (c : Console ω ψ) : Console ω ψ :=
  if o.openDi < 0 then c
  else
    let drive := { c.drive with io := { c.drive.io with env := c.env } }
    { c with drive :=
        (diEmulateCmd (savePort o files media base drive.ffsCfgState.path)
          (saveConfigRequest c.swi) (bufferOf []) drive).drive }

/-- `Config_Save` -/
def configSave (c : Console ω ψ) : Console ω ψ :=
  if o.saves then { c with espCfg := some c.config } else c

end Calls

/-! ## Requests -/

/-- The fields of a TMD that are read. -/
structure Tmd where
  sysVersion : UInt64
  titleId : UInt64

/-- The commands of `ES_EmulateIoctlv`, with what they read of their vectors. -/
inductive EsRequest where
  /-- `IOCTL_ES_DIVERIFY`, with a TMD if there is one that is long enough. -/
  | diVerify (tmd : Option Tmd)
  /-- `IOCTL_ES_GETNUMTICKETVIEWS` and `IOCTL_ES_GETTICKETVIEWS`, with a title ID unless one of the
  pointers is NULL. -/
  | getTicketViews (justCounting : Bool) (tid : Option UInt64)
  /-- `IOCTL_ES_LAUNCH` -/
  | launch (tid : UInt64)
  /-- `IOCTL_ES_KOREANCHECK` -/
  | koreanCheck
  /-- `IOCTL_ES_SET_FAKE_IOS_LAUNCH` -/
  | setFakeIosLaunch (mode : UInt32) (ios : Option UInt32)
  /-- `IOCTL_ES_SET_FAKE_SM_LAUNCH` -/
  | setFakeSmLaunch (smTitleId : UInt64)
  | other

/-- The answer to a request: the result and, for ticket views, their number and the one that is
made. -/
structure Answer where
  ret : Int
  count : UInt32 := 0
  view : Option (List UInt8) := none

/-- `FAKE_IOS_TICKET_VIEWS` -/
def fakeIosTicketViews : UInt32 := 1

section Requests

variable {ω ψ : Type}

/-- `__ES_SetFakeIosLaunch` -/
def setFakeIosLaunch (mode ios : UInt32) (c : Console ω ψ) : Console ω ψ :=
  { c with config := { c.config with fakelaunch := mode, ios := ios, titleId := 0 } }

/-- `__ES_RemoveError002` -/
def removeError002 (tmd : Option Tmd) (c : Console ω ψ) : Console ω ψ :=
  if c.config.fakelaunch ≠ 0 ∧ c.config.titleId ≠ 0 then
    let c :=
      match tmd with
      | none => c
      | some tmd =>
        if tmd.titleId ≠ c.config.titleId then
          { c with config := { c.config with fakelaunch := 0 } }
        else { c with kernelVersion := (tmd.sysVersion.toUInt32 <<< 16) ||| 0xFFFF }
    { c with config := { c.config with titleId := 0 } }
  else c

/-- The title that is taken in place of a missing one in `__ES_FixMissingTitle`, or 0. -/
def fakeTid (o : Outcomes) (tid : UInt64) (config : EsConfig) : UInt64 :=
  let tidl := tidLow tid
  let fake := if tidl = 2 ∧ config.smTitleId ≠ 0 then config.smTitleId else 0
  if 3 ≤ tidl ∧ tidl ≤ 255 ∧ config.fakelaunch ≠ 0 ∧ config.titleId = 0 then
    let (ret2, running) := getTitleId o
    if 0 ≤ ret2 ∧ isDiscBasedGame running ∧ tidl = o.requiredIos >>> 16 then
      0x0000000100000000 ||| config.ios.toUInt64
    else fake
  else fake

/-- `__ES_FixMissingTitle` -/
def fixMissingTitle (o : Outcomes) (justCounting : Bool) (tid : Option UInt64)
    (config : EsConfig) : Answer :=
  let expectedRet : Int := if justCounting then 0 else -1017
  let expectedCount := if justCounting then 0 else fakeIosTicketViews
  match tid with
  | none => { ret := o.handler, count := o.count }
  | some tid =>
    if o.handler = expectedRet ∧ o.count = expectedCount ∧ tidHigh tid = 1 ∧
        fakeTid o tid config ≠ 0 then
      if justCounting then { ret := 0, count := fakeIosTicketViews }
      else
        let fake := fakeTid o tid config
        match getTicketView o (tidHigh fake) (tidLow fake) with
        | (_, some view) => { ret := 0, count := o.count, view := some view }
        | (_, none) => { ret := o.handler, count := o.count }
    else { ret := o.handler, count := o.count }

variable (files : FatModule ω) (media : Media) (base : DrivePort (Nand ω) ψ) (o : Outcomes)

/-- The start of a launch of the system menu. -/
def menuLaunch (c : Console ω ψ) : Console ω ψ :=
  (isfsSetModeNand o files (c.setEsRequest 1)).setEsRequest 0

/-- A launch of the cIOS in place of an IOS, once the running title is known. -/
def fakeIosLaunch (tidh : UInt32) (c : Console ω ψ) : Int × Console ω ψ :=
  let c := (diConfigSave o files media base (c.setEsRequest 1)).setEsRequest 0
  let c := configSave o c
  (customLaunch o tidh c.config.ios, c)

/-- `IOCTL_ES_LAUNCH` -/
def launch (tid : UInt64) (c : Console ω ψ) : Int × Console ω ψ :=
  let tidh := tidHigh tid
  let tidl := tidLow tid
  if tidh = 1 then
    let c := if tidl = 2 then menuLaunch files o c else c
    if tidl = 2 ∧ c.config.smTitleId ≠ 0 then
      (customLaunch o (tidHigh c.config.smTitleId) (tidLow c.config.smTitleId), c)
    else if c.config.fakelaunch ≠ 0 ∧ 3 ≤ tidl ∧ tidl ≤ 255 ∧ c.config.titleId = 0 then
      let (ret, running) := getTitleId o
      let c := { c with config := { c.config with titleId := running } }
      if 0 ≤ ret ∧ isDiscBasedGame running then fakeIosLaunch files media base o tidh c
      else (o.handler, { c with config := { c.config with titleId := 0 } })
    else (o.handler, c)
  else (o.handler, c)

/-- `ES_EmulateIoctlv` -/
def emulateIoctlv (request : EsRequest) (c : Console ω ψ) : Answer × Console ω ψ :=
  match request with
  | .diVerify tmd =>
    let c := removeError002 tmd c
    ({ ret := o.handler },
      { c with swi := { c.swi with runningTitle := if o.handler = 0 then 1 else 0 } })
  | .getTicketViews justCounting tid => (fixMissingTitle o justCounting tid c.config, c)
  | .launch tid =>
    let (ret, c) := launch files media base o tid c
    ({ ret := ret }, c)
  | .koreanCheck => ({ ret := -1017 }, c)
  | .setFakeIosLaunch mode ios =>
    if c.swi.getRunningTitle then ({ ret := ipcEnoent }, c)
    else ({ ret := 0 }, setFakeIosLaunch mode (ios.getD 249) c)
  | .setFakeSmLaunch smTitleId =>
    if c.swi.getRunningTitle then ({ ret := ipcEnoent }, c)
    else ({ ret := 0 }, { c with config := { c.config with smTitleId := smTitleId } })
  | .other => ({ ret := o.handler }, c)

/-- `ES_EmulateOpen` -/
def emulateOpen (c : Console ω ψ) : Int × Console ω ψ :=
  if c.stage2Done then (o.handler, c)
  else
    let c :=
      if c.config.titleId = 0 then setFakeIosLaunch 1 ((c.kernelVersion >>> 16) &&& 0xFF) c
      else c
    (o.handler, { c with stage2Done := true })

end Requests

/-! ## Runs -/

/-- The states that the plugin can be in: with any configuration when it has just been loaded, and
then behind requests, and whatever the rest of the system does in between. -/
inductive Reachable {ω ψ : Type} (files : FatModule ω) (media : Media)
    (base : DrivePort (Nand ω) ψ) : Console ω ψ → Prop where
  | boot {c} (loaded : c.swi.esRequest = 0) (first : c.stage2Done = false) :
      Reachable files media base c
  | opened {c} (o : Outcomes) (before : Reachable files media base c) :
      Reachable files media base (emulateOpen o c).2
  | request {c} (o : Outcomes) (request : EsRequest) (before : Reachable files media base c) :
      Reachable files media base (emulateIoctlv files media base o request c).2
  | others {c c'} (before : Reachable files media base c) (config : c'.config = c.config)
      (esRequest : c'.swi.esRequest = c.swi.esRequest) (stage2Done : c'.stage2Done = c.stage2Done) :
      Reachable files media base c'

end D2xCios.Es
