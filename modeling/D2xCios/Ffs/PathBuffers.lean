import D2xCios.Dip.NandReload
import D2xCios.Fat.Tools
import D2xCios.Ffs.SyscallOpen
import D2xCios.Lib.Runs

/-!
# Buffers for paths

What the NAND emulation writes to its path buffers: `config.path`, `newpath` of the open hook and
the `fatpath` of the handlers in the FFS plugin, and in the FAT module `emuNandPath` and the path
of a relative open. A path that a client may ask for becomes four times as long when it is
escaped, and leaves room for a short nand path only: six characters when the FAT module is told
it, since a client may open a relative path itself. The nand path is looked at just once, when the
FAT module is told.
-/

namespace D2xCios.Ffs

open D2xCios.Dip D2xCios.Fat D2xCios.Lib

/-! ## Writes -/

/-- The end of what `strcpy(dst, src)` writes. -/
def strcpyEnd (dst : Nat) (src : Path) : Nat := dst + src.length + 1

/-- The end of what `FAT_Escape` writes from `dst` on. -/
def escapeEnd : Nat → Path → Nat
  | dst, [] => dst + 1
  | dst, c :: src =>
    if escapeChar c = [c] then max (dst + 1) (escapeEnd (dst + 1) src)
    else max (strcpyEnd dst (escapeChar c)) (escapeEnd (dst + 4) src)

/-- The end of what `FS_GenerateAbsolutePath` writes. -/
def absoluteEnd (config : FsConfig) (fspath : Path) : Nat :=
  let device := devicePrefix config.mode
  let copied := max (if device = [] then 0 else strcpyEnd 0 device)
    (strcpyEnd device.length config.path)
  max copied (escapeEnd (device.length + config.path.length) fspath)

/-- The size of the path of a relative open. -/
def openPathSize : Nat := 256

/-- The end of what a relative open writes. -/
def openEnd (emuNandPath devpath : Path) : Nat :=
  max (strcpyEnd 0 emuNandPath) (escapeEnd emuNandPath.length devpath.tail)

/-- A write to the start of a buffer, with the size of the buffer. -/
structure PathWrite where
  size : Nat
  count : Nat
  deriving DecidableEq

/-- No byte is written behind the buffer. -/
def PathWrite.Inside (write : PathWrite) : Prop := write.count ≤ write.size

/-- A write is inside its buffer if it is no longer. -/
theorem PathWrite.inside_iff {size count : Nat} :
    (PathWrite.mk size count).Inside ↔ count ≤ size := Iff.rfl

/-- The paths of a request to the ioctl handlers that lets them build absolute paths. -/
def Message.paths (env : Surroundings) : Message → List Path
  | .iosIoctl _ cmd inbuf _ _ =>
    let buf := inbuf.getD {}
    if cmd = ioctlCreatedir ∨ cmd = ioctlCreatefile ∨ cmd = ioctlSetattr then [buf.attrPath]
    else if cmd = ioctlDelete ∨ cmd = ioctlGetattr then [buf.path]
    else if cmd = ioctlRename then [buf.pathOld, buf.pathNew]
    else []
  | .iosIoctlv cmd vector _ _ =>
    let vec := vector.getD {}
    if cmd = ioctlReaddir then [vec.path0]
    else if cmd = ioctlGetusage ∧ (env.syscode = 'R' ∨ env.syscode = 'S') then [vec.path0]
    else []
  | _ => []

/-- The writes of a request to path buffers, SETMODE apart. -/
def Message.writes {φ : Type} (env : Surroundings) (message : Message) (s : Plugin (Module φ)) :
    List PathWrite :=
  match message with
  | .iosOpen path _ =>
    if s.config.mode &&& modeRev17 ≠ 0 ∧ s.forceRealPath = false ∧
        checkRealPath s.config path = false then
      [⟨fatMaxpath, strcpyEnd 0 path⟩,
        ⟨openPathSize, openEnd s.fat.emuNandPath ((generateRelativePath path).getD [])⟩]
    else []
  | _ =>
    let paths := message.paths env
    if (∀ path ∈ paths, checkRealPath s.config path = false) ∧ s.config.mode ≠ 0 then
      paths.map fun path => ⟨fatMaxpath, absoluteEnd s.config path⟩
    else []

/-- The writes of an open through the hook: to `newpath`, and in the FAT module if the path that is
handed on is a relative one. -/
def openWrites {φ : Type} (caller : Caller) (path : Path) (s : Hooked (Module φ)) :
    List PathWrite :=
  let (pointer, s') := syscallOpen caller path s
  let opened := s'.read pointer
  (if pointer = .newpath then [⟨fatMaxpath, strcpyEnd 0 opened⟩] else []) ++
    if opened.head? = some '$' then [⟨openPathSize, openEnd s.plugin.fat.emuNandPath opened⟩]
      else []

/-- The longest path of a client. -/
def clientMaxpath : Nat := 63

/-- The paths of the request have at most 63 characters. -/
def Message.Short (env : Surroundings) (message : Message) : Prop :=
  (∀ path ∈ message.paths env, path.length ≤ clientMaxpath) ∧
    ∀ path mode, message = .iosOpen path mode → path.length ≤ clientMaxpath

/-! ## The statics of the FAT module -/

/-- `emuNandPath` with the memory behind it, and `emuNandPathLen`. -/
structure NandStatics where
  emuNandPath : Cells Char
  emuNandPathLen : Nat

/-- The statics of a module just loaded. -/
def NandStatics.boot : NandStatics where
  emuNandPath := Cells.write (fun _ => nul) 0 '/'
  emuNandPathLen := 1

/-- `IOCTL_FAT_SETNANDPATH` -/
def NandStatics.setNandPath (path : Path) (s : NandStatics) : Int × NandStatics :=
  let len := path.length
  if len < emuNandPathSize then
    let copied := s.emuNandPath.overlay 0 (path ++ [nul])
    if copied len ≠ '/' then
      (0, ⟨(copied.write len '/').write (len + 1) nul, len + 1⟩)
    else (0, ⟨copied, len⟩)
  else (-4, s)

/-- The string in `emuNandPath` and its length are what the module is taken to have. -/
structure NandStatics.Holds (s : NandStatics) (path : Path) : Prop where
  string : Reads s.emuNandPath 0 path
  length : s.emuNandPathLen = path.length

theorem nandStatics_boot : NandStatics.boot.Holds "/".toList where
  string := ⟨by decide, by decide⟩
  length := rfl

/-- The terminator is no separator. -/
theorem nul_ne_slash : (nul ≠ '/') = True := eq_true (by decide)

/-- The length follows the string. -/
theorem NandStatics.Holds.setNandPath {φ : Type} {s : NandStatics} {m : Module φ}
    (holds : s.Holds m.emuNandPath) {path : Path} (string : nul ∉ path) :
    (s.setNandPath path).1 = (Fat.setNandPath path m).1 ∧
      (s.setNandPath path).2.Holds (Fat.setNandPath path m).2.emuNandPath := by
  by_cases fits : path.length < emuNandPathSize
  · have ending : (s.emuNandPath.overlay 0 (path ++ [nul])) path.length = nul := by
      have last := Cells.overlay_inside s.emuNandPath 0 (path ++ [nul])
        (show path.length < (path ++ [nul]).length by simp)
      rw [Nat.zero_add] at last
      rw [last]
      simp
    have copied := Cells.overlay_snoc s.emuNandPath 0 path
    simp only [Nat.zero_add] at copied
    have slash : (s.emuNandPath.overlay 0 (path ++ [nul])).write path.length '/' =
        s.emuNandPath.overlay 0 (path ++ ['/']) := by
      rw [← copied, ← copied]
      funext i
      by_cases here : i = path.length <;> simp [Cells.write, here]
    have terminated := Cells.overlay_snoc s.emuNandPath 0 (path ++ ['/']) nul
    rw [Nat.zero_add, List.length_append, List.length_singleton, ← slash] at terminated
    rw [setNandPath_fits fits m]
    simp only [NandStatics.setNandPath, if_pos fits, ending, nul_ne_slash, if_true,
      terminated]
    have whole := Cells.window_overlay s.emuNandPath 0 (path ++ ['/'] ++ [nul])
    rw [@List.length_append _ _ [nul]] at whole
    refine ⟨trivial, ⟨whole, fun mem => ?_⟩, by simp⟩
    rcases List.mem_append.1 mem with inside | last
    · exact string inside
    · exact absurd (List.mem_singleton.1 last) (by decide)
  · simp only [NandStatics.setNandPath, Fat.setNandPath, if_neg fits]
    exact ⟨trivial, holds⟩

/-! ## Lengths -/

/-- A character stays, or takes four. -/
theorem escapeChar_length (c : Char) :
    escapeChar c = [c] ∨ escapeChar c ≠ [c] ∧ (escapeChar c).length = 4 := by
  rcases Escapes.encodeChar_cases fatEscapes c with ⟨e, inside, rfl, written⟩ | ⟨-, written⟩
  · have shape : ∀ e ∈ fatEscapes.table, (escapeChar e.1).length = 4 := by decide
    have length := shape e inside
    have other : escapeChar e.1 ≠ [e.1] := fun same =>
      absurd ((congrArg List.length same).symm.trans length) (by simp)
    exact .inr ⟨other, length⟩
  · exact .inl ((escapeChar_eq c).trans written)

/-- The first character is escaped by itself. -/
theorem fatEscape_cons (c : Char) (src : Path) :
    fatEscape (c :: src) = escapeChar c ++ fatEscape src :=
  List.flatMap_cons

theorem fatEscape_append (first second : Path) :
    fatEscape (first ++ second) = fatEscape first ++ fatEscape second := List.flatMap_append

/-- `FAT_Escape` writes the escaped string and its NUL. -/
theorem escapeEnd_eq (dst : Nat) (src : Path) :
    escapeEnd dst src = dst + (fatEscape src).length + 1 := by
  induction src generalizing dst with
  | nil => rfl
  | cons c src ih =>
    rw [escapeEnd, ih, ih, fatEscape_cons, List.length_append]
    rcases escapeChar_length c with plain | ⟨special, length⟩
    · rw [if_pos plain, plain, List.length_singleton]
      omega
    · rw [if_neg special, length, strcpyEnd, length]
      omega

/-- An absolute path is written with its terminator. -/
theorem absoluteEnd_eq (config : FsConfig) (path : Path) :
    absoluteEnd config path = (generateAbsolutePath config path).length + 1 := by
  rw [absoluteEnd, escapeEnd_eq, generateAbsolutePath, List.length_append, List.length_append]
  simp only [strcpyEnd]
  split <;> omega

/-- A relative path is written behind the folder of the emulation, with its terminator. -/
theorem openEnd_eq (emuNandPath devpath : Path) :
    openEnd emuNandPath devpath = emuNandPath.length + (fatEscape devpath.tail).length + 1 := by
  rw [openEnd, escapeEnd_eq, strcpyEnd]
  omega

/-- An escaped path is at most four times as long. -/
theorem fatEscape_length_le (path : Path) : (fatEscape path).length ≤ 4 * path.length := by
  induction path with
  | nil => exact Nat.le_refl 0
  | cons c path ih =>
    rw [fatEscape_cons, List.length_append, List.length_cons]
    rcases escapeChar_length c with plain | ⟨-, length⟩
    · rw [plain, List.length_singleton]
      omega
    · omega

/-! ## The longest paths -/

/-- What the escaped path of a client has in length at most. -/
def maxEscape (mode : UInt32) : Nat := if mode &&& modeFull ≠ 0 then 249 else 240

/-- No client path takes more than 249 characters once it is escaped. -/
theorem maxEscape_le_full (mode : UInt32) : maxEscape mode ≤ 249 := by
  unfold maxEscape
  split <;> decide

/-- The end of what a client's own relative open writes at most, behind the nand path. -/
def maxRelative : Nat := 249

/-- A string that a path may start with, when it is not escaped. -/
theorem startsWith_start {path : Path} {start : String} (starts : path.startsWith start = true)
    (plain : fatEscape start.toList = start.toList) {least : Nat}
    (long : least ≤ start.toList.length) :
    ∃ start rest, path = start ++ rest ∧ fatEscape start = start ∧ least ≤ start.length := by
  rw [Path.startsWith, List.isPrefixOf_iff_prefix] at starts
  obtain ⟨rest, rfl⟩ := starts
  exact ⟨start.toList, rest, rfl, plain, long⟩

/-- The beginning of an emulated path that is not escaped. -/
theorem emulated_start {config : FsConfig} {path : Path}
    (emulated : checkRealPath config path = false) :
    ∃ start rest, path = start ++ rest ∧ fatEscape start = start ∧
      (if config.mode &&& modeFull ≠ 0 then 1 else 4) ≤ start.length := by
  rcases emulated_cases emulated with ⟨full, -, first⟩ | ⟨notFull, start, among, starts⟩
  · rw [if_pos full]
    cases path with
    | nil => cases first
    | cons c rest =>
      rw [List.head?_cons, Option.some.injEq] at first
      subst first
      exact ⟨['/'], rest, rfl, by decide, Nat.le_refl 1⟩
  · rw [if_neg (not_not.2 notFull)]
    have plain : ∀ start ∈ partialStarts, fatEscape start.toList = start.toList ∧
        4 ≤ start.toList.length := by decide
    exact startsWith_start starts (plain start among).1 (plain start among).2

/-- A client path of the emulation takes no more than the longest one. -/
theorem maxEscape_le {config : FsConfig} {path : Path}
    (emulated : checkRealPath config path = false) (short : path.length ≤ clientMaxpath) :
    (fatEscape path).length ≤ maxEscape config.mode := by
  obtain ⟨start, rest, rfl, plain, long⟩ := emulated_start emulated
  have escaped := fatEscape_length_le rest
  rw [List.length_append, clientMaxpath] at short
  rw [fatEscape_append, List.length_append, plain, maxEscape]
  split at long <;> rename_i full
  · rw [if_pos full]
    omega
  · rw [if_neg full]
    omega

/-- A path of a client of that length. -/
def longPath (mode : UInt32) : Path :=
  if mode &&& modeFull ≠ 0 then '/' :: List.replicate 62 ':'
  else "/tmp".toList ++ List.replicate 59 ':'

/-- Every colon takes four characters. -/
theorem fatEscape_replicate (n : Nat) :
    (fatEscape (List.replicate n ':')).length = 4 * n := by
  induction n with
  | zero => rfl
  | succ n ih =>
    rw [List.replicate_succ, fatEscape_cons, List.length_append, ih,
      show (escapeChar ':').length = 4 from rfl]
    omega

/-- The longest path is one that a client can send, and it is emulated. -/
theorem longPath_spec {config : FsConfig} (on : config.mode ≠ 0) :
    (longPath config.mode).length = clientMaxpath ∧
      checkRealPath config (longPath config.mode) = false ∧
      (fatEscape (longPath config.mode)).length = maxEscape config.mode := by
  unfold longPath maxEscape checkRealPath
  by_cases full : config.mode &&& modeFull ≠ 0
  · simp only [if_pos full, if_pos on]
    refine ⟨by rw [List.length_cons, List.length_replicate]; rfl, by decide, ?_⟩
    rw [fatEscape_cons, List.length_append, fatEscape_replicate]
    rfl
  · simp only [if_neg full, if_pos on]
    refine ⟨by rw [List.length_append, List.length_replicate]; rfl, by decide, ?_⟩
    rw [fatEscape_append, List.length_append, fatEscape_replicate]
    rfl

/-! ## Runs -/

/-- A SETMODE request with a path; another message to the plugin; or an open, in the thread that
asks for it. -/
inductive PathEvent where
  | setMode (request : SetMode)
  | client (env : Surroundings) (message : Message)
  | openCall (caller : Caller) (path : Path) (mode : UInt32)

/-- The plugin with the FAT module behind it, `newpath` of the hook, and the statics of the
module. -/
structure PathState (φ : Type) where
  plugin : Plugin (Module φ)
  newpath : Path
  nand : NandStatics

/-- Modules just loaded. -/
def PathState.boot {φ : Type} (files : φ) : PathState φ where
  plugin := .boot (.boot files)
  newpath := []
  nand := .boot

variable {φ : Type} (files : FatModule φ)

/-- What the open hook works on. -/
def PathState.hooked (s : PathState φ) : Hooked (Module φ) := ⟨s.plugin, s.newpath⟩

/-- An open through the hook. The kernel sends '$' and "fat" paths to the FAT module, and others
to the plugin or elsewhere. -/
def PathState.call (caller : Caller) (path : Path) (mode : UInt32) (s : PathState φ) :
    PathState φ :=
  let (pointer, s') := syscallOpen caller path s.hooked
  let opened := s'.read pointer
  { s with
    newpath := s'.newpath
    plugin :=
      if opened.head? = some '$' ∨ opened.startsWith "fat" then
        { s'.plugin with fat := (iosOpen files opened mode s'.plugin.fat).2 }
      else s'.plugin }

/-- One event of a run. -/
def PathState.serve (event : PathEvent) (s : PathState φ) : PathState φ :=
  match event with
  | .setMode request =>
    { s with
      plugin := (fsSetMode (fatModule files) request.env request.mode request.path s.plugin).2
      nand := if request.Tells files s.plugin then (s.nand.setNandPath request.nandPath).2
        else s.nand }
  | .client env message => { s with plugin := (fsHandle (fatModule files) env message s.plugin).2 }
  | .openCall caller path mode => s.call files caller path mode

/-- The request is not a SETMODE request. -/
def Message.SetsMode : Message → Prop
  | .iosIoctl _ cmd _ _ _ => cmd = ioctlSetmode
  | .iosIoctlv cmd _ _ _ => cmd = ioctlSetmode
  | _ => False

/-- The event is what it says: the path of a SETMODE request is a string. -/
def PathEvent.WellFormed : PathEvent → Prop
  | .setMode request => nul ∉ request.path
  | .client _ message => ¬ message.SetsMode
  | .openCall _ _ _ => True

/-- The request switches the emulation on. -/
def SetMode.Accepted (request : SetMode) (s : PathState φ) : Prop :=
  request.mode &&& (modeSdhc ||| modeUsb) ≠ 0 ∧
    0 ≤ (fsSetMode (fatModule files) request.env request.mode request.path s.plugin).1

instance SetMode.decidableAccepted (request : SetMode) (s : PathState φ) :
    Decidable (request.Accepted files s) :=
  inferInstanceAs (Decidable (_ ∧ _))

/-- An event of a client, with paths of at most 63 characters. -/
def PathEvent.Short : PathEvent → Prop
  | .setMode _ => False
  | .client env message => message.Short env
  | .openCall _ path _ => path.length ≤ clientMaxpath

/-- The writes of an event to path buffers, SETMODE apart. -/
def PathEvent.writes (event : PathEvent) (s : PathState φ) : List PathWrite :=
  match event with
  | .setMode _ => []
  | .client env message => message.writes env s.plugin
  | .openCall caller path _ => openWrites caller path s.hooked

/-- No event of a client with short paths writes behind a buffer. -/
def PathState.ClientsInside (s : PathState φ) : Prop :=
  ∀ event : PathEvent, event.Short → ∀ write ∈ event.writes s, write.Inside

/-- `path` with a slash at its end. -/
def withSlash (path : Path) : Path := if path.getLast? = some '/' then path else path ++ ['/']

/-- No byte is written behind a buffer, neither for the event nor for the requests that may come
next; a nand path is given a slash if it has none, and its length is that of the string. -/
structure PathState.Safe (event : PathEvent) (s : PathState φ) : Prop where
  setMode : ∀ request, event = .setMode request → request.Accepted files s →
    (∀ copy ∈ setModeCopies files request s.plugin, copy.Inside) ∧
      (request.Tells files s.plugin →
        (s.serve files event).plugin.fat.emuNandPath = withSlash request.nandPath) ∧
      (s.serve files event).ClientsInside
  client : event.Short → ∀ write ∈ event.writes s, write.Inside
  length : (s.serve files event).nand.Holds (s.serve files event).plugin.fat.emuNandPath

/-- The nand path leaves room for the absolute paths of clients, and, where the FAT module is told
it, for their relative ones; and what the module is told does not end with a slash. -/
def PathState.Roomy (event : PathEvent) (s : PathState φ) : Prop :=
  ∀ request, event = .setMode request → request.Accepted files s →
    request.nandPath.length + maxEscape (request.mode ||| modeRev17) < fatMaxpath ∧
      (request.Tells files s.plugin → request.nandPath.getLast? ≠ some '/' ∧
        request.nandPath.length + maxRelative < openPathSize)

/-! ## The requests of clients -/

/-- The lengths that leave room for the paths of clients. -/
structure PathState.Room (s : PathState φ) : Prop where
  absolute : s.plugin.config.mode ≠ 0 →
    (generateAbsolutePath s.plugin.config []).length + maxEscape s.plugin.config.mode < fatMaxpath
  relative : s.plugin.fat.emuNandPath.length + maxRelative ≤ openPathSize

/-- An absolute path ends as far behind its folder as the escaped path is long. -/
theorem absoluteEnd_split (config : FsConfig) (path : Path) :
    absoluteEnd config path =
      (generateAbsolutePath config []).length + (fatEscape path).length + 1 := by
  rw [absoluteEnd_eq]
  simp [generateAbsolutePath, fatEscape, Nat.add_assoc]

/-- The slash in front of an emulated path is left out of its relative form. -/
theorem openEnd_emulated {config : FsConfig} {path : Path}
    (emulated : checkRealPath config path = false) (emuNandPath : Path) :
    openEnd emuNandPath ((generateRelativePath path).getD []) =
      emuNandPath.length + (fatEscape path).length := by
  rw [generateRelativePath_emulated emulated, Option.getD_some, openEnd_eq, List.tail_cons]
  have first := emulated_head emulated
  cases path with
  | nil => exact absurd first (by simp)
  | cons c rest =>
    rw [List.head?_cons, Option.some.injEq] at first
    rw [List.tail_cons, fatEscape_cons, first, List.length_append,
      show (escapeChar '/').length = 1 from rfl]
    omega

/-- What is behind the first character of a short path becomes 248 characters at most. -/
theorem openEnd_short {path : Path} {c : Char} (first : path.head? = some c)
    (short : path.length ≤ clientMaxpath) (emuNandPath : Path) :
    openEnd emuNandPath path ≤ emuNandPath.length + maxRelative := by
  cases path with
  | nil => cases first
  | cons _ rest =>
    have escaped := fatEscape_length_le rest
    rw [List.length_cons, clientMaxpath] at short
    rw [openEnd_eq, List.tail_cons, maxRelative]
    omega

/-- What the hook hands on: the path itself, or one that is no longer than 63 characters, in
`newpath`. -/
theorem syscallOpen_short {ω : Type} (caller : Caller) {path : Path}
    (short : path.length ≤ clientMaxpath) (s : Hooked ω) :
    ((syscallOpen caller path s).2.read (syscallOpen caller path s).1).length ≤ clientMaxpath := by
  have length : path.tail.length + 1 ≤ clientMaxpath ∨ path = [] := by
    cases path with
    | nil => exact .inr rfl
    | cons _ rest => exact .inl short
  unfold syscallOpen
  dsimp only
  split
  case isTrue hash =>
    split
    · exact short
    · rcases length with length | rfl
      · exact length
      · cases hash
  case isFalse =>
    split
    · split
      · exact (by decide : gtfo.length ≤ clientMaxpath)
      · exact short
    split
    · split
      · exact (by decide : devNull.length ≤ clientMaxpath)
      split
      · split
        case h_1 relative same =>
          unfold generateRelativePath at same
          split at same
          · cases same
          · cases same
            rcases length with length | rfl
            · exact length
            · exact (by decide : (['$'] : Path).length ≤ clientMaxpath)
        case h_2 => exact short
      · exact short
    · exact short

/-- An open stays inside the buffers while there is room for a relative path. -/
theorem openWrites_inside {caller : Caller} {path : Path} (short : path.length ≤ clientMaxpath)
    {s : Hooked (Module φ)} (room : s.plugin.fat.emuNandPath.length + maxRelative ≤ openPathSize)
    {write : PathWrite} (here : write ∈ openWrites caller path s) : write.Inside := by
  have length := syscallOpen_short caller short s
  simp only [openWrites, List.mem_append] at here
  rcases here with here | here
  · split at here
    case isFalse => exact absurd here List.not_mem_nil
    case isTrue =>
      rw [List.mem_singleton.1 here, PathWrite.inside_iff, strcpyEnd, fatMaxpath]
      rw [clientMaxpath] at length
      omega
  · split at here
    case isFalse => exact absurd here List.not_mem_nil
    case isTrue relative =>
      rw [List.mem_singleton.1 here, PathWrite.inside_iff]
      exact (openEnd_short relative length _).trans room

/-- While there is room, the requests of clients stay inside the buffers. -/
theorem PathState.Room.inside {s : PathState φ} (room : s.Room) : s.ClientsInside := by
  intro event short write here
  have relative := room.relative
  have ioctls (env : Surroundings) (message : Message) (short : message.Short env)
      (here : write ∈ if (∀ path ∈ message.paths env, checkRealPath s.plugin.config path = false) ∧
          s.plugin.config.mode ≠ 0 then
        (message.paths env).map fun path =>
          PathWrite.mk fatMaxpath (absoluteEnd s.plugin.config path)
        else []) : write.Inside := by
    split at here
    case isFalse => exact absurd here List.not_mem_nil
    case isTrue emulated =>
      have absolute := room.absolute emulated.2
      obtain ⟨path, inside, rfl⟩ := List.mem_map.1 here
      have bound := maxEscape_le (emulated.1 path inside) (short.1 path inside)
      rw [PathWrite.inside_iff, absoluteEnd_split]
      omega
  cases event with
  | setMode request => exact short.elim
  | openCall caller path mode => exact openWrites_inside short relative here
  | client env message =>
    cases message with
    | iosOpen path mode =>
      simp only [PathEvent.writes, Message.writes] at here
      split at here
      case isFalse => exact absurd here List.not_mem_nil
      case isTrue emulated =>
        have length := short.2 path mode rfl
        have bound := (maxEscape_le emulated.2.2 length).trans (maxEscape_le_full _)
        rcases List.mem_pair.1 here with rfl | rfl
        · rw [clientMaxpath] at length
          rw [PathWrite.inside_iff, strcpyEnd, fatMaxpath]
          omega
        · rw [maxRelative] at relative
          rw [PathWrite.inside_iff, openEnd_emulated emulated.2.2]
          omega
    | iosClose fd => exact ioctls env _ short here
    | iosRead fd length => exact ioctls env _ short here
    | iosWrite fd data => exact ioctls env _ short here
    | iosSeek fd offset origin => exact ioctls env _ short here
    | iosIoctl fd cmd inbuf inlen iolen => exact ioctls env _ short here
    | iosIoctlv cmd vector inlen iolen => exact ioctls env _ short here

/-- A thread that may open the FAT module. -/
def trusted : Caller where
  runningTitle := false
  forceRealNand := false
  openFat := true

/-- The longest relative path of a client, when it is escaped. -/
def longRelative : Path := '$' :: List.replicate 62 ':'

/-- The longest relative path, behind the folder of the emulation. -/
theorem longRelative_end (emuNandPath : Path) :
    openEnd emuNandPath longRelative = emuNandPath.length + maxRelative := by
  rw [openEnd_eq, longRelative, List.tail_cons, fatEscape_replicate, maxRelative]

/-- They do so only if there is room. -/
theorem PathState.ClientsInside.room {s : PathState φ} (inside : s.ClientsInside) : s.Room := by
  constructor
  · intro on
    obtain ⟨length, emulated, escaped⟩ := longPath_spec on
    have deletion : (Message.iosIoctl 0 ioctlDelete
        (some { path := longPath s.plugin.config.mode }) 0 0).paths quiet =
          [longPath s.plugin.config.mode] := rfl
    have short : (Message.iosIoctl 0 ioctlDelete
        (some { path := longPath s.plugin.config.mode }) 0 0).Short quiet :=
      ⟨by simp [deletion, length], by simp⟩
    have written := inside (.client quiet _) short
      ⟨fatMaxpath, absoluteEnd s.plugin.config (longPath s.plugin.config.mode)⟩
      (by simp [PathEvent.writes, Message.writes, deletion, emulated, on])
    rw [PathWrite.inside_iff, absoluteEnd_split, escaped] at written
    exact written
  · have short : longRelative.length ≤ clientMaxpath := by decide
    have handed := @syscallOpen_relative _ trusted rfl (List.replicate 62 ':') s.hooked
    have written := inside (.openCall trusted longRelative 0) short
      ⟨openPathSize, openEnd s.plugin.fat.emuNandPath longRelative⟩
      (by
        rw [PathEvent.writes, openWrites, longRelative, handed]
        exact List.mem_singleton_self _)
    rwa [PathWrite.inside_iff, longRelative_end] at written

/-! ## What a request does to the paths -/

section Steps

variable {files}

/-- What becomes of the nand path depends on the nand path only. -/
theorem setNandPath_congr (path : Path) {m m' : Module φ} (same : m.emuNandPath = m'.emuNandPath) :
    (Fat.setNandPath path m).1 = (Fat.setNandPath path m').1 ∧
      (Fat.setNandPath path m).2.emuNandPath = (Fat.setNandPath path m').2.emuNandPath := by
  unfold Fat.setNandPath
  dsimp only
  split
  · exact ⟨rfl, rfl⟩
  · exact ⟨rfl, same⟩

instance Plugin.decidableOpens (s : Plugin (Module φ)) : Decidable (s.Opens files) :=
  inferInstanceAs (Decidable (_ ∧ _ ∧ _))

/-- What `FAT_Init` does with any nand path. -/
theorem fatInit_told (files : FatModule φ) (nandpath : Path) (s : Plugin (Module φ)) :
    (fatInit (fatModule files) nandpath s).2.fat.emuNandPath =
        (if s.Opens files then (Fat.setNandPath nandpath s.fat).2.emuNandPath
          else s.fat.emuNandPath) ∧
      (s.Opens files → (fatInit (fatModule files) nandpath s).1 =
        (Fat.setNandPath nandpath s.fat).1) := by
  by_cases already : s.fatFd > 0
  · have silent : ¬ s.Opens files := fun opens => opens.1 already
    rw [fatInit, if_pos already, if_neg silent]
    exact ⟨rfl, fun opens => absurd opens silent⟩
  obtain ⟨allocated, w, alloc⟩ : ∃ allocated w, s.allocated files = (allocated, w) := ⟨_, _, rfl⟩
  have path : w.emuNandPath = s.fat.emuNandPath := by
    unfold Plugin.allocated at alloc
    split at alloc <;> rw [← (Prod.mk.inj alloc).2]
  obtain ⟨fd, opened, opening⟩ : ∃ fd opened, (fatModule files).openModule w = (fd, opened) :=
    ⟨_, _, rfl⟩
  have kept : opened.emuNandPath = s.fat.emuNandPath := by
    rw [← path, ← (Prod.mk.inj opening).2]
  have opens : s.Opens files ↔ allocated = true ∧ 0 ≤ fd := by
    rw [Plugin.Opens, alloc, opening]
    exact ⟨And.right, fun both => ⟨already, both⟩⟩
  have told := setNandPath_congr nandpath kept
  unfold Plugin.allocated at alloc
  unfold fatInit
  simp only [alloc, opening, if_neg already, opens]
  cases allocated with
  | false => exact ⟨path, fun both => absurd both.1 Bool.false_ne_true⟩
  | true =>
    by_cases failed : fd < 0
    · simp only [Bool.true_eq_false, if_false, failed, if_true, Int.not_le.2 failed, and_false]
      exact ⟨kept, fun none => none.elim⟩
    · simp only [Bool.true_eq_false, if_false, failed, Int.not_lt.1 failed, and_self]
      exact ⟨told.2, fun _ => told.1⟩

/-- What a SETMODE request does to the paths. -/
structure SetMode.Done (files : FatModule φ) (request : SetMode) (s s' : Plugin (Module φ)) :
    Prop where
  emuNandPath : s'.fat.emuNandPath = if request.Tells files s then
    (Fat.setNandPath request.nandPath s.fat).2.emuNandPath else s.fat.emuNandPath
  config : (request.mode &&& (modeSdhc ||| modeUsb) ≠ 0 ∧
      0 ≤ (fsSetMode (fatModule files) request.env request.mode request.path s).1) ∨
    s'.config = .off ∨ s'.config = s.config ∧ ¬ request.Tells files s

/-- With the emulation switched on the result is that of the module's start. -/
theorem fsSetMode_result {request : SetMode} {s : Plugin (Module φ)}
    (on : request.mode &&& (modeSdhc ||| modeUsb) ≠ 0) (quiet : request.env.runningTitle = false) :
    (fsSetMode (fatModule files) request.env request.mode request.path s).1 =
      (fatInit (fatModule files) request.nandPath (s.enabled request)).1 := by
  unfold fsSetMode
  rw [if_pos on, if_neg (by simp [quiet])]
  exact (apply_ite Prod.fst _ _ _).trans (ite_self _)

variable (files) in
/-- A change of the mode leaves the paths as the request says. -/
theorem fsSetMode_done (request : SetMode) (s : Plugin (Module φ)) :
    request.Done files s
      (fsSetMode (fatModule files) request.env request.mode request.path s).2 := by
  by_cases on : request.mode &&& (modeSdhc ||| modeUsb) ≠ 0
  case neg =>
    have silent : ¬ request.Tells files s := fun tells => on tells.1
    simp only [fsSetMode, if_neg on]
    split
    · exact ⟨(if_neg silent).symm, .inr (.inr ⟨rfl, silent⟩)⟩
    · exact ⟨(if_neg silent).symm, .inr (.inl rfl)⟩
  by_cases running : request.env.runningTitle = true
  case pos =>
    have silent : ¬ request.Tells files s := fun tells =>
      absurd (running.symm.trans tells.2.1) (by decide)
    simp only [fsSetMode, if_pos on, if_pos running]
    exact ⟨(if_neg silent).symm, .inr (.inr ⟨rfl, silent⟩)⟩
  have quiet : request.env.runningTitle = false := by simpa using running
  have tells : request.Tells files s ↔ (s.enabled request).Opens files :=
    ⟨fun tells => tells.2.2, fun opens => ⟨on, quiet, opens⟩⟩
  obtain ⟨path, -⟩ := fatInit_told files request.nandPath (s.enabled request)
  have path' : (fatInit (fatModule files) request.nandPath (s.enabled request)).2.fat.emuNandPath =
      if request.Tells files s then
        (Fat.setNandPath request.nandPath s.fat).2.emuNandPath else s.fat.emuNandPath := by
    simp only [path, tells]
    rfl
  rw [fsSetMode_on on quiet]
  split
  case isTrue ready =>
    rw [← fsSetMode_result on quiet] at ready
    exact ⟨(prepareFolders_emuNandPath _).trans path', .inl ⟨on, ready⟩⟩
  · exact ⟨path', .inr (.inl rfl)⟩

/-- What an accepted one leaves behind. -/
theorem SetMode.Accepted.done {request : SetMode} {s : PathState φ}
    (accepted : request.Accepted files s) :
    (fsSetMode (fatModule files) request.env request.mode request.path s.plugin).2.config =
        { mode := request.mode ||| modeRev17, path := request.path } ∧
      (request.Tells files s.plugin → request.nandPath.length < emuNandPathSize) := by
  obtain ⟨on, done⟩ := accepted
  by_cases running : request.env.runningTitle = true
  · simp only [fsSetMode, if_pos on, if_pos running] at done
    exact absurd done (show ¬ 0 ≤ ipcEnoent by decide)
  have quiet : request.env.runningTitle = false := by simpa using running
  rw [fsSetMode_result on quiet] at done
  constructor
  · rw [fsSetMode_on on quiet, if_pos done]
    have config := prepareFolders_config (fatModule files)
      (fatInit (fatModule files) request.nandPath (s.plugin.enabled request)).2
    exact config.trans
      (fatInit_kept (fatModule files) request.nandPath (s.plugin.enabled request)).1
  · intro tells
    obtain ⟨-, told⟩ := fatInit_told files request.nandPath (s.plugin.enabled request)
    rw [told tells.2.2, Fat.setNandPath] at done
    by_contra long
    rw [if_neg long] at done
    exact absurd done (show ¬ (0 : Int) ≤ -4 by decide)

/-- A slash is appended exactly to a path that does not end in one. -/
theorem withSlash_eq_iff (path : Path) :
    path ++ ['/'] = withSlash path ↔ path.getLast? ≠ some '/' := by
  unfold withSlash
  split
  case isTrue slash => exact iff_of_false (by simp) (fun other => other slash)
  case isFalse other => exact iff_of_true rfl other

/-- A request that is not accepted does not change what the FAT module has been told. -/
theorem SetMode.not_accepted {request : SetMode} {s : PathState φ}
    (refused : ¬ request.Accepted files s) :
    (fsSetMode (fatModule files) request.env request.mode request.path s.plugin).2.fat.emuNandPath =
      s.plugin.fat.emuNandPath := by
  rw [(fsSetMode_done files request s.plugin).emuNandPath]
  split
  case isFalse => rfl
  case isTrue tells =>
    obtain ⟨on, quiet, opens⟩ := tells
    have told := (fatInit_told files request.nandPath (s.plugin.enabled request)).2 opens
    have long : ¬ request.nandPath.length < emuNandPathSize := fun fits => by
      refine refused ⟨on, ?_⟩
      rw [fsSetMode_result on quiet, told, setNandPath_fits fits]
    rw [Fat.setNandPath, if_neg long]

/-- The clients have room, and the statics of the FAT module are what the plugin takes them for. -/
structure PathState.Sound (s : PathState φ) : Prop where
  nand : s.nand.Holds s.plugin.fat.emuNandPath
  room : s.Room

/-- The nand path of a request is a string as its path is. -/
theorem nul_not_mem_nandPath {request : SetMode} (string : nul ∉ request.path) :
    nul ∉ request.nandPath := by
  have device (mode : UInt32) : nul ∉ devicePrefix mode := by
    unfold devicePrefix
    extract_lets device
    split
    · decide
    · split <;> decide
  simp only [SetMode.nandPath, generateAbsolutePath, fatEscape, List.flatMap_nil, List.append_nil,
    List.mem_append, not_or]
  exact ⟨device _, string⟩

/-- The statics of the FAT module follow the plugin's view of them. -/
theorem PathState.Sound.nand_setMode {s : PathState φ} (sound : s.Sound) {request : SetMode}
    (string : nul ∉ request.path) :
    (s.serve files (.setMode request)).nand.Holds
      (s.serve files (.setMode request)).plugin.fat.emuNandPath := by
  have path := (fsSetMode_done files request s.plugin).emuNandPath
  simp only [PathState.serve, path]
  by_cases tells : request.Tells files s.plugin
  · simp only [if_pos tells]
    exact (sound.nand.setNandPath (nul_not_mem_nandPath string)).2
  · simp only [if_neg tells]
    exact sound.nand

/-- An accepted request leaves room exactly if its lengths do. -/
theorem SetMode.Accepted.room_iff {request : SetMode} {s : PathState φ} (room : s.Room)
    (accepted : request.Accepted files s) :
    (s.serve files (.setMode request)).Room ↔
      request.nandPath.length + maxEscape (request.mode ||| modeRev17) < fatMaxpath ∧
        (request.Tells files s.plugin →
          request.nandPath.length + maxRelative < openPathSize) := by
  obtain ⟨config, fits⟩ := accepted.done
  have config' : (s.serve files (.setMode request)).plugin.config =
      { mode := request.mode ||| modeRev17, path := request.path } := config
  have on : (s.serve files (.setMode request)).plugin.config.mode ≠ 0 := by
    rw [config']
    exact fun off => modeRev17_set request.mode (congrArg (· &&& modeRev17) off)
  have path : (s.serve files (.setMode request)).plugin.fat.emuNandPath.length =
      if request.Tells files s.plugin then request.nandPath.length + 1
      else s.plugin.fat.emuNandPath.length := by
    have told := (fsSetMode_done files request s.plugin).emuNandPath
    simp only [PathState.serve, told]
    split
    case isTrue tells => simp [setNandPath_fits (fits tells) s.plugin.fat]
    case isFalse => rfl
  have absolute : generateAbsolutePath (s.serve files (.setMode request)).plugin.config [] =
      request.nandPath := by
    rw [config']
    rfl
  constructor
  · rintro ⟨whole, relative⟩
    have whole := whole on
    rw [absolute, config'] at whole
    rw [path] at relative
    refine ⟨whole, fun tells => ?_⟩
    rw [if_pos tells] at relative
    omega
  · rintro ⟨whole, relative⟩
    refine ⟨fun _ => by rwa [absolute, config'], ?_⟩
    rw [path]
    split
    case isTrue tells =>
      have told := relative tells
      omega
    case isFalse => exact room.relative

/-- Such a request stays inside the buffers itself. -/
theorem setModeCopies_room {request : SetMode} {s : Plugin (Module φ)}
    (room : request.nandPath.length + maxEscape (request.mode ||| modeRev17) < fatMaxpath) :
    ∀ copy ∈ setModeCopies files request s, copy.Inside := by
  have least : 240 ≤ maxEscape (request.mode ||| modeRev17) := by
    unfold maxEscape
    split <;> decide
  have part : request.path.length ≤ request.nandPath.length := by
    simp only [SetMode.nandPath, generateAbsolutePath, List.length_append]
    omega
  refine setModeCopies_inside ?_ s
  simp only [fatMaxpath, isfsMaxpath] at room ⊢
  omega

/-! ## The other requests -/

/-- The paths of the plugin and of the FAT module are left alone. -/
structure KeepsPaths (s s' : Plugin (Module φ)) : Prop where
  config : s'.config = s.config
  emuNandPath : s'.fat.emuNandPath = s.fat.emuNandPath

theorem KeepsPaths.refl (s : Plugin (Module φ)) : KeepsPaths s s := ⟨rfl, rfl⟩

/-- A request on a path keeps the paths if its action does. -/
theorem onPath_keepsPaths {real : Bool}
    {act : Plugin (Module φ) → Int × Out × Plugin (Module φ)} {s : Plugin (Module φ)}
    (acted : KeepsPaths s (act s).2.2) : KeepsPaths s (onPath real act s).2 := by
  unfold onPath
  split
  · exact .refl s
  · split
    · exact acted
    · exact .refl s

/-- A request on a descriptor keeps the paths if its action does. -/
theorem onFile_keepsPaths {fd : Int}
    {act : Nat → Plugin (Module φ) → Int × Out × Plugin (Module φ)} {s : Plugin (Module φ)}
    (acted : ∀ idx, KeepsPaths s (act idx s).2.2) : KeepsPaths s (onFile fd act s).2 := by
  unfold onFile
  split
  · cases getFileIndex s.table fd with
    | some idx => exact acted idx
    | none => exact .refl s
  · exact .refl s

/-- A request to the FAT module that hands back its result only. -/
theorem askFat_keepsPaths {request : Module φ → Int × Module φ} {s : Plugin (Module φ)}
    (kept : (request s.fat).2.emuNandPath = s.fat.emuNandPath) :
    KeepsPaths s (askFat request s).2.2 := ⟨rfl, kept⟩

/-- A rename keeps the nand path. -/
theorem renameFat_emuNandPath (old new : Path) (m : Module φ) :
    (renameFat (fatModule files) old new m).2.emuNandPath = m.emuNandPath := by
  unfold renameFat
  split
  · dsimp only
    split
    · split <;> rfl
    · rfl
  · rfl

/-- An open keeps the paths. -/
theorem fsOpen_keepsPaths (path : Path) (mode : UInt32) (s : Plugin (Module φ)) :
    KeepsPaths s (fsOpen (fatModule files) path mode s).2 := by
  unfold fsOpen
  split
  case isFalse => exact .refl s
  split
  · exact ⟨rfl, rfl⟩
  · split
    case isFalse => exact .refl s
    refine ⟨rfl, ?_⟩
    show (iosOpen files _ mode s.fat).2.emuNandPath = _
    unfold iosOpen
    split <;> rfl

/-- An ioctl keeps the paths unless it changes the mode. -/
theorem fsIoctl_keepsPaths (env : Surroundings) (fd : Int) {cmd : Nat} (inbuf : Option Inbuf)
    (inlen iolen : Nat) (other : cmd ≠ ioctlSetmode) (s : Plugin (Module φ)) :
    KeepsPaths s (fsIoctl (fatModule files) env fd cmd inbuf inlen iolen s).2 := by
  refine fsIoctl_cases (P := fun answer => KeepsPaths s answer.2) env fd cmd inbuf inlen iolen s
    ?createDir ?createFile ?delete ?rename ?getStats ?getFileStats ?getAttr ?setAttr ?format
    ?setMode ?unknown
  case createDir => exact fun _ => onPath_keepsPaths (askFat_keepsPaths rfl)
  case createFile => exact fun _ => onPath_keepsPaths (askFat_keepsPaths rfl)
  case delete => exact fun _ => onPath_keepsPaths (askFat_keepsPaths rfl)
  case rename =>
    exact fun _ _ => onPath_keepsPaths (askFat_keepsPaths (renameFat_emuNandPath _ _ _))
  case getStats =>
    refine onPath_keepsPaths ?_
    split <;> exact .refl s
  case getFileStats => exact onFile_keepsPaths fun _ => ⟨rfl, rfl⟩
  case getAttr =>
    refine fun _ => onPath_keepsPaths ?_
    dsimp only
    split <;> exact ⟨rfl, rfl⟩
  case setAttr => exact fun _ => onPath_keepsPaths (askFat_keepsPaths rfl)
  case format => exact onPath_keepsPaths (.refl s)
  case setMode => exact fun same => absurd same other
  case unknown => exact .refl s

/-- An ioctlv keeps the paths unless it changes the mode. -/
theorem fsIoctlv_keepsPaths (env : Surroundings) {cmd : Nat} (vector : Option Vectors)
    (inlen iolen : Nat) (other : cmd ≠ ioctlSetmode) (s : Plugin (Module φ)) :
    KeepsPaths s (fsIoctlv (fatModule files) env cmd vector inlen iolen s).2 := by
  unfold fsIoctlv
  extract_lets vec
  split
  · exact onPath_keepsPaths ⟨rfl, rfl⟩
  split
  · refine onPath_keepsPaths ?_
    dsimp only
    split
    · exact .refl s
    · split
      · exact ⟨rfl, rfl⟩
      · refine ⟨rfl, ?_⟩
        dsimp only
        unfold fatGetUsage
        dsimp only
        split <;> rfl
  split
  · unfold fsGetMode
    split <;> exact .refl s
  · exact .refl s

variable (files) in
/-- A request other than SETMODE leaves the paths alone. -/
theorem fsHandle_keepsPaths (env : Surroundings) {message : Message} (other : ¬ message.SetsMode)
    (s : Plugin (Module φ)) : KeepsPaths s (fsHandle (fatModule files) env message s).2 := by
  cases message with
  | iosOpen path mode => exact fsOpen_keepsPaths path mode s
  | iosClose fd => exact onFile_keepsPaths fun _ => ⟨rfl, rfl⟩
  | iosRead fd length => exact onFile_keepsPaths fun _ => ⟨rfl, rfl⟩
  | iosWrite fd data => exact onFile_keepsPaths fun _ => ⟨rfl, rfl⟩
  | iosSeek fd offset origin => exact onFile_keepsPaths fun _ => ⟨rfl, rfl⟩
  | iosIoctl fd cmd inbuf inlen iolen =>
    exact fsIoctl_keepsPaths env fd inbuf inlen iolen other s
  | iosIoctlv cmd vector inlen iolen =>
    exact fsIoctlv_keepsPaths env vector inlen iolen other s

/-- An open at the FAT module keeps the nand path. -/
theorem iosOpen_emuNandPath (path : Path) (mode : UInt32) (m : Module φ) :
    (iosOpen files path mode m).2.emuNandPath = m.emuNandPath := by
  unfold iosOpen
  split <;> rfl

/-- The hook of the open call keeps the paths. -/
theorem syscallOpen_keepsPaths (caller : Caller) (path : Path) (s : Hooked (Module φ)) :
    KeepsPaths s.plugin (syscallOpen caller path s).2.plugin := by
  unfold syscallOpen
  dsimp only
  split
  · split
    · exact .refl _
    · exact ⟨rfl, rfl⟩
  · split
    · split <;> exact .refl _
    split
    · split
      · exact .refl _
      split
      · split <;> exact .refl _
      · exact .refl _
    · exact .refl _

variable (files) in
/-- So does an open, whatever it opens. -/
theorem call_keepsPaths (caller : Caller) (path : Path) (mode : UInt32) (s : PathState φ) :
    KeepsPaths s.plugin (s.call files caller path mode).plugin := by
  have kept := syscallOpen_keepsPaths caller path s.hooked
  simp only [PathState.call]
  split
  · exact ⟨kept.config, (iosOpen_emuNandPath _ _ _).trans kept.emuNandPath⟩
  · exact kept

/-! ## One event -/

/-- With the paths the room behind them is kept. -/
theorem KeepsPaths.room {s s' : PathState φ} (kept : KeepsPaths s.plugin s'.plugin)
    (room : s.Room) : s'.Room where
  absolute on := by
    rw [kept.config] at on ⊢
    exact room.absolute on
  relative := by
    rw [kept.emuNandPath]
    exact room.relative

/-- A SETMODE request that leaves room, or that is not accepted. -/
theorem PathState.Sound.setMode {s : PathState φ} (sound : s.Sound) {request : SetMode}
    (string : nul ∉ request.path)
    (room : request.Accepted files s → (s.serve files (.setMode request)).Room) :
    (s.serve files (.setMode request)).Sound := by
  refine ⟨sound.nand_setMode string, ?_⟩
  by_cases accepted : request.Accepted files s
  · exact room accepted
  have path : (s.serve files (.setMode request)).plugin.fat.emuNandPath =
      s.plugin.fat.emuNandPath := SetMode.not_accepted accepted
  rcases (fsSetMode_done files request s.plugin).config with other | off | ⟨same, -⟩
  · exact absurd other accepted
  · exact ⟨fun on => absurd (congrArg FsConfig.mode off) on, path ▸ sound.room.relative⟩
  · have kept : KeepsPaths s.plugin (s.serve files (.setMode request)).plugin := ⟨same, path⟩
    exact kept.room sound.room

/-- An event that is not a SETMODE request. -/
theorem KeepsPaths.safe {s : PathState φ} (sound : s.Sound) {event : PathEvent}
    (kept : KeepsPaths s.plugin (s.serve files event).plugin)
    (nand : (s.serve files event).nand = s.nand) (other : ∀ request, event ≠ .setMode request) :
    s.Safe files event ∧ (s.serve files event).Sound := by
  have holds : (s.serve files event).nand.Holds (s.serve files event).plugin.fat.emuNandPath := by
    rw [nand, kept.emuNandPath]
    exact sound.nand
  exact ⟨⟨fun request same => absurd same (other request), sound.room.inside event, holds⟩,
    ⟨holds, kept.room sound.room⟩⟩

/-- One event of a run. -/
theorem PathState.safe_iff {s : PathState φ} (sound : s.Sound) {event : PathEvent}
    (formed : event.WellFormed) :
    (s.Safe files event ↔ s.Roomy files event) ∧
      (s.Roomy files event → (s.serve files event).Sound) := by
  cases event with
  | setMode request =>
    have slash (accepted : request.Accepted files s) (tells : request.Tells files s.plugin) :
        (s.serve files (.setMode request)).plugin.fat.emuNandPath = withSlash request.nandPath ↔
          request.nandPath.getLast? ≠ some '/' := by
      have told := (fsSetMode_done files request s.plugin).emuNandPath
      rw [if_pos tells, setNandPath_fits (accepted.done.2 tells)] at told
      rw [← withSlash_eq_iff]
      exact iff_of_eq (congrArg (· = withSlash request.nandPath) told)
    refine ⟨⟨fun safe other same accepted => ?_, fun roomy => ⟨?_, False.elim, ?_⟩⟩,
      fun roomy => ?_⟩
    · cases same
      obtain ⟨-, slashed, clients⟩ := safe.setMode request rfl accepted
      obtain ⟨absolute, relative⟩ := (accepted.room_iff sound.room).1 clients.room
      exact ⟨absolute, fun tells => ⟨(slash accepted tells).1 (slashed tells), relative tells⟩⟩
    · rintro other same accepted
      cases same
      obtain ⟨absolute, told⟩ := roomy request rfl accepted
      exact ⟨setModeCopies_room absolute, fun tells => (slash accepted tells).2 (told tells).1,
        ((accepted.room_iff sound.room).2 ⟨absolute, fun tells => (told tells).2⟩).inside⟩
    · exact sound.nand_setMode formed
    · refine sound.setMode formed fun accepted => ?_
      obtain ⟨absolute, told⟩ := roomy request rfl accepted
      exact (accepted.room_iff sound.room).2 ⟨absolute, fun tells => (told tells).2⟩
  | client env message =>
    have kept : KeepsPaths s.plugin (s.serve files (.client env message)).plugin :=
      fsHandle_keepsPaths files env formed s.plugin
    obtain ⟨safe, next⟩ := kept.safe sound rfl nofun
    exact ⟨iff_of_true safe nofun, fun _ => next⟩
  | openCall caller path mode =>
    have kept : KeepsPaths s.plugin (s.serve files (.openCall caller path mode)).plugin :=
      call_keepsPaths files caller path mode s
    obtain ⟨safe, next⟩ := kept.safe sound rfl nofun
    exact ⟨iff_of_true safe nofun, fun _ => next⟩

end Steps

/-- At the start the paths are the ones of the sources. -/
theorem pathState_boot (w : φ) : (PathState.boot w).Sound where
  nand := nandStatics_boot
  room := ⟨fun on => absurd rfl on,
    show "/".toList.length + maxRelative ≤ openPathSize by decide⟩

/-- In every run of well-formed events no path buffer overflows, for the events and for the
requests that may come next, exactly if every nand path that is accepted leaves room. -/
theorem PathState.always_safe_iff (w : φ) (events : List PathEvent)
    (formed : ∀ event ∈ events, event.WellFormed) :
    Throughout (PathState.serve files) (PathState.Safe files) events (.boot w) ↔
      Throughout (PathState.serve files) (PathState.Roomy files) events (.boot w) := by
  have each (event : PathEvent) (s : PathState φ) (formed : event.WellFormed) (sound : s.Sound) :
      (s.Safe files event ↔ s.Roomy files event) ∧
        (s.Roomy files event → (s.serve files event).Sound) := PathState.safe_iff sound formed
  exact Throughout.iff_of_invariant each (.of_forall formed) (pathState_boot w)

/-! ## A nand path that is too long -/

/-- The emulation is switched on for a folder with a short name on the SD card. -/
def onShortPath : SetMode where
  env := quiet
  mode := modeSdhc
  path := "/emu".toList

/-- Then the longest paths of a deletion and of a relative open. -/
def emulatedRequests : List PathEvent :=
  [.setMode onShortPath,
    .client quiet (.iosIoctl 0 ioctlDelete (some { path := longPath modeSdhc }) 0 0),
    .openCall trusted longRelative 0]

/-- The rule for these requests. -/
theorem always_safe_iff_emulatedRequests :
    Throughout (PathState.serve idleFat) (PathState.Safe idleFat) emulatedRequests (.boot ()) ↔
      Throughout (PathState.serve idleFat) (PathState.Roomy idleFat) emulatedRequests
        (.boot ()) :=
  PathState.always_safe_iff idleFat () emulatedRequests fun event here => by
    simp only [emulatedRequests, List.mem_cons, List.not_mem_nil, or_false] at here
    rcases here with rfl | rfl | rfl
    · exact show nul ∉ "/emu".toList by decide
    · exact show ¬ ioctlDelete = ioctlSetmode by decide
    · trivial

/-- The same for a folder with a name of 14 characters. -/
def onLongPath : SetMode where
  env := quiet
  mode := modeSdhc
  path := "/emulated/nand".toList

/-- It is accepted, and leaves no room for a path of 63 characters with 59 colons. -/
theorem longPath_overflows :
    (PathEvent.setMode onLongPath).WellFormed ∧ onLongPath.Accepted idleFat (.boot ()) ∧
      ¬ Throughout (PathState.serve idleFat) (PathState.Safe idleFat) [.setMode onLongPath]
        (.boot ()) := by
  have accepted : onLongPath.Accepted idleFat (.boot ()) := by decide
  refine ⟨show nul ∉ "/emulated/nand".toList by decide, accepted, fun safe => ?_⟩
  obtain ⟨-, -, clients⟩ := safe.1.setMode onLongPath rfl accepted
  have room := ((accepted.room_iff (pathState_boot ()).room).1 clients.room).1
  exact absurd room (by decide)

end D2xCios.Ffs
