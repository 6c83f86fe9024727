import D2xCios.Ffs.Plugin

/-!
# Who serves a request

Every request is to be served once: by the emulation where that applies to it,
and by the original handler everywhere else. Two kinds of requests are served
by neither or by the wrong one while the emulation is on: a command that the
plugin does not know, because the flag `performed` then still holds the mode,
and the descriptor -1, which the table of open files uses for its free slots.
-/

namespace D2xCios.Ffs

variable {ω : Type} {fat : FatModule ω}

/-! ## The rule -/

/-- `fd` is the descriptor of a file that the emulation has opened. -/
def Plugin.Registered (s : Plugin ω) (fd : Int) : Prop :=
  s.config.mode ≠ 0 ∧ 0 ≤ fd ∧ fd ∈ s.table

/-- The emulation applies to an ioctl. -/
def Plugin.IoctlApplies (s : Plugin ω) (fd : Int) (cmd : Nat) (buf : Inbuf) : Prop :=
  if cmd = ioctlCreatedir ∨ cmd = ioctlCreatefile ∨ cmd = ioctlSetattr then
    checkRealPath s.config buf.attrPath = false
  else if cmd = ioctlDelete ∨ cmd = ioctlGetattr then checkRealPath s.config buf.path = false
  else if cmd = ioctlRename then
    checkRealPath s.config buf.pathOld = false ∧ checkRealPath s.config buf.pathNew = false
  else if cmd = ioctlGetstats ∨ cmd = ioctlFormat then s.config.mode ≠ 0
  else if cmd = ioctlGetfilestats then s.Registered fd
  else cmd = ioctlSetmode

/-- The emulation applies to an ioctlv. -/
def Plugin.IoctlvApplies (s : Plugin ω) (cmd : Nat) (vec : Vectors) : Prop :=
  if cmd = ioctlReaddir ∨ cmd = ioctlGetusage then checkRealPath s.config vec.path0 = false
  else cmd = ioctlSetmode ∨ cmd = ioctlGetmode

/-- The emulation applies to a request. -/
def Plugin.Applies (s : Plugin ω) : Message → Prop
  | .iosOpen device _ => checkRealPath s.config device = false
  | .iosClose fd => s.Registered fd
  | .iosRead fd _ => s.Registered fd
  | .iosWrite fd _ => s.Registered fd
  | .iosSeek fd _ _ => s.Registered fd
  | .iosIoctl fd cmd inbuf _ _ => s.IoctlApplies fd cmd (inbuf.getD {})
  | .iosIoctlv cmd vector _ _ => s.IoctlvApplies cmd (vector.getD {})

/-- A request is served by the emulation if that applies, and otherwise passed
on to the original handler with nothing done. -/
structure Routed (applies : Prop) (s : Plugin ω) (answer : Reply × Plugin ω) : Prop where
  served : answer.1.served = true ↔ applies
  original : answer.1.Original ↔ ¬ applies
  unchanged : ¬ applies → answer.2 = s

/-! ## Requests that go astray -/

/-- The plugin does not know the command. -/
def Message.Unknown : Message → Prop
  | .iosIoctl _ cmd _ _ _ =>
    cmd ∉ [ioctlFormat, ioctlGetstats, ioctlCreatedir, ioctlSetattr, ioctlGetattr, ioctlDelete,
      ioctlRename, ioctlCreatefile, ioctlGetfilestats, ioctlSetmode]
  | .iosIoctlv cmd _ _ _ => cmd ∉ [ioctlReaddir, ioctlGetusage, ioctlSetmode, ioctlGetmode]
  | _ => False

/-- The descriptor of a command that takes one. -/
def Message.descriptor : Message → Option Int
  | .iosClose fd => some fd
  | .iosRead fd _ => some fd
  | .iosWrite fd _ => some fd
  | .iosSeek fd _ _ => some fd
  | .iosIoctl fd cmd _ _ _ => if cmd = ioctlGetfilestats then some fd else none
  | _ => none

/-- The descriptor is taken for a file although it only marks a free slot. -/
def Plugin.Vacant (s : Plugin ω) (message : Message) : Prop :=
  message.descriptor = some (-1) ∧ -1 ∈ s.table

/-! ## The two shapes of handlers -/

section Shapes

/-- A message that the plugin answers where it should. -/
theorem Routed.of_acted {applies : Prop} {s : Plugin ω} {answer : Reply × Plugin ω}
    (holds : applies)
    (served : answer.1.served = true) (performed : answer.1.performed ≠ 0) :
    Routed applies s answer where
  served := by simp [holds, served]
  original := by simp [Reply.Original, holds, performed]
  unchanged refused := absurd holds refused

/-- A message that is left to the original handler where it should be. -/
theorem Routed.of_pass {applies : Prop} {s : Plugin ω} (refused : ¬ applies) :
    Routed applies s (.pass 0, s) where
  served := by simp [Reply.pass, refused]
  original := by simp [Reply.Original, Reply.pass, refused]
  unchanged _ := rfl

theorem Routed.congr {applies other : Prop} {s : Plugin ω} {answer : Reply × Plugin ω}
    (routed : Routed applies s answer) (same : applies ↔ other) : Routed other s answer := by
  rwa [← propext same]

/-- The flag of an unknown command is the mode. -/
theorem routed_unknown_iff {s : Plugin ω} :
    Routed False s (.pass s.config.mode, s) ↔ s.config.mode = 0 := by
  constructor
  · intro routed
    exact (routed.original.mpr not_false).1
  · intro off
    rw [off]
    exact .of_pass not_false

/-- A request on a path is routed by the path and by the mode. -/
theorem onPath_routed (real : Bool) (act : Plugin ω → Int × Out × Plugin ω) (s : Plugin ω) :
    Routed (real = false ∧ s.config.mode ≠ 0) s (onPath real act s) := by
  unfold onPath
  cases real with
  | true => exact .of_pass (by simp)
  | false =>
    by_cases off : s.config.mode = 0
    · simp only [Bool.false_eq_true, off, ne_eq, not_true_eq_false, if_false, and_false]
      exact .of_pass not_false
    · simp only [Bool.false_eq_true, off, ne_eq, not_false_eq_true, if_false, if_true, and_true]
      exact .of_acted trivial rfl off

/-- A path command of an emulated path. -/
theorem onPath_checkRealPath (path : Path) (act : Plugin ω → Int × Out × Plugin ω) (s : Plugin ω) :
    Routed (checkRealPath s.config path = false) s
      (onPath (checkRealPath s.config path) act s) := by
  refine (onPath_routed _ act s).congr ⟨And.left, fun emulated => ⟨emulated, fun off => ?_⟩⟩
  rw [checkRealPath_off off] at emulated
  exact absurd emulated (by simp)

/-- A descriptor has an index exactly if it is in the table. -/
theorem getFileIndex_isSome (table : List Int) (fd : Int) :
    (getFileIndex table fd).isSome = true ↔ fd ∈ table := by
  simp [getFileIndex]

/-- A request on a descriptor is routed by the mode and by the table. -/
theorem onFile_routed (fd : Int) (act : Nat → Plugin ω → Int × Out × Plugin ω) (s : Plugin ω) :
    Routed (s.config.mode &&& modeRev17 ≠ 0 ∧ fd ∈ s.table) s (onFile fd act s) := by
  unfold onFile
  by_cases direct : s.config.mode &&& modeRev17 = 0
  · rw [if_neg (not_not.mpr direct)]
    exact .of_pass fun both => both.1 direct
  · rw [if_pos direct]
    have known := getFileIndex_isSome s.table fd
    cases index : getFileIndex s.table fd with
    | some idx =>
      rw [index] at known
      exact .of_acted ⟨direct, known.mp rfl⟩ rfl (show (1 : UInt32) ≠ 0 by decide)
    | none =>
      rw [index] at known
      exact .of_pass fun both => absurd (known.mpr both.2) (by simp)

end Shapes

/-! ## Reachable states -/

/-- While the emulation is on, files are opened through the plugin, and only
free slots are negative. -/
structure Plugin.Wf (s : Plugin ω) : Prop where
  direct : s.config.mode ≠ 0 → s.config.mode &&& modeRev17 ≠ 0
  slots : s.config.mode ≠ 0 → ∀ slot ∈ s.table, slot = -1 ∨ 0 ≤ slot

/-- The bit of revision 17 is set once it has been added. -/
theorem modeRev17_set (mode : UInt32) : (mode ||| modeRev17) &&& modeRev17 ≠ 0 := by
  have absorbed : (mode ||| modeRev17) &&& modeRev17 = modeRev17 := by
    apply UInt32.toBitVec_inj.mp
    simp only [UInt32.toBitVec_and, UInt32.toBitVec_or]
    ext i
    simp only [BitVec.getElem_and, BitVec.getElem_or]
    cases mode.toBitVec[i] <;> simp
  rw [absorbed]
  decide

/-- What a message can do to the mode and to the table of open files: it leaves the mode alone and
stores only descriptors, it switches the emulation off, or it switches it on. -/
inductive Plugin.Turned (s s' : Plugin ω) : Prop where
  | kept (config : s'.config = s.config)
      (table : ∀ slot ∈ s'.table, slot ∈ s.table ∨ slot = -1 ∨ 0 ≤ slot)
  | off (config : s'.config = .off)
  | on (mode : UInt32) (path : Path) (device : mode &&& (modeSdhc ||| modeUsb) ≠ 0)
      (config : s'.config = { mode := mode ||| modeRev17, path := path })
      (table : s'.table = unregisterAllFiles)

/-- Nothing has turned if neither the configuration nor the table has changed. -/
theorem Plugin.Turned.same {s s' : Plugin ω} (config : s'.config = s.config)
    (table : s'.table = s.table) : s.Turned s' :=
  .kept config fun _ mem => .inl (table ▸ mem)

theorem Plugin.Turned.refl (s : Plugin ω) : s.Turned s := .same rfl rfl

/-- Registering adds no descriptor but the new one. -/
theorem mem_registerFile {table : List Int} {fd slot : Int}
    (mem : slot ∈ registerFile table fd) : slot ∈ table ∨ slot = fd := by
  unfold registerFile at mem
  split at mem
  · exact List.mem_or_eq_of_mem_set mem
  · exact .inl mem

/-- A request on a path turns what its action turns. -/
theorem onPath_turned {real : Bool} {act : Plugin ω → Int × Out × Plugin ω} {s : Plugin ω}
    (acted : s.Turned (act s).2.2) : s.Turned (onPath real act s).2 := by
  unfold onPath
  split
  · exact .refl s
  · split
    · exact acted
    · exact .refl s

/-- A request to the FAT module turns nothing. -/
theorem askFat_turned (request : ω → Int × ω) (s : Plugin ω) : s.Turned (askFat request s).2.2 :=
  .same rfl rfl

/-- A request on a descriptor turns what its action turns. -/
theorem onFile_turned {fd : Int} {act : Nat → Plugin ω → Int × Out × Plugin ω} {s : Plugin ω}
    (acted : ∀ idx, s.Turned (act idx s).2.2) : s.Turned (onFile fd act s).2 := by
  unfold onFile
  split
  · cases getFileIndex s.table fd with
    | some idx => exact acted idx
    | none => exact .refl s
  · exact .refl s

/-- `FAT_Init` leaves the configuration and the table alone. -/
theorem fatInit_kept (fat : FatModule ω) (nandpath : Path) (s : Plugin ω) :
    (fatInit fat nandpath s).2.config = s.config ∧ (fatInit fat nandpath s).2.table = s.table := by
  obtain ⟨allocated, w, alloc⟩ : ∃ allocated w,
    (if s.iobuf then (true, s.fat) else fat.heapAlloc s.fat) = (allocated, w) := ⟨_, _, rfl⟩
  unfold fatInit
  simp only [alloc]
  split
  · exact ⟨rfl, rfl⟩
  · split
    · exact ⟨rfl, rfl⟩
    · split <;> exact ⟨rfl, rfl⟩

/-- A change of the mode clears the table or leaves it alone. -/
theorem fsSetMode_turned (env : Surroundings) (mode : UInt32) (path : Path) (s : Plugin ω) :
    s.Turned (fsSetMode fat env mode path s).2 := by
  unfold fsSetMode
  split
  case isTrue device =>
    split
    · exact .refl s
    · extract_lets config enabled
      have kept := fatInit_kept fat (generateAbsolutePath config []) enabled
      dsimp only
      split
      · exact .on mode path device kept.1 kept.2
      · exact .off rfl
  case isFalse =>
    split
    · exact .refl s
    · exact .off rfl

/-- The request for another mode turns what the change does. -/
theorem fsSetModeRequest_turned (env : Surroundings) (valid : Bool) (mode : UInt32) (path : Path)
    (s : Plugin ω) : s.Turned (fsSetModeRequest fat env valid mode path s).2 := by
  unfold fsSetModeRequest
  split
  · exact .refl s
  · exact fsSetMode_turned env mode path s

/-- An open may register its descriptor. -/
theorem fsOpen_turned (path : Path) (mode : UInt32) (s : Plugin ω) :
    s.Turned (fsOpen fat path mode s).2 := by
  unfold fsOpen
  split
  case isFalse => exact .refl s
  split
  · exact .same rfl rfl
  · split
    case isFalse => exact .refl s
    refine .kept rfl fun slot mem => ?_
    dsimp only at mem
    split at mem
    case isTrue opened =>
      refine (mem_registerFile mem).imp id fun new => ?_
      rw [new]
      exact .inr opened
    · exact .inl mem

/-- `FS_GetStats` turns nothing. -/
theorem fsGetStats_turned (iolen : Nat) (s : Plugin ω) : s.Turned (fsGetStats iolen s).2 := by
  refine onPath_turned ?_
  split <;> exact .refl s

/-- `FS_GetAttributes` turns nothing. -/
theorem fsGetAttr_turned (env : Surroundings) (path : Path) (s : Plugin ω) :
    s.Turned (fsGetAttr fat env path s).2 := by
  refine onPath_turned ?_
  dsimp only
  split <;> exact .same rfl rfl

/-- `FS_GetUsage` turns nothing. -/
theorem fsGetUsage_turned (env : Surroundings) (dirpath : Path) (s : Plugin ω) :
    s.Turned (fsGetUsage fat env dirpath s).2 := by
  refine onPath_turned ?_
  dsimp only
  split
  · exact .refl s
  · split <;> exact .same rfl rfl

/-- What holds of every branch of `FS_Ioctl`. -/
theorem fsIoctl_cases {P : Reply × Plugin ω → Prop} (env : Surroundings) (fd : Int) (cmd : Nat)
    (inbuf : Option Inbuf) (inlen iolen : Nat) (s : Plugin ω)
    (createDir : ∀ path, P (fsCreateDir fat path s))
    (createFile : ∀ path, P (fsCreateFile fat path s)) (delete : ∀ path, P (fsDelete fat path s))
    (rename : ∀ old new, P (fsRename fat old new s)) (getStats : P (fsGetStats iolen s))
    (getFileStats : P (fsGetFileStats fat fd s)) (getAttr : ∀ path, P (fsGetAttr fat env path s))
    (setAttr : ∀ path, P (fsSetAttr fat path s)) (format : P (fsFormat s))
    (setMode : cmd = ioctlSetmode → ∀ valid mode, P (fsSetModeRequest fat env valid mode [] s))
    (unknown : P (.pass s.config.mode, s)) : P (fsIoctl fat env fd cmd inbuf inlen iolen s) := by
  unfold fsIoctl
  refine iteInduction (fun _ => createDir _) fun _ => ?_
  refine iteInduction (fun _ => createFile _) fun _ => ?_
  refine iteInduction (fun _ => delete _) fun _ => ?_
  refine iteInduction (fun _ => rename _ _) fun _ => ?_
  refine iteInduction (fun _ => getStats) fun _ => ?_
  refine iteInduction (fun _ => getFileStats) fun _ => ?_
  refine iteInduction (fun _ => getAttr _) fun _ => ?_
  refine iteInduction (fun _ => setAttr _) fun _ => ?_
  refine iteInduction (fun _ => format) fun _ => ?_
  exact iteInduction (fun same => setMode same _ _) fun _ => unknown

/-- An ioctl turns the plugin by a change of the mode at most. -/
theorem fsIoctl_turned (env : Surroundings) (fd : Int) (cmd : Nat) (inbuf : Option Inbuf)
    (inlen iolen : Nat) (s : Plugin ω) :
    s.Turned (fsIoctl fat env fd cmd inbuf inlen iolen s).2 := by
  refine fsIoctl_cases (P := fun answer => s.Turned answer.2) env fd cmd inbuf inlen iolen s
    ?createDir ?createFile ?delete ?rename ?getStats ?getFileStats ?getAttr ?setAttr ?format
    ?setMode ?unknown
  case createDir => exact fun _ => onPath_turned (askFat_turned _ s)
  case createFile => exact fun _ => onPath_turned (askFat_turned _ s)
  case delete => exact fun _ => onPath_turned (askFat_turned _ s)
  case rename => exact fun _ _ => onPath_turned (askFat_turned _ s)
  case getStats => exact fsGetStats_turned iolen s
  case getFileStats => exact onFile_turned fun _ => .same rfl rfl
  case getAttr => exact fun path => fsGetAttr_turned env path s
  case setAttr => exact fun _ => onPath_turned (askFat_turned _ s)
  case format => exact onPath_turned (.refl s)
  case setMode => exact fun _ _ _ => fsSetModeRequest_turned env _ _ _ s
  case unknown => exact .refl s

/-- An ioctlv turns the plugin by a change of the mode at most. -/
theorem fsIoctlv_turned (env : Surroundings) (cmd : Nat) (vector : Option Vectors)
    (inlen iolen : Nat) (s : Plugin ω) :
    s.Turned (fsIoctlv fat env cmd vector inlen iolen s).2 := by
  unfold fsIoctlv
  extract_lets vec
  split
  · exact onPath_turned (.same rfl rfl)
  split
  · exact fsGetUsage_turned env vec.path0 s
  split
  · exact fsSetModeRequest_turned env _ _ _ s
  split
  · unfold fsGetMode
    split <;> exact .refl s
  · exact .refl s

/-- Every handler does one of the three. -/
theorem fsHandle_turned (env : Surroundings) (message : Message) (s : Plugin ω) :
    s.Turned (fsHandle fat env message s).2 := by
  cases message with
  | iosOpen device mode => exact fsOpen_turned device mode s
  | iosClose fd =>
    refine onFile_turned fun idx => .kept rfl fun slot mem => ?_
    dsimp only at mem
    split at mem
    · exact (List.mem_or_eq_of_mem_set mem).imp id .inl
    · exact .inl mem
  | iosRead fd length => exact onFile_turned fun _ => .same rfl rfl
  | iosWrite fd data => exact onFile_turned fun _ => .same rfl rfl
  | iosSeek fd offset origin => exact onFile_turned fun _ => .same rfl rfl
  | iosIoctl fd cmd inbuf inlen iolen => exact fsIoctl_turned env fd cmd inbuf inlen iolen s
  | iosIoctlv cmd vector inlen iolen => exact fsIoctlv_turned env cmd vector inlen iolen s

/-- With the emulation switched off everything is in order. -/
theorem Plugin.Wf.of_off {s : Plugin ω} (off : s.config.mode = 0) : s.Wf where
  direct on := absurd off on
  slots on := absurd off on

/-- Turning keeps the plugin in order. -/
theorem Plugin.Turned.wf {s s' : Plugin ω} (turned : s.Turned s') (wf : s.Wf) : s'.Wf := by
  cases turned with
  | kept config table =>
    constructor
    · intro on
      rw [config] at on ⊢
      exact wf.direct on
    · intro on slot mem
      rw [config] at on
      exact (table slot mem).elim (wf.slots on slot) id
  | off config => exact .of_off (congrArg FsConfig.mode config)
  | on mode path device config table =>
    constructor
    · intro _
      rw [config]
      exact modeRev17_set mode
    · intro _ slot mem
      rw [table] at mem
      exact .inl (List.eq_of_mem_replicate mem)

/-- The states of a plugin that has served messages, with opens of real paths
announced by the syscall hook in between. -/
inductive Reachable (fat : FatModule ω) : Plugin ω → Prop where
  | boot (w : ω) : Reachable fat (.boot w)
  | message {s : Plugin ω} (env : Surroundings) (message : Message) (prior : Reachable fat s) :
      Reachable fat (fsHandle fat env message s).2
  | forced {s : Plugin ω} (prior : Reachable fat s) :
      Reachable fat { s with forceRealPath := decide (s.config.mode &&& modeRev17 ≠ 0) }

/-- Every reachable plugin is in order. -/
theorem Reachable.wf {s : Plugin ω} (reachable : Reachable fat s) : s.Wf := by
  induction reachable with
  | boot w => exact .of_off rfl
  | message env message prior ih => exact (fsHandle_turned env message _).wf ih
  | forced prior ih => exact ⟨ih.direct, ih.slots⟩

/-- The emulation is off, or it is on for a device. -/
theorem Reachable.config {s : Plugin ω} (reachable : Reachable fat s) :
    s.config = .off ∨ ∃ mode path, mode &&& (modeSdhc ||| modeUsb) ≠ 0 ∧
      s.config = { mode := mode ||| modeRev17, path := path } := by
  induction reachable with
  | boot w => exact .inl rfl
  | @message s env message prior ih =>
    cases @fsHandle_turned _ fat env message s with
    | kept config table => exact config ▸ ih
    | off config => exact .inl config
    | on mode path device config table => exact .inr ⟨mode, path, device, config⟩
  | forced prior ih => exact ih

/-! ## Routing in reachable states -/

/-- An open that a '#' path has forced to the real NAND. -/
def Plugin.Forced (s : Plugin ω) : Message → Prop
  | .iosOpen _ _ => s.forceRealPath = true
  | _ => False

/-- Only the rule that a handler follows can be the right one. -/
theorem Routed.iff {applies other : Prop} {s : Plugin ω} {answer : Reply × Plugin ω}
    (routed : Routed applies s answer) : Routed other s answer ↔ (applies ↔ other) :=
  ⟨fun right => routed.served.symm.trans right.served, routed.congr⟩

/-- A descriptor is found in the table if it is registered, or marks a free slot. -/
theorem Plugin.Wf.registered_iff {s : Plugin ω} (wf : s.Wf) (fd : Int) :
    ((s.config.mode &&& modeRev17 ≠ 0 ∧ fd ∈ s.table) ↔ s.Registered fd) ↔
      (s.config.mode = 0 ∨ ¬ (fd = -1 ∧ -1 ∈ s.table)) := by
  by_cases off : s.config.mode = 0
  · simp [Plugin.Registered, off]
  · have direct := wf.direct off
    simp only [Plugin.Registered, direct, off, ne_eq, not_false_eq_true, true_and, false_or]
    constructor
    · rintro same ⟨rfl, free⟩
      exact absurd (same.mp free).1 (by decide)
    · intro taken
      refine ⟨fun mem => ⟨?_, mem⟩, And.right⟩
      rcases wf.slots off fd mem with vacant | opened
      · exact absurd ⟨vacant, vacant ▸ mem⟩ taken
      · exact opened

/-- A request on a descriptor is routed right unless it is made on the mark of a free slot. -/
theorem onFile_routed_iff {s : Plugin ω} (wf : s.Wf) (fd : Int)
    (act : Nat → Plugin ω → Int × Out × Plugin ω) :
    Routed (s.Registered fd) s (onFile fd act s) ↔
      (s.config.mode = 0 ∨ ¬ (fd = -1 ∧ -1 ∈ s.table)) :=
  (onFile_routed fd act s).iff.trans (wf.registered_iff fd)

/-- A known command of a descriptor. -/
theorem onFile_message {s : Plugin ω} (wf : s.Wf) (message : Message) {fd : Int}
    (known : ¬ message.Unknown) (takes : message.descriptor = some fd)
    (act : Nat → Plugin ω → Int × Out × Plugin ω) :
    Routed (s.Registered fd) s (onFile fd act s) ↔
      (s.config.mode = 0 ∨ ¬ message.Unknown ∧ ¬ s.Vacant message) := by
  rw [onFile_routed_iff wf]
  simp only [known, not_false_eq_true, true_and, Plugin.Vacant, takes, Option.some.injEq]

/-- A known command of a descriptor that is none, or is not used. -/
theorem Routed.known {applies : Prop} {s : Plugin ω} {answer : Reply × Plugin ω} {message : Message}
    (routed : Routed applies s answer) (known : ¬ message.Unknown)
    (none : message.descriptor = none) :
    Routed applies s answer ↔ (s.config.mode = 0 ∨ ¬ message.Unknown ∧ ¬ s.Vacant message) :=
  iff_of_true routed (.inr ⟨known, fun vacant => by simp [Plugin.Vacant, none] at vacant⟩)

/-- An open that is not forced is routed by its path. -/
theorem fsOpen_routed (fat : FatModule ω) {s : Plugin ω} (wf : s.Wf)
    (free : s.forceRealPath = false) (path : Path)
    (mode : UInt32) : Routed (checkRealPath s.config path = false) s (fsOpen fat path mode s) := by
  unfold fsOpen
  by_cases off : s.config.mode = 0
  · have direct : ¬ (s.config.mode &&& modeRev17 ≠ 0) := by simp [off]
    rw [if_neg direct]
    exact .of_pass (by simp [checkRealPath_off off])
  · rw [if_pos (wf.direct off), free, if_neg Bool.false_ne_true]
    by_cases emulated : checkRealPath s.config path = false
    · rw [if_pos emulated]
      exact .of_acted emulated rfl (show (1 : UInt32) ≠ 0 by decide)
    · rw [if_neg emulated]
      exact .of_pass emulated

/-- A request for another mode is always answered by the plugin. -/
theorem fsSetModeRequest_routed (env : Surroundings) (valid : Bool) (mode : UInt32) (path : Path)
    (s : Plugin ω) : Routed True s (fsSetModeRequest fat env valid mode path s) := by
  have acts : (1 : UInt32) ≠ 0 := by decide
  unfold fsSetModeRequest
  split
  · exact .of_acted trivial rfl acts
  · exact .of_acted trivial rfl acts

/-- A request for the present mode is always answered by the plugin. -/
theorem fsGetMode_routed (env : Surroundings) (s : Plugin ω) : Routed True s (fsGetMode env s) := by
  have acts : (1 : UInt32) ≠ 0 := by decide
  unfold fsGetMode
  split
  · exact .of_acted trivial rfl acts
  · exact .of_acted trivial rfl acts

/-- A rename is routed by both of its paths. -/
theorem fsRename_routed (old new : Path) (s : Plugin ω) :
    Routed (checkRealPath s.config old = false ∧ checkRealPath s.config new = false) s
      (fsRename fat old new s) := by
  refine (onPath_routed _ _ s).congr ⟨fun both => by simpa using both.1, fun both => ?_⟩
  refine ⟨by simp [both.1, both.2], fun off => ?_⟩
  rw [checkRealPath_off off] at both
  exact absurd both.1 (by simp)

/-- A request on the whole device is routed by the mode. -/
theorem onDevice_routed (act : Plugin ω → Int × Out × Plugin ω) (s : Plugin ω) :
    Routed (s.config.mode ≠ 0) s (onDevice act s) :=
  (onPath_routed false act s).congr ⟨And.right, fun on => ⟨rfl, on⟩⟩

/-- The known ioctls that take no descriptor are routed by the rule. -/
theorem fsIoctl_known (env : Surroundings) (fd : Int) (cmd : Nat) (inbuf : Option Inbuf)
    (inlen iolen : Nat) (s : Plugin ω) (file : cmd ≠ ioctlGetfilestats)
    (known : ¬ (Message.iosIoctl fd cmd inbuf inlen iolen).Unknown) :
    Routed (s.IoctlApplies fd cmd (inbuf.getD {})) s
      (fsIoctl fat env fd cmd inbuf inlen iolen s) := by
  simp only [Message.Unknown, List.mem_cons, List.not_mem_nil, or_false, not_not] at known
  let buf := inbuf.getD {}
  rcases known with rfl | rfl | rfl | rfl | rfl | rfl | rfl | rfl | rfl | rfl
  · exact show Routed _ s (fsFormat s) from onDevice_routed _ s
  · exact show Routed _ s (fsGetStats iolen s) from onDevice_routed _ s
  · exact show Routed _ s (fsCreateDir fat buf.attrPath s) from onPath_checkRealPath _ _ s
  · exact show Routed _ s (fsSetAttr fat buf.attrPath s) from onPath_checkRealPath _ _ s
  · exact show Routed _ s (fsGetAttr fat env buf.path s) from onPath_checkRealPath _ _ s
  · exact show Routed _ s (fsDelete fat buf.path s) from onPath_checkRealPath _ _ s
  · exact fsRename_routed buf.pathOld buf.pathNew s
  · exact show Routed _ s (fsCreateFile fat buf.attrPath s) from onPath_checkRealPath _ _ s
  · exact absurd rfl file
  · exact (fsSetModeRequest_routed env _ _ _ s).congr ⟨fun _ => rfl, fun _ => trivial⟩

/-- An unknown ioctl leaves the flag at the mode, and the rule does not apply to it. -/
theorem fsIoctl_unknown (fat : FatModule ω) (env : Surroundings) (fd : Int) (cmd : Nat)
    (inbuf : Option Inbuf)
    (inlen iolen : Nat) (s : Plugin ω)
    (unknown : (Message.iosIoctl fd cmd inbuf inlen iolen).Unknown) :
    fsIoctl fat env fd cmd inbuf inlen iolen s = (.pass s.config.mode, s) ∧
      ¬ s.IoctlApplies fd cmd (inbuf.getD {}) := by
  simp only [Message.Unknown, List.mem_cons, List.not_mem_nil, or_false, not_or] at unknown
  obtain ⟨format, getstats, createdir, setattr, getattr, delete, rename, createfile, file,
    setmode⟩ :=
    unknown
  constructor
  · simp only [fsIoctl, format, getstats, createdir, setattr, getattr, delete, rename, createfile,
      file, setmode, if_false]
  · simp only [Plugin.IoctlApplies, format, getstats, createdir, setattr, getattr, delete, rename,
      createfile, file, setmode, or_false, if_false, not_false_eq_true]

/-- The known ioctlvs are routed by the rule. -/
theorem fsIoctlv_known (env : Surroundings) (cmd : Nat) (vector : Option Vectors)
    (inlen iolen : Nat) (s : Plugin ω)
    (known : ¬ (Message.iosIoctlv cmd vector inlen iolen).Unknown) :
    Routed (s.IoctlvApplies cmd (vector.getD {})) s
      (fsIoctlv fat env cmd vector inlen iolen s) := by
  simp only [Message.Unknown, List.mem_cons, List.not_mem_nil, or_false, not_not] at known
  let vec := vector.getD {}
  rcases known with rfl | rfl | rfl | rfl
  · exact show Routed _ s (fsReadDir fat vec iolen s) from onPath_checkRealPath _ _ s
  · exact show Routed _ s (fsGetUsage fat env vec.path0 s) from onPath_checkRealPath _ _ s
  · exact (fsSetModeRequest_routed env _ _ _ s).congr ⟨fun _ => .inl rfl, fun _ => trivial⟩
  · exact (fsGetMode_routed env s).congr ⟨fun _ => .inr rfl, fun _ => trivial⟩

/-- An ioctlv that the plugin does not know is left to the original handler, with the mode as
result. -/
theorem fsIoctlv_unknown (fat : FatModule ω) (env : Surroundings) (cmd : Nat)
    (vector : Option Vectors)
    (inlen iolen : Nat) (s : Plugin ω)
    (unknown : (Message.iosIoctlv cmd vector inlen iolen).Unknown) :
    fsIoctlv fat env cmd vector inlen iolen s = (.pass s.config.mode, s) ∧
      ¬ s.IoctlvApplies cmd (vector.getD {}) := by
  simp only [Message.Unknown, List.mem_cons, List.not_mem_nil, or_false, not_or] at unknown
  obtain ⟨readdir, getusage, setmode, getmode⟩ := unknown
  constructor
  · simp only [fsIoctlv, readdir, getusage, setmode, getmode, if_false]
  · simp only [Plugin.IoctlvApplies, readdir, getusage, setmode, getmode, or_false, if_false,
      not_false_eq_true]

/-- An unknown command is passed on only while the emulation is off. -/
theorem routed_pass_iff {applies : Prop} {s : Plugin ω} {answer : Reply × Plugin ω}
    (passed : answer = (.pass s.config.mode, s)) (refused : ¬ applies) :
    Routed applies s answer ↔ s.config.mode = 0 := by
  rw [passed, eq_false refused]
  exact routed_unknown_iff

/-- In every reachable state a request is served by the emulation if that
applies to it, and passed on untouched otherwise, if and only if the emulation
is off, or the command is known and its descriptor does not mark a free slot. -/
theorem fsHandle_routed_iff {s : Plugin ω} (reachable : Reachable fat s) (env : Surroundings)
    (message : Message) (free : ¬ s.Forced message) :
    Routed (s.Applies message) s (fsHandle fat env message s) ↔
      (s.config.mode = 0 ∨ ¬ message.Unknown ∧ ¬ s.Vacant message) := by
  have wf := reachable.wf
  cases message with
  | iosOpen device mode =>
    have opens := fsOpen_routed fat wf (by simpa [Plugin.Forced] using free) device mode
    exact opens.known not_false rfl
  | iosClose fd =>
    exact show Routed (s.Registered fd) s (fsClose fat fd s) ↔ _ from
      onFile_message wf (.iosClose fd) not_false rfl _
  | iosRead fd length =>
    exact show Routed (s.Registered fd) s (fsRead fat fd length s) ↔ _ from
      onFile_message wf (.iosRead fd length) not_false rfl _
  | iosWrite fd data =>
    exact show Routed (s.Registered fd) s (fsWrite fat fd data s) ↔ _ from
      onFile_message wf (.iosWrite fd data) not_false rfl _
  | iosSeek fd offset origin =>
    exact show Routed (s.Registered fd) s (fsSeek fat fd offset origin s) ↔ _ from
      onFile_message wf (.iosSeek fd offset origin) not_false rfl _
  | iosIoctl fd cmd inbuf inlen iolen =>
    by_cases unknown : (Message.iosIoctl fd cmd inbuf inlen iolen).Unknown
    · obtain ⟨passed, refused⟩ := fsIoctl_unknown fat env fd cmd inbuf inlen iolen s unknown
      rw [show fsHandle fat env (.iosIoctl fd cmd inbuf inlen iolen) s = _ from passed]
      simp only [unknown, not_true_eq_false, false_and, or_false]
      exact routed_pass_iff rfl refused
    · by_cases file : cmd = ioctlGetfilestats
      · subst file
        exact show Routed (s.Registered fd) s (fsGetFileStats fat fd s) ↔ _ from
          onFile_message wf _ unknown rfl _
      · exact (fsIoctl_known env fd cmd inbuf inlen iolen s file unknown).known unknown
          (by simp [Message.descriptor, file])
  | iosIoctlv cmd vector inlen iolen =>
    by_cases unknown : (Message.iosIoctlv cmd vector inlen iolen).Unknown
    · obtain ⟨passed, refused⟩ := fsIoctlv_unknown fat env cmd vector inlen iolen s unknown
      rw [show fsHandle fat env (.iosIoctlv cmd vector inlen iolen) s = _ from passed]
      simp only [unknown, not_true_eq_false, false_and, or_false]
      exact routed_pass_iff rfl refused
    · exact (fsIoctlv_known env cmd vector inlen iolen s unknown).known unknown rfl

/-! ## A request that nobody serves -/

/-- A FAT module that grants every request. -/
def idleFat : FatModule Unit where
  heapAlloc w := (true, w)
  openModule w := (1, w)
  setNandPath _ w := (0, w)
  openFile _ _ w := (32, w)
  close _ w := (0, w)
  read _ _ w := (0, [], w)
  write _ _ w := (0, w)
  seek _ _ _ w := (0, w)
  createDir _ w := (0, w)
  createFile _ w := (0, w)
  readDir _ _ w := (0, 0, [], w)
  delete _ w := (0, w)
  deleteDir _ w := (0, w)
  rename _ _ w := (0, w)
  getStats _ w := (0, ⟨0, 0, 0, 0⟩, w)
  getUsage _ w := (0, ⟨0, 0⟩, w)
  getFileStats _ w := (0, (0, 0), w)

/-- No title is running. -/
def quiet : Surroundings where
  runningTitle := false
  esRequest := false
  syscode := 'H'
  gid := 0

/-- The emulation is switched on for the SD card. -/
def switchOn : Message :=
  .iosIoctlv ioctlSetmode (some { word0 := modeSdhc, path1 := "/nand".toList }) 2 0

/-- The plugin once the emulation is on. -/
def emulating : Plugin Unit := (fsHandle idleFat quiet switchOn (.boot ())).2

/-- The plugin with the emulation switched on is reachable. -/
theorem emulating_reachable : Reachable idleFat emulating := .message quiet switchOn (.boot ())

/-- The rule for the close of a file, right after the emulation was switched on. -/
theorem fsHandle_routed_iff_close :
    Routed (emulating.Applies (.iosClose 32)) emulating
        (fsHandle idleFat quiet (.iosClose 32) emulating) ↔
      (emulating.config.mode = 0 ∨
        ¬ (Message.iosClose 32).Unknown ∧ ¬ emulating.Vacant (.iosClose 32)) :=
  fsHandle_routed_iff emulating_reachable quiet (.iosClose 32) not_false

/-- `IOCTL_ISFS_SHUTDOWN` is answered with an error by the plugin: neither the
emulation nor the original handler serves it. -/
theorem shutdown_swallowed :
    (fsHandle idleFat quiet (.iosIoctl 0 13 none 0 0) emulating).1.served = false ∧
      ¬ (fsHandle idleFat quiet (.iosIoctl 0 13 none 0 0) emulating).1.Original ∧
      Reachable idleFat emulating ∧
      ¬ Routed (emulating.Applies (.iosIoctl 0 13 none 0 0)) emulating
        (fsHandle idleFat quiet (.iosIoctl 0 13 none 0 0) emulating) := by
  have refused : ¬ emulating.Applies (.iosIoctl 0 13 none 0 0) := by
    simp [Plugin.Applies, Plugin.IoctlApplies, ioctlCreatedir, ioctlCreatefile, ioctlSetattr,
      ioctlDelete, ioctlGetattr, ioctlRename, ioctlGetstats, ioctlFormat, ioctlGetfilestats,
      ioctlSetmode]
  have flagged : (fsHandle idleFat quiet (.iosIoctl 0 13 none 0 0) emulating).1.performed ≠ 0 := by
    decide
  refine ⟨rfl, fun original => flagged original.1, emulating_reachable, fun routed => ?_⟩
  exact flagged (routed.original.mpr refused).1

end D2xCios.Ffs
