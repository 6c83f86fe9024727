import D2xCios.Ffs.SyscallOpen
import D2xCios.Lib.Runs

/-!
# Forced opens

Threads open paths while the emulation is on, and the FS thread handles their messages one after the
other. The flag of a forced open is meant for its own message, and so is `newpath`. They get there
if no message is waiting when an open is forced, the path is one of the FS, and no waiting message
points to `newpath` when it is written again. Otherwise a message comes to be handled with what
belongs to another one.
-/

namespace D2xCios.Ffs

open D2xCios.Lib

/-! ## `FS_Open` -/

section Open

variable {ω : Type} (fat : FatModule ω) {s : Plugin ω} {path : Path} (mode : UInt32)

/-- With the flag set, the message is left to the original handler. -/
theorem fsOpen_forced (path : Path) (mode : UInt32) (direct : s.config.mode &&& modeRev17 ≠ 0)
    (forced : s.forceRealPath = true) :
    fsOpen fat path mode s = (.pass 0, { s with forceRealPath := false }) := by
  rw [fsOpen, if_pos direct, if_pos forced]

/-- An emulated path is opened on FAT. -/
theorem fsOpen_emulated (direct : s.config.mode &&& modeRev17 ≠ 0)
    (unforced : s.forceRealPath = false) (emulated : checkRealPath s.config path = false) :
    ∃ ret table w, fsOpen fat path mode s =
      ({ ret := ret, performed := 1, served := true }, { s with table := table, fat := w }) := by
  rw [fsOpen, if_pos direct, unforced, if_neg Bool.false_ne_true, if_pos emulated]
  exact ⟨_, _, _, rfl⟩

/-- A real path is left to the original handler. -/
theorem fsOpen_real (direct : s.config.mode &&& modeRev17 ≠ 0)
    (unforced : s.forceRealPath = false) (real : ¬ checkRealPath s.config path = false) :
    fsOpen fat path mode s = (.pass 0, s) := by
  rw [fsOpen, if_pos direct, unforced, if_neg Bool.false_ne_true, if_neg real]

end Open

/-! ## Messages between threads -/

/-- What the kernel does with the path of an open. -/
structure Kernel where
  /-- The message goes to the FS. -/
  toFs : Path → Bool
  /-- The message holds a copy of the path, and not the pointer. -/
  copies : Bool

/-- The emulated paths are paths of the FS. -/
def Kernel.Files (kernel : Kernel) (config : FsConfig) : Prop :=
  ∀ path, checkRealPath config path = false → kernel.toFs path = true

/-- An open on its way to the FS thread: the message, and the call that it comes from. -/
structure OpenRequest where
  device : PathPointer
  mode : UInt32
  serial : Nat
  thread : Nat
  caller : Caller
  asked : Path

/-- The open has been forced. -/
def OpenRequest.Forced (request : OpenRequest) : Prop := request.caller.Forces request.asked

instance (request : OpenRequest) : Decidable request.Forced :=
  inferInstanceAs (Decidable (request.caller.Forces request.asked))

/-- The statics, and the messages that wait. `flagBy` and `writtenBy` are the calls that have
written `forceRealPath` and `newpath` last. -/
structure OpenState (ω : Type) where
  hooked : Hooked ω
  queue : List OpenRequest
  calls : Nat
  flagBy : Nat
  writtenBy : Nat

/-- A thread opens a path, or the FS thread handles the first message. -/
inductive OpenEvent where
  | call (thread : Nat) (caller : Caller) (path : Path) (mode : UInt32)
  | handle (runningTitle : Bool)

namespace OpenState

variable {ω : Type}

/-- A call of the hook. -/
def hook (caller : Caller) (path : Path) (s : OpenState ω) : PathPointer × OpenState ω :=
  let (pointer, hooked) := syscallOpen caller path s.hooked
  (pointer,
    { s with
      hooked := hooked
      calls := s.calls + 1
      flagBy := if caller.Forces path then s.calls else s.flagBy
      writtenBy := if pointer = .newpath then s.calls else s.writtenBy })

/-- The FS thread as the hook sees it. -/
def fsThread (runningTitle : Bool) (s : OpenState ω) : Caller where
  runningTitle := runningTitle
  forceRealNand := false
  openFat := s.hooked.plugin.openFat

variable (fat : FatModule ω)

/-- The FAT module behind `os_open` of the FS thread, which calls the hook as well. -/
def throughHook (runningTitle : Bool) (s : OpenState ω) : FatModule ω :=
  { fat with
    openFile := fun path mode w =>
      let (pointer, s') := s.hook (s.fsThread runningTitle) path
      fat.openFile (s'.hooked.read pointer) mode w }

/-- `FS_Open` of a message. -/
def handleOpen (runningTitle : Bool) (request : OpenRequest) (s : OpenState ω) :
    Reply × OpenState ω :=
  let path := s.hooked.read request.device
  let (reply, plugin) := fsOpen (s.throughHook fat runningTitle) path request.mode s.hooked.plugin
  let s' := if reply.served then
      (s.hook (s.fsThread runningTitle) ((generateRelativePath path).getD [])).2
    else s
  (reply, { s' with hooked := { s'.hooked with plugin := plugin } })

variable (kernel : Kernel)

/-- One event. -/
def step (event : OpenEvent) (s : OpenState ω) : OpenState ω :=
  match event with
  | .call thread caller path mode =>
    let (pointer, s') := s.hook caller path
    let opened := s'.hooked.read pointer
    let request := {
      device := if kernel.copies then .own opened else pointer
      mode := mode
      serial := s.calls
      thread := thread
      caller := caller
      asked := path }
    if kernel.toFs opened then { s' with queue := s'.queue ++ [request] } else s'
  | .handle runningTitle =>
    match s.queue with
    | [] => s
    | request :: rest => { (s.handleOpen fat runningTitle request).2 with queue := rest }

/-! ## Attribution -/

/-- A message is handled as it should be, and neither by the flag nor by the path of another one. -/
structure Attributed (runningTitle : Bool) (request : OpenRequest) (s : OpenState ω) : Prop where
  /-- A forced open goes to the original handler, with its '/' path. -/
  forced : request.Forced → (s.handleOpen fat runningTitle request).1.Original ∧
    s.hooked.read request.device = '/' :: request.asked.tail
  /-- Any other open of an emulated path goes to the FAT module. -/
  emulated : ¬ request.Forced → checkRealPath s.hooked.plugin.config request.asked = false →
    (s.handleOpen fat runningTitle request).1.served = true ∧
      s.hooked.read request.device = request.asked
  flag : s.hooked.plugin.forceRealPath = true → s.flagBy = request.serial
  newpath : request.device = .newpath → s.writtenBy = request.serial

/-- Forced opens and those of emulated paths come to the FS, and the first message is handled as it
should be. -/
def Right (event : OpenEvent) (s : OpenState ω) : Prop :=
  match event with
  | .call _ caller path _ =>
    (caller.Forces path → kernel.toFs ('/' :: path.tail) = true) ∧
      (checkRealPath s.hooked.plugin.config path = false → kernel.toFs path = true)
  | .handle runningTitle => ∀ request ∈ s.queue.head?, s.Attributed fat runningTitle request

/-- No message waits when an open is forced, and the FS gets it; none that waits points to `newpath`
when another path is put there. -/
def Safe (event : OpenEvent) (s : OpenState ω) : Prop :=
  match event with
  | .call _ caller path _ =>
    (caller.Forces path → s.queue = [] ∧ kernel.toFs ('/' :: path.tail) = true) ∧
      (caller.Diverts s.hooked.plugin.config path →
        ∀ request ∈ s.queue, request.device ≠ .newpath)
  | .handle _ => True

/-- A thread waits for the answer to its last open before it makes another call. -/
def Awake (event : OpenEvent) (s : OpenState ω) : Prop :=
  match event with
  | .call thread _ _ _ => ∀ request ∈ s.queue, request.thread ≠ thread
  | .handle _ => True

instance (event : OpenEvent) (s : OpenState ω) : Decidable (Awake event s) :=
  match event with
  | .call thread _ _ _ => inferInstanceAs (Decidable (∀ request ∈ s.queue, request.thread ≠ thread))
  | .handle _ => .isTrue trivial

/-- The emulation is on, no open is under way and none is announced. -/
structure Idle (s : OpenState ω) : Prop where
  direct : s.hooked.plugin.config.mode &&& modeRev17 ≠ 0
  rights : s.hooked.plugin.openFat = true
  unforced : s.hooked.plugin.forceRealPath = false
  nothing : s.queue = []

/-! ## What the hook and `FS_Open` do -/

variable {fat kernel} {s : OpenState ω}

/-- A call of the hook, by what it does. -/
theorem hook_cases (caller : Caller) (path : Path)
    (direct : s.hooked.plugin.config.mode &&& modeRev17 ≠ 0) :
    (caller.Forces path ∧ s.hook caller path = (.newpath,
      { s with
        hooked := ⟨{ s.hooked.plugin with forceRealPath := true }, '/' :: path.tail⟩
        calls := s.calls + 1
        flagBy := s.calls
        writtenBy := s.calls })) ∨
    (¬ caller.Forces path ∧ caller.Diverts s.hooked.plugin.config path ∧
      ∃ other, s.hook caller path = (.newpath,
        { s with
          hooked := { s.hooked with newpath := other }
          calls := s.calls + 1
          writtenBy := s.calls })) ∨
    (¬ caller.Forces path ∧ ¬ caller.Diverts s.hooked.plugin.config path ∧
      s.hook caller path = (.own path, { s with calls := s.calls + 1 })) := by
  unfold hook
  rcases syscallOpen_cases caller path direct with
    ⟨forces, result⟩ | ⟨plain, diverts, other, result⟩ | ⟨plain, kept, result⟩
  · refine .inl ⟨forces, ?_⟩
    rw [result, if_pos forces]
    rfl
  · refine .inr (.inl ⟨plain, diverts, other, ?_⟩)
    rw [result, if_neg plain]
    rfl
  · refine .inr (.inr ⟨plain, kept, ?_⟩)
    rw [result, if_neg plain]
    rfl

/-- What the handling of a message leaves as it was. -/
structure Kept (s s' : OpenState ω) : Prop where
  config : s'.hooked.plugin.config = s.hooked.plugin.config
  rights : s'.hooked.plugin.openFat = s.hooked.plugin.openFat
  unforced : s'.hooked.plugin.forceRealPath = false
  newpath : s'.hooked.newpath = s.hooked.newpath
  calls : s.calls ≤ s'.calls
  writtenBy : s'.writtenBy = s.writtenBy

/-- An announced open is left to the original handler. -/
theorem handleOpen_forced (direct : s.hooked.plugin.config.mode &&& modeRev17 ≠ 0)
    (forced : s.hooked.plugin.forceRealPath = true) (runningTitle : Bool) (request : OpenRequest) :
    (s.handleOpen fat runningTitle request).1.Original ∧
      Kept s (s.handleOpen fat runningTitle request).2 := by
  have passed := fsOpen_forced (s.throughHook fat runningTitle) (s.hooked.read request.device)
    request.mode direct forced
  simp only [handleOpen, passed]
  exact ⟨⟨rfl, by decide⟩, rfl, rfl, rfl, rfl, Nat.le_refl _, rfl⟩

/-- Without the flag, an open of an emulated path is served. -/
theorem handleOpen_unforced (direct : s.hooked.plugin.config.mode &&& modeRev17 ≠ 0)
    (rights : s.hooked.plugin.openFat = true) (unforced : s.hooked.plugin.forceRealPath = false)
    (runningTitle : Bool) (request : OpenRequest) :
    (checkRealPath s.hooked.plugin.config (s.hooked.read request.device) = false →
      (s.handleOpen fat runningTitle request).1.served = true) ∧
      Kept s (s.handleOpen fat runningTitle request).2 := by
  by_cases emulated :
      checkRealPath s.hooked.plugin.config (s.hooked.read request.device) = false
  · obtain ⟨ret, table, w, served⟩ := fsOpen_emulated (s.throughHook fat runningTitle)
      request.mode direct unforced emulated
    have nested : ∀ rest, (s.hook (s.fsThread runningTitle) ('$' :: rest)).2 =
        { s with calls := s.calls + 1 } := fun rest => by
      unfold hook
      rw [syscallOpen_relative rights, if_neg (fun forces => Bool.false_ne_true forces.2)]
      rfl
    simp only [handleOpen, served, generateRelativePath_emulated emulated, Option.getD_some,
      nested, if_true]
    exact ⟨fun _ => trivial, rfl, rfl, unforced, rfl, Nat.le_succ _, rfl⟩
  · have passed := fsOpen_real (s.throughHook fat runningTitle) request.mode direct unforced
      emulated
    simp only [handleOpen, passed]
    exact ⟨fun now => absurd now emulated, rfl, rfl, unforced, rfl, Nat.le_refl _, rfl⟩

/-- Handling an open keeps the plugin on its way. -/
theorem handleOpen_kept (direct : s.hooked.plugin.config.mode &&& modeRev17 ≠ 0)
    (rights : s.hooked.plugin.openFat = true) (runningTitle : Bool) (request : OpenRequest) :
    Kept s (s.handleOpen fat runningTitle request).2 := by
  cases flag : s.hooked.plugin.forceRealPath with
  | false => exact (handleOpen_unforced direct rights flag runningTitle request).2
  | true => exact (handleOpen_forced direct flag runningTitle request).2

/-! ## Waiting messages -/

/-- A waiting message gets to the FS thread with what was meant for it. -/
structure Carried (request : OpenRequest) (s : OpenState ω) : Prop where
  numbered : request.serial < s.calls
  forced : request.Forced → s.hooked.read request.device = '/' :: request.asked.tail
  emulated : ¬ request.Forced → checkRealPath s.hooked.plugin.config request.asked = false →
    s.hooked.read request.device = request.asked
  newpath : request.device = .newpath → s.writtenBy = request.serial

/-- A request that is carried stays so while its path is left alone. -/
theorem Carried.mono {request : OpenRequest} {s' : OpenState ω} (carried : Carried request s)
    (calls : s.calls ≤ s'.calls) (config : s'.hooked.plugin.config = s.hooked.plugin.config)
    (same : request.device = .newpath →
      s'.hooked.newpath = s.hooked.newpath ∧ s'.writtenBy = s.writtenBy) :
    Carried request s' := by
  have read : s'.hooked.read request.device = s.hooked.read request.device := by
    cases pointer : request.device with
    | own path => rfl
    | newpath => exact (same pointer).1
  exact {
    numbered := Nat.lt_of_lt_of_le carried.numbered calls
    forced := fun forced => read.trans (carried.forced forced)
    emulated := fun plain emulated => read.trans (carried.emulated plain (config ▸ emulated))
    newpath := fun pointer => (same pointer).2.trans (carried.newpath pointer) }

/-- The flag is up for the first message, or it is down; no other message has been forced. -/
inductive Announced (queue : List OpenRequest) (flagBy : Nat) : (flag : Bool) → Prop where
  | nothing (plain : ∀ request ∈ queue, ¬ request.Forced) : Announced queue flagBy false
  | first (request : OpenRequest) (rest : List OpenRequest) (queued : queue = request :: rest)
      (forced : request.Forced) (own : flagBy = request.serial)
      (plain : ∀ request ∈ rest, ¬ request.Forced) : Announced queue flagBy true

/-- A plain request at the end of the queue. -/
theorem Announced.snoc {queue : List OpenRequest} {flagBy : Nat} {flag : Bool}
    (announced : Announced queue flagBy flag) {request : OpenRequest} (plain : ¬ request.Forced) :
    Announced (queue ++ [request]) flagBy flag := by
  have last : ∀ {rest : List OpenRequest}, (∀ r ∈ rest, ¬ r.Forced) →
      ∀ r ∈ rest ++ [request], ¬ r.Forced := fun others r among => by
    rcases List.mem_append.1 among with before | here
    · exact others r before
    · exact List.mem_singleton.1 here ▸ plain
  cases announced with
  | nothing others => exact .nothing (last others)
  | first r rest queued forced own others =>
    exact .first r (rest ++ [request]) (by rw [queued]; rfl) forced own (last others)

/-- Behind the first request none is forced. -/
theorem Announced.later {request : OpenRequest} {rest : List OpenRequest} {flagBy : Nat}
    {flag : Bool} (announced : Announced (request :: rest) flagBy flag) :
    ∀ r ∈ rest, ¬ r.Forced := by
  cases announced with
  | nothing plain => exact fun r among => plain r (List.mem_cons_of_mem _ among)
  | first _ _ queued _ _ plain =>
    cases queued
    exact plain

variable (kernel) in
/-- The invariant of safe runs. -/
structure Sound (s : OpenState ω) : Prop where
  files : kernel.Files s.hooked.plugin.config
  direct : s.hooked.plugin.config.mode &&& modeRev17 ≠ 0
  rights : s.hooked.plugin.openFat = true
  carried : ∀ request ∈ s.queue, Carried request s
  announced : Announced s.queue s.flagBy s.hooked.plugin.forceRealPath

/-- A plugin that waits is sound. -/
theorem Idle.sound (idle : s.Idle) (files : kernel.Files s.hooked.plugin.config) :
    s.Sound kernel where
  files := files
  direct := idle.direct
  rights := idle.rights
  carried := by simp [idle.nothing]
  announced := by
    rw [idle.unforced, idle.nothing]
    exact .nothing (by simp)

/-- A message that has not been forced joins the others. -/
theorem Sound.enqueue (sound : s.Sound kernel) {request : OpenRequest} (plain : ¬ request.Forced)
    (carried : Carried request s) : Sound kernel { s with queue := s.queue ++ [request] } where
  files := sound.files
  direct := sound.direct
  rights := sound.rights
  carried r among := by
    have there : Carried r s := by
      rcases List.mem_append.1 among with before | here
      · exact sound.carried r before
      · exact List.mem_singleton.1 here ▸ carried
    exact there.mono (Nat.le_refl _) rfl fun _ => ⟨rfl, rfl⟩
  announced := sound.announced.snoc plain

/-- A call that is safe. -/
theorem Sound.call (sound : s.Sound kernel) {thread : Nat} {caller : Caller} {path : Path}
    {mode : UInt32} (safe : s.Safe kernel (.call thread caller path mode)) :
    s.Right fat kernel (.call thread caller path mode) ∧
      Sound kernel (s.step fat kernel (.call thread caller path mode)) := by
  refine ⟨⟨fun forces => (safe.1 forces).2, sound.files path⟩, ?_⟩
  rcases hook_cases caller path sound.direct with
    ⟨forces, result⟩ | ⟨plain, diverts, other, result⟩ | ⟨plain, kept, result⟩
  · obtain ⟨nothing, toFs⟩ := safe.1 forces
    simp only [step, result, Hooked.read, toFs, if_true, nothing, List.nil_append]
    refine ⟨sound.files, sound.direct, sound.rights, fun request among => ?_,
      .first _ [] rfl forces rfl (by simp)⟩
    rw [List.mem_singleton.1 among]
    refine ⟨Nat.lt_succ_self _, fun _ => ?_, fun plain => absurd forces plain, fun _ => rfl⟩
    cases kernel.copies <;> rfl
  · have waiting : Sound kernel (s.hook caller path).2 := by
      rw [result]
      refine ⟨sound.files, sound.direct, sound.rights, fun request among => ?_, sound.announced⟩
      exact (sound.carried request among).mono (Nat.le_succ _) rfl
        fun pointer => absurd pointer (safe.2 diverts request among)
    rw [result] at waiting
    simp only [step, result, Hooked.read]
    split
    case isFalse => exact waiting
    refine waiting.enqueue plain ⟨Nat.lt_succ_self _, fun forces => absurd forces plain,
      fun _ emulated => ?_, fun _ => rfl⟩
    exact absurd (diverts.real.symm.trans emulated) Bool.true_eq_false.mp
  · have waiting : Sound kernel (s.hook caller path).2 := by
      rw [result]
      refine ⟨sound.files, sound.direct, sound.rights, fun request among => ?_, sound.announced⟩
      exact (sound.carried request among).mono (Nat.le_succ _) rfl fun _ => ⟨rfl, rfl⟩
    rw [result] at waiting
    simp only [step, result, Hooked.read, ite_self]
    split
    case isFalse => exact waiting
    exact waiting.enqueue plain ⟨Nat.lt_succ_self _, fun forces => absurd forces plain,
      fun _ _ => rfl, nofun⟩

/-- The first message is handled with its own flag and path. -/
theorem Sound.attributed (sound : s.Sound kernel) {request : OpenRequest} {rest : List OpenRequest}
    (queued : s.queue = request :: rest) (runningTitle : Bool) :
    s.Attributed fat runningTitle request := by
  have carried := sound.carried request (queued ▸ List.mem_cons_self)
  have announced := sound.announced
  rw [queued] at announced
  generalize flag : s.hooked.plugin.forceRealPath = forceRealPath at announced
  cases announced with
  | nothing plain =>
    have unforced : ¬ request.Forced := plain request List.mem_cons_self
    have served := @handleOpen_unforced _ fat _ sound.direct sound.rights flag runningTitle request
    refine ⟨fun forced => absurd forced unforced, fun _ emulated => ?_, fun up => ?_,
      carried.newpath⟩
    · have read := carried.emulated unforced emulated
      exact ⟨served.1 (read ▸ emulated), read⟩
    · exact absurd (flag.symm.trans up) Bool.false_ne_true
  | first _ _ same forced own =>
    cases same
    have original := @handleOpen_forced _ fat _ sound.direct flag runningTitle request
    exact ⟨fun _ => ⟨original.1, carried.forced forced⟩, fun plain => absurd forced plain,
      fun _ => own, carried.newpath⟩

/-- A request that is handled in a sound state is routed right, and leaves it sound. -/
theorem Sound.handle (sound : s.Sound kernel) (runningTitle : Bool) :
    s.Right fat kernel (.handle runningTitle) ∧
      Sound kernel (s.step fat kernel (.handle runningTitle)) := by
  cases queued : s.queue with
  | nil =>
    refine ⟨fun request first => ?_, ?_⟩
    · rw [queued] at first
      cases first
    · simp only [step, queued]
      exact sound
  | cons request rest =>
    have announced := sound.announced
    rw [queued] at announced
    constructor
    · intro other first
      rw [queued] at first
      obtain rfl : request = other := Option.some.inj first
      exact sound.attributed queued runningTitle
    · have kept := @handleOpen_kept _ fat _ sound.direct sound.rights runningTitle request
      simp only [step, queued]
      refine ⟨kept.config ▸ sound.files, kept.config ▸ sound.direct,
        kept.rights.trans sound.rights, fun other among => ?_, ?_⟩
      · exact (sound.carried other (queued ▸ List.mem_cons_of_mem _ among)).mono kept.calls
          kept.config fun _ => ⟨kept.newpath, kept.writtenBy⟩
      · rw [kept.unforced]
        exact .nothing announced.later

/-! ## Messages with what belongs to another one -/

/-- A waiting message has lost `newpath` to another call, or the first one meets its flag. -/
structure Flawed (s : OpenState ω) : Prop where
  direct : s.hooked.plugin.config.mode &&& modeRev17 ≠ 0
  rights : s.hooked.plugin.openFat = true
  flaw : ∃ request ∈ s.queue, request.serial < s.calls ∧
    (s.queue.head? = some request ∧ s.hooked.plugin.forceRealPath = true ∧
        s.flagBy ≠ request.serial ∨
      request.device = .newpath ∧ s.writtenBy ≠ request.serial)

/-- A call puts at most one more message behind those that wait. -/
theorem step_call (thread : Nat) (caller : Caller) (path : Path) (mode : UInt32) :
    ∃ more, s.step fat kernel (.call thread caller path mode) =
      { (s.hook caller path).2 with queue := s.queue ++ more } := by
  simp only [step]
  split
  case isTrue => exact ⟨[_], rfl⟩
  case isFalse => exact ⟨[], by rw [List.append_nil]; rfl⟩

/-- A call that is not safe takes the flag or the path of a waiting message. -/
theorem Sound.flawed (sound : s.Sound kernel) {event : OpenEvent} (right : s.Right fat kernel event)
    (breaks : ¬ s.Safe kernel event) : Flawed (s.step fat kernel event) := by
  cases event with
  | handle => exact absurd trivial breaks
  | call thread caller path mode =>
    obtain ⟨more, stepped⟩ := @step_call _ fat kernel s thread caller path mode
    rw [stepped]
    have older : ∀ request ∈ s.queue, s.calls ≠ request.serial := fun request among =>
      Nat.ne_of_gt (sound.carried request among).numbered
    rcases hook_cases caller path sound.direct with
      ⟨forces, result⟩ | ⟨plain, -, other, result⟩ | ⟨plain, kept, -⟩
    · rw [result]
      cases queued : s.queue with
      | nil => exact absurd ⟨fun _ => ⟨queued, right.1 forces⟩, by simp [queued]⟩ breaks
      | cons request rest =>
        have first : request ∈ s.queue := queued ▸ List.mem_cons_self
        exact ⟨sound.direct, sound.rights, request, List.mem_cons_self,
          Nat.lt_succ_of_lt (sound.carried request first).numbered,
          .inl ⟨rfl, rfl, older request first⟩⟩
    · rw [result]
      obtain ⟨request, among, pointer⟩ : ∃ request ∈ s.queue, request.device = .newpath := by
        by_contra none
        exact breaks ⟨fun forces => absurd forces plain,
          fun _ request among pointer => none ⟨request, among, pointer⟩⟩
      exact ⟨sound.direct, sound.rights, request, List.mem_append_left _ among,
        Nat.lt_succ_of_lt (sound.carried request among).numbered,
        .inr ⟨pointer, older request among⟩⟩
    · exact absurd ⟨fun forces => absurd forces plain, fun diverts => absurd diverts kept⟩ breaks

/-- The flaw stays until the message is handled, and is then seen. -/
theorem Flawed.stays (flawed : s.Flawed) {event : OpenEvent} (right : s.Right fat kernel event) :
    Flawed (s.step fat kernel event) := by
  obtain ⟨direct, rights, request, among, numbered, flaw⟩ := flawed
  cases event with
  | call thread caller path mode =>
    obtain ⟨more, stepped⟩ := @step_call _ fat kernel s thread caller path mode
    have first : ∀ r, s.queue.head? = some r → (s.queue ++ more).head? = some r := fun r head => by
      rw [List.head?_append, head]
      rfl
    have newer : s.calls ≠ request.serial := Nat.ne_of_gt numbered
    have still := List.mem_append_left more among
    have counted := Nat.lt_succ_of_lt numbered
    rw [stepped]
    rcases hook_cases caller path direct with ⟨-, result⟩ | ⟨-, -, other, result⟩ | ⟨-, -, result⟩
    · rw [result]
      refine ⟨direct, rights, request, still, counted, flaw.imp ?_ ?_⟩
      · exact fun ⟨head, _, _⟩ => ⟨first request head, rfl, newer⟩
      · exact fun ⟨pointer, _⟩ => ⟨pointer, newer⟩
    · rw [result]
      refine ⟨direct, rights, request, still, counted, flaw.imp ?_ ?_⟩
      · exact fun ⟨head, up, other⟩ => ⟨first request head, up, other⟩
      · exact fun ⟨pointer, _⟩ => ⟨pointer, newer⟩
    · rw [result]
      refine ⟨direct, rights, request, still, counted, flaw.imp ?_ id⟩
      exact fun ⟨head, up, other⟩ => ⟨first request head, up, other⟩
  | handle runningTitle =>
    cases queued : s.queue with
    | nil =>
      rw [queued] at among
      cases among
    | cons front rest =>
      have attributed := right front (by rw [queued]; rfl)
      have kept := @handleOpen_kept _ fat _ direct rights runningTitle front
      rw [queued] at among flaw
      have lost : request.device = .newpath ∧ s.writtenBy ≠ request.serial := by
        refine flaw.resolve_left fun ⟨head, up, other⟩ => ?_
        cases head
        exact other (attributed.flag up)
      have later : request ∈ rest := by
        refine (List.mem_cons.1 among).resolve_left ?_
        rintro rfl
        exact lost.2 (attributed.newpath lost.1)
      simp only [step, queued]
      exact ⟨kept.config ▸ direct, kept.rights.trans rights, request, later,
        Nat.lt_of_lt_of_le numbered kept.calls, .inr ⟨lost.1, kept.writtenBy ▸ lost.2⟩⟩

/-! ## Runs -/

variable (fat kernel)

/-- In a run whose calls are all safe, forced opens and those of emulated paths are handled as they
should be; and in a run that handles all messages so, all calls are safe. -/
theorem opens_attributed_iff {s : OpenState ω} (idle : s.Idle)
    (files : kernel.Files s.hooked.plugin.config) (events : List OpenEvent) :
    (Throughout (step fat kernel) (Safe kernel) events s →
      Throughout (step fat kernel) (Right fat kernel) events s) ∧
    ((behind (step fat kernel) events s).queue = [] →
      Throughout (step fat kernel) (Right fat kernel) events s →
      Throughout (step fat kernel) (Safe kernel) events s) := by
  have carries : ∀ (event : OpenEvent) (s : OpenState ω), s.Sound kernel → s.Safe kernel event →
      s.Right fat kernel event ∧ Sound kernel (s.step fat kernel event) := by
    intro event s sound safe
    cases event with
    | call => exact sound.call safe
    | handle runningTitle => exact sound.handle runningTitle
  refine ⟨.of_invariant carries (idle.sound files), fun answered => ?_⟩
  have sound : ¬ Flawed (behind (step fat kernel) events s) := by
    rintro ⟨-, -, request, among, -⟩
    rw [answered] at among
    cases among
  exact .meets carries (fun _ _ sound right breaks => sound.flawed right breaks)
    (fun _ _ flawed right => flawed.stays right) (idle.sound files) sound

/-- A kernel that sends all '/' paths to the FS, and hands on pointers. -/
def pointing : Kernel where
  toFs path := decide (path.head? = some '/')
  copies := false

/-- The emulation has just been switched on. -/
def switchedOn : OpenState Unit where
  hooked := ⟨emulating, []⟩
  queue := []
  calls := 0
  flagBy := 0
  writtenBy := 0

/-- The plugin that was just switched on waits. -/
theorem switchedOn_idle : switchedOn.Idle where
  direct := by decide
  rights := by decide
  unforced := by decide
  nothing := rfl

/-- The kernel sends emulated paths to the FS. -/
theorem pointing_files (config : FsConfig) : pointing.Files config :=
  fun _ emulated => decide_eq_true (emulated_head emulated)

/-- The thread of the ES module, with its right to the real NAND, and a thread without rights. -/
def esThread : Caller := ⟨false, true, false⟩
def plainThread : Caller := ⟨false, false, false⟩

/-- The ES module opens a ticket on the real NAND. -/
def opensTicket : OpenEvent := .call 1 esThread "#ticket/00010001/00000000.tik".toList 1

/-- Another thread opens an emulated file. -/
def opensFile : OpenEvent := .call 2 plainThread "/tmp/file".toList 1

/-- The two opens, each of them handled before the next one. -/
theorem opens_attributed_iff_inTurn :
    let run : List OpenEvent := [opensTicket, .handle false, opensFile, .handle false]
    Throughout (step idleFat pointing) (Right idleFat pointing) run switchedOn ∧
      Throughout (step idleFat pointing) (Safe pointing) run switchedOn := by
  intro run
  have exact := opens_attributed_iff idleFat pointing switchedOn_idle
    (pointing_files _) run
  have safe : Throughout (step idleFat pointing) (Safe pointing) run switchedOn := by
    refine ⟨⟨fun _ => ⟨rfl, by decide⟩, fun _ _ => nofun⟩, trivial,
      ⟨fun forces => ?_, fun _ _ => nofun⟩, trivial, trivial⟩
    exact absurd forces (by decide)
  exact ⟨exact.1 safe, exact.2 (by decide) (exact.1 safe)⟩

/-- A file is opened, and then a ticket before the FS thread has handled the first message: that one
is left to the original handler by the flag of the second. -/
theorem forced_open_misroutes :
    ¬ ∀ (kernel : Kernel) (s : OpenState Unit), s.Idle → kernel.Files s.hooked.plugin.config →
      ∀ events, Throughout (step idleFat kernel) Awake events s →
        Throughout (step idleFat kernel) (Right idleFat kernel) events s := by
  intro always
  have run := always pointing switchedOn switchedOn_idle (pointing_files _)
    [opensFile, opensTicket, .handle false]
    ⟨by decide, by decide, trivial, trivial⟩
  have attributed := run.2.2.1 _ rfl
  exact absurd (attributed.emulated (by decide) (by decide)).1 (by decide)

end OpenState

end D2xCios.Ffs
