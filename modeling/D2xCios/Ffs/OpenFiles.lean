import D2xCios.Ffs.Routing
import D2xCios.Lib.Runs
import D2xCios.Lib.Slots

/-!
# Open files of the emulation

From one SETMODE request to the next, the table `fat_fd` is to hold the descriptors of the
files that the emulation has open, so that each request on a descriptor finds its handler.
The table has twenty slots, and an open goes on without one: from the next file on, the
table and the open files part. Until then they agree in every run, and only the descriptor
-1 is taken for a file that is not open.
-/

namespace D2xCios.Ffs

open D2xCios.Lib

variable {ω : Type} (fat : FatModule ω)

/-! ## Runs -/

/-- A request on open files. -/
def Message.OnFiles : Message → Prop
  | .iosOpen _ _ => True
  | .iosClose _ => True
  | .iosRead _ _ => True
  | .iosWrite _ _ => True
  | .iosSeek _ _ _ => True
  | .iosIoctl _ cmd _ _ _ => cmd = ioctlGetfilestats
  | .iosIoctlv _ _ _ _ => False

/-- A message for the plugin, or the syscall hook announcing an open of a real path. -/
inductive FileEvent where
  | message (env : Surroundings) (message : Message)
  | forced

/-- An event on open files. -/
def FileEvent.OnFiles : FileEvent → Prop
  | .message _ request => request.OnFiles
  | .forced => True

/-- The plugin, and the files that it has opened and not closed since the start of the session. -/
structure FileSession (ω : Type) where
  plugin : Plugin ω
  opened : List Int

/-- The files that are open after a reply. -/
def track (message : Message) (reply : Reply) (opened : List Int) : List Int :=
  if reply.served = true ∧ 0 ≤ reply.ret then
    match message with
    | .iosOpen _ _ => reply.ret :: opened
    | .iosClose fd => opened.erase fd
    | _ => opened
  else opened

/-- One event of a session. -/
def FileSession.serve (event : FileEvent) (s : FileSession ω) : FileSession ω :=
  match event with
  | .message env message =>
    let (reply, plugin) := fsHandle fat env message s.plugin
    { plugin := plugin, opened := track message reply s.opened }
  | .forced =>
    let forced := decide (s.plugin.config.mode &&& modeRev17 ≠ 0)
    { s with plugin := { s.plugin with forceRealPath := forced } }

/-- What `os_open` answers to an open of an emulated path. -/
def FileSession.osOpen (s : FileSession ω) (path : Path) (mode : UInt32) : Int :=
  (fat.openFile ((generateRelativePath path).getD []) mode s.plugin.fat).1

/-- The plugin opens a file for the message. -/
def FileSession.Opens (event : FileEvent) (s : FileSession ω) : Prop :=
  match event with
  | .message _ (.iosOpen path mode) =>
    s.plugin.forceRealPath = false ∧ checkRealPath s.plugin.config path = false ∧
      0 ≤ s.osOpen fat path mode
  | _ => False

/-- The handle of a file is not the one of a file that is still open. -/
def FileSession.Fresh (event : FileEvent) (s : FileSession ω) : Prop :=
  ∀ env path mode, event = .message env (.iosOpen path mode) → s.Opens fat event →
    s.osOpen fat path mode ∉ s.opened

/-- The descriptors in `fat_fd`. -/
def descriptors (table : List Int) : List Int := Slots.used (fun slot => decide (slot < 0)) table

/-- The table holds the open files, each of them once. -/
structure FileSession.Exact (s : FileSession ω) : Prop where
  nodup : (descriptors s.plugin.table).Nodup
  mem_iff : ∀ fd, fd ∈ descriptors s.plugin.table ↔ fd ∈ s.opened

/-- A request on an open file goes to the FAT module, and one on any other descriptor to the
original handler. -/
def FileSession.Directed (event : FileEvent) (s : FileSession ω) : Prop :=
  match event with
  | .message env message => ∀ fd, message.descriptor = some fd →
    ((fsHandle fat env message s.plugin).1.served = true ↔ fd ∈ s.opened) ∧
      ((fsHandle fat env message s.plugin).1.Original ↔ fd ∉ s.opened)
  | .forced => True

/-- The request finds its handler, and leaves the table with the open files. -/
def FileSession.Right (event : FileEvent) (s : FileSession ω) : Prop :=
  s.Directed fat event ∧ (s.serve fat event).Exact

/-- A request on the descriptor that marks free slots. -/
def FileEvent.OnMark : FileEvent → Prop
  | .message _ request => request.descriptor = some (-1)
  | .forced => False

/-- Fewer than twenty files are open when one is opened, and not fewer when a request is made on
the descriptor -1. -/
def FileSession.Fits (event : FileEvent) (s : FileSession ω) : Prop :=
  (s.Opens fat event → s.opened.length < maxFatFd) ∧
    (event.OnMark → s.opened.length = maxFatFd)

/-! ## Evaluation -/

instance (event : FileEvent) (s : FileSession ω) : Decidable (s.Opens fat event) :=
  match event with
  | .message _ (.iosOpen path mode) =>
    inferInstanceAs (Decidable (_ ∧ _ ∧ 0 ≤ s.osOpen fat path mode))
  | .message _ (.iosClose _) => .isFalse not_false
  | .message _ (.iosRead _ _) => .isFalse not_false
  | .message _ (.iosWrite _ _) => .isFalse not_false
  | .message _ (.iosSeek _ _ _) => .isFalse not_false
  | .message _ (.iosIoctl _ _ _ _ _) => .isFalse not_false
  | .message _ (.iosIoctlv _ _ _ _) => .isFalse not_false
  | .forced => .isFalse not_false

instance (event : FileEvent) : Decidable event.OnMark :=
  match event with
  | .message _ request => inferInstanceAs (Decidable (request.descriptor = some (-1)))
  | .forced => .isFalse not_false

instance (event : FileEvent) (s : FileSession ω) : Decidable (s.Fits fat event) :=
  inferInstanceAs (Decidable (_ ∧ _))

/-! ## One event -/

/-- The table and the open files agree. -/
structure FileSession.Sound (s : FileSession ω) : Prop where
  direct : s.plugin.config.mode &&& modeRev17 ≠ 0
  length : s.plugin.table.length = maxFatFd
  slots : ∀ slot ∈ s.plugin.table, slot = -1 ∨ 0 ≤ slot
  files : (descriptors s.plugin.table).Perm s.opened
  nodup : s.opened.Nodup

namespace FileSession

variable {fat} {s : FileSession ω}

/-- The descriptors are the slots that are not negative. -/
theorem mem_descriptors_iff {table : List Int} {fd : Int} :
    fd ∈ descriptors table ↔ fd ∈ table ∧ 0 ≤ fd := by
  rw [descriptors, Slots.mem_used_iff, decide_eq_false_iff_not, Int.not_lt]

/-- A sound session has its open files in the table. -/
theorem Sound.exact (sound : s.Sound) : s.Exact where
  nodup := sound.files.nodup_iff.2 sound.nodup
  mem_iff _ := sound.files.mem_iff

/-- A file is open if its descriptor is in the table. -/
theorem Sound.mem_opened_iff (sound : s.Sound) (fd : Int) :
    fd ∈ s.opened ↔ fd ∈ s.plugin.table ∧ 0 ≤ fd := by
  rw [← sound.files.mem_iff, mem_descriptors_iff]

/-- A slot is free as long as there are fewer than twenty open files. -/
theorem Sound.vacant_iff (sound : s.Sound) :
    -1 ∈ s.plugin.table ↔ s.opened.length < maxFatFd := by
  have some_free := @Slots.exists_free_iff _ (fun slot : Int => decide (slot < 0)) s.plugin.table
  rw [← sound.length, ← sound.files.length_eq, descriptors, ← some_free]
  constructor
  · exact fun vacant => ⟨-1, vacant, by decide⟩
  · rintro ⟨slot, here, negative⟩
    rcases sound.slots slot here with rfl | positive
    · exact here
    · simp only [decide_eq_true_eq] at negative
      omega

/-- No more than twenty files are open. -/
theorem Sound.length_le (sound : s.Sound) : s.opened.length ≤ maxFatFd := by
  rw [← sound.length, ← sound.files.length_eq]
  exact List.length_filter_le ..

/-- A descriptor is looked up as it should be, unless it is the mark of a free slot. -/
theorem Sound.lookup_iff (sound : s.Sound) (fd : Int) :
    (fd ∈ s.plugin.table ↔ fd ∈ s.opened) ↔ (fd = -1 → s.opened.length = maxFatFd) := by
  have full := sound.vacant_iff
  have room := sound.length_le
  rw [sound.mem_opened_iff]
  by_cases mark : fd = -1
  · subst mark
    simp only [show ¬ (0 : Int) ≤ -1 by decide, and_false, iff_false, full, forall_const]
    omega
  · have slot := sound.slots fd
    simp only [mark, false_imp_iff, iff_true]
    exact ⟨fun here => ⟨here, (slot here).resolve_left mark⟩, And.left⟩

/-- The requests on a descriptor are directed by the table. -/
theorem directed_onFile (sound : s.Sound) {env : Surroundings} {message : Message} {fd : Int}
    (takes : message.descriptor = some fd) {act : Nat → Plugin ω → Int × Out × Plugin ω}
    (handler : fsHandle fat env message s.plugin = onFile fd act s.plugin) :
    s.Directed fat (.message env message) ↔ (fd = -1 → s.opened.length = maxFatFd) := by
  have routed := onFile_routed fd act s.plugin
  have original := routed.original
  have served := routed.served
  simp only [sound.direct, not_false_eq_true, true_and, ne_eq] at served original
  rw [← sound.lookup_iff, Directed]
  simp only [handler, takes, Option.some.injEq, forall_eq', served, original]
  exact ⟨And.left, fun same => ⟨same, not_congr same⟩⟩

/-! ## What the handlers do -/

/-- Nothing that matters changes. -/
theorem Sound.keep (sound : s.Sound) {plugin : Plugin ω} (config : plugin.config = s.plugin.config)
    (table : plugin.table = s.plugin.table) : Sound { s with plugin := plugin } where
  direct := by
    rw [config]
    exact sound.direct
  length := by
    rw [table]
    exact sound.length
  slots := by
    rw [table]
    exact sound.slots
  files := by
    rw [table]
    exact sound.files
  nodup := sound.nodup

/-- A request on a descriptor keeps the configuration and the table if its action does. -/
theorem onFile_keeps (fd : Int) {act : Nat → Plugin ω → Int × Out × Plugin ω} {plugin : Plugin ω}
    (config : ∀ idx, (act idx plugin).2.2.config = plugin.config)
    (table : ∀ idx, (act idx plugin).2.2.table = plugin.table) :
    (onFile fd act plugin).2.config = plugin.config ∧
      (onFile fd act plugin).2.table = plugin.table := by
  unfold onFile
  split
  · cases getFileIndex plugin.table fd with
    | some idx => exact ⟨config idx, table idx⟩
    | none => exact ⟨rfl, rfl⟩
  · exact ⟨rfl, rfl⟩

/-- A request that neither opens nor closes a file. -/
theorem right_onFile_iff (sound : s.Sound) {env : Surroundings} {message : Message} {fd : Int}
    (takes : message.descriptor = some fd) {act : Nat → Plugin ω → Int × Out × Plugin ω}
    (handler : fsHandle fat env message s.plugin = onFile fd act s.plugin)
    (config : ∀ idx, (act idx s.plugin).2.2.config = s.plugin.config)
    (table : ∀ idx, (act idx s.plugin).2.2.table = s.plugin.table)
    (tracked : ∀ reply, track message reply s.opened = s.opened)
    (opensNone : ¬ s.Opens fat (.message env message)) :
    (s.Right fat (.message env message) ↔ s.Fits fat (.message env message)) ∧
      (s.serve fat (.message env message)).Sound := by
  have keeps := onFile_keeps fd config table
  have after : (s.serve fat (.message env message)).Sound := by
    simp only [serve, handler, tracked]
    exact sound.keep keeps.1 keeps.2
  refine ⟨?_, after⟩
  rw [Right, Fits, directed_onFile sound takes handler]
  simp only [after.exact, and_true, opensNone, false_imp_iff, true_and, FileEvent.OnMark, takes,
    Option.some.injEq]

/-- Where a descriptor is found. -/
theorem getFileIndex_some {table : List Int} {fd : Int} {idx : Nat}
    (found : getFileIndex table fd = some idx) : table[idx]? = some fd := by
  obtain ⟨inside, same, -⟩ := List.findIdx?_eq_some_iff_getElem.1 found
  rw [List.getElem?_eq_getElem inside, of_decide_eq_true same]

/-- The close of an open file, or of a descriptor that is not found. -/
theorem sound_close (sound : s.Sound) (env : Surroundings) {fd : Int}
    (same : fd ∈ s.plugin.table ↔ fd ∈ s.opened) :
    (s.serve fat (.message env (.iosClose fd))).Sound := by
  simp only [serve, fsHandle, fsClose, onFile, if_pos sound.direct]
  cases found : getFileIndex s.plugin.table fd with
  | none => exact sound
  | some idx =>
    have known := getFileIndex_isSome s.plugin.table fd
    rw [found] at known
    have isOpen := same.1 (known.1 rfl)
    have positive := ((sound.mem_opened_iff fd).1 isOpen).2
    by_cases closed : 0 ≤ (fat.close fd s.plugin.fat).1
    · simp only [track, closed, and_self, if_true, unregisterFile]
      have cleared := @Slots.used_clear _ (fun slot : Int => decide (slot < 0)) _ _ _ _
        (getFileIndex_some found) (decide_eq_false (Int.not_lt.2 positive))
        (show decide ((-1 : Int) < 0) = true from rfl)
      refine ⟨sound.direct, (List.length_set).trans sound.length, fun slot here => ?_, ?_,
        sound.nodup.erase fd⟩
      · exact (List.mem_or_eq_of_mem_set here).elim (sound.slots slot) .inl
      · exact (List.cons_perm_iff_perm_erase.1 (cleared.symm.trans sound.files)).2
    · simp only [track, closed, and_false, if_false]
      exact sound.keep rfl rfl

/-- An open that the plugin leaves alone, or that is refused. -/
theorem fsOpen_stays {path : Path} {mode : UInt32} {env : Surroundings}
    (refused : ¬ s.Opens fat (.message env (.iosOpen path mode))) :
    (fsOpen fat path mode s.plugin).2.config = s.plugin.config ∧
      (fsOpen fat path mode s.plugin).2.table = s.plugin.table ∧
      ∀ opened, track (.iosOpen path mode) (fsOpen fat path mode s.plugin).1 opened = opened := by
  unfold fsOpen
  split
  case isFalse => exact ⟨rfl, rfl, fun _ => rfl⟩
  split
  case isTrue => exact ⟨rfl, rfl, fun _ => rfl⟩
  case isFalse free =>
    split
    case isFalse => exact ⟨rfl, rfl, fun _ => rfl⟩
    case isTrue emulated =>
      have failed : ¬ 0 ≤ (fat.openFile ((generateRelativePath path).getD []) mode
          s.plugin.fat).1 := fun granted =>
        refused ⟨by simpa using free, emulated, granted⟩
      refine ⟨rfl, if_neg failed, fun _ => if_neg fun both => failed both.2⟩

/-- An open that the plugin makes. -/
theorem serve_opens (sound : s.Sound) {path : Path} {mode : UInt32} {env : Surroundings}
    (opens : s.Opens fat (.message env (.iosOpen path mode))) :
    (s.serve fat (.message env (.iosOpen path mode))).opened =
        s.osOpen fat path mode :: s.opened ∧
      (s.serve fat (.message env (.iosOpen path mode))).plugin.table =
        registerFile s.plugin.table (s.osOpen fat path mode) ∧
      (s.serve fat (.message env (.iosOpen path mode))).plugin.config = s.plugin.config := by
  obtain ⟨free, emulated, granted⟩ := opens
  have granted' : (fat.openFile ((generateRelativePath path).getD []) mode s.plugin.fat).1 ≥ 0 :=
    granted
  simp only [serve, fsHandle, fsOpen, if_pos sound.direct, free, emulated, Bool.false_eq_true,
    if_false, if_true, track, osOpen, if_pos granted']
  exact ⟨if_pos ⟨trivial, granted⟩, trivial, trivial⟩

/-- With a free slot the file is added to the table. -/
theorem registerFile_free {table : List Int} (vacant : -1 ∈ table) {fd : Int} (opened : 0 ≤ fd) :
    (descriptors (registerFile table fd)).Perm (fd :: descriptors table) ∧
      (registerFile table fd).length = table.length := by
  unfold registerFile
  cases found : table.findIdx? fun slot => decide (slot < 0) with
  | none =>
    have taken := List.findIdx?_eq_none_iff.1 found (-1) vacant
    simp at taken
  | some idx =>
    obtain ⟨inside, negative, -⟩ := List.findIdx?_eq_some_iff_getElem.1 found
    refine ⟨?_, List.length_set⟩
    exact Slots.used_store (List.getElem?_eq_getElem inside) negative
      (decide_eq_false (Int.not_lt.2 opened))

/-- Without a free slot the table stays as it is. -/
theorem registerFile_full {table : List Int} (slots : ∀ slot ∈ table, slot = -1 ∨ 0 ≤ slot)
    (full : -1 ∉ table) (fd : Int) : registerFile table fd = table := by
  have none : table.findIdx? (fun slot => decide (slot < 0)) = none := by
    refine List.findIdx?_eq_none_iff.2 fun slot here => decide_eq_false ?_
    rcases slots slot here with rfl | positive
    · exact absurd here full
    · exact Int.not_lt.2 positive
  rw [registerFile, none]

/-- An open leaves the table with the open files exactly if there is a slot for it. -/
theorem right_open_iff (sound : s.Sound) {env : Surroundings} {path : Path} {mode : UInt32}
    (fresh : s.Fresh fat (.message env (.iosOpen path mode))) :
    (s.Right fat (.message env (.iosOpen path mode)) ↔
        s.Fits fat (.message env (.iosOpen path mode))) ∧
      (s.Right fat (.message env (.iosOpen path mode)) →
        (s.serve fat (.message env (.iosOpen path mode))).Sound) := by
  have noMark : ¬ (FileEvent.message env (.iosOpen path mode)).OnMark := by
    simp [FileEvent.OnMark, Message.descriptor]
  have directed : s.Directed fat (.message env (.iosOpen path mode)) := by
    simp [Directed, Message.descriptor]
  by_cases opens : s.Opens fat (.message env (.iosOpen path mode))
  · obtain ⟨opened, table, config⟩ := serve_opens sound opens
    have unused := fresh env path mode rfl opens
    by_cases room : s.opened.length < maxFatFd
    · have registered := registerFile_free (sound.vacant_iff.2 room) opens.2.2
      have after : (s.serve fat (.message env (.iosOpen path mode))).Sound := by
        refine ⟨?_, ?_, fun slot here => ?_, ?_, ?_⟩
        · rw [config]
          exact sound.direct
        · rw [table, registered.2]
          exact sound.length
        · rw [table] at here
          exact (mem_registerFile here).elim (sound.slots slot) fun same => .inr (same ▸ opens.2.2)
        · rw [table, opened]
          exact registered.1.trans (sound.files.cons _)
        · rw [opened]
          exact List.nodup_cons.2 ⟨unused, sound.nodup⟩
      exact ⟨iff_of_true ⟨directed, after.exact⟩ ⟨fun _ => room, fun mark => absurd mark noMark⟩,
        fun _ => after⟩
    · -- the new file is open, and the table is as before
      have wrong : ¬ s.Right fat (.message env (.iosOpen path mode)) := by
        rintro ⟨-, exact⟩
        have here := (exact.mem_iff (s.osOpen fat path mode)).2
          (opened ▸ List.mem_cons_self)
        rw [table, registerFile_full sound.slots fun vacant => room (sound.vacant_iff.1 vacant),
          sound.files.mem_iff] at here
        exact unused here
      exact ⟨iff_of_false wrong fun fits => room (fits.1 opens), fun right => absurd right wrong⟩
  · obtain ⟨config, table, tracked⟩ := fsOpen_stays opens
    have after : (s.serve fat (.message env (.iosOpen path mode))).Sound := by
      simp only [serve, fsHandle, tracked]
      exact sound.keep config table
    exact ⟨iff_of_true ⟨directed, after.exact⟩
      ⟨fun opens' => absurd opens' opens, fun mark => absurd mark noMark⟩, fun _ => after⟩

/-- A close leaves the table with the open files if it finds its handler. -/
theorem right_close_iff (sound : s.Sound) (env : Surroundings) (fd : Int) :
    (s.Right fat (.message env (.iosClose fd)) ↔ s.Fits fat (.message env (.iosClose fd))) ∧
      (s.Right fat (.message env (.iosClose fd)) →
        (s.serve fat (.message env (.iosClose fd))).Sound) := by
  have handler : fsHandle fat env (.iosClose fd) s.plugin = fsClose fat fd s.plugin := rfl
  rw [fsClose] at handler
  have directed := @directed_onFile _ fat s sound env (.iosClose fd) fd rfl _ handler
  have noOpen : ¬ s.Opens fat (.message env (.iosClose fd)) := not_false
  have closes : s.Directed fat (.message env (.iosClose fd)) →
      (s.serve fat (.message env (.iosClose fd))).Sound := fun right =>
    sound_close sound env ((sound.lookup_iff fd).2 (directed.1 right))
  refine ⟨?_, fun right => closes right.1⟩
  have fits : s.Fits fat (.message env (.iosClose fd)) ↔
      (fd = -1 → s.opened.length = maxFatFd) := by
    simp only [Fits, noOpen, false_imp_iff, true_and, FileEvent.OnMark, Message.descriptor,
      Option.some.injEq]
  rw [fits, ← directed]
  exact ⟨And.left, fun right => ⟨right, (closes right).exact⟩⟩

/-- One event of a session. -/
theorem right_iff (sound : s.Sound) {event : FileEvent} (files : event.OnFiles)
    (fresh : s.Fresh fat event) :
    (s.Right fat event ↔ s.Fits fat event) ∧
      (s.Right fat event → (s.serve fat event).Sound) := by
  cases event with
  | forced =>
    have after : (s.serve fat .forced).Sound := sound.keep rfl rfl
    exact ⟨iff_of_true ⟨trivial, after.exact⟩ ⟨False.elim, False.elim⟩, fun _ => after⟩
  | message env message =>
    have passive {fd : Int} (takes : message.descriptor = some fd)
        {act : Nat → Plugin ω → Int × Out × Plugin ω}
        (handler : fsHandle fat env message s.plugin = onFile fd act s.plugin)
        (config : ∀ idx, (act idx s.plugin).2.2.config = s.plugin.config)
        (table : ∀ idx, (act idx s.plugin).2.2.table = s.plugin.table)
        (tracked : ∀ reply, track message reply s.opened = s.opened)
        (opensNone : ¬ s.Opens fat (.message env message)) := by
      have right := right_onFile_iff sound takes handler config table tracked opensNone
      exact And.intro right.1 fun _ : s.Right fat (.message env message) => right.2
    cases message with
    | iosOpen path mode => exact right_open_iff sound fresh
    | iosClose fd => exact right_close_iff sound env fd
    | iosRead fd length =>
      have handler : fsHandle fat env (.iosRead fd length) s.plugin =
        fsRead fat fd length s.plugin := rfl
      rw [fsRead] at handler
      exact passive rfl handler (fun _ => rfl) (fun _ => rfl) (fun _ => ite_self _) not_false
    | iosWrite fd data =>
      have handler : fsHandle fat env (.iosWrite fd data) s.plugin =
        fsWrite fat fd data s.plugin := rfl
      rw [fsWrite] at handler
      exact passive rfl handler (fun _ => rfl) (fun _ => rfl) (fun _ => ite_self _) not_false
    | iosSeek fd offset origin =>
      have handler : fsHandle fat env (.iosSeek fd offset origin) s.plugin =
        fsSeek fat fd offset origin s.plugin := rfl
      rw [fsSeek] at handler
      exact passive rfl handler (fun _ => rfl) (fun _ => rfl) (fun _ => ite_self _) not_false
    | iosIoctl fd cmd inbuf inlen iolen =>
      obtain rfl : cmd = ioctlGetfilestats := files
      have handler : fsHandle fat env (.iosIoctl fd ioctlGetfilestats inbuf inlen iolen) s.plugin =
        fsGetFileStats fat fd s.plugin := rfl
      rw [fsGetFileStats] at handler
      exact passive rfl handler (fun _ => rfl) (fun _ => rfl) (fun _ => ite_self _) not_false
    | iosIoctlv cmd vector inlen iolen => exact absurd files not_false


/-! ## Sessions -/

/-- A SETMODE request has just switched the emulation on. -/
def Begins (fat : FatModule ω) (s : FileSession ω) : Prop :=
  s.opened = [] ∧ s.plugin.config.mode ≠ 0 ∧
    ∃ env valid mode path before,
      0 ≤ (fsSetModeRequest fat env valid mode path before).1.ret ∧
        s.plugin = (fsSetModeRequest fat env valid mode path before).2

/-- A request that succeeds with the emulation on forgets the open files. -/
theorem fsSetModeRequest_on {env : Surroundings} {valid : Bool} {mode : UInt32} {path : Path}
    {before : Plugin ω} (done : 0 ≤ (fsSetModeRequest fat env valid mode path before).1.ret)
    (on : (fsSetModeRequest fat env valid mode path before).2.config.mode ≠ 0) :
    (fsSetModeRequest fat env valid mode path before).2.config.mode &&& modeRev17 ≠ 0 ∧
      (fsSetModeRequest fat env valid mode path before).2.table = unregisterAllFiles := by
  unfold fsSetModeRequest at done on ⊢
  split at done
  case isTrue => exact absurd done (show ¬ (0 : Int) ≤ ipcEnoent by decide)
  case isFalse ok =>
    rw [if_neg ok] at on ⊢
    unfold fsSetMode at done on ⊢
    by_cases device : mode &&& (modeSdhc ||| modeUsb) ≠ 0
    · by_cases title : env.runningTitle = true
      · simp only [if_pos device, if_pos title] at done
        exact absurd done (show ¬ (0 : Int) ≤ ipcEnoent by decide)
      · simp only [if_pos device, if_neg title] at done on ⊢
        have kept := fatInit_kept fat
          (generateAbsolutePath { mode := mode ||| modeRev17, path := path } [])
          { before with
            openFat := true, table := unregisterAllFiles
            config := { mode := mode ||| modeRev17, path := path } }
        split at on
        case isTrue ready =>
          rw [if_pos ready]
          refine ⟨?_, kept.2⟩
          have config : (prepareFolders fat (fatInit fat
              (generateAbsolutePath { mode := mode ||| modeRev17, path := path } [])
              { before with
                openFat := true, table := unregisterAllFiles
                config := { mode := mode ||| modeRev17, path := path } }).2).config =
              { mode := mode ||| modeRev17, path := path } := kept.1
          rw [config]
          exact modeRev17_set mode
        case isFalse => exact absurd rfl on
    · simp only [if_neg device] at done on
      split at on
      case isTrue denied =>
        rw [if_pos denied] at done
        exact absurd done (show ¬ (0 : Int) ≤ ipcEnoent by decide)
      case isFalse => exact absurd rfl on

/-- At its beginning a session is sound. -/
theorem Begins.sound (begins : s.Begins fat) : s.Sound := by
  obtain ⟨none, on, env, valid, mode, path, before, done, plugin⟩ := begins
  rw [plugin] at on
  obtain ⟨direct, table⟩ := fsSetModeRequest_on done on
  rw [← plugin] at direct table
  refine ⟨direct, ?_, fun slot here => ?_, ?_, ?_⟩
  · rw [table]
    rfl
  · rw [table] at here
    exact .inl (List.eq_of_mem_replicate here)
  · rw [table, none]
    exact List.Perm.refl []
  · rw [none]
    exact List.nodup_nil

/-- A run of events that are right as long as the files fit. -/
theorem Sound.throughout_iff (sound : s.Sound) {events : List FileEvent}
    (files : ∀ event ∈ events, event.OnFiles)
    (fresh : Throughout (serve fat) (Fresh fat) events s) :
    Throughout (serve fat) (Right fat) events s ↔ Throughout (serve fat) (Fits fat) events s := by
  have each (event : FileEvent) (s : FileSession ω) (allowed : event.OnFiles ∧ s.Fresh fat event)
      (sound : s.Sound) :
      (s.Right fat event ↔ s.Fits fat event) ∧ (s.Fits fat event → (s.serve fat event).Sound) := by
    obtain ⟨one, next⟩ := right_iff sound allowed.1 allowed.2
    exact ⟨one, fun fits => next (one.2 fits)⟩
  exact Throughout.iff_of_invariant each ((Throughout.of_forall files).and fresh) sound

/-- In every run of a session the table holds the open files and each request finds its handler,
exactly if no file is opened while twenty are, and the descriptor -1 is not used before. -/
theorem always_right_iff (begins : s.Begins fat) (events : List FileEvent)
    (files : ∀ event ∈ events, event.OnFiles)
    (fresh : Throughout (serve fat) (Fresh fat) events s) :
    s.Exact ∧
      (Throughout (serve fat) (Right fat) events s ↔ Throughout (serve fat) (Fits fat) events s) :=
  ⟨begins.sound.exact, begins.sound.throughout_iff files fresh⟩

end FileSession

/-! ## The twenty-first file -/

/-- A FAT module that numbers the files it opens. -/
def numbering : FatModule Nat where
  heapAlloc w := (true, w)
  openModule w := (1, w)
  setNandPath _ w := (0, w)
  openFile _ _ w := (w, w + 1)
  close _ w := (0, w)
  read _ len w := (len, List.replicate len 0, w)
  write _ data w := (data.length, w)
  seek _ offset _ w := (offset, w)
  createDir _ w := (0, w)
  createFile _ w := (0, w)
  readDir _ _ w := (0, 0, [], w)
  delete _ w := (0, w)
  deleteDir _ w := (0, w)
  rename _ _ w := (0, w)
  getStats _ w := (0, ⟨0, 0, 0, 0⟩, w)
  getUsage _ w := (0, ⟨0, 0⟩, w)
  getFileStats _ w := (0, (0, 0), w)

/-- The emulation on a card, just switched on. -/
def cardSession : FileSession Nat where
  plugin := (fsSetModeRequest numbering quiet true modeSdhc [] (.boot 0)).2
  opened := []

/-- The session on the card is at its beginning. -/
theorem cardSession_begins : cardSession.Begins numbering :=
  ⟨rfl, by decide, quiet, true, modeSdhc, [], .boot 0, by decide, rfl⟩

/-- An open of a file of the emulation. -/
def opening : FileEvent := .message quiet (.iosOpen "/tmp/a".toList 1)

/-- The handles of the module that numbers its files are fresh. -/
theorem numbering_fresh (n : Nat) {s : FileSession Nat}
    (numbered : ∀ fd ∈ s.opened, fd < s.plugin.fat) :
    Throughout (FileSession.serve numbering) (FileSession.Fresh numbering)
      (List.replicate n opening) s := by
  induction n generalizing s with
  | zero => trivial
  | succ n ih =>
    refine ⟨fun env path mode _ _ again => absurd (numbered _ again) (Int.lt_irrefl _), ih ?_⟩
    simp only [opening, FileSession.serve, fsHandle, fsOpen]
    split
    case isFalse => exact numbered
    split
    case isTrue => exact numbered
    split
    case isFalse => exact numbered
    case isTrue =>
      intro fd here
      rw [track, if_pos ⟨rfl, Int.natCast_nonneg _⟩] at here
      rcases List.mem_cons.1 here with rfl | before
      · exact Int.ofNat_lt.2 (Nat.lt_succ_self _)
      · exact Int.lt_trans (numbered fd before) (Int.ofNat_lt.2 (Nat.lt_succ_self _))

/-- Opens are requests on files. -/
theorem opening_onFiles (n : Nat) : ∀ event ∈ List.replicate n opening, event.OnFiles :=
  fun _ here => (List.eq_of_mem_replicate here).symm ▸ trivial

/-- The run with two files. -/
theorem always_right_iff_two :
    let run := List.replicate 2 opening
    cardSession.Exact ∧
      (Throughout (FileSession.serve numbering) (FileSession.Right numbering) run cardSession ↔
        Throughout (FileSession.serve numbering) (FileSession.Fits numbering) run cardSession) :=
  FileSession.always_right_iff cardSession_begins (List.replicate 2 opening) (opening_onFiles 2)
    (numbering_fresh 2 (by decide))

/-- The twenty-first file is open and is not in the table. -/
theorem twentyFirst_lost :
    let run := List.replicate 21 opening
    cardSession.Begins numbering ∧ (∀ event ∈ run, event.OnFiles) ∧
      Throughout (FileSession.serve numbering) (FileSession.Fresh numbering) run cardSession ∧
      ¬ Throughout (FileSession.serve numbering) (FileSession.Right numbering) run cardSession := by
  have fresh := @numbering_fresh 21 cardSession (by decide)
  refine ⟨cardSession_begins, opening_onFiles 21, fresh, fun right => ?_⟩
  have fits := (cardSession_begins.sound.throughout_iff (opening_onFiles 21) fresh).1 right
  exact absurd fits (by decide)

end D2xCios.Ffs
