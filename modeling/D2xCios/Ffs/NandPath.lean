import D2xCios.Fat.Module
import D2xCios.Ffs.Routing
import D2xCios.Lib.Collapse

/-!
# Two routes to an emulated file

A file is created, deleted and renamed under the absolute path that the plugin
builds from its own copy of the nand path, but opened under the one that the
FAT module builds from the copy it was told. The module is told only when it is
opened, so the two routes meet as long as the nand path in force is the one
that was in force then.
-/

namespace D2xCios.Ffs

open D2xCios.Fat D2xCios.Lib

variable {φ : Type}

/-! ## Histories of mode requests -/

/-- A request `IOCTL_ISFS_SETMODE` with a path. -/
structure SetMode where
  env : Surroundings
  mode : UInt32
  path : Path

/-- The nand path with its device, as `__FS_SetMode` hands it to `FAT_Init`. -/
def SetMode.nandPath (request : SetMode) : Path :=
  generateAbsolutePath { mode := request.mode ||| modeRev17, path := request.path } []

/-- The nand path with its device that a plugin works with. -/
def Plugin.nandPath {ω : Type} (s : Plugin ω) : Path := generateAbsolutePath s.config []

variable (files : FatModule φ)

/-- The buffer of `fat.c`, allocated if it is not there yet. -/
def Plugin.allocated (s : Plugin (Module φ)) : Bool × Module φ :=
  if s.iobuf then (true, s.fat) else (fatModule files).heapAlloc s.fat

/-- `FAT_Init` comes to the point where it tells the module the nand path. -/
def Plugin.Opens (s : Plugin (Module φ)) : Prop :=
  ¬ s.fatFd > 0 ∧ (s.allocated files).1 = true ∧
    0 ≤ ((fatModule files).openModule (s.allocated files).2).1

/-- The request tells the module its nand path. -/
def SetMode.Tells (request : SetMode) (s : Plugin (Module φ)) : Prop :=
  request.mode &&& (modeSdhc ||| modeUsb) ≠ 0 ∧ request.env.runningTitle = false ∧ s.Opens files

instance (request : SetMode) (s : Plugin (Module φ)) : Decidable (request.Tells files s) :=
  inferInstanceAs (Decidable (_ ∧ _ ∧ _ ∧ _ ∧ _))

/-- A request, and the last one so far that has told the module its nand path. -/
def follow (state : Plugin (Module φ) × Option SetMode) (request : SetMode) :
    Plugin (Module φ) × Option SetMode :=
  ((fsSetMode (fatModule files) request.env request.mode request.path state.1).2,
    if request.Tells files state.1 then some request else state.2)

/-- A history of mode requests, from the start on. -/
def history (w : φ) (requests : List SetMode) : Plugin (Module φ) × Option SetMode :=
  requests.foldl (follow files) (.boot (.boot w), none)

/-! ## What the module has been told -/

/-- The module has the nand path that it was told last, and was told one if it
is open or the emulation is on. -/
structure Told (state : Plugin (Module φ) × Option SetMode) : Prop where
  emuNandPath : state.1.fat.emuNandPath =
    state.2.elim "/".toList fun request => request.nandPath ++ ['/']
  opened : state.1.fatFd > 0 → state.2.isSome
  on : state.1.config.mode ≠ 0 → state.2.isSome

section Told

variable {files}

/-- What `FAT_Init` does with a nand path that fits. -/
theorem fatInit_cases (files : FatModule φ) {nandpath : Path}
    (fits : nandpath.length < emuNandPathSize)
    (s : Plugin (Module φ)) :
    (s.fatFd > 0 ∧ fatInit (fatModule files) nandpath s = (0, s)) ∨
      (¬ s.Opens files ∧ ¬ s.fatFd > 0 ∧ (fatInit (fatModule files) nandpath s).1 < 0 ∧
        (fatInit (fatModule files) nandpath s).2.fat.emuNandPath = s.fat.emuNandPath ∧
        ¬ (fatInit (fatModule files) nandpath s).2.fatFd > 0) ∨
      (s.Opens files ∧ (fatInit (fatModule files) nandpath s).1 = 0 ∧
        (fatInit (fatModule files) nandpath s).2.fat.emuNandPath = nandpath ++ ['/']) := by
  by_cases already : s.fatFd > 0
  · exact .inl ⟨already, by rw [fatInit, if_pos already]⟩
  obtain ⟨allocated, w, alloc⟩ : ∃ allocated w, s.allocated files = (allocated, w) := ⟨_, _, rfl⟩
  have path : w.emuNandPath = s.fat.emuNandPath := by
    unfold Plugin.allocated at alloc
    split at alloc <;> rw [← (Prod.mk.inj alloc).2]
  obtain ⟨fd, opened, opening⟩ : ∃ fd opened, (fatModule files).openModule w = (fd, opened) :=
    ⟨_, _, rfl⟩
  have kept : opened.emuNandPath = s.fat.emuNandPath := by
    rw [← path, ← (Prod.mk.inj opening).2]
  have opens : s.Opens files ↔ allocated = true ∧ 0 ≤ fd := by
    rw [Plugin.Opens, alloc, opening]
    exact ⟨And.right, fun both => ⟨already, both⟩⟩
  right
  unfold Plugin.allocated at alloc
  unfold fatInit
  simp only [alloc, opening, if_neg already, opens]
  cases allocated with
  | false =>
    left
    exact ⟨by simp, already, show ipcEnomem < 0 by decide, path, already⟩
  | true =>
    by_cases failed : fd < 0
    · left
      simp only [Bool.true_eq_false, if_false, failed, if_true]
      exact ⟨by omega, already, trivial, kept, by omega⟩
    · right
      simp only [Bool.true_eq_false, if_false, failed]
      have told := setNandPath_fits fits opened
      exact ⟨⟨trivial, by omega⟩, congrArg Prod.fst told,
        congrArg (fun answer => answer.2.emuNandPath) told⟩

/-- The plugin on its way into the emulation. -/
def Plugin.enabled {ω : Type} (s : Plugin ω) (request : SetMode) : Plugin ω :=
  { s with
    openFat := true
    table := unregisterAllFiles
    config := { mode := request.mode ||| modeRev17, path := request.path } }

/-- An accepted request to switch the emulation on. -/
theorem fsSetMode_on {ω : Type} {fat : FatModule ω} {request : SetMode} {s : Plugin ω}
    (on : request.mode &&& (modeSdhc ||| modeUsb) ≠ 0) (quiet : request.env.runningTitle = false) :
    (fsSetMode fat request.env request.mode request.path s).2 =
      if (fatInit fat request.nandPath (s.enabled request)).1 ≥ 0 then
        prepareFolders fat (fatInit fat request.nandPath (s.enabled request)).2
      else { (fatInit fat request.nandPath (s.enabled request)).2 with config := .off } := by
  unfold fsSetMode
  rw [if_pos on, if_neg (by simp [quiet])]
  exact apply_ite Prod.snd _ _ _

/-- The folders are prepared through absolute paths. -/
theorem prepareFolders_emuNandPath (s : Plugin (Module φ)) :
    (prepareFolders (fatModule files) s).fat.emuNandPath = s.fat.emuNandPath := by
  have round (config : FsConfig) (dirs : List DirInfo) (m : Module φ) :
      (dirs.foldl (prepareFolder (fatModule files) config) m).emuNandPath = m.emuNandPath := by
    induction dirs generalizing m with
    | nil => rfl
    | cons dir dirs ih =>
      rw [List.foldl_cons, ih]
      unfold prepareFolder
      dsimp only
      split <;> split <;> rfl
  exact round s.config dirs s.fat

/-- A request that fits is followed. -/
theorem Told.follow {state : Plugin (Module φ) × Option SetMode} (told : Told state)
    {request : SetMode} (fits : request.nandPath.length < emuNandPathSize) :
    Told (follow files state request) := by
  obtain ⟨s, last⟩ := state
  unfold Ffs.follow
  by_cases on : request.mode &&& (modeSdhc ||| modeUsb) ≠ 0
  case neg =>
    have silent : ¬ request.Tells files s := fun tells => on tells.1
    simp only [fsSetMode, if_neg on, if_neg silent]
    split
    · exact told
    · exact ⟨told.emuNandPath, told.opened, fun on => absurd rfl on⟩
  by_cases running : request.env.runningTitle = true
  case pos =>
    have silent : ¬ request.Tells files s := fun tells =>
      absurd (running.symm.trans tells.2.1) (by decide)
    simp only [fsSetMode, if_pos on, if_pos running, if_neg silent]
    exact told
  have quiet : request.env.runningTitle = false := by simpa using running
  have tells : request.Tells files s ↔ (s.enabled request).Opens files :=
    ⟨fun tells => tells.2.2, fun opens => ⟨on, quiet, opens⟩⟩
  rw [fsSetMode_on on quiet]
  rcases fatInit_cases files fits (s.enabled request) with
    ⟨already, done⟩ | ⟨silent, closed, failed, path, still⟩ | ⟨opens, zero, path⟩
  · -- the module is open and keeps what it was told
    have silent : ¬ request.Tells files s := fun telling => (tells.mp telling).1 already
    rw [if_neg silent, done, if_pos (le_refl _)]
    have known := told.opened already
    exact ⟨(prepareFolders_emuNandPath _).trans told.emuNandPath, fun _ => known, fun _ => known⟩
  · rw [if_neg (tells.not.mpr silent), if_neg (not_le.mpr failed)]
    exact ⟨path.trans told.emuNandPath, fun opened => absurd opened still,
      fun on => absurd rfl on⟩
  · rw [if_pos (tells.mpr opens), if_pos (le_of_eq zero.symm)]
    exact ⟨(prepareFolders_emuNandPath _).trans path, fun _ => rfl, fun _ => rfl⟩

/-- After every history the module has what it was told last. -/
theorem history_told (files : FatModule φ) (w : φ) {requests : List SetMode}
    (short : ∀ request ∈ requests, request.nandPath.length < emuNandPathSize) :
    Told (history files w requests) := by
  have steps (state : Plugin (Module φ) × Option SetMode) (told : Told state) :
      Told (requests.foldl (Ffs.follow files) state) := by
    induction requests generalizing state with
    | nil => exact told
    | cons request requests ih =>
      exact ih (fun other mem => short other (List.mem_cons_of_mem _ mem)) _
        (told.follow (short request List.mem_cons_self))
  exact steps _ ⟨rfl, fun opened => absurd opened (lt_irrefl (0 : Int)), fun on => absurd rfl on⟩

end Told

/-! ## The two routes -/

/-- The absolute path that the FAT module opens when `FS_Open` hands it `path`. -/
def Plugin.openedPath (s : Plugin (Module φ)) (path : Path) : Option Path :=
  openPath s.fat.emuNandPath ((generateRelativePath path).getD [])

/-- `FS_Open` of an emulated path opens that file. -/
theorem fsOpen_openedPath {s : Plugin (Module φ)} {path opened : Path} {mode : UInt32}
    (direct : s.config.mode &&& modeRev17 ≠ 0) (free : s.forceRealPath = false)
    (emulated : checkRealPath s.config path = false) (names : s.openedPath path = some opened) :
    (fsOpen (fatModule files) path mode s).1.ret = (files.openFile opened mode s.fat.files).1 ∧
      (fsOpen (fatModule files) path mode s).2.fat.files =
        (files.openFile opened mode s.fat.files).2 := by
  have opens : (fatModule files).openFile ((generateRelativePath path).getD []) mode s.fat =
      ((files.openFile opened mode s.fat.files).1,
        { s.fat with files := (files.openFile opened mode s.fat.files).2 }) := by
    show iosOpen files _ mode s.fat = _
    unfold iosOpen
    rw [show openPath s.fat.emuNandPath ((generateRelativePath path).getD []) = _ from names]
  unfold fsOpen
  simp only [if_pos direct, free, Bool.false_eq_true, if_false, emulated, if_true]
  exact ⟨congrArg Prod.fst opens, congrArg (fun answer => answer.2.files) opens⟩

/-- The file that `FS_Open` opens under `path` is the one that the ioctls work on. -/
def Plugin.SameFile (s : Plugin (Module φ)) (path : Path) : Prop :=
  ∃ opened, s.openedPath path = some opened ∧
    collapse '/' opened = collapse '/' (generateAbsolutePath s.config path)

/-- The absolute path of an emulated path lies behind a slash in the nand path. -/
theorem generateAbsolutePath_emulated {config : FsConfig} {path : Path}
    (emulated : checkRealPath config path = false) :
    generateAbsolutePath config path =
      generateAbsolutePath config [] ++ '/' :: fatEscape path.tail := by
  have start := emulated_head emulated
  cases path with
  | nil => simp at start
  | cons c rest =>
    simp only [List.head?_cons, Option.some.injEq] at start
    subst start
    simp [generateAbsolutePath, fatEscape, escapeChar]

/-- The two routes meet exactly if the nand paths in front of them agree. -/
theorem sameFile_iff_emuNandPath {s : Plugin (Module φ)} {path : Path}
    (emulated : checkRealPath s.config path = false) {nandpath : Path}
    (told : s.fat.emuNandPath = nandpath ++ ['/']) :
    s.SameFile path ↔ collapse '/' (nandpath ++ ['/']) = collapse '/' (s.nandPath ++ ['/']) := by
  have opened : s.openedPath path = some (nandpath ++ '/' :: fatEscape path.tail) := by
    rw [Plugin.openedPath, generateRelativePath_emulated emulated, Option.getD_some,
      openPath_relative, told, List.append_assoc]
    rfl
  rw [Plugin.SameFile, opened, generateAbsolutePath_emulated emulated,
    ← collapse_append_sep_inj '/' nandpath s.nandPath (fatEscape path.tail)]
  simp only [Option.some.injEq, exists_eq_left']
  rfl

/-- After every history of mode requests, and for every emulated path, an open
and the ioctls name the same file if and only if the nand path in force, its
device included, is up to repeated slashes the one of the request that has told
the FAT module last. The path of an open is the one that `FS_Open` hands on. -/
theorem sameFile_iff (w : φ) {requests : List SetMode}
    (short : ∀ request ∈ requests, request.nandPath.length + 1 < emuNandPathSize) {path : Path}
    (emulated : checkRealPath (history files w requests).1.config path = false) :
    ((history files w requests).1.SameFile path ↔
      ∃ request, (history files w requests).2 = some request ∧
        collapse '/' (request.nandPath ++ ['/']) =
          collapse '/' ((history files w requests).1.nandPath ++ ['/'])) ∧
      ∀ opened mode, (history files w requests).1.openedPath path = some opened →
        (history files w requests).1.config.mode &&& modeRev17 ≠ 0 →
        (history files w requests).1.forceRealPath = false →
        (fsOpen (fatModule files) path mode (history files w requests).1).1.ret =
            (files.openFile opened mode (history files w requests).1.fat.files).1 ∧
          (fsOpen (fatModule files) path mode (history files w requests).1).2.fat.files =
            (files.openFile opened mode (history files w requests).1.fat.files).2 := by
  have told := history_told files w fun request mem => Nat.lt_of_succ_lt (short request mem)
  have on : (history files w requests).1.config.mode ≠ 0 := fun off => by
    rw [checkRealPath_off off] at emulated
    exact absurd emulated (by decide)
  obtain ⟨request, last⟩ := Option.isSome_iff_exists.mp (told.on on)
  refine ⟨?_, fun opened mode names direct free =>
    fsOpen_openedPath files direct free emulated names⟩
  have path := told.emuNandPath
  rw [last] at path
  rw [sameFile_iff_emuNandPath emulated path, last]
  simp only [Option.some.injEq, exists_eq_left']

/-! ## From one device to the other -/

/-- The emulation on the SD card. -/
def onSdhc : SetMode where
  env := quiet
  mode := modeSdhc
  path := "/nand".toList

/-- The emulation on the USB device, in a folder of the same name. -/
def onUsb : SetMode where
  env := quiet
  mode := modeUsb
  path := "/nand".toList

/-- A save of a game. -/
def savePath : Path := "/title/00010000/save".toList

/-- The emulation switched off. -/
def switchedOff : SetMode where
  env := quiet
  mode := 0
  path := []

/-- The rule for a move from one device to the other with the emulation off in between. -/
theorem sameFile_iff_afterOff :
    let state := history idleFat () [onSdhc, switchedOff, onUsb]
    (state.1.SameFile savePath ↔ ∃ request, state.2 = some request ∧
      collapse '/' (request.nandPath ++ ['/']) = collapse '/' (state.1.nandPath ++ ['/'])) ∧
    ∀ opened mode, state.1.openedPath savePath = some opened →
      state.1.config.mode &&& modeRev17 ≠ 0 → state.1.forceRealPath = false →
      (fsOpen (fatModule idleFat) savePath mode state.1).1.ret =
          (idleFat.openFile opened mode state.1.fat.files).1 ∧
        (fsOpen (fatModule idleFat) savePath mode state.1).2.fat.files =
          (idleFat.openFile opened mode state.1.fat.files).2 :=
  sameFile_iff idleFat () (by decide) (by decide)

/-- Moved from the SD card to the USB device, the plugin deletes a save there
while an open still finds it on the card. -/
theorem openedPath_stale :
    checkRealPath (history idleFat () [onSdhc, onUsb]).1.config savePath = false ∧
      (history idleFat () [onSdhc, onUsb]).1.openedPath savePath =
        some "0:/nand/title/00010000/save".toList ∧
      generateAbsolutePath (history idleFat () [onSdhc, onUsb]).1.config savePath =
        "1:/nand/title/00010000/save".toList ∧
      ¬ (history idleFat () [onSdhc, onUsb]).1.SameFile savePath := by
  have opened : (history idleFat () [onSdhc, onUsb]).1.openedPath savePath =
      some "0:/nand/title/00010000/save".toList := by decide
  have absolute : generateAbsolutePath (history idleFat () [onSdhc, onUsb]).1.config savePath =
      "1:/nand/title/00010000/save".toList := by decide
  refine ⟨by decide, opened, absolute, ?_⟩
  rw [Plugin.SameFile, opened, absolute]
  simp only [Option.some.injEq, exists_eq_left']
  decide

end D2xCios.Ffs
