import D2xCios.Ffs.Routing

/-!
# The hook of the open syscall

`__IOP_SyscallOpen` of `iop.c` runs in the thread that opens a path, before the open becomes a
message. It tells `FS_Open`, which handles the message later and in the FS thread, about an
authorised '#' path by the flag `forceRealPath`, and hands on a path of its own in the static
buffer `newpath`. Neither belongs to the message.

The kernel is not part of the program: which paths it sends to the FS, and whether a message holds
the path or points to it, is left open.
-/

namespace D2xCios.Ffs

/-! ## The hook -/

/-- What the hook finds out about the thread that it runs in. -/
structure Caller where
  /-- `Swi_GetRunningTitle` -/
  runningTitle : Bool
  /-- `TID_RIGHTS_FORCE_REAL_NAND` -/
  forceRealNand : Bool
  /-- `TID_RIGHTS_OPEN_FAT` -/
  openFat : Bool

/-- The path that the hook returns: one of its caller, or `newpath`. -/
inductive PathPointer where
  | own (path : Path)
  | newpath
  deriving DecidableEq

/-- The plugin, and `newpath` of the hook. -/
structure Hooked (ω : Type) where
  plugin : Plugin ω
  newpath : Path

variable {ω : Type}

/-- The string behind a pointer. -/
def Hooked.read (s : Hooked ω) : PathPointer → Path
  | .own path => path
  | .newpath => s.newpath

/-- The device that is kept for the emulation on the SD card. -/
def sdioSlot0 : Path := "/dev/sdio/slot0".toList

/-- The paths that a blocked open and one of `/dev/sdio/slot0` get. -/
def gtfo : Path := "GTFO".toList
def devNull : Path := "/dev/null".toList

/-- `__IOP_SyscallOpen` -/
def syscallOpen (caller : Caller) (path : Path) (s : Hooked ω) : PathPointer × Hooked ω :=
  let config := s.plugin.config
  if path.head? = some '#' then
    if caller.forceRealNand = false then (.own path, s)
    else
      let forced := decide (config.mode &&& modeRev17 ≠ 0)
      (.newpath, { plugin := { s.plugin with forceRealPath := forced }, newpath := '/' ::
        path.tail })
  else if path.head? = some '$' ∨ path.startsWith "fat" then
    if caller.runningTitle ∧ caller.openFat = false then
      (.newpath, { s with newpath := gtfo })
    else (.own path, s)
  else if config.mode ≠ 0 then
    if config.mode &&& modeSdhc ≠ 0 ∧ path = sdioSlot0 then
      (.newpath, { s with newpath := devNull })
    else if config.mode &&& modeRev17 = 0 ∧ checkRealPath config path = false then
      match generateRelativePath path with
      | some relative => (.newpath, { s with newpath := relative })
      | none => (.own path, s)
    else (.own path, s)
  else (.own path, s)

/-- An authorised thread opens a '#' path. -/
def Caller.Forces (caller : Caller) (path : Path) : Prop :=
  path.head? = some '#' ∧ caller.forceRealNand = true

/-- The path is replaced by an invalid one, or by `/dev/null`. -/
def Caller.Diverts (caller : Caller) (config : FsConfig) (path : Path) : Prop :=
  (path.head? = some '$' ∨ path.startsWith "fat") ∧ caller.runningTitle ∧ caller.openFat = false ∨
    config.mode &&& modeSdhc ≠ 0 ∧ path = sdioSlot0

instance (caller : Caller) (path : Path) : Decidable (caller.Forces path) :=
  inferInstanceAs (Decidable (_ ∧ _))

/-! ## What the hook does -/

/-- The device of the card is real. -/
theorem slot0_real (config : FsConfig) : checkRealPath config sdioSlot0 = true := by
  refine Bool.eq_true_of_not_eq_false fun emulated => ?_
  rcases emulated_cases emulated with ⟨-, device, -⟩ | ⟨-, start, among, starts⟩
  · exact absurd device (by decide)
  · have other : ∀ start ∈ partialStarts, sdioSlot0.startsWith start = false := by decide
    exact Bool.false_ne_true ((other start among).symm.trans starts)

/-- How a path to the FAT module begins. -/
theorem fat_head {path : Path} (relative : path.head? = some '$' ∨ path.startsWith "fat") :
    path.head? = some '$' ∨ path.head? = some 'f' :=
  relative.imp_right (startsWith_head rfl)

/-- A path that is diverted is not an emulated one. -/
theorem Caller.Diverts.real {caller : Caller} {config : FsConfig} {path : Path}
    (diverts : caller.Diverts config path) : checkRealPath config path = true := by
  rcases diverts with ⟨relative, -⟩ | ⟨-, rfl⟩
  · refine Bool.eq_true_of_not_eq_false fun emulated => ?_
    have first := emulated_head emulated
    rcases fat_head relative with other | other <;> rw [other] at first <;> cases first
  · exact slot0_real config

/-- With direct emulation, the hook announces a forced open, replaces the path of a diverted one,
and hands on all other paths. -/
theorem syscallOpen_cases (caller : Caller) (path : Path) {s : Hooked ω}
    (direct : s.plugin.config.mode &&& modeRev17 ≠ 0) :
    (caller.Forces path ∧ syscallOpen caller path s =
      (.newpath, ⟨{ s.plugin with forceRealPath := true }, '/' :: path.tail⟩)) ∨
    (¬ caller.Forces path ∧ caller.Diverts s.plugin.config path ∧
      ∃ other, syscallOpen caller path s = (.newpath, { s with newpath := other })) ∨
    (¬ caller.Forces path ∧ ¬ caller.Diverts s.plugin.config path ∧
      syscallOpen caller path s = (.own path, s)) := by
  have on : s.plugin.config.mode ≠ 0 := fun off => direct (by rw [off]; decide)
  unfold syscallOpen Caller.Forces Caller.Diverts
  by_cases hash : path.head? = some '#'
  · have noFat : ¬ (path.head? = some '$' ∨ path.startsWith "fat") := fun relative => by
      rcases fat_head relative with other | other <;> rw [other] at hash <;> cases hash
    have noSlot : path ≠ sdioSlot0 := fun slot => by
      rw [slot] at hash
      cases hash
    cases rights : caller.forceRealNand with
    | false => exact .inr (.inr ⟨fun forces => Bool.false_ne_true forces.2,
        fun diverts => diverts.elim (noFat ·.1) (noSlot ·.2), by rw [if_pos hash, if_pos rfl]⟩)
    | true =>
      refine .inl ⟨⟨hash, rfl⟩, ?_⟩
      rw [if_pos hash, if_neg Bool.true_eq_false.mp, decide_eq_true direct]
  · have plain : ¬ (path.head? = some '#' ∧ caller.forceRealNand = true) := (hash ·.1)
    rw [if_neg hash]
    by_cases relative : path.head? = some '$' ∨ path.startsWith "fat"
    · have noSlot : path ≠ sdioSlot0 := fun slot => by
        rw [slot] at relative
        revert relative
        decide
      rw [if_pos relative]
      by_cases blocked : caller.runningTitle = true ∧ caller.openFat = false
      · exact .inr (.inl ⟨plain, .inl ⟨relative, blocked⟩, _, if_pos blocked⟩)
      · exact .inr (.inr ⟨plain, fun diverts => diverts.elim (blocked ·.2) (noSlot ·.2),
          if_neg blocked⟩)
    · rw [if_neg relative, if_pos on]
      by_cases slot : s.plugin.config.mode &&& modeSdhc ≠ 0 ∧ path = sdioSlot0
      · exact .inr (.inl ⟨plain, .inr slot, _, if_pos slot⟩)
      · refine .inr (.inr ⟨plain, fun diverts => diverts.elim (relative ·.1) slot, ?_⟩)
        rw [if_neg slot, if_neg (direct ·.1)]

/-- The path of a relative open is handed on to the FAT module when the caller has the right. -/
theorem syscallOpen_relative {caller : Caller} (rights : caller.openFat = true) (rest : Path)
    (s : Hooked ω) : syscallOpen caller ('$' :: rest) s = (.own ('$' :: rest), s) := by
  simp [syscallOpen, rights]

end D2xCios.Ffs
