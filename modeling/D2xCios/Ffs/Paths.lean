import Mathlib.Data.List.Basic
import Mathlib.Data.UInt

/-!
# Paths of the NAND emulation

`fs_tools.c` of the FFS plugin and `fat_tools.c`: which paths are emulated, and
the two forms in which an emulated path is handed to the FAT module. Strings are
lists of characters without their final NUL.
-/

namespace D2xCios.Ffs

/-- A C string. -/
abbrev Path := List Char

/-- `strncmp(path, start, strlen(start)) == 0` -/
def Path.startsWith (path : Path) (start : String) : Bool := start.toList.isPrefixOf path

/-! ## The configuration -/

/-- The mode bits. -/
def modeSdhc : UInt32 := 0x01
def modeUsb : UInt32 := 0x02
def modeRev17 : UInt32 := 0x80
def modeFull : UInt32 := 0x100

/-- `struct fsConfig`; `pathlen` is the length of `path`. -/
structure FsConfig where
  mode : UInt32
  path : Path
  deriving DecidableEq

/-- Emulation is off. -/
def FsConfig.off : FsConfig where
  mode := 0
  path := []

/-! ## Emulated and real paths -/

/-- `FS_CheckRealPath` -/
def checkRealPath (config : FsConfig) (path : Path) : Bool :=
  if config.mode ≠ 0 then
    -- used by ES_LAUNCHTITLE, never emulated
    if path = "/tmp/launch.sys".toList then true
    else if config.mode &&& modeFull ≠ 0 then
      if path.startsWith "/dev" then true else decide (path.head? ≠ some '/')
    else if path.startsWith "/ticket/" then
      let p : Path := path.drop 8
      if p.startsWith "00010001" then false
      else if p.startsWith "00010005" then false
      else true
    else if path.startsWith "/title/" then
      let p : Path := path.drop 7
      if p.startsWith "00010000" then false
      else if p.startsWith "00010001" then false
      else if p.startsWith "00010004" then false
      else if p.startsWith "00010005" then false
      else true
    else if path.startsWith "/tmp" then
      decide (path.drop 4 = "/uid.sys".toList)
    else if path.startsWith "/import" then false
    else if path = "/sys/disc.sys".toList then false
    else true
  else true

/-- `FS_MatchPath`; the pattern `#` stands for any character. -/
def matchPath (strict : Bool) : (path pattern : Path) → Bool
  | [], [] => true
  | [], _ :: _ => false
  | _ :: _, [] => !strict
  | c :: path, p :: pattern =>
    if p ≠ '#' ∧ c ≠ p then false else matchPath strict path pattern

/-! ## Paths of the FAT module -/

/-- The escape sequence of a character that is invalid in FAT. -/
def escapeChar (c : Char) : Path :=
  if c = '"' then "&qt;".toList
  else if c = '*' then "&st;".toList
  else if c = ':' then "&cl;".toList
  else if c = '<' then "&lt;".toList
  else if c = '>' then "&gt;".toList
  else if c = '?' then "&qm;".toList
  else if c = '|' then "&vb;".toList
  else [c]

/-- `FAT_Escape` -/
def fatEscape (src : Path) : Path := src.flatMap escapeChar

/-- The device prefix of an absolute path. -/
def devicePrefix (mode : UInt32) : Path :=
  let device := mode &&& (modeSdhc ||| modeUsb)
  if device = modeSdhc then "0:".toList else if device = modeUsb then "1:".toList else []

/-- `FS_GenerateAbsolutePath` -/
def generateAbsolutePath (config : FsConfig) (fspath : Path) : Path :=
  devicePrefix config.mode ++ config.path ++ fatEscape fspath

/-- `FS_GenerateRelativePath`, which generates nothing for a path that does not
start with '/'. -/
def generateRelativePath (fspath : Path) : Option Path :=
  if fspath.head? ≠ some '/' then none else some ('$' :: fspath.tail)

/-! ## Facts about paths -/

/-- With the emulation off every path is real. -/
theorem checkRealPath_off {config : FsConfig} (off : config.mode = 0) (path : Path) :
    checkRealPath config path = true := by
  simp [checkRealPath, off]

/-- A path begins with the first character of its start. -/
theorem startsWith_head {path : Path} {start : String} {c : Char} {rest : Path}
    (first : start.toList = c :: rest) (starts : path.startsWith start = true) :
    path.head? = some c := by
  rw [Path.startsWith, first, List.isPrefixOf_iff_prefix] at starts
  obtain ⟨tail, rfl⟩ := starts
  rfl

/-- What the paths start with that are emulated without `MODE_FULL`. -/
def partialStarts : List String := ["/ticket/", "/title/", "/tmp", "/import", "/sys/disc.sys"]

/-- The paths that are emulated: all but those of devices, or those with one of a few starts. -/
theorem emulated_cases {config : FsConfig} {path : Path}
    (emulated : checkRealPath config path = false) :
    config.mode &&& modeFull ≠ 0 ∧ path.startsWith "/dev" = false ∧ path.head? = some '/' ∨
      config.mode &&& modeFull = 0 ∧ ∃ start ∈ partialStarts, path.startsWith start = true := by
  unfold checkRealPath at emulated
  by_cases on : config.mode ≠ 0
  case neg =>
    rw [if_neg on] at emulated
    cases emulated
  rw [if_pos on] at emulated
  by_cases launch : path = "/tmp/launch.sys".toList
  · rw [if_pos launch] at emulated
    cases emulated
  rw [if_neg launch] at emulated
  by_cases full : config.mode &&& modeFull ≠ 0
  · rw [if_pos full] at emulated
    by_cases device : path.startsWith "/dev" = true
    · rw [if_pos device] at emulated
      cases emulated
    · rw [if_neg device, decide_eq_false_iff_not, not_not] at emulated
      exact .inl ⟨full, Bool.eq_false_of_not_eq_true device, emulated⟩
  rw [if_neg full] at emulated
  refine .inr ⟨not_not.1 full, ?_⟩
  by_cases ticket : path.startsWith "/ticket/" = true
  · exact ⟨_, by decide, ticket⟩
  rw [if_neg ticket] at emulated
  by_cases title : path.startsWith "/title/" = true
  · exact ⟨_, by decide, title⟩
  rw [if_neg title] at emulated
  by_cases tmp : path.startsWith "/tmp" = true
  · exact ⟨_, by decide, tmp⟩
  rw [if_neg tmp] at emulated
  by_cases imported : path.startsWith "/import" = true
  · exact ⟨_, by decide, imported⟩
  rw [if_neg imported] at emulated
  by_cases disc : path = "/sys/disc.sys".toList
  · exact ⟨"/sys/disc.sys", by decide, disc ▸ by decide⟩
  · rw [if_neg disc] at emulated
    cases emulated

/-- An emulated path starts with '/'. -/
theorem emulated_head {config : FsConfig} {path : Path}
    (emulated : checkRealPath config path = false) : path.head? = some '/' := by
  rcases emulated_cases emulated with ⟨-, -, first⟩ | ⟨-, start, among, starts⟩
  · exact first
  · have slash : ∀ start ∈ partialStarts, start.toList = '/' :: start.toList.tail := by decide
    exact startsWith_head (slash start among) starts

/-- The relative form of an emulated path. -/
theorem generateRelativePath_emulated {config : FsConfig} {path : Path}
    (emulated : checkRealPath config path = false) :
    generateRelativePath path = some ('$' :: path.tail) := by
  rw [generateRelativePath, if_neg (by simpa using emulated_head emulated)]

end D2xCios.Ffs
