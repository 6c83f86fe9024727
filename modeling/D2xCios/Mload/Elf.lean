import D2xCios.CiosLib.Effects
import D2xCios.Lib.Layers

/-!
# Loading an ELF image

`elf.c`. The image is in the same memory as the segments that are loaded from it, and every field
of a header is read where it is used. What a thread is started with is in the global `elf`.
-/

namespace D2xCios.Mload

open D2xCios.CiosLib D2xCios.Lib

/-- `elfdata` -/
structure ElfData where
  start : Word
  stack : Word
  prio : Word
  sizeStack : Word
  deriving DecidableEq

/-- `elf` when the module starts. -/
def ElfData.boot : ElfData where
  start := 0
  stack := 0
  prio := 0
  sizeStack := 0

/-- `u16` in memory. -/
def halfAt (mem : Space 32 Byte) (a : Word) : BitVec 16 := mem a ++ mem (ahead a 1)

section Fields

variable (mem : Space 32 Byte)

/-- The fields of `elfheader` at `head`. -/
def ident0 (head : Word) : Word := wordAt mem head
def ident1 (head : Word) : Word := wordAt mem (ahead head 4)
def ident2 (head : Word) : Word := wordAt mem (ahead head 8)
def entryPoint (head : Word) : Word := wordAt mem (ahead head 24)
def phoff (head : Word) : Word := wordAt mem (ahead head 28)
def phnum (head : Word) : BitVec 16 := halfAt mem (ahead head 44)

/-- The fields of `elfphentry` at `entry`. -/
def phType (entry : Word) : Word := wordAt mem entry
def phOffset (entry : Word) : Word := wordAt mem (ahead entry 4)
def phVaddr (entry : Word) : Word := wordAt mem (ahead entry 8)
def phFilesz (entry : Word) : Word := wordAt mem (ahead entry 16)
def phMemsz (entry : Word) : Word := wordAt mem (ahead entry 20)

end Fields

/-- What a pair of a note sets. -/
def note (elf : ElfData) (pair : Word × Word) : ElfData :=
  if pair.1 = 0x9 then { elf with start := pair.2 }
  else if pair.1 = 0x7D then { elf with prio := pair.2 }
  else if pair.1 = 0x7E then { elf with sizeStack := pair.2 }
  else if pair.1 = 0x7F then { elf with stack := pair.2 }
  else elf

/-- The loop over the pairs of a note. If `j` goes round it is 4 again, and the loop does not
end. -/
def noteLoop (mem : Space 32 Byte) (addr memsz j : Word) (elf : ElfData) : Option ElfData :=
  if j < memsz then
    let elf := note elf (wordAt mem (addr + j), wordAt mem (addr + j + 4))
    if next : j.toNat + 8 < 2 ^ 32 then noteLoop mem addr memsz (j + 8) elf else none
  else some elf
termination_by 2 ^ 32 - j.toNat
decreasing_by
  rw [BitVec.toNat_add, show (8 : Word).toNat = 8 from rfl]
  omega

/-- `memset`, and then `memcpy` with the size that is in the header by then. -/
def loadSegment (data entry : Word) (bus : Bus) : Bus :=
  let dst := phVaddr bus.mem entry
  let src := data + phOffset bus.mem entry
  let bus := (memset dst 0 (phMemsz bus.mem entry).toNat bus).2
  (memcpy dst src (phFilesz bus.mem entry).toNat bus).2

/-- A header that is not a note. -/
def loadEntry (data entry : Word) (bus : Bus) : Bus :=
  if phType bus.mem entry = 1 ∧ phMemsz bus.mem entry ≠ 0 ∧ phVaddr bus.mem entry ≠ 0 then
    loadSegment data entry bus
  else bus

/-- The loop of `Elf_Load`: the result, the memory and `elf`, or nothing if it does not end. -/
def elfEntries (data : Word) (i : Nat) (pos : Word) (bus : Bus) (elf : ElfData) :
    Option (Int × Bus × ElfData) :=
  if more : i < (phnum bus.mem data).toNat then
    let entry := data + pos
    if phType bus.mem entry = 4 then
      let addr := data + phOffset bus.mem entry
      if wordAt bus.mem addr ≠ 0 then some (-2, bus, elf)
      else
        (noteLoop bus.mem addr (phMemsz bus.mem entry) 4 elf).bind fun elf =>
          elfEntries data (i + 1) (pos + 32) (loadEntry data entry bus) elf
    else elfEntries data (i + 1) (pos + 32) (loadEntry data entry bus) elf
  else some (0, bus, elf)
termination_by 2 ^ 16 - i
decreasing_by all_goals omega

/-- `Elf_Load` -/
def elfLoad (data : Word) (bus : Bus) (elf : ElfData) : Option (Int × Bus × ElfData) :=
  if ident0 bus.mem data ≠ 0x7F454C46 ∨ ident1 bus.mem data ≠ 0x01020161 ∨
      ident2 bus.mem data ≠ 0x01000000 then some (-1, bus, elf)
  else
    let pos := phoff bus.mem data
    elfEntries data 0 pos bus { elf with start := entryPoint bus.mem data }

/-! ## The image -/

/-- A program header, and where it is. -/
structure Phdr where
  entry : Word
  type : Word
  offset : Word
  vaddr : Word
  filesz : Word
  memsz : Word

/-- The header at `entry`. -/
def readPhdr (mem : Space 32 Byte) (entry : Word) : Phdr where
  entry := entry
  type := phType mem entry
  offset := phOffset mem entry
  vaddr := phVaddr mem entry
  filesz := phFilesz mem entry
  memsz := phMemsz mem entry

/-- The headers of the image at `data`. -/
def phdrs (mem : Space 32 Byte) (data : Word) : List Phdr :=
  (List.range (phnum mem data).toNat).map fun i =>
    readPhdr mem (ahead (data + phoff mem data) (32 * i))

namespace Phdr

variable (h : Phdr)

/-- The header is of a segment that is loaded. -/
def Loads : Prop := h.type = 1 ∧ h.memsz ≠ 0 ∧ h.vaddr ≠ 0

instance : Decidable h.Loads := inferInstanceAs (Decidable (_ ∧ _ ∧ _))

/-- The number of pairs that the loop over a note reads: those that begin in the note. -/
def readPairs : Nat := (h.memsz.toNat - 4 + 7) / 8

/-- The number of pairs that are in the note as a whole. -/
def wholePairs : Nat := (h.memsz.toNat - 4) / 8

end Phdr

/-- The first pairs of the note at `addr`. -/
def pairs (mem : Space 32 Byte) (addr : Word) (count : Nat) : List (Word × Word) :=
  (List.range count).map fun k =>
    (wordAt mem (ahead addr (4 + 8 * k)), wordAt mem (ahead addr (8 + 8 * k)))

end D2xCios.Mload
