import D2xCios.Lib.Words

/-!
# stripios

`main.cpp` of stripios, which is run when the modules are built. It reads an ELF file and writes
one with the same segments, in which the zero-address one has become a note and a load that covers
the program headers as well.

An `unsigned long` has 64 bits, and `getbe32` makes it from an `int`: from 2^31 on a word is
extended with its sign. `fseek` refuses what is then a negative offset.
-/

namespace D2xCios.Stripios

open D2xCios.Lib

/-- The bytes of a file. -/
abbrev File := List UInt8

/-- `elfheader` -/
structure Elfheader where
  ident0 : UInt32
  ident1 : UInt32
  ident2 : UInt32
  ident3 : UInt32
  machinetype : UInt32
  version : UInt32
  entry : UInt32
  phoff : UInt32
  shoff : UInt32
  flags : UInt32
  ehsize : UInt16
  phentsize : UInt16
  phnum : UInt16
  shentsize : UInt16
  shnum : UInt16
  shtrndx : UInt16
  deriving DecidableEq

/-- `elfphentry` -/
structure Elfphentry where
  type : UInt32
  offset : UInt32
  vaddr : UInt32
  paddr : UInt32
  filesz : UInt32
  memsz : UInt32
  flags : UInt32
  align : UInt32
  deriving DecidableEq

/-- `sizeof(elfheader)` and `sizeof(elfphentry)` -/
def sizeofElfheader : Nat := 0x34
def sizeofElfphentry : Nat := 0x20

/-- An `elfheader` in memory. -/
def Elfheader.ofMem (mem : Mem) (offset : Nat) : Elfheader where
  ident0 := be32 mem offset
  ident1 := be32 mem (offset + 4)
  ident2 := be32 mem (offset + 8)
  ident3 := be32 mem (offset + 12)
  machinetype := be32 mem (offset + 16)
  version := be32 mem (offset + 20)
  entry := be32 mem (offset + 24)
  phoff := be32 mem (offset + 28)
  shoff := be32 mem (offset + 32)
  flags := be32 mem (offset + 36)
  ehsize := be16 mem (offset + 40)
  phentsize := be16 mem (offset + 42)
  phnum := be16 mem (offset + 44)
  shentsize := be16 mem (offset + 46)
  shnum := be16 mem (offset + 48)
  shtrndx := be16 mem (offset + 50)

/-- An `elfphentry` in memory. -/
def Elfphentry.ofMem (mem : Mem) (offset : Nat) : Elfphentry where
  type := be32 mem offset
  offset := be32 mem (offset + 4)
  vaddr := be32 mem (offset + 8)
  paddr := be32 mem (offset + 12)
  filesz := be32 mem (offset + 16)
  memsz := be32 mem (offset + 20)
  flags := be32 mem (offset + 24)
  align := be32 mem (offset + 28)

def Elfheader.bytes (h : Elfheader) : File :=
  bytes32 h.ident0 ++ (bytes32 h.ident1 ++ (bytes32 h.ident2 ++ (bytes32 h.ident3 ++
    (bytes32 h.machinetype ++ (bytes32 h.version ++ (bytes32 h.entry ++ (bytes32 h.phoff ++
      (bytes32 h.shoff ++ (bytes32 h.flags ++ (bytes16 h.ehsize ++ (bytes16 h.phentsize ++
        (bytes16 h.phnum ++ (bytes16 h.shentsize ++ (bytes16 h.shnum ++
          bytes16 h.shtrndx))))))))))))))

def Elfphentry.bytes (p : Elfphentry) : File :=
  bytes32 p.type ++ (bytes32 p.offset ++ (bytes32 p.vaddr ++ (bytes32 p.paddr ++
    (bytes32 p.filesz ++ (bytes32 p.memsz ++ (bytes32 p.flags ++ bytes32 p.align))))))

@[simp] theorem Elfheader.bytes_length (h : Elfheader) : h.bytes.length = sizeofElfheader := rfl

@[simp] theorem Elfphentry.bytes_length (p : Elfphentry) : p.bytes.length = sizeofElfphentry := rfl

/-- `getbe32` -/
def getbe32 (word : UInt32) : UInt64 := ⟨word.toBitVec.signExtend 64⟩

/-- `putbe32` -/
def putbe32 (val : UInt64) : UInt32 := val.toUInt32

/-- `fread` of `n` bytes, where the file is at `pos`. -/
def fread (file : File) (pos n : Nat) : Option File :=
  if n = 0 then some [] else if pos + n ≤ file.length then some ((file.drop pos).take n) else none

/-- `fseek` with `SEEK_SET`: where the file is then. -/
def fseek (offset : UInt64) (pos : Nat) : Nat :=
  if offset < 0x8000000000000000 then offset.toNat else pos

/-- The header that is written. -/
def iosHeader (header : Elfheader) : Elfheader where
  ident0 := header.ident0
  ident1 := 0x01020161
  ident2 := 0x01000000
  ident3 := 0
  machinetype := 0x20028
  version := 1
  entry := header.entry
  phoff := 0x34
  shoff := 0
  flags := 0x606
  ehsize := 0x34
  phentsize := 0x20
  phnum := header.phnum + 2
  shentsize := 0
  shnum := 0
  shtrndx := 0

/-- The loop that finds the zero-address entry, from entry `i` on: the last one of them. -/
def findIos : (i : Nat) → (iosphentry : Option Nat) → List Elfphentry → Option Nat
  | _, iosphentry, [] => iosphentry
  | i, iosphentry, p :: rest => findIos (i + 1) (if getbe32 p.paddr = 0 then some i else iosphentry)
    rest

/-- Where the next segment goes. -/
structure Place where
  phoff : UInt64
  vaddr : UInt64
  paddr : UInt64

/-- An entry that is not the zero-address one, with what is stored over its `filesz`. -/
def stripped (strip : UInt64) (p : Elfphentry) : Elfphentry :=
  if strip = getbe32 p.vaddr ∧ strip ≠ 0 then { p with filesz := putbe32 1 } else p

/-- The entry that is written for it. -/
def otherEntry (strip : UInt64) (p : Elfphentry) (s : Place) : Elfphentry where
  type := putbe32 (getbe32 p.type)
  offset := putbe32 s.phoff
  vaddr := putbe32 (getbe32 p.vaddr)
  paddr := putbe32 (getbe32 p.paddr)
  filesz := putbe32 (getbe32 (stripped strip p).filesz)
  memsz := putbe32 (getbe32 p.memsz)
  flags := putbe32 (getbe32 p.flags ||| 0xf00000)
  align := 4

/-- The size of the table that is written. -/
def tableSize (phnum : Nat) : UInt64 := UInt64.ofNat ((phnum + 2) * 0x20)

section Ios

variable (phnum : Nat) (p : Elfphentry) (s : Place)

/-- `PHDR` -/
def phdrEntry : Elfphentry where
  type := 6
  offset := putbe32 s.phoff
  vaddr := putbe32 s.paddr
  paddr := putbe32 s.vaddr
  filesz := putbe32 (tableSize phnum)
  memsz := putbe32 (tableSize phnum)
  flags := 0x00F00000
  align := 4

/-- `NOTE` -/
def noteEntry : Elfphentry where
  type := 4
  offset := putbe32 (s.phoff + tableSize phnum)
  vaddr := putbe32 (s.vaddr + tableSize phnum)
  paddr := putbe32 (s.paddr + tableSize phnum)
  filesz := putbe32 (getbe32 p.memsz)
  memsz := putbe32 (getbe32 p.memsz)
  flags := 0x00F00000
  align := 4

/-- `LOAD` -/
def loadEntry : Elfphentry where
  type := 1
  offset := putbe32 s.phoff
  vaddr := putbe32 s.vaddr
  paddr := putbe32 s.paddr
  filesz := putbe32 (tableSize phnum + getbe32 p.memsz)
  memsz := putbe32 (tableSize phnum + getbe32 p.memsz)
  flags := 0x00F00000
  align := 0x4000

/-- Behind the three. -/
def iosPlace : Place where
  phoff := s.phoff + tableSize phnum + getbe32 p.memsz
  vaddr := s.vaddr + tableSize phnum + getbe32 p.memsz
  paddr := s.paddr + tableSize phnum + getbe32 p.memsz

end Ios

/-- The loop over the entries, from entry `i` on: the entries with what is stored over them, and
those that are written. -/
def layout (strip : UInt64) (phnum ios : Nat) :
    (i : Nat) → List Elfphentry → Place → List Elfphentry × List Elfphentry
  | _, [], _ => ([], [])
  | i, p :: rest, s =>
    if i = ios then
      let (origentries, entries) := layout strip phnum ios (i + 1) rest (iosPlace phnum p s)
      (p :: origentries,
        [phdrEntry phnum s, noteEntry phnum p s, loadEntry phnum p s] ++ entries)
    else
      let filesz := getbe32 (stripped strip p).filesz
      let (origentries, entries) :=
        layout strip phnum ios (i + 1) rest { s with phoff := s.phoff + filesz }
      (stripped strip p :: origentries, otherEntry strip p s :: entries)

/-- The loop that writes the segments. There is no memory for a negative number of bytes. -/
def writeSegments (fin : File) : List Elfphentry → (pos : Nat) → (fout : File) → Option File
  | [], _, fout => some fout
  | p :: rest, pos, fout =>
    let offset := getbe32 p.offset
    let filesz := getbe32 p.filesz
    if filesz ≠ 0 then
      let pos := fseek offset pos
      if 0x8000000000000000 ≤ filesz then none
      else
        (fread fin pos filesz.toNat).bind fun data =>
          writeSegments fin rest (pos + filesz.toNat) (fout ++ data)
    else writeSegments fin rest pos fout

/-- The entries in a table that has been read. -/
def entriesOf (bytes : File) (phnum : Nat) : List Elfphentry :=
  (List.range phnum).map fun i => Elfphentry.ofMem (bufferOf bytes) (sizeofElfphentry * i)

/-- `main` with the strip address that it is given, 0 if it is not: the file that is written by a
run that exits with 0. -/
def main (strip : UInt64) (fin : File) : Option File :=
  (fread fin 0 sizeofElfheader).bind fun bytes =>
    let header := Elfheader.ofMem (bufferOf bytes) 0
    if getbe32 header.ident0 ≠ 0x7F454C46 then none
    else
      let phnum := header.phnum.toNat
      let pos := fseek (getbe32 header.phoff) sizeofElfheader
      (fread fin pos (sizeofElfphentry * phnum)).bind fun bytes =>
        let origentries := entriesOf bytes phnum
        (findIos 0 none origentries).bind fun ios =>
          let (origentries, entries) := layout strip phnum ios 0 origentries ⟨0x34, 0, 0⟩
          writeSegments fin origentries (pos + sizeofElfphentry * phnum)
            ((iosHeader header).bytes ++ entries.flatMap Elfphentry.bytes)

end D2xCios.Stripios
