import D2xCios.Mload.Elf

/-!
# What loading an image does

If nothing that is stored lies where the image is still to be read, the loop of `Elf_Load` goes over
the headers that the image has at the start: each note sets what its pairs say, and each segment is
laid over the memory, with the bytes of the file behind `memsz` where there are more of them.
-/

namespace D2xCios.Mload

open D2xCios.CiosLib D2xCios.Lib

section Reads

variable {mem mem' : Space 32 Byte}

end Reads

namespace Phdr

variable (data : Word) (h : Phdr)

/-- Where the segment is stored. -/
def Stores (x : Word) : Prop := h.Loads ∧ Within h.vaddr (max h.memsz.toNat h.filesz.toNat) x

/-- Where the bytes of the segment are. -/
def Source (x : Word) : Prop := h.Loads ∧ Within (data + h.offset) h.filesz.toNat x

/-- Where the header, its note and its segment are read. -/
def Reads (x : Word) : Prop :=
  Within h.entry 24 x ∨ h.type = 4 ∧ Within (data + h.offset) (4 + 8 * h.readPairs) x ∨
    h.Source data x

end Phdr

/-- No segment is stored where the image is read later on: where the number of headers is, in its
own bytes or in the `filesz` of its header, or where a header behind it, its note or its segment
is. -/
def Clear (data : Word) : List Phdr → Prop
  | [] => True
  | h :: rest =>
    (∀ x, h.Stores x → ¬ Within (ahead data 44) 2 x ∧ ¬ Within (ahead h.entry 16) 4 x ∧
      ¬ h.Source data x ∧ ∀ h' ∈ rest, ¬ h'.Reads data x) ∧ Clear data rest

section Layers

variable (mem : Space 32 Byte) (data : Word)

/-- What a segment leaves at `x` when it is loaded. -/
def stored (h : Phdr) (x : Word) : Option Byte :=
  if h.Loads then
    if Within h.vaddr h.filesz.toNat x then some
      (mem (ahead (data + h.offset) (distance h.vaddr x)))
    else if Within h.vaddr h.memsz.toNat x then some 0 else none
  else none

/-- What belongs there: the bytes of the file, and zeros behind them. -/
def placed (h : Phdr) (x : Word) : Option Byte :=
  if h.Loads ∧ Within h.vaddr h.memsz.toNat x then
    if Within h.vaddr h.filesz.toNat x then some
      (mem (ahead (data + h.offset) (distance h.vaddr x)))
    else some 0
  else none

variable {mem data}

end Layers

/-! ## Notes -/

/-- The pairs of a note that is one of the headers, as far as `count` says. -/
def notePairs (mem : Space 32 Byte) (data : Word) (count : Phdr → Nat) (h : Phdr) :
    List (Word × Word) :=
  if h.type = 4 then pairs mem (data + h.offset) (count h) else []

/-- The loop over a note ends, unless the size of the note is one of the last three. -/
def Phdr.Ends (h : Phdr) : Prop := h.memsz.toNat ≤ 0xFFFFFFFC

instance (h : Phdr) : Decidable h.Ends := inferInstanceAs (Decidable (_ ≤ _))

/-- The pairs that have been read when the loop ends. -/
def heard (mem : Space 32 Byte) (data : Word) : List Phdr → List (Word × Word)
  | [] => []
  | h :: rest =>
    if h.type = 4 ∧ wordAt mem (data + h.offset) ≠ 0 then []
    else notePairs mem data Phdr.readPairs h ++ heard mem data rest

/-- A segment that is loaded in place is lost: it is cleared before it is copied to itself. -/
theorem loadSegment_inPlace {data entry : Word} {bus : Bus}
    (inPlace : phVaddr bus.mem entry = data + phOffset bus.mem entry) :
    (loadSegment data entry bus).mem = bus.mem.put (phVaddr bus.mem entry)
      (List.replicate (phMemsz bus.mem entry).toNat 0) := by
  have memsz_lt := (phMemsz bus.mem entry).isLt
  have cleared := (@memset_writes False (phVaddr bus.mem entry) 0 (phMemsz bus.mem entry).toNat bus
    (by omega) nofun).mem
  rw [show BitVec.setWidth 8 (0 : Word) = 0 by decide] at cleared
  rw [loadSegment, ← inPlace]
  generalize (memset (phVaddr bus.mem entry) 0 (phMemsz bus.mem entry).toNat bus).2 = between
    at cleared ⊢
  have filesz_lt := (phFilesz between.mem entry).isLt
  have room : (phFilesz between.mem entry).toNat ≤ 2 ^ 32 := Nat.le_of_lt filesz_lt
  have copied := (@memcpy_copies False (phVaddr bus.mem entry) (phVaddr bus.mem entry) _ between
    room (.refl room) nofun).mem
  rw [copied, Space.put_get, cleared]

end D2xCios.Mload
