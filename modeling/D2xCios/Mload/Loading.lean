import D2xCios.Mload.Images

/-!
# What a loaded image decides

The memory that an image asks for, what its notes say of the thread that it is started in, and when
`Elf_Load` leaves just that, whatever has been loaded before.
-/

namespace D2xCios.Mload

open D2xCios.CiosLib D2xCios.Lib

/-! ## The values of a note -/

/-- The value of the last pair with a key. -/
def lastOf (key : Word) (ps : List (Word × Word)) : Option Word :=
  (ps.reverse.find? fun pair => pair.1 = key).map Prod.snd

section Image

variable (mem : Space 32 Byte) (data : Word)

/-- The memory with every segment in its place: the bytes of the file, and zeros up to `memsz`. -/
def laid : Space 32 Byte := overlaid (placed mem data) mem (phdrs mem data)

/-- The pairs of the notes, as far as the notes hold them. -/
def imagePairs : List (Word × Word) :=
  (phdrs mem data).flatMap (notePairs mem data Phdr.wholePairs)

/-- The pairs as the loops over the notes read them: the last one may run over the end. -/
def pairsRead : List (Word × Word) :=
  (phdrs mem data).flatMap (notePairs mem data Phdr.readPairs)

/-- What the image says of its thread: its entry point, and the pairs of its notes. -/
def given : ElfData :=
  (imagePairs mem data).foldl note { ElfData.boot with start := entryPoint mem data }

/-- The values of the notes are those of pairs that they hold, and none of the three that the
header does not give is left out. -/
structure Settled : Prop where
  start : (lastOf 0x9 (pairsRead mem data)).getD (entryPoint mem data) =
    (lastOf 0x9 (imagePairs mem data)).getD (entryPoint mem data)
  others : ∀ key ∈ [(0x7D : Word), 0x7E, 0x7F], ∃ value,
    lastOf key (pairsRead mem data) = some value ∧
      value = (lastOf key (imagePairs mem data)).getD 0

end Image

/-- What `elf` can be when an image is loaded: as at the start, or left by earlier loads. -/
inductive Left : ElfData → Prop
  | boot : Left .boot
  | loaded {data : Word} {bus bus' : Bus} {elf elf' : ElfData} {ret : Int} (before : Left elf)
      (run : elfLoad data bus elf = some (ret, bus', elf')) : Left elf'

/-- Whatever has been loaded before, a load that returns 0 leaves what the image asks for, and one
that returns a negative value changes nothing. -/
def Determined (data : Word) (bus : Bus) : Prop :=
  ∀ elf, Left elf → ∀ ret bus' elf', elfLoad data bus elf = some (ret, bus', elf') →
    (ret = 0 → bus'.mem = laid bus.mem data ∧ elf' = given bus.mem data) ∧
      (ret < 0 → bus'.mem = bus.mem ∧ elf' = elf)

/-- Everything is 0. -/
def blankBus (bytes : List Byte) : Bus where
  mem := Space.put (fun _ => 0) 0 bytes
  stores := []

/-- The header of an image with the entry point 16 and `count` program headers behind it. -/
def headerBytes (count : Byte) : List Byte :=
  [0x7F, 0x45, 0x4C, 0x46, 1, 2, 1, 0x61, 1, 0, 0, 0, 0, 0, 0, 0, 0, 2, 0, 0x28, 0, 0, 0, 1,
    0, 0, 0, 16, 0, 0, 0, 52, 0, 0, 0, 0, 0, 0, 0, 0, 0, 0x34, 0, 0x20, 0, count, 0, 0, 0, 0, 0, 0]

/-- What the first of them leaves. -/
def noted : ElfData where
  start := 16
  stack := 0x10000
  prio := 80
  sizeStack := 0x400

/-- An image with one segment of four bytes, for the place where it is. -/
def inPlaceImage : Bus := blankBus <| headerBytes 1 ++
  [0, 0, 0, 1, 0, 0, 0, 84, 0, 0, 0, 84, 0, 0, 0, 0, 0, 0, 0, 4, 0, 0, 0, 4, 0, 0, 0, 0, 0, 0, 0,
    0] ++ [1, 2, 3, 4]

/-- Its segment is not copied but cleared. -/
theorem inPlaceImage_not_determined : ¬ Determined 0 inPlaceImage := by
  intro determined
  have cleared := @loadSegment_inPlace 0 (0 + phoff inPlaceImage.mem 0) inPlaceImage (by decide)
  have entry : loadEntry 0 (0 + phoff inPlaceImage.mem 0) inPlaceImage =
      loadSegment 0 (0 + phoff inPlaceImage.mem 0) inPlaceImage := if_pos (by decide)
  have last : ¬ 0 + 1 <
      (phnum (loadEntry 0 (0 + phoff inPlaceImage.mem 0) inPlaceImage).mem 0).toNat := by
    rw [entry, cleared]
    decide
  have run : elfLoad 0 inPlaceImage .boot =
      some (0, loadEntry 0 (0 + phoff inPlaceImage.mem 0) inPlaceImage,
        { ElfData.boot with start := entryPoint inPlaceImage.mem 0 }) := by
    rw [elfLoad, if_neg (by decide), elfEntries, dif_pos (by decide)]
    dsimp only
    rw [if_neg (by decide), elfEntries, dif_neg last]
  have memory := ((determined .boot .boot 0 _ _ run).1 rfl).1
  rw [entry, cleared] at memory
  exact absurd (congrFun memory 84) (by decide)

end D2xCios.Mload
