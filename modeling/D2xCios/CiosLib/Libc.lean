import D2xCios.Lib.AddressSpace
import D2xCios.Lib.Terminated

/-!
# The C library of the modules

`libc.c`. Addresses, words and bytes are those of the processor, which is big-endian. MEM1 does not
take stores of single bytes, so that below `MEM1_SIZE` a byte is put into the word that holds it,
and that word is stored. Which of the two is done for a run of bytes is decided by the first of
them.
-/

namespace D2xCios.CiosLib

open D2xCios.Lib

abbrev Byte := BitVec 8
abbrev Word := BitVec 32

/-- `MEM1_SIZE` -/
def mem1Size : Word := 0x1800000

/-- A store: its address and the number of bytes. -/
structure Store where
  addr : Word
  width : Nat
  deriving DecidableEq

/-- What MEM1 takes: words at their alignment. -/
def Store.Safe (store : Store) : Prop :=
  store.addr < mem1Size → store.width = 4 ∧ store.addr.toNat % 4 = 0

/-- The memory, and all the stores that have been made. -/
structure Bus where
  mem : Space 32 Byte
  stores : List Store

/-- The bytes of a word in memory. -/
def bytesOf (word : Word) : List Byte :=
  [word.extractLsb' 24 8, word.extractLsb' 16 8, word.extractLsb' 8 8, word.extractLsb' 0 8]

@[simp] theorem bytesOf_length (word : Word) : (bytesOf word).length = 4 := rfl

/-- The word in the four bytes at `a`. -/
def wordAt (mem : Space 32 Byte) (a : Word) : Word :=
  mem a ++ mem (ahead a 1) ++ mem (ahead a 2) ++ mem (ahead a 3)

namespace Bus

/-- `*(unsigned char *)a` -/
def load8 (bus : Bus) (a : Word) : Byte := bus.mem a

/-- `*(unsigned int *)a` -/
def load32 (bus : Bus) (a : Word) : Word := wordAt bus.mem a

/-- `*(unsigned char *)a = data` -/
def store8 (a : Word) (data : Byte) (bus : Bus) : Bus where
  mem := bus.mem.put a [data]
  stores := bus.stores ++ [⟨a, 1⟩]

/-- `*(unsigned int *)a = data` -/
def store32 (a data : Word) (bus : Bus) : Bus where
  mem := bus.mem.put a (bytesOf data)
  stores := bus.stores ++ [⟨a, 4⟩]

/-- `*addr = (*addr & ~(0xFF << offset)) | (data << offset)` -/
def merge (dest : Word) (data : Byte) (bus : Bus) : Bus :=
  let addr := dest &&& ~~~3#32
  let offset := 24#32 - (dest &&& 3#32) * 8#32
  bus.store32 addr
    ((bus.load32 addr &&& ~~~(0xFF#32 <<< offset)) ||| (data.setWidth 32 <<< offset))

/-- `*addr = *addr & ~(0xFF << offset)` -/
def clear (dest : Word) (bus : Bus) : Bus :=
  let addr := dest &&& ~~~3#32
  let offset := 24#32 - (dest &&& 3#32) * 8#32
  bus.store32 addr (bus.load32 addr &&& ~~~(0xFF#32 <<< offset))

/-- One byte, in the branch for MEM1 or in the other one. -/
def storeByte (inMem1 : Bool) (dest : Word) (data : Byte) (bus : Bus) : Bus :=
  if inMem1 then bus.merge dest data else bus.store8 dest data

/-- The padding of `strncpy`, in the branch for MEM1 or in the other one. -/
def storeNul (inMem1 : Bool) (dest : Word) (bus : Bus) : Bus :=
  if inMem1 then bus.clear dest else bus.store8 dest 0

end Bus

/-! ## memset -/

/-- The loops of `memset_inner`. -/
def memsetBytes (inMem1 : Bool) (c : Byte) : (size : Nat) → (dest : Word) → Bus → Bus
  | 0, _, bus => bus
  | size + 1, dest, bus => memsetBytes inMem1 c size (dest + 1) (bus.storeByte inMem1 dest c)

/-- `memset_inner` -/
def memsetInner (dest : Word) (c : Byte) (size : Nat) (bus : Bus) : Bus :=
  memsetBytes (decide (dest < mem1Size)) c size dest bus

/-- The loop of `memset` over whole words: where it ends, what is left, and the bus. -/
def memsetWords (data32 : Word) (size : Nat) (dest : Word) (bus : Bus) : Word × Nat × Bus :=
  if 4 ≤ size then memsetWords data32 (size - 4) (dest + 4) (bus.store32 dest data32)
  else (dest, size, bus)

/-- `memset` behind its first bytes. -/
def memsetAligned (dest : Word) (data : Byte) (size : Nat) (bus : Bus) : Bus :=
  let data32 := (data.setWidth 32 <<< 8) ||| data.setWidth 32
  let data32 := (data32 <<< 16) ||| data32
  let (dest, size, bus) := memsetWords data32 size dest bus
  if 0 < size then memsetInner dest data size bus else bus

/-- `memset` -/
def memset (dest c : Word) (size : Nat) (bus : Bus) : Word × Bus :=
  let data : Byte := c.setWidth 8
  if size = 0 then (dest, bus)
  else if dest &&& 3#32 ≠ 0 then
    let cnt := (4 - (dest &&& 3#32)).toNat
    if size ≤ cnt then (dest, memsetInner dest data size bus)
    else
      let bus := memsetInner dest data cnt bus
      (dest, memsetAligned (ahead dest cnt) data (size - cnt) bus)
  else (dest, memsetAligned dest data size bus)

/-! ## memcpy -/

/-- The words that are loaded before any of them is stored. -/
def loadWords (bus : Bus) (src : Word) (count : Nat) : List Word :=
  (List.range count).map fun i => bus.load32 (ahead src (4 * i))

/-- They are stored in order. -/
def storeWords : (words : List Word) → (dest : Word) → Bus → Bus
  | [], _, bus => bus
  | word :: words, dest, bus => storeWords words (dest + 4) (bus.store32 dest word)

/-- A loop of `memcpy` over blocks of `count` words: where it ends, what is left, and the bus. -/
def memcpyBlocks (count : Nat) (size : Nat) (dest src : Word) (bus : Bus) :
    Word × Word × Nat × Bus :=
  if 0 < count ∧ 4 * count ≤ size then
    memcpyBlocks count (size - 4 * count) (ahead dest (4 * count)) (ahead src (4 * count))
      (storeWords (loadWords bus src count) dest bus)
  else (dest, src, size, bus)
termination_by size

/-- The loops of `memcpy` over bytes. -/
def memcpyBytes (inMem1 : Bool) : (size : Nat) → (dest src : Word) → Bus → Bus
  | 0, _, _, bus => bus
  | size + 1, dest, src, bus =>
    memcpyBytes inMem1 size (dest + 1) (src + 1) (bus.storeByte inMem1 dest (bus.load8 src))

/-- `memcpy` -/
def memcpy (dest src : Word) (size : Nat) (bus : Bus) : Word × Bus :=
  let dst := dest
  if size = 0 then (dst, bus)
  else if (dest ||| src) &&& 3#32 = 0 then
    let (dest, src, size, bus) := memcpyBlocks 8 size dest src bus
    let (dest, src, size, bus) := memcpyBlocks 4 size dest src bus
    let (dest, src, size, bus) := memcpyBlocks 1 size dest src bus
    (dst, memcpyBytes (decide (dest < mem1Size)) size dest src bus)
  else (dst, memcpyBytes (decide (dest < mem1Size)) size dest src bus)

/-! ## Strings -/

/-- The loops that copy bytes up to a NUL, in at most `rounds` rounds. -/
def copyString (inMem1 : Bool) : (rounds : Nat) → (s1 s2 : Word) → Bus → Option Bus
  | 0, _, _, _ => none
  | rounds + 1, s1, s2, bus =>
    let data := bus.load8 s2
    let bus := bus.storeByte inMem1 s1 data
    if data = 0 then some bus else copyString inMem1 rounds (s1 + 1) (s2 + 1) bus

/-- `while (*s1) s1++`, in at most `rounds` rounds. -/
def stringEnd (bus : Bus) : (rounds : Nat) → (s1 : Word) → Option Word
  | 0, _ => none
  | rounds + 1, s1 => if bus.load8 s1 = 0 then some s1 else stringEnd bus rounds (s1 + 1)

/-- `strcpy` -/
def strcpy (rounds : Nat) (s1 s2 : Word) (bus : Bus) : Option (Word × Bus) :=
  (copyString (decide (s1 < mem1Size)) rounds s1 s2 bus).map fun bus => (s1, bus)

/-- `strcat` -/
def strcat (rounds : Nat) (s1 s2 : Word) (bus : Bus) : Option (Word × Bus) :=
  (stringEnd bus rounds s1).bind fun last =>
    (copyString (decide (last < mem1Size)) rounds last s2 bus).map fun bus => (s1, bus)

/-- The first loop of `strncpy`: where it ends, what is left, and the bus. -/
def strncpyCopy (inMem1 : Bool) : (num : Nat) → (dest src : Word) → Bus → Word × Nat × Bus
  | 0, dest, _, bus => (dest, 0, bus)
  | num + 1, dest, src, bus =>
    let data := bus.load8 src
    let bus := bus.storeByte inMem1 dest data
    if data = 0 then (dest + 1, num, bus) else strncpyCopy inMem1 num (dest + 1) (src + 1) bus

/-- The second loop of `strncpy`. -/
def strncpyPad (inMem1 : Bool) : (num : Nat) → (dest : Word) → Bus → Bus
  | 0, _, bus => bus
  | num + 1, dest, bus => strncpyPad inMem1 num (dest + 1) (bus.storeNul inMem1 dest)

/-- `strncpy` -/
def strncpy (dest src : Word) (num : Nat) (bus : Bus) : Word × Bus :=
  let inMem1 := decide (dest < mem1Size)
  let (last, num, bus) := strncpyCopy inMem1 num dest src bus
  (dest, strncpyPad inMem1 num last bus)

end D2xCios.CiosLib
