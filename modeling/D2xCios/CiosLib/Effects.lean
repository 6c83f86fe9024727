import D2xCios.CiosLib.Libc
import Mathlib.Tactic.IntervalCases

/-!
# What the C library leaves in memory

Every loop of `libc.c` stores one run of bytes. `Writes` says which, and that MEM1 takes each store,
the latter under a condition, as it does not hold of a run that goes round the address space. Runs
that meet compose, so that each routine is the run of its parts.
-/

namespace D2xCios.CiosLib

open D2xCios.Lib

/-- The `n` bytes from `a` on end at the end of the address space, or before. -/
def Fits (a : Word) (n : Nat) : Prop := a.toNat + n ≤ 2 ^ 32

/-- An address further on, below the end of the address space. -/
theorem toNat_ahead {a : Word} {n : Nat} (inside : a.toNat + n < 2 ^ 32) :
    (ahead a n).toNat = a.toNat + n := by
  rw [ahead, BitVec.toNat_add, BitVec.toNat_ofNat, Nat.mod_eq_of_lt (show n < 2 ^ 32 by omega),
    Nat.mod_eq_of_lt inside]

/-- What is between the two states is a run of stores of `values` from `dest` on, each of which MEM1
takes under a condition. -/
structure Writes (when : Prop) (dest : Word) (values : List Byte) (before after : Bus) : Prop where
  mem : after.mem = before.mem.put dest values
  stores : when → ∃ new, after.stores = before.stores ++ new ∧ ∀ store ∈ new, store.Safe

/-- A run of stores that copies the `n` bytes from `src` on. -/
def Copies (when : Prop) (dest src : Word) (n : Nat) (before after : Bus) : Prop :=
  Writes when dest (before.mem.get src n) before after

variable {when : Prop}

namespace Writes

variable {dest : Word} {values more : List Byte} {s t u : Bus}

theorem nil (dest : Word) (s : Bus) : Writes when dest [] s s where
  mem := rfl
  stores _ := ⟨[], (List.append_nil _).symm, fun _ inside => absurd inside List.not_mem_nil⟩

/-- Two runs of values, one behind the other. -/
theorem append (first : Writes when dest values s t)
    (second : Writes when (ahead dest values.length) more t u)
    (room : values.length + more.length ≤ 2 ^ 32) : Writes when dest (values ++ more) s u where
  mem := by rw [second.mem, first.mem, Space.put_append _ _ _ _ room]
  stores holds := by
    obtain ⟨new, stored, safe⟩ := first.stores holds
    obtain ⟨new', stored', safe'⟩ := second.stores holds
    refine ⟨new ++ new', by rw [stored', stored, List.append_assoc], fun store inside => ?_⟩
    exact (List.mem_append.1 inside).elim (safe store) (safe' store)

/-- A value, and a run behind it. -/
theorem cons {value : Byte} (first : Writes when dest [value] s t)
    (second : Writes when (dest + 1) values t u) (room : values.length < 2 ^ 32) :
    Writes when dest (value :: values) s u :=
  first.append second (show [value].length + values.length ≤ 2 ^ 32 from Nat.add_comm 1 _ ▸ room)

end Writes

namespace Copies

variable {dest src : Word} {n k : Nat} {s t u : Bus}

theorem zero (dest src : Word) (s : Bus) : Copies when dest src 0 s s := .nil dest s

/-- Two copies, one behind the other. -/
theorem add (first : Copies when dest src n s t)
    (second : Copies when (ahead dest n) (ahead src n) k t u) (room : n + k ≤ 2 ^ 32)
    (forward : Forward dest src (n + k)) : Copies when dest src (n + k) s u := by
  have kept : t.mem.get (ahead src n) k = s.mem.get (ahead src n) k := by
    rw [first.mem]
    refine Space.get_put_apart _ ?_
    rw [Space.get_length]
    exact forward.apart
  rw [Copies, kept] at second
  rw [Copies, Space.get_add]
  refine Writes.append first ?_ (by simpa using room)
  rwa [Space.get_length]

end Copies

/-! ## Stores -/

/-- A byte store writes its byte, if it goes behind MEM1. -/
theorem store8_writes {dest : Word} (data : Byte) (bus : Bus) (high : when → mem1Size ≤ dest) :
    Writes when dest [data] bus (bus.store8 dest data) where
  mem := rfl
  stores holds := by
    refine ⟨_, rfl, fun store inside low => ?_⟩
    rw [List.mem_singleton.1 inside] at low
    exact absurd low (BitVec.not_lt.2 (high holds))

/-- An aligned word store writes the four bytes of its word. -/
theorem store32_writes {dest : Word} (data : Word) (bus : Bus) (aligned : dest.toNat % 4 = 0) :
    Writes when dest (bytesOf data) bus (bus.store32 dest data) where
  mem := rfl
  stores _ := by
    refine ⟨_, rfl, fun store inside _ => ?_⟩
    rw [List.mem_singleton.1 inside]
    exact ⟨rfl, aligned⟩

/-- The bits of a loaded word, by the bytes they are in. -/
theorem getLsbD_wordAt (mem : Space 32 Byte) (a : Word) (i : Nat) :
    (wordAt mem a).getLsbD i =
      if i < 8 then (mem (ahead a 3)).getLsbD i
      else if i - 8 < 8 then (mem (ahead a 2)).getLsbD (i - 8)
      else if i - 8 - 8 < 8 then (mem (ahead a 1)).getLsbD (i - 8 - 8)
      else (mem a).getLsbD (i - 8 - 8 - 8) := by
  have bits (b c d e : Byte) : (b ++ c ++ d ++ e).getLsbD i =
      if i < 8 then e.getLsbD i
      else if i - 8 < 8 then d.getLsbD (i - 8)
      else if i - 8 - 8 < 8 then c.getLsbD (i - 8 - 8) else b.getLsbD (i - 8 - 8 - 8) := by
    simp only [BitVec.getLsbD_append]
  exact bits _ _ _ _

/-- A word that is loaded has the bytes that are there. -/
theorem bytesOf_wordAt (mem : Space 32 Byte) (a : Word) : bytesOf (wordAt mem a) = mem.get a 4 := by
  have cells : mem.get a 4 = [mem (ahead a 0), mem (ahead a 1), mem (ahead a 2), mem (ahead a 3)] :=
    rfl
  have byte {start : Nat} {b : Byte} (bits : ∀ i < 8, (wordAt mem a).getLsbD (start + i) =
      b.getLsbD i) : (wordAt mem a).extractLsb' start 8 = b :=
    BitVec.eq_of_getLsbD_eq fun i i_lt => by
      rw [BitVec.getLsbD_extractLsb', decide_eq_true i_lt, Bool.true_and, bits i i_lt]
  rw [cells, ahead_zero, bytesOf]
  congr
  · refine byte fun i i_lt => ?_
    rw [getLsbD_wordAt, if_neg (by omega), if_neg (by omega), if_neg (by omega)]
    congr 1
    omega
  · refine byte fun i i_lt => ?_
    rw [getLsbD_wordAt, if_neg (by omega), if_neg (by omega), if_pos (by omega)]
    congr 1
    omega
  · refine byte fun i i_lt => ?_
    rw [getLsbD_wordAt, if_neg (by omega), if_pos (by omega)]
    congr 1
    omega
  · refine byte fun i i_lt => ?_
    rw [getLsbD_wordAt, if_pos (by omega), Nat.zero_add]

/-- The bits of the byte mask. -/
theorem getLsbD_ff (n : Nat) : (0xFF#32).getLsbD n = decide (n < 8) := by
  by_cases small : n < 32
  · have all : ∀ n : Fin 32, (0xFF#32).getLsbD n = decide (n.val < 8) := by decide
    exact all ⟨n, small⟩
  · rw [BitVec.getLsbD_of_ge _ _ (by omega), decide_eq_false (by omega)]

/-- A byte of a word into which another one has been merged. -/
theorem extract_merged (word : Word) (data : Byte) {j k : Nat} (j_lt : j < 4) (k_lt : k < 4) :
    BitVec.extractLsb' (8 * j) 8
        ((word &&& ~~~(0xFF#32 <<< (8 * k))) ||| (data.setWidth 32 <<< (8 * k))) =
      if j = k then data else BitVec.extractLsb' (8 * j) 8 word := by
  refine BitVec.eq_of_getLsbD_eq fun i i_lt => ?_
  have high : 8 * j + i < 32 := by omega
  simp only [BitVec.getLsbD_extractLsb', BitVec.getLsbD_or, BitVec.getLsbD_and, BitVec.getLsbD_not,
    BitVec.getLsbD_shiftLeft, BitVec.getLsbD_setWidth, getLsbD_ff, high, i_lt, decide_true,
    Bool.true_and]
  rcases Nat.lt_trichotomy j k with below | rfl | above
  · have under : 8 * j + i < 8 * k := by omega
    rw [if_neg (Nat.ne_of_lt below)]
    simp [under, i_lt, high]
  · have near : ¬ 8 * j + i < 8 * j := by omega
    rw [if_pos rfl]
    simp [near, i_lt, show i < 32 by omega]
  · have beyond : ¬ 8 * j + i < 8 * k := by omega
    have far : 8 ≤ 8 * j + i - 8 * k := by omega
    rw [if_neg (Nat.ne_of_gt above), BitVec.getLsbD_of_ge data _ far]
    simp [beyond, Nat.not_lt.2 far, i_lt, high]

/-- The bytes of a word into which another one has been merged. -/
theorem bytesOf_merged (mem : Space 32 Byte) (a : Word) (data : Byte) {k : Nat} (k_lt : k < 4) :
    bytesOf ((wordAt mem a &&& ~~~(0xFF#32 <<< (8 * (3 - k)))) |||
        (data.setWidth 32 <<< (8 * (3 - k)))) =
      mem.get a k ++ [data] ++ mem.get (ahead a (k + 1)) (3 - k) := by
  have byte {j : Nat} (j_lt : j < 4) :=
    extract_merged (wordAt mem a) data (j := j) (k := 3 - k) j_lt (by omega)
  have bytes := bytesOf_wordAt mem a
  have merged : bytesOf ((wordAt mem a &&& ~~~(0xFF#32 <<< (8 * (3 - k)))) |||
      (data.setWidth 32 <<< (8 * (3 - k)))) = (bytesOf (wordAt mem a)).set k data := by
    rw [bytesOf, byte (j := 3) (by omega), byte (j := 2) (by omega), byte (j := 1) (by omega),
      byte (j := 0) (by omega), bytesOf]
    interval_cases k <;> rfl
  rw [merged, bytes]
  have split := Space.get_add mem a k (1 + (3 - k))
  rw [← Nat.add_assoc, show k + 1 + (3 - k) = 4 by omega, Space.get_add, ahead_ahead] at split
  rw [split, List.set_append_right _ _ (by rw [Space.get_length]), Space.get_length, Nat.sub_self,
    List.append_assoc]
  rfl

/-- The place of a byte in the word that holds it. -/
theorem exists_place (dest : Word) : ∃ k < 4, dest &&& 3#32 = BitVec.ofNat 32 k ∧
    (dest &&& ~~~3#32).toNat % 4 = 0 ∧ dest = ahead (dest &&& ~~~3#32) k := by
  have low : (dest &&& 3#32).toNat = dest.toNat % 4 := by
    rw [BitVec.toNat_and]
    exact Nat.and_two_pow_sub_one_eq_mod dest.toNat 2
  have high : (dest &&& ~~~3#32).toNat % 4 = 0 := by
    have none : (dest &&& ~~~3#32) &&& 3#32 = 0#32 := by
      rw [BitVec.and_assoc, show ~~~3#32 &&& 3#32 = 0#32 by decide, BitVec.and_zero]
    have mod := congrArg BitVec.toNat none
    rw [BitVec.toNat_and] at mod
    rw [← Nat.and_two_pow_sub_one_eq_mod _ 2]
    exact mod
  refine ⟨dest.toNat % 4, Nat.mod_lt _ (by decide), ?_, high, ?_⟩
  · rw [← low, BitVec.ofNat_toNat, BitVec.setWidth_eq]
  · rw [ahead, ← low, BitVec.ofNat_toNat, BitVec.setWidth_eq,
      BitVec.add_eq_or_of_and_eq_zero _ _ (by
        rw [BitVec.and_comm dest 3#32, BitVec.and_assoc, ← BitVec.and_assoc (~~~3#32),
          show ~~~3#32 &&& 3#32 = 0#32 by decide, BitVec.zero_and, BitVec.and_zero]),
      ← BitVec.and_or_distrib_left, show ~~~3#32 ||| 3#32 = BitVec.allOnes 32 by decide,
      BitVec.and_allOnes]

/-- A byte that is merged into its word is the only one that changes. -/
theorem merge_writes (dest : Word) (data : Byte) (bus : Bus) :
    Writes when dest [data] bus (bus.merge dest data) := by
  obtain ⟨k, k_lt, low, aligned, place⟩ := exists_place dest
  have offset : (24#32 - (dest &&& 3#32) * 8#32).toNat = 8 * (3 - k) := by
    rw [low]
    interval_cases k <;> rfl
  have merged := @store32_writes when _ ((bus.load32 (dest &&& ~~~3#32) &&&
    ~~~(0xFF#32 <<< (24#32 - (dest &&& 3#32) * 8#32))) |||
      (data.setWidth 32 <<< (24#32 - (dest &&& 3#32) * 8#32))) bus aligned
  refine ⟨?_, merged.stores⟩
  rw [Bus.merge, merged.mem, BitVec.shiftLeft_eq', BitVec.shiftLeft_eq', offset, Bus.load32,
    bytesOf_merged _ _ _ k_lt]
  have patch := Space.put_patch bus.mem (dest &&& ~~~3#32) k (3 - k) [data]
    (by rw [List.length_singleton]; omega)
  rw [List.length_singleton, ← place] at patch
  exact patch

/-- Storing a zero byte is merging one. -/
theorem clear_eq (dest : Word) (bus : Bus) : bus.clear dest = bus.merge dest 0 := by
  have none : (0 : Byte).setWidth 32 <<< (24#32 - (dest &&& 3#32) * 8#32) = 0#32 :=
    BitVec.zero_shiftLeft _
  rw [Bus.clear, Bus.merge, none, BitVec.or_zero]

/-- A run that is stored byte by byte does not reach MEM1. -/
def Chosen (inMem1 : Bool) (dest : Word) (n : Nat) : Prop :=
  inMem1 = false → ∀ i < n, mem1Size ≤ ahead dest i

/-- A run that does not cross the end of MEM1 is all on the side it begins on. -/
theorem chosen_decide {dest : Word} {n : Nat} (fits : Fits dest n) :
    Chosen (decide (dest < mem1Size)) dest n := by
  intro high i i_lt
  have start := BitVec.le_def.1 (BitVec.not_lt.1 (of_decide_eq_false high))
  unfold Fits at fits
  rw [BitVec.le_def, toNat_ahead (by omega)]
  omega

/-- The rest of a run further on is on the same side of the end of MEM1. -/
theorem Chosen.later {inMem1 : Bool} {dest : Word} {n k : Nat}
    (chosen : Chosen inMem1 dest (n + k)) : Chosen inMem1 (ahead dest n) k := by
  intro high i i_lt
  rw [ahead_ahead]
  exact chosen high (n + i) (by omega)

/-- The rest of a run behind its first byte is on the same side of the end of MEM1. -/
theorem Chosen.tail {inMem1 : Bool} {dest : Word} {n : Nat}
    (chosen : Chosen inMem1 dest (n + 1)) : Chosen inMem1 (dest + 1) n :=
  Chosen.later (n := 1) (Nat.add_comm n 1 ▸ chosen)

/-- A byte is written whichever way its side asks for. -/
theorem storeByte_writes {inMem1 : Bool} {dest : Word} {n : Nat}
    (chosen : when → Chosen inMem1 dest (n + 1)) (data : Byte) (bus : Bus) :
    Writes when dest [data] bus (bus.storeByte inMem1 dest data) := by
  cases inMem1 with
  | true => exact merge_writes dest data bus
  | false =>
    refine store8_writes data bus fun holds => ?_
    have first := chosen holds rfl 0 n.succ_pos
    rwa [ahead_zero] at first

/-- The terminator is written as any other byte. -/
theorem storeNul_eq (inMem1 : Bool) (dest : Word) (bus : Bus) :
    bus.storeNul inMem1 dest = bus.storeByte inMem1 dest 0 := by
  rw [Bus.storeNul, clear_eq]
  rfl

/-! ## memset -/

/-- The byte loop writes its run. -/
theorem memsetBytes_writes {inMem1 : Bool} (c : Byte) {size : Nat} {dest : Word} (bus : Bus)
    (room : size ≤ 2 ^ 32) (chosen : when → Chosen inMem1 dest size) :
    Writes when dest (List.replicate size c) bus (memsetBytes inMem1 c size dest bus) := by
  induction size generalizing dest bus with
  | zero => exact .nil dest bus
  | succ size ih =>
    have first := storeByte_writes chosen c bus
    have rest := ih (bus.storeByte inMem1 dest c) (by omega) fun holds => (chosen holds).tail
    exact first.cons rest (by rw [List.length_replicate]; omega)

/-- The word that holds a byte four times. -/
theorem bytesOf_repeated (c : Byte) :
    let data32 := (c.setWidth 32 <<< 8) ||| c.setWidth 32
    bytesOf ((data32 <<< 16) ||| data32) = List.replicate 4 c := by
  intro data32
  have byte {start : Nat} (bits : ∀ i < 8, ((data32 <<< 16) ||| data32).getLsbD (start + i) =
      c.getLsbD i) : ((data32 <<< 16) ||| data32).extractLsb' start 8 = c :=
    BitVec.eq_of_getLsbD_eq fun i i_lt => by
      rw [BitVec.getLsbD_extractLsb', decide_eq_true i_lt, Bool.true_and, bits i i_lt]
  have behind {i : Nat} (i_ge : 8 ≤ i) : c.getLsbD i = false := BitVec.getLsbD_of_ge c i i_ge
  have word {i : Nat} (i_lt : i < 32) : data32.getLsbD i =
      if i < 8 then c.getLsbD i else c.getLsbD (i - 8) := by
    by_cases low : i < 8
    · simp [data32, low, i_lt]
    · simp [data32, low, i_lt, behind (Nat.le_of_not_lt low)]
  have both {i : Nat} (i_lt : i < 32) : ((data32 <<< 16) ||| data32).getLsbD i =
      (!decide (i < 16) && data32.getLsbD (i - 16) || data32.getLsbD i) := by
    rw [BitVec.getLsbD_or, BitVec.getLsbD_shiftLeft, decide_eq_true i_lt, Bool.true_and]
  rw [bytesOf]
  congr
  · refine byte fun i i_lt => ?_
    rw [both (by omega), word (by omega), word (by omega), if_neg (by omega), if_neg (by omega),
      behind (show 8 ≤ 24 + i - 8 by omega), show 24 + i - 16 - 8 = i by omega]
    simp [show ¬ 24 + i < 16 by omega]
  · refine byte fun i i_lt => ?_
    rw [both (by omega), word (by omega), word (by omega), if_pos (by omega), if_neg (by omega),
      behind (show 8 ≤ 16 + i - 8 by omega), show 16 + i - 16 = i by omega]
    simp [show ¬ 16 + i < 16 by omega]
  · refine byte fun i i_lt => ?_
    rw [both (by omega), word (show 8 + i < 32 by omega), if_neg (by omega),
      show 8 + i - 8 = i by omega]
    simp [show 8 + i < 16 by omega]
  · refine byte fun i i_lt => ?_
    rw [both (by omega), word (show 0 + i < 32 by omega), if_pos (by omega), Nat.zero_add]
    simp [show i < 16 by omega]

/-- The word loop writes the whole words of its run. -/
theorem memsetWords_writes {data32 : Word} {c : Byte} (bytes : bytesOf data32 = List.replicate 4 c)
    {size : Nat} {dest : Word} (bus : Bus) (room : size ≤ 2 ^ 32) (aligned : dest.toNat % 4 = 0) :
    ∃ done, size = done + (memsetWords data32 size dest bus).2.1 ∧
      (memsetWords data32 size dest bus).1 = ahead dest done ∧
      Writes when dest (List.replicate done c) bus (memsetWords data32 size dest bus).2.2 := by
  induction size, dest, bus using memsetWords.induct data32 with
  | case1 size dest bus enough ih =>
    rw [memsetWords, if_pos enough]
    have next : (dest + 4).toNat % 4 = 0 := by
      rw [BitVec.toNat_add, show (4 : Word).toNat = 4 from rfl]
      omega
    obtain ⟨done, left, last, rest⟩ := ih (by omega) next
    have first := @store32_writes when _ data32 bus aligned
    rw [bytes] at first
    refine ⟨4 + done, by omega, ?_, ?_⟩
    · rw [last, ← ahead_ahead]
      rfl
    · rw [List.replicate_add]
      refine first.append rest ?_
      rw [List.length_replicate, List.length_replicate]
      omega
  | case2 size dest bus short =>
    rw [memsetWords, if_neg short]
    exact ⟨0, (Nat.zero_add _).symm, (ahead_zero dest).symm, .nil dest bus⟩

/-- The rest of a run that fits, fits. -/
theorem Fits.later {a : Word} {n k : Nat} (fits : Fits a (n + k)) : Fits (ahead a n) k := by
  unfold Fits at *
  by_cases inside : a.toNat + n < 2 ^ 32
  · rw [toNat_ahead inside]
    omega
  · have bound := (ahead a n).isLt
    omega

/-- The first part of a run that fits, fits. -/
theorem Fits.first {a : Word} {n k : Nat} (fits : Fits a (n + k)) : Fits a n := by
  unfold Fits at *
  omega

/-- `memset` from any address on, byte by byte. -/
theorem memsetInner_writes (c : Byte) {size : Nat} {dest : Word} (bus : Bus)
    (room : size ≤ 2 ^ 32) (fits : when → Fits dest size) :
    Writes when dest (List.replicate size c) bus (memsetInner dest c size bus) :=
  memsetBytes_writes c bus room fun holds => chosen_decide (fits holds)

/-- `memset` from an aligned address on. -/
theorem memsetAligned_writes (c : Byte) {size : Nat} {dest : Word} (bus : Bus)
    (room : size ≤ 2 ^ 32) (fits : when → Fits dest size) (aligned : dest.toNat % 4 = 0) :
    Writes when dest (List.replicate size c) bus (memsetAligned dest c size bus) := by
  obtain ⟨done, left, last, words⟩ :=
    @memsetWords_writes when _ c (bytesOf_repeated c) size dest bus room aligned
  rw [memsetAligned]
  generalize memsetWords _ size dest bus = ended at *
  obtain ⟨last', left', bus'⟩ := ended
  obtain rfl : last' = ahead dest done := last
  obtain rfl : size = done + left' := left
  have tail := memsetInner_writes c bus' (by omega) fun holds => (fits holds).later
  by_cases more : 0 < left'
  · simp only [if_pos more]
    rw [List.replicate_add]
    refine words.append ?_ (by simpa using room)
    rwa [List.length_replicate]
  · simp only [if_neg more]
    obtain rfl : left' = 0 := by omega
    exact words

/-- The bytes up to the next word. -/
theorem aligned_ahead (dest : Word) : (ahead dest (4 - (dest &&& 3#32)).toNat).toNat % 4 = 0 := by
  obtain ⟨k, k_lt, low, aligned, place⟩ := exists_place dest
  have cnt : (4 - (dest &&& 3#32)).toNat = 4 - k := by
    rw [low]
    interval_cases k <;> rfl
  have next : ahead dest (4 - k) = (dest &&& ~~~3#32) + 4 := by
    have moved := congrArg (ahead · (4 - k)) place
    simp only [ahead_ahead, show k + (4 - k) = 4 by omega] at moved
    exact moved
  rw [cnt, next, BitVec.toNat_add, show (4 : Word).toNat = 4 from rfl]
  omega

/-- The two lowest bits of an address. -/
theorem toNat_low (dest : Word) : (dest &&& 3#32).toNat = dest.toNat % 4 := by
  rw [BitVec.toNat_and]
  exact Nat.and_two_pow_sub_one_eq_mod dest.toNat 2

/-- `memset` writes its run. -/
theorem memset_writes (dest c : Word) {size : Nat} (bus : Bus) (room : size ≤ 2 ^ 32)
    (fits : when → Fits dest size) :
    Writes when dest (List.replicate size (c.setWidth 8)) bus (memset dest c size bus).2 := by
  unfold memset
  by_cases empty : size = 0
  · simp only [if_pos empty]
    subst empty
    exact .nil dest bus
  simp only [if_neg empty]
  by_cases odd : dest &&& 3#32 ≠ 0
  · simp only [if_pos odd]
    split
    case isTrue short => exact memsetInner_writes _ bus room fits
    case isFalse long =>
      obtain ⟨more, rfl⟩ := Nat.exists_eq_add_of_le (Nat.le_of_not_le long)
      rw [Nat.add_sub_cancel_left, List.replicate_add]
      have first := memsetInner_writes (c.setWidth 8) bus (by omega) fun holds => (fits holds).first
      have rest := memsetAligned_writes (c.setWidth 8) (memsetInner dest (c.setWidth 8)
        (4 - (dest &&& 3#32)).toNat bus) (by omega) (fun holds => (fits holds).later)
        (aligned_ahead dest)
      refine first.append ?_ (by simpa using room)
      rwa [List.length_replicate]
  · simp only [if_neg odd]
    refine memsetAligned_writes _ bus room fits ?_
    rw [← toNat_low, not_not.1 odd]
    rfl

@[simp] theorem memset_returns (dest c : Word) (size : Nat) (bus : Bus) :
    (memset dest c size bus).1 = dest := by
  unfold memset
  split
  · rfl
  · dsimp only
    split
    · split <;> rfl
    · rfl

/-! ## memcpy -/

/-- An aligned address stays aligned over whole words. -/
theorem aligned_later {a : Word} {n : Nat} (aligned : a.toNat % 4 = 0) (whole : n % 4 = 0) :
    (ahead a n).toNat % 4 = 0 := by
  rw [ahead, BitVec.toNat_add, BitVec.toNat_ofNat]
  omega

/-- Four bytes for each word. -/
theorem length_flatMap_bytesOf (words : List Word) :
    (words.flatMap bytesOf).length = 4 * words.length := by
  induction words with
  | nil => rfl
  | cons word words ih =>
    rw [List.flatMap_cons, List.length_append, ih, bytesOf_length, List.length_cons]
    omega

/-- A block of word stores writes the bytes of its words. -/
theorem storeWords_writes {words : List Word} {dest : Word} (bus : Bus)
    (room : 4 * words.length ≤ 2 ^ 32) (aligned : dest.toNat % 4 = 0) :
    Writes when dest (words.flatMap bytesOf) bus (storeWords words dest bus) := by
  induction words generalizing dest bus with
  | nil => exact .nil dest bus
  | cons word words ih =>
    rw [List.length_cons] at room
    have first := @store32_writes when _ word bus aligned
    have rest := @ih (ahead dest 4) (bus.store32 dest word) (by omega)
      (aligned_later aligned rfl)
    have bound : (bytesOf word).length + (words.flatMap bytesOf).length ≤ 2 ^ 32 := by
      rw [bytesOf_length, length_flatMap_bytesOf]
      omega
    exact first.append rest bound

/-- A block of word loads takes the bytes of the source. -/
theorem loadWords_bytes (bus : Bus) (src : Word) (count : Nat) :
    (loadWords bus src count).flatMap bytesOf = bus.mem.get src (4 * count) := by
  induction count with
  | zero => rfl
  | succ count ih =>
    rw [Nat.mul_add, Space.get_add, ← ih, loadWords, List.range_succ, List.map_append,
      List.flatMap_append]
    refine congrArg (_ ++ ·) ?_
    exact (List.flatMap_singleton _ _).trans (bytesOf_wordAt _ _)

/-- A loop of `memcpy` has copied a number of whole words and ended at `result`. -/
def Progress (when : Prop) (dest src : Word) (size : Nat) (bus : Bus)
    (result : Word × Word × Nat × Bus) : Prop :=
  ∃ done, done % 4 = 0 ∧ size = done + result.2.2.1 ∧ result.1 = ahead dest done ∧
    result.2.1 = ahead src done ∧ Copies when dest src done bus result.2.2.2

/-- A part that has been copied, and the progress behind it. -/
theorem Progress.step {dest src : Word} {size done left : Nat} {s t : Bus}
    {result : Word × Word × Nat × Bus} (whole : done % 4 = 0)
    (first : Copies when dest src done s t)
    (rest : Progress when (ahead dest done) (ahead src done) left t result)
    (split : size = done + left) (room : size ≤ 2 ^ 32) (forward : Forward dest src size) :
    Progress when dest src size s result := by
  obtain ⟨more, whole', left, last, last', copies⟩ := rest
  refine ⟨done + more, by omega, by omega, ?_, ?_, ?_⟩
  · rw [last, ahead_ahead]
  · rw [last', ahead_ahead]
  · exact first.add copies (by omega) (forward.shorter (by omega))

/-- The block loop copies whole blocks, and leaves the rest to the next loop. -/
theorem memcpyBlocks_progress (count : Nat) {size : Nat} {dest src : Word} (bus : Bus)
    (room : size ≤ 2 ^ 32) (aligned : dest.toNat % 4 = 0) (forward : Forward dest src size) :
    Progress when dest src size bus (memcpyBlocks count size dest src bus) := by
  induction size, dest, src, bus using memcpyBlocks.induct count with
  | case1 size dest src bus enough ih =>
    rw [memcpyBlocks, if_pos enough]
    have whole : 4 * count % 4 = 0 := Nat.mul_mod_right 4 count
    have length : (loadWords bus src count).length = count := by
      rw [loadWords, List.length_map, List.length_range]
    have first := @storeWords_writes when (loadWords bus src count) _ bus
      (by rw [length]; omega) aligned
    rw [loadWords_bytes] at first
    exact .step whole first (ih (by omega) (aligned_later aligned whole)
      (forward.later (by omega))) (by omega) room forward
  | case2 size dest src bus short =>
    rw [memcpyBlocks, if_neg short]
    exact ⟨0, rfl, (Nat.zero_add _).symm, (ahead_zero dest).symm, (ahead_zero src).symm,
      .zero dest src bus⟩

/-- The byte loop copies its run. -/
theorem memcpyBytes_copies {inMem1 : Bool} {size : Nat} {dest src : Word} (bus : Bus)
    (room : size ≤ 2 ^ 32) (forward : Forward dest src size)
    (chosen : when → Chosen inMem1 dest size) :
    Copies when dest src size bus (memcpyBytes inMem1 size dest src bus) := by
  induction size generalizing dest src bus with
  | zero => exact .zero dest src bus
  | succ size ih =>
    have first := storeByte_writes chosen (bus.load8 src) bus
    have cell : bus.mem.get src 1 = [bus.load8 src] := by
      rw [Space.get_succ]
      rfl
    rw [← cell] at first
    have rest := @ih (dest + 1) (src + 1)
      (bus.storeByte inMem1 dest (bus.load8 src)) (by omega)
      (forward.later (i := 1) (by omega)) fun holds => (chosen holds).tail
    have whole := Copies.add first rest (by omega) (Nat.add_comm size 1 ▸ forward)
    rwa [Nat.add_comm 1 size] at whole

/-- The loop over blocks, where another one has ended. -/
theorem Progress.blocks (count : Nat) {dest src : Word} {size : Nat} {bus : Bus}
    {result : Word × Word × Nat × Bus} (first : Progress when dest src size bus result)
    (room : size ≤ 2 ^ 32) (aligned : dest.toNat % 4 = 0) (forward : Forward dest src size) :
    Progress when dest src size bus
      (memcpyBlocks count result.2.2.1 result.1 result.2.1 result.2.2.2) := by
  obtain ⟨done, whole, split, last, last', copies⟩ := first
  rw [last, last']
  refine .step whole copies ?_ split room forward
  exact memcpyBlocks_progress count _ (by omega) (aligned_later aligned whole)
    (forward.later (by omega))

/-- The loops over bytes, where the others have ended. -/
theorem Progress.bytes {dest src : Word} {size : Nat} {bus : Bus}
    {result : Word × Word × Nat × Bus} (first : Progress when dest src size bus result)
    (room : size ≤ 2 ^ 32) (forward : Forward dest src size) (fits : when → Fits dest size) :
    Copies when dest src size bus (memcpyBytes (decide (result.1 < mem1Size)) result.2.2.1
      result.1 result.2.1 result.2.2.2) := by
  obtain ⟨done, -, split, last, last', copies⟩ := first
  rw [last, last']
  generalize result.2.2.1 = left at *
  subst split
  refine copies.add ?_ room forward
  refine memcpyBytes_copies _ (by omega) (forward.later (Nat.le_refl _)) fun holds => ?_
  exact chosen_decide (fits holds).later

/-- Two addresses that are checked together are both aligned. -/
theorem aligned_of_or {dest src : Word} (words : (dest ||| src) &&& 3#32 = 0) :
    dest.toNat % 4 = 0 := by
  have both : (dest ||| src) &&& 3#32 = (dest &&& 3#32) ||| (src &&& 3#32) :=
    BitVec.and_or_distrib_right
  have low : dest &&& 3#32 = 0#32 := (BitVec.or_eq_zero_iff.1 (both.symm.trans words)).1
  rw [← toNat_low, low]
  rfl

/-- `memcpy` copies a run that does not overlap the source the wrong way. -/
theorem memcpy_copies {dest src : Word} {size : Nat} (bus : Bus) (room : size ≤ 2 ^ 32)
    (forward : Forward dest src size) (fits : when → Fits dest size) :
    Copies when dest src size bus (memcpy dest src size bus).2 := by
  unfold memcpy
  by_cases empty : size = 0
  · simp only [if_pos empty]
    subst empty
    exact .zero dest src bus
  simp only [if_neg empty]
  by_cases words : (dest ||| src) &&& 3#32 = 0
  · simp only [if_pos words]
    have aligned := aligned_of_or words
    have blocks8 := @memcpyBlocks_progress when 8 size dest src bus room aligned forward
    have blocks4 := blocks8.blocks 4 room aligned forward
    have blocks1 := blocks4.blocks 1 room aligned forward
    exact blocks1.bytes room forward fits
  · simp only [if_neg words]
    refine memcpyBytes_copies bus room forward fun holds => ?_
    exact chosen_decide (fits holds)

@[simp] theorem memcpy_returns (dest src : Word) (size : Nat) (bus : Bus) :
    (memcpy dest src size bus).1 = dest := by
  unfold memcpy
  split
  · rfl
  · split <;> rfl

end D2xCios.CiosLib
