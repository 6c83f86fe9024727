import D2xCios.Lib.Placement
import D2xCios.Stripios.Main

/-!
# What is written

The headers of the file that stripios writes, and its segments: which entry stands where in the
table, what the entries say of where the segments are, and where they are.
-/

namespace D2xCios.Stripios

open D2xCios.Lib

/-! ## Words -/

/-- Words from 2^31 on are extended with their sign. -/
theorem getbe32_toNat (word : UInt32) :
    (getbe32 word).toNat =
      if word.toNat < 0x80000000 then word.toNat else word.toNat + 0xFFFFFFFF00000000 := by
  have bound := word.toNat_lt
  have wide : (getbe32 word).toNat = (word.toBitVec.signExtend 64).toNat := rfl
  have narrow : word.toBitVec.toNat = word.toNat := rfl
  rw [wide, BitVec.toNat_signExtend, BitVec.msb_eq_decide, BitVec.toNat_setWidth, narrow,
    Nat.mod_eq_of_lt (by omega)]
  by_cases small : word.toNat < 0x80000000
  · simp [small, Nat.not_le_of_lt small]
  · simp [small, Nat.le_of_not_lt small]

/-- A word of an `unsigned long`. -/
theorem putbe32_toNat (val : UInt64) : (putbe32 val).toNat = val.toNat % 2 ^ 32 :=
  UInt64.toNat_toUInt32 val

@[simp] theorem putbe32_getbe32 (word : UInt32) : putbe32 (getbe32 word) = word := by
  apply UInt32.toNat_inj.1
  have bound := word.toNat_lt
  rw [putbe32_toNat, getbe32_toNat]
  split <;> omega

/-- Only a zero is read as zero. -/
theorem getbe32_eq_zero (word : UInt32) : getbe32 word = 0 ↔ word = 0 := by
  constructor
  · intro zero
    rw [← putbe32_getbe32 word, zero]
    rfl
  · rintro rfl
    rfl

/-- `fseek` to where a word says. -/
theorem fseek_getbe32 (word : UInt32) (pos : Nat) :
    fseek (getbe32 word) pos = if word.toNat < 0x80000000 then word.toNat else pos := by
  have bound := word.toNat_lt
  have value := getbe32_toNat word
  rw [fseek]
  by_cases small : word.toNat < 0x80000000
  · rw [if_pos small] at value
    rw [if_pos small, if_pos, value]
    rw [UInt64.lt_iff_toNat_lt, value]
    exact Nat.lt_trans small (by decide)
  · rw [if_neg small] at value
    rw [if_neg small, if_neg]
    rw [UInt64.lt_iff_toNat_lt, value]
    exact Nat.not_lt_of_le (Nat.le_add_left_of_le (by decide))

/-! ## Files -/

/-- A window of a file that was read is that part of the file. -/
theorem window_bufferOf {file : File} {offset n : Nat} (inside : offset + n ≤ file.length) :
    (bufferOf file).window offset n = (file.drop offset).take n := by
  have length : ((file.drop offset).take n).length = n := by
    rw [List.length_take, List.length_drop]
    omega
  have cells : (bufferOf file).window offset ((file.drop offset).take n).length =
      (file.drop offset).take n :=
    Cells.window_eq_of_getElem fun i i_lt => by
      rw [List.getElem_take, List.getElem_drop]
      exact (List.getElem_eq_getD 0).symm
  rwa [length] at cells

@[simp] theorem fread_zero (file : File) (pos : Nat) : fread file pos 0 = some [] := if_pos rfl

/-- A read that succeeds yields that part of the file. -/
theorem fread_eq_some {file : File} {pos n : Nat} {bytes : File}
    (read : fread file pos n = some bytes) :
    bytes.length = n ∧ bytes = (file.drop pos).take n := by
  unfold fread at read
  split_ifs at read with none inside
  · obtain rfl := Option.some.inj read
    subst none
    exact ⟨rfl, List.take_zero.symm⟩
  · obtain rfl := Option.some.inj read
    refine ⟨?_, rfl⟩
    rw [List.length_take, List.length_drop]
    omega

/-- What has been read, as the part of the file that it is. -/
theorem bufferOf_fread {file : File} {pos n : Nat} {bytes : File}
    (read : fread file pos n = some bytes) {i : Nat} (i_lt : i < n) :
    bufferOf bytes i = bufferOf file (pos + i) := by
  obtain ⟨length, rfl⟩ := fread_eq_some read
  rw [bufferOf, bufferOf, List.getD_eq_getElem?_getD, List.getD_eq_getElem?_getD,
    List.getElem?_take_of_lt i_lt, List.getElem?_drop]

theorem Elfphentry.ofMem_congr {left right : Mem} {offset offset' : Nat}
    (same : ∀ i < sizeofElfphentry, left (offset + i) = right (offset' + i)) :
    Elfphentry.ofMem left offset = Elfphentry.ofMem right offset' := by
  have word (k : Nat) (inside : k + 4 ≤ sizeofElfphentry) :
      be32 left (offset + k) = be32 right (offset' + k) := by
    have cell (j : Nat) (j_lt : j < 4) : left (offset + k + j) = right (offset' + k + j) := by
      rw [Nat.add_assoc, Nat.add_assoc]
      exact same (k + j) (by omega)
    have first : left (offset + k) = right (offset' + k) := cell 0 (by decide)
    rw [be32, be32, first, cell 1 (by decide), cell 2 (by decide), cell 3 (by decide)]
  unfold ofMem
  rw [show be32 left offset = be32 right offset' from word 0 (by decide), word 4 (by decide),
    word 8 (by decide), word 12 (by decide), word 16 (by decide), word 20 (by decide),
    word 24 (by decide), word 28 (by decide)]

theorem Elfheader.ofMem_congr {left right : Mem}
    (same : ∀ i < sizeofElfheader, left i = right i) :
    Elfheader.ofMem left 0 = Elfheader.ofMem right 0 := by
  have word (k : Nat) (inside : k + 4 ≤ sizeofElfheader) : be32 left k = be32 right k := by
    unfold sizeofElfheader at inside same
    rw [be32, be32, same k (by omega), same (k + 1) (by omega), same (k + 2) (by omega),
      same (k + 3) (by omega)]
  have half (k : Nat) (inside : k + 2 ≤ sizeofElfheader) : be16 left k = be16 right k := by
    unfold sizeofElfheader at inside same
    rw [be16, be16, same k (by omega), same (k + 1) (by omega)]
  unfold ofMem
  rw [word 0 (by decide), word (0 + 4) (by decide), word (0 + 8) (by decide),
    word (0 + 12) (by decide), word (0 + 16) (by decide), word (0 + 20) (by decide),
    word (0 + 24) (by decide), word (0 + 28) (by decide), word (0 + 32) (by decide),
    word (0 + 36) (by decide), half (0 + 40) (by decide), half (0 + 42) (by decide),
    half (0 + 44) (by decide), half (0 + 46) (by decide), half (0 + 48) (by decide),
    half (0 + 50) (by decide)]

/-- An entry that has been stored is the one that is loaded. -/
theorem Elfphentry.ofMem_bytes {mem : Mem} {offset : Nat} {p : Elfphentry}
    (stored : mem.window offset sizeofElfphentry = p.bytes) : Elfphentry.ofMem mem offset = p := by
  obtain ⟨type, stored⟩ := Cells.window_split 4 28 stored rfl
  obtain ⟨offset, stored⟩ := Cells.window_split 4 24 stored rfl
  obtain ⟨vaddr, stored⟩ := Cells.window_split 4 20 stored rfl
  obtain ⟨paddr, stored⟩ := Cells.window_split 4 16 stored rfl
  obtain ⟨filesz, stored⟩ := Cells.window_split 4 12 stored rfl
  obtain ⟨memsz, stored⟩ := Cells.window_split 4 8 stored rfl
  obtain ⟨flags, align⟩ := Cells.window_split 4 4 stored rfl
  unfold ofMem
  rw [be32_of_bytes type, be32_of_bytes offset, be32_of_bytes vaddr, be32_of_bytes paddr,
    be32_of_bytes filesz, be32_of_bytes memsz, be32_of_bytes flags, be32_of_bytes align]

/-- A header is read back as it was written. -/
theorem Elfheader.ofMem_bytes {mem : Mem} {h : Elfheader}
    (stored : mem.window 0 sizeofElfheader = h.bytes) : Elfheader.ofMem mem 0 = h := by
  obtain ⟨ident0, stored⟩ := Cells.window_split 4 48 stored rfl
  obtain ⟨ident1, stored⟩ := Cells.window_split 4 44 stored rfl
  obtain ⟨ident2, stored⟩ := Cells.window_split 4 40 stored rfl
  obtain ⟨ident3, stored⟩ := Cells.window_split 4 36 stored rfl
  obtain ⟨machinetype, stored⟩ := Cells.window_split 4 32 stored rfl
  obtain ⟨version, stored⟩ := Cells.window_split 4 28 stored rfl
  obtain ⟨entry, stored⟩ := Cells.window_split 4 24 stored rfl
  obtain ⟨phoff, stored⟩ := Cells.window_split 4 20 stored rfl
  obtain ⟨shoff, stored⟩ := Cells.window_split 4 16 stored rfl
  obtain ⟨flags, stored⟩ := Cells.window_split 4 12 stored rfl
  obtain ⟨ehsize, stored⟩ := Cells.window_split 2 10 stored rfl
  obtain ⟨phentsize, stored⟩ := Cells.window_split 2 8 stored rfl
  obtain ⟨phnum, stored⟩ := Cells.window_split 2 6 stored rfl
  obtain ⟨shentsize, stored⟩ := Cells.window_split 2 4 stored rfl
  obtain ⟨shnum, shtrndx⟩ := Cells.window_split 2 2 stored rfl
  unfold ofMem
  rw [be32_of_bytes ident0, be32_of_bytes ident1, be32_of_bytes ident2, be32_of_bytes ident3,
    be32_of_bytes machinetype, be32_of_bytes version, be32_of_bytes entry, be32_of_bytes phoff,
    be32_of_bytes shoff, be32_of_bytes flags, be16_of_bytes ehsize, be16_of_bytes phentsize,
    be16_of_bytes phnum, be16_of_bytes shentsize, be16_of_bytes shnum, be16_of_bytes shtrndx]

/-! ## The passes -/

/-- The last of the zero-address entries below `n`. -/
structure ZeroAddress (p : Nat → Elfphentry) (n k : Nat) : Prop where
  inside : k < n
  zero : (p k).paddr = 0
  last : ∀ j < n, k < j → (p j).paddr ≠ 0

/-- No two entries are the last one with address 0. -/
theorem ZeroAddress.unique {p : Nat → Elfphentry} {n k k' : Nat} (first : ZeroAddress p n k)
    (second : ZeroAddress p n k') : k = k' := by
  rcases Nat.lt_trichotomy k k' with before | same | after
  · exact absurd second.zero (first.last k' second.inside before)
  · exact same
  · exact absurd first.zero (second.last k first.inside after)

section Passes

variable (strip : UInt64) (fin : File) (phnum ios : Nat) (p : Nat → Elfphentry)

/-- What the search has found, entry by entry. -/
theorem findIos_range {i m : Nat} {found : Option Nat} {k : Nat}
    (finds : findIos i found ((List.range' i m).map p) = some k) :
    (found = some k ∧ ∀ j, i ≤ j → j < i + m → (p j).paddr ≠ 0) ∨
      (i ≤ k ∧ k < i + m ∧ (p k).paddr = 0 ∧ ∀ j, k < j → j < i + m → (p j).paddr ≠ 0) := by
  induction m generalizing i found with
  | zero => exact .inl ⟨finds, fun j ge lt => absurd ge (Nat.not_le_of_lt lt)⟩
  | succ m ih =>
    rw [List.range'_succ, List.map_cons, findIos] at finds
    rcases ih finds with ⟨same, later⟩ | ⟨ge, lt, zero, later⟩
    · by_cases zero : getbe32 (p i).paddr = 0
      · rw [if_pos zero] at same
        obtain rfl := Option.some.inj same
        exact .inr ⟨Nat.le_refl _, by omega, (getbe32_eq_zero _).1 zero,
          fun j gt lt => later j gt (by omega)⟩
      · rw [if_neg zero] at same
        refine .inl ⟨same, fun j ge lt => ?_⟩
        rcases Nat.lt_or_eq_of_le ge with gt | rfl
        · exact later j gt (by omega)
        · exact fun none => zero ((getbe32_eq_zero _).2 none)
    · exact .inr ⟨by omega, by omega, zero, fun j gt lt => later j gt (by omega)⟩

/-- The search finds the last entry with address 0. -/
theorem findIos_zeroAddress {k : Nat}
    (finds : findIos 0 none ((List.range phnum).map p) = some k) : ZeroAddress p phnum k := by
  rw [List.range_eq_range'] at finds
  rcases findIos_range p finds with ⟨none, -⟩ | ⟨-, lt, zero, later⟩
  · exact absurd none nofun
  · rw [Nat.zero_add] at lt later
    exact ⟨lt, zero, fun j j_lt gt => later j gt j_lt⟩

/-- Where the segment of entry `i` goes. -/
def placeOf : Nat → Place
  | 0 => ⟨0x34, 0, 0⟩
  | i + 1 =>
    if i = ios then iosPlace phnum (p i) (placeOf i)
    else { placeOf i with phoff := (placeOf i).phoff + getbe32 (stripped strip (p i)).filesz }

/-- Entry `i` with what is stored over it. -/
def changed (i : Nat) : Elfphentry := if i = ios then p i else stripped strip (p i)

/-- What is written for entry `i`. -/
def writtenFor (i : Nat) : List Elfphentry :=
  let s := placeOf strip phnum ios p i
  if i = ios then [phdrEntry phnum s, noteEntry phnum (p i) s, loadEntry phnum (p i) s]
  else [otherEntry strip (p i) s]

/-- What the layout makes of every entry. -/
theorem layout_range (i m : Nat) :
    layout strip phnum ios i ((List.range' i m).map p) (placeOf strip phnum ios p i) =
      ((List.range' i m).map (changed strip ios p),
        (List.range' i m).flatMap (writtenFor strip phnum ios p)) := by
  induction m generalizing i with
  | zero => rfl
  | succ m ih =>
    have next := ih (i + 1)
    rw [List.range'_succ, List.map_cons, List.map_cons, List.flatMap_cons, layout]
    rw [placeOf] at next
    by_cases here : i = ios
    · rw [if_pos here] at next ⊢
      simp only [next, changed, writtenFor, if_pos here]
    · rw [if_neg here] at next ⊢
      simp only [next, changed, writtenFor, if_neg here]
      rfl

/-- Where the file that is read is before the segment of entry `i`, if it begins at `pos`. -/
def cursor (q : Nat → Elfphentry) (pos : Nat) : Nat → Nat
  | 0 => pos
  | i + 1 =>
    if (q i).filesz = 0 then cursor q pos i
    else fseek (getbe32 (q i).offset) (cursor q pos i) + (q i).filesz.toNat

/-- What the loop writes, segment by segment. -/
theorem writeSegments_range {q : Nat → Elfphentry} {pos i m : Nat} {fout out : File}
    (writes : writeSegments fin ((List.range' i m).map q) (cursor q pos i) fout = some out) :
    ∃ data : List File, data.length = m ∧ out = fout ++ data.flatten ∧
      ∀ j < m, (q (i + j)).filesz.toNat < 0x80000000 ∧
        fread fin (fseek (getbe32 (q (i + j)).offset) (cursor q pos (i + j)))
          (q (i + j)).filesz.toNat = data[j]? := by
  induction m generalizing i fout with
  | zero =>
    exact ⟨[], rfl, by simpa [writeSegments] using writes.symm, fun j j_lt =>
      absurd j_lt j.not_lt_zero⟩
  | succ m ih =>
    rw [List.range'_succ, List.map_cons, writeSegments] at writes
    have next : cursor q pos (i + 1) =
        if (q i).filesz = 0 then cursor q pos i
        else fseek (getbe32 (q i).offset) (cursor q pos i) + (q i).filesz.toNat := rfl
    have size := getbe32_toNat (q i).filesz
    by_cases empty : (q i).filesz = 0
    · rw [if_neg (not_not.2 ((getbe32_eq_zero _).2 empty))] at writes
      rw [if_pos empty] at next
      rw [← next] at writes
      obtain ⟨data, length, same, reads⟩ := ih writes
      refine ⟨[] :: data, by rw [List.length_cons, length], same, fun j j_lt => ?_⟩
      cases j with
      | zero =>
        rw [Nat.add_zero, empty]
        exact ⟨by decide, rfl⟩
      | succ j =>
        have later := reads j (Nat.lt_of_succ_lt_succ j_lt)
        rwa [Nat.add_right_comm] at later
    · rw [if_pos (mt (getbe32_eq_zero _).1 empty)] at writes
      rw [if_neg empty] at next
      have bound := (q i).filesz.toNat_lt
      by_cases small : (q i).filesz.toNat < 0x80000000
      case neg =>
        rw [if_neg small] at size
        rw [if_pos (UInt64.le_iff_toNat_le.2 (size ▸ Nat.le_add_left_of_le (by decide)))] at writes
        exact absurd writes nofun
      rw [if_pos small] at size
      have memory : ¬ 0x8000000000000000 ≤ getbe32 (q i).filesz := by
        rw [UInt64.le_iff_toNat_le, size]
        exact Nat.not_le_of_lt (Nat.lt_trans small (by decide))
      rw [if_neg memory, size] at writes
      obtain ⟨bytes, read, writes⟩ := Option.bind_eq_some_iff.1 writes
      rw [← next] at writes
      obtain ⟨data, length, same, reads⟩ := ih writes
      refine ⟨bytes :: data, by rw [List.length_cons, length], ?_, fun j j_lt => ?_⟩
      · rw [same, List.flatten_cons, List.append_assoc]
      · cases j with
        | zero => exact ⟨small, read⟩
        | succ j =>
          have later := reads j (Nat.lt_of_succ_lt_succ j_lt)
          rwa [Nat.add_right_comm] at later

/-! ## The table -/

/-- The entries that are written: those before the zero-address one, the three for it, and those
behind it. -/
theorem writtenFor_range {n : Nat} (inside : ios < n) :
    (List.range n).flatMap (writtenFor strip phnum ios p) =
      (List.range ios).map (fun i => otherEntry strip (p i) (placeOf strip phnum ios p i)) ++
        (writtenFor strip phnum ios p ios ++ (List.range' (ios + 1) (n - (ios + 1))).map fun i =>
          otherEntry strip (p i) (placeOf strip phnum ios p i)) := by
  have others {is : List Nat} (apart : ∀ i ∈ is, i ≠ ios) :
      is.flatMap (writtenFor strip phnum ios p) =
        is.map fun i => otherEntry strip (p i) (placeOf strip phnum ios p i) := by
    rw [← List.flatMap_singleton' (List.map _ _), List.flatMap_map]
    exact List.flatMap_congr fun i member => if_neg (apart i member)
  have split : List.range n =
      List.range ios ++ (ios :: List.range' (ios + 1) (n - (ios + 1))) := by
    have whole := @List.range'_append_1 0 ios (n - (ios + 1) + 1)
    rw [Nat.zero_add, show ios + (n - (ios + 1) + 1) = n by omega] at whole
    rw [List.range_eq_range', List.range_eq_range', ← List.range'_succ]
    exact whole.symm
  rw [split, List.flatMap_append, List.flatMap_cons,
    others fun i member => Nat.ne_of_lt (List.mem_range.1 member),
    others fun i member => Nat.ne_of_gt (List.mem_range'_1.1 member).1]

/-- Where the entry for entry `i` stands in the table that is written. -/
def outIndex (i : Nat) : Nat := if i < ios then i else i + 2

variable {ios} in
/-- The entries of the new table, by their places. -/
theorem table_getElem? {n : Nat} (inside : ios < n) :
    let table := (List.range n).flatMap (writtenFor strip phnum ios p)
    let s := placeOf strip phnum ios p
    table.length = n + 2 ∧
      (∀ i < n, i ≠ ios → table[outIndex ios i]? = some (otherEntry strip (p i) (s i))) ∧
      table[ios]? = some (phdrEntry phnum (s ios)) ∧
      table[ios + 1]? = some (noteEntry phnum (p ios) (s ios)) ∧
      table[ios + 2]? = some (loadEntry phnum (p ios) (s ios)) := by
  intro table s
  have three : writtenFor strip phnum ios p ios =
      [phdrEntry phnum (s ios), noteEntry phnum (p ios) (s ios), loadEntry phnum (p ios) (s ios)] :=
    if_pos rfl
  have parts := writtenFor_range strip phnum ios p inside
  rw [three] at parts
  change table = _ at parts
  have behind (j : Nat) : table[ios + j]? =
      ([phdrEntry phnum (s ios), noteEntry phnum (p ios) (s ios), loadEntry phnum (p ios)
        (s ios)] ++
        (List.range' (ios + 1) (n - (ios + 1))).map fun i => otherEntry strip (p i) (s i))[j]? := by
    rw [parts, List.getElem?_append_right (by simp), List.length_map, List.length_range,
      Nat.add_sub_cancel_left]
  refine ⟨?_, fun i i_lt other => ?_, behind 0, behind 1, behind 2⟩
  · rw [parts]
    simp
    omega
  · rcases Nat.lt_or_gt_of_ne other with before | after
    · rw [outIndex, if_pos before, parts, List.getElem?_append_left (by simpa using before),
        List.getElem?_map, List.getElem?_range before, Option.map_some]
    · obtain ⟨k, rfl⟩ := Nat.exists_eq_add_of_lt after
      rw [outIndex, if_neg (by omega), show ios + k + 1 + 2 = ios + (3 + k) by omega, behind,
        List.getElem?_append_right (by simp), List.getElem?_map]
      simp only [List.length_cons, List.length_nil, Nat.add_sub_cancel_left, Nat.zero_add]
      rw [List.getElem?_range' (by omega), Option.map_some, Nat.one_mul,
        show ios + 1 + k = ios + k + 1 by omega]

/-! ## Where the segments are said to be -/

/-- How far the entry for entry `i` moves those behind it. -/
def step (i : Nat) : Nat :=
  if i = ios then (phnum + 2) * 0x20 + (p i).memsz.toNat
  else (stripped strip (p i)).filesz.toNat

/-- The extension of the sign does not show in 32 bits. -/
theorem add_getbe32 (a : UInt64) (word : UInt32) :
    (a + getbe32 word).toNat % 2 ^ 32 = (a.toNat % 2 ^ 32 + word.toNat) % 2 ^ 32 := by
  rw [UInt64.toNat_add, getbe32_toNat]
  split <;> omega

/-- The size of the table, in 32 bits. -/
theorem add_tableSize (a : UInt64) :
    (a + tableSize phnum).toNat % 2 ^ 32 = (a.toNat % 2 ^ 32 + (phnum + 2) * 0x20) % 2 ^ 32 := by
  rw [UInt64.toNat_add, tableSize, UInt64.toNat_ofNat']
  omega

/-- The offset that is kept, as a word. -/
theorem placeOf_phoff (i : Nat) :
    (placeOf strip phnum ios p i).phoff.toNat % 2 ^ 32 =
      place 0x34 (step strip phnum ios p) i % 2 ^ 32 := by
  induction i with
  | zero => rfl
  | succ i ih =>
    rw [placeOf, place, step]
    by_cases here : i = ios
    · rw [if_pos here, if_pos here, iosPlace]
      dsimp only
      rw [add_getbe32, add_tableSize, ih]
      omega
    · rw [if_neg here, if_neg here]
      dsimp only
      rw [add_getbe32, ih]
      omega

end Passes

/-! ## Runs -/

/-- The header of a file, the number of its entries, and its entries. -/
def header (file : File) : Elfheader := .ofMem (bufferOf file) 0
def phnum (file : File) : Nat := (header file).phnum.toNat
def phentry (file : File) (i : Nat) : Elfphentry :=
  .ofMem (bufferOf file) ((header file).phoff.toNat + sizeofElfphentry * i)

/-- Where the table that is written ends. -/
def tableEnd (fin : File) : Nat := sizeofElfheader + sizeofElfphentry * (phnum fin + 2)

section Runs

variable (strip : UInt64) (fin : File) (ios : Nat)

/-- The entries that are written. -/
def table : List Elfphentry :=
  (List.range (phnum fin)).flatMap (writtenFor strip (phnum fin) ios (phentry fin))

/-- The number of bytes that are written for entry `i`. -/
def size (i : Nat) : Nat := (changed strip ios (phentry fin) i).filesz.toNat

/-- Where they are read: where the entry says, if that is not taken for negative, and else where the
last segment ended. -/
def readAt (i : Nat) : Nat :=
  fseek (getbe32 (phentry fin i).offset)
    (cursor (changed strip ios (phentry fin))
      ((header fin).phoff.toNat + sizeofElfphentry * phnum fin) i)

/-- A run that exits with 0. -/
structure Written (data : List File) (out : File) : Prop where
  magic : (header fin).ident0 = 0x7F454C46
  zeroAddress : ZeroAddress (phentry fin) (phnum fin) ios
  length : data.length = phnum fin
  small : ∀ i < phnum fin, size strip fin ios i < 0x80000000
  reads : ∀ i < phnum fin, fread fin (readAt strip fin ios i) (size strip fin ios i) = data[i]?
  out_eq : out = (iosHeader (header fin)).bytes ++
    (table strip fin ios).flatMap Elfphentry.bytes ++ data.flatten

variable {strip fin ios}

/-- The entries that were read are those of the file. -/
theorem entriesOf_table {bytes : File} {n : Nat}
    (read : fread fin (header fin).phoff.toNat (sizeofElfphentry * n) = some bytes) :
    entriesOf bytes n = (List.range n).map (phentry fin) := by
  refine List.map_congr_left fun i member => Elfphentry.ofMem_congr fun k k_lt => ?_
  have i_lt := List.mem_range.1 member
  have inside : sizeofElfphentry * i + k < sizeofElfphentry * n := by
    have whole : sizeofElfphentry * (i + 1) ≤ sizeofElfphentry * n := Nat.mul_le_mul_left _ i_lt
    rw [Nat.mul_succ] at whole
    omega
  rw [bufferOf_fread read inside, Nat.add_assoc]

/-- What a run has done, where the table of its input is not too far behind. -/
theorem main_written {out : File} (run : main strip fin = some out)
    (near : (header fin).phoff.toNat < 0x80000000) :
    ∃ ios data, Written strip fin ios data out := by
  unfold main at run
  obtain ⟨bytes, first, run⟩ := Option.bind_eq_some_iff.1 run
  have same : Elfheader.ofMem (bufferOf bytes) 0 = header fin := by
    refine Elfheader.ofMem_congr fun k k_lt => ?_
    rw [bufferOf_fread first k_lt, Nat.zero_add]
  simp only [same, fseek_getbe32, if_pos near] at run
  by_cases magic : getbe32 (header fin).ident0 = 0x7F454C46
  case neg => exact absurd ((if_pos magic).symm.trans run) nofun
  rw [if_neg (not_not.2 magic)] at run
  obtain ⟨bytes', second, run⟩ := Option.bind_eq_some_iff.1 run
  obtain ⟨ios, finds, run⟩ := Option.bind_eq_some_iff.1 run
  have start : (⟨0x34, 0, 0⟩ : Place) = placeOf strip (phnum fin) ios (phentry fin) 0 := rfl
  have count : (header fin).phnum.toNat = phnum fin := rfl
  rw [count] at second
  rw [count, entriesOf_table second] at finds run
  have laid := layout_range strip (phnum fin) ios (phentry fin) 0 (phnum fin)
  rw [← List.range_eq_range', ← start] at laid
  simp only [laid] at run
  rw [List.range_eq_range'] at run
  obtain ⟨data, length, out_eq, reads⟩ := @writeSegments_range fin
    (changed strip ios (phentry fin)) _ 0 _ _ _ run
  refine ⟨ios, data, ?_, findIos_zeroAddress _ _ finds, length, fun i i_lt => ?_,
    fun i i_lt => ?_, ?_⟩
  · have word := congrArg putbe32 magic
    rwa [putbe32_getbe32] at word
  · have small := (reads i i_lt).1
    rwa [Nat.zero_add] at small
  · have read := (reads i i_lt).2
    rw [Nat.zero_add] at read
    have offset : (changed strip ios (phentry fin) i).offset = (phentry fin i).offset := by
      unfold changed stripped
      split_ifs <;> rfl
    rwa [offset] at read
  · rw [out_eq, table, List.range_eq_range']

namespace Written

variable {data : List File} {out : File}

/-- The new table has two more entries. -/
theorem table_length (written : Written strip fin ios data out) :
    (table strip fin ios).length = phnum fin + 2 :=
  (table_getElem? strip (phnum fin) (phentry fin) written.zeroAddress.inside).1

/-- The bytes of the new table. -/
theorem table_bytes (strip : UInt64) (fin : File) (ios : Nat) :
    ((table strip fin ios).flatMap Elfphentry.bytes).length =
      sizeofElfphentry * (table strip fin ios).length := by
  generalize table strip fin ios = entries
  induction entries with
  | nil => rfl
  | cons e rest ih =>
    rw [List.flatMap_cons, List.length_append, ih, Elfphentry.bytes_length, List.length_cons,
      Nat.mul_succ, Nat.add_comm]

/-- What is written before the segments. -/
theorem front_length (written : Written strip fin ios data out) :
    ((iosHeader (header fin)).bytes ++
      (table strip fin ios).flatMap Elfphentry.bytes).length = tableEnd fin := by
  rw [List.length_append, table_bytes, written.table_length, Elfheader.bytes_length, tableEnd]

theorem tableEnd_le (written : Written strip fin ios data out) : tableEnd fin ≤ out.length := by
  rw [written.out_eq, List.length_append, written.front_length]
  exact Nat.le_add_right _ _

/-- The header of the new file. -/
theorem header_out (written : Written strip fin ios data out) :
    header out = iosHeader (header fin) := by
  refine Elfheader.ofMem_bytes ?_
  have long : 0 + sizeofElfheader ≤ out.length := by
    rw [Nat.zero_add]
    exact Nat.le_trans (Nat.le_add_right _ _) written.tableEnd_le
  rw [window_bufferOf long, List.drop_zero, written.out_eq, List.append_assoc,
    ← Elfheader.bytes_length (iosHeader (header fin)), List.take_left]

/-- An entry of the table stands where the header says. -/
theorem phentry_out (written : Written strip fin ios data out) {j : Nat} {e : Elfphentry}
    (entry : (table strip fin ios)[j]? = some e) : phentry out j = e := by
  have j_lt : j < phnum fin + 2 := by
    rw [← written.table_length]
    exact (List.getElem?_eq_some_iff.1 entry).1
  have place_eq : ∀ n ≤ (table strip fin ios).length, place sizeofElfheader
      (fun j => (((table strip fin ios).map Elfphentry.bytes).getD j []).length) n =
        sizeofElfheader + sizeofElfphentry * n := by
    intro n
    induction n with
    | zero => exact fun _ => rfl
    | succ n ih =>
      intro inside
      have item : ((table strip fin ios).map Elfphentry.bytes).getD n [] =
          ((table strip fin ios)[n]).bytes := by
        rw [List.getD_eq_getElem?_getD, List.getElem?_map, List.getElem?_eq_getElem inside]
        rfl
      rw [place, ih (Nat.le_of_succ_le inside), item, Elfphentry.bytes_length, Nat.mul_succ,
        Nat.add_assoc]
  have item : ((table strip fin ios).map Elfphentry.bytes)[j]? = some e.bytes := by
    rw [List.getElem?_map, entry, Option.map_some]
  have stored := take_place (iosHeader (header fin)).bytes _ item
  rw [Elfheader.bytes_length, place_eq j (by rw [written.table_length]; omega),
    ← List.flatMap_def, Elfphentry.bytes_length] at stored
  have phoff : (header out).phoff.toNat = sizeofElfheader := by
    rw [written.header_out]
    rfl
  have inside : sizeofElfheader + sizeofElfphentry * j + sizeofElfphentry ≤ tableEnd fin := by
    have below := Nat.mul_le_mul_left sizeofElfphentry j_lt
    rw [Nat.mul_succ] at below
    rw [tableEnd]
    omega
  refine Elfphentry.ofMem_bytes ?_
  rw [phoff, window_bufferOf (Nat.le_trans inside written.tableEnd_le), written.out_eq,
    List.drop_append_of_le_length (by rw [written.front_length]; omega),
      List.take_append_of_le_length]
  · exact stored
  · rw [List.length_drop, written.front_length]
    omega

/-- The segments follow the table. -/
theorem segment_out (written : Written strip fin ios data out) {i : Nat} (i_lt : i < phnum fin) :
    ∃ bytes, fread fin (readAt strip fin ios i) (size strip fin ios i) = some bytes ∧
      fread out (place (tableEnd fin) (size strip fin ios) i) (size strip fin ios i) =
        some bytes := by
  have sizes {j : Nat} (j_lt : j < phnum fin) :
      (data.getD j []).length = size strip fin ios j := by
    have read := written.reads j j_lt
    rw [List.getElem?_eq_getElem (written.length ▸ j_lt)] at read
    rw [List.getD_eq_getElem?_getD, List.getElem?_eq_getElem (written.length ▸ j_lt),
      Option.getD_some, (fread_eq_some read).1]
  have read := written.reads i i_lt
  obtain ⟨bytes, here⟩ : ∃ bytes, data[i]? = some bytes :=
    ⟨_, List.getElem?_eq_getElem (written.length ▸ i_lt)⟩
  rw [here] at read
  refine ⟨bytes, read, ?_⟩
  have length := (fread_eq_some read).1
  have stored := take_place ((iosHeader (header fin)).bytes ++
    (table strip fin ios).flatMap Elfphentry.bytes) data here
  have positions : place (tableEnd fin) (fun j => (data.getD j []).length) i =
      place (tableEnd fin) (size strip fin ios) i :=
    place_congr fun j j_lt => sizes (Nat.lt_trans j_lt i_lt)
  rw [written.front_length, ← written.out_eq, length, positions] at stored
  have inside := congrArg List.length stored
  rw [List.length_take, List.length_drop, length] at inside
  unfold fread
  split_ifs with empty fits
  · rw [empty] at length
    rw [List.length_eq_zero_iff.1 length]
  · rw [stored]
  · omega

end Written

end Runs

end D2xCios.Stripios
