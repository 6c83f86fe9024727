import D2xCios.Stripios.Layout

/-!
# The segments of the file that is written

What stripios is for: every segment of the input is in the output where its entry says, the
zero-address one as the note behind the table, and a load covers the two. The entries count from the
end of the header, with the table in front of the zero-address segment, while the segments are
written behind the table, one after the other, as long as they were.
-/

namespace D2xCios.Stripios

open D2xCios.Lib

/-! ## Preserved segments -/

/-- The byte is in the segment. -/
def Covers (h : Elfphentry) (x : Nat) : Prop :=
  h.offset.toNat ≤ x ∧ x < h.offset.toNat + h.filesz.toNat

/-- The segment of an output holds so many bytes of a segment of the input, and no other ones. -/
def Holds (fin out : File) (h : Elfphentry) (n : Nat) (o : Elfphentry) : Prop :=
  ∃ bytes, fread fin h.offset.toNat n = some bytes ∧
    fread out o.offset.toNat o.filesz.toNat = some bytes

/-- How much of a segment is to be kept: its first byte, if it is at the strip address. -/
def kept (strip : UInt64) (h : Elfphentry) : Nat :=
  if strip ≠ 0 ∧ strip.toNat = h.vaddr.toNat then min 1 h.filesz.toNat else h.filesz.toNat

/-- The segments of the input are preserved, with `ios` for the zero-address one. -/
structure PreservedAt (strip : UInt64) (fin out : File) (ios : Nat) : Prop where
  magic : (header out).ident0 = 0x7F454C46
  phoff : (header out).phoff.toNat = sizeofElfheader
  number : (header out).phnum.toNat = phnum fin + 2
  inside : tableEnd fin ≤ out.length
  kinds : ∀ i < phnum fin, i ≠ ios →
    (phentry out (outIndex ios i)).type = (phentry fin i).type ∧
      (phentry out (outIndex ios i)).vaddr = (phentry fin i).vaddr ∧
        (phentry out (outIndex ios i)).paddr = (phentry fin i).paddr ∧
          (phentry out (outIndex ios i)).memsz = (phentry fin i).memsz
  others : ∀ i < phnum fin, i ≠ ios →
    Holds fin out (phentry fin i) (kept strip (phentry fin i)) (phentry out (outIndex ios i))
  note : (phentry out (ios + 1)).type = 4 ∧
    Holds fin out (phentry fin ios) (phentry fin ios).filesz.toNat (phentry out (ios + 1))
  load : (phentry out (ios + 2)).type = 1 ∧ ∀ x, Covers (phentry out (ios + 2)) x ↔
    (sizeofElfheader ≤ x ∧ x < tableEnd fin) ∨ Covers (phentry out (ios + 1)) x
  apart : ∀ i < phnum fin + 2, ∀ j < phnum fin + 2, i ≠ j → i ≠ ios + 2 → j ≠ ios + 2 →
    ∀ x, Covers (phentry out i) x → ¬ Covers (phentry out j) x
  clear : ∀ j < phnum fin + 2, j ≠ ios → j ≠ ios + 2 →
    ∀ x, Covers (phentry out j) x → tableEnd fin ≤ x

def Preserved (strip : UInt64) (fin out : File) : Prop :=
  ∃ ios, ZeroAddress (phentry fin) (phnum fin) ios ∧ PreservedAt strip fin out ios

/-! ## When they are -/

/-- An input whose segments are preserved: the number of entries still fits, the zero-address
segment is as long in the file as in memory and is the first one that is not empty, what is kept of
the others is what should be, none of them begins behind 4 GiB, and all are read from where they
are. -/
structure SoundAt (strip : UInt64) (fin : File) (ios : Nat) : Prop where
  few : phnum fin + 2 < 65536
  whole : (phentry fin ios).memsz = (phentry fin ios).filesz
  first : ∀ i < ios, size strip fin ios i = 0
  sizes : ∀ i < phnum fin, i ≠ ios → size strip fin ios i = kept strip (phentry fin i)
  near : ∀ i < phnum fin, size strip fin ios i ≠ 0 →
    place (tableEnd fin) (size strip fin ios) i < 2 ^ 32
  reads : ∀ i < phnum fin, fread fin (readAt strip fin ios i) (size strip fin ios i) =
    fread fin (phentry fin i).offset.toNat (size strip fin ios i)

def Sound (strip : UInt64) (fin : File) : Prop :=
  ∃ ios, ZeroAddress (phentry fin) (phnum fin) ios ∧ SoundAt strip fin ios

section Entries

variable {strip : UInt64} {fin : File} {ios : Nat} {data : List File} {out : File}

/-- A segment other than the IOS one is written as it is stripped. -/
theorem size_other {i : Nat} (other : i ≠ ios) :
    size strip fin ios i = (stripped strip (phentry fin i)).filesz.toNat := by
  rw [size, changed, if_neg other]

/-- The IOS segment is written whole. -/
theorem size_ios : size strip fin ios ios = (phentry fin ios).filesz.toNat := by
  rw [size, changed, if_pos rfl]

/-- Where the entries say that their segments are. -/
def told (strip : UInt64) (fin : File) (ios : Nat) : Nat → Nat :=
  place sizeofElfheader (step strip (phnum fin) ios (phentry fin))

/-- The offset moves on by what is written. -/
theorem step_other {i : Nat} (other : i ≠ ios) :
    step strip (phnum fin) ios (phentry fin) i = size strip fin ios i := by
  rw [step, if_neg other, size_other other]

/-- The segments begin behind a table with two more entries. -/
theorem tableEnd_eq (fin : File) : tableEnd fin = sizeofElfheader + (phnum fin + 2) * 0x20 := by
  rw [tableEnd, sizeofElfphentry, Nat.mul_comm]

/-- The number of entries still fits its field. -/
theorem PreservedAt.few (preserved : PreservedAt strip fin out ios) : phnum fin + 2 < 65536 := by
  have number := preserved.number
  have bound := (header out).phnum.toNat_lt
  omega

theorem phnum_lt (fin : File) : phnum fin < 65536 := (header fin).phnum.toNat_lt

/-- The end of the table fits 32 bits. -/
theorem tableEnd_lt (fin : File) : tableEnd fin < 2 ^ 32 := by
  have bound := phnum_lt fin
  rw [tableEnd, sizeofElfheader, sizeofElfphentry]
  omega

/-- If nothing comes before the zero-address segment, the entries up to it say the same. -/
theorem told_before (first : ∀ i < ios, size strip fin ios i = 0) {i : Nat} (le : i ≤ ios) :
    told strip fin ios i = sizeofElfheader ∧
      place (tableEnd fin) (size strip fin ios) i = tableEnd fin := by
  constructor
  · refine place_empty fun j j_lt => ?_
    rw [step_other (by omega), first j (by omega)]
  · exact place_empty fun j j_lt => first j (by omega)

/-- If that is as long as it is in memory besides, the entries behind it are right. -/
theorem told_behind (first : ∀ i < ios, size strip fin ios i = 0)
    (whole : (phentry fin ios).memsz = (phentry fin ios).filesz) {i : Nat} (later : ios < i) :
    told strip fin ios i = place (tableEnd fin) (size strip fin ios) i := by
  induction i with
  | zero => exact absurd later ios.not_lt_zero
  | succ i ih =>
    rw [told, place, place, ← told]
    by_cases here : i = ios
    · subst here
      have before := told_before first (Nat.le_refl i)
      rw [before.1, before.2, step, if_pos rfl, size_ios, whole, tableEnd_eq, Nat.add_assoc]
    · rw [ih (by omega), step_other here]

namespace Written

variable (written : Written strip fin ios data out)

include written

/-- The entry of a segment other than the IOS one. -/
theorem entry_other {i : Nat} (i_lt : i < phnum fin) (other : i ≠ ios) :
    phentry out (outIndex ios i) =
      otherEntry strip (phentry fin i) (placeOf strip (phnum fin) ios (phentry fin) i) :=
  written.phentry_out ((table_getElem? strip (phnum fin) (phentry fin)
    written.zeroAddress.inside).2.1 i i_lt other)

/-- The first of the three entries for the IOS segment. -/
theorem entry_phdr : phentry out ios =
    phdrEntry (phnum fin) (placeOf strip (phnum fin) ios (phentry fin) ios) :=
  written.phentry_out (table_getElem? strip (phnum fin) (phentry fin)
    written.zeroAddress.inside).2.2.1

/-- The second of them. -/
theorem entry_note : phentry out (ios + 1) =
    noteEntry (phnum fin) (phentry fin ios) (placeOf strip (phnum fin) ios (phentry fin) ios) :=
  written.phentry_out (table_getElem? strip (phnum fin) (phentry fin)
    written.zeroAddress.inside).2.2.2.1

/-- The third of them. -/
theorem entry_load : phentry out (ios + 2) =
    loadEntry (phnum fin) (phentry fin ios) (placeOf strip (phnum fin) ios (phentry fin) ios) :=
  written.phentry_out (table_getElem? strip (phnum fin) (phentry fin)
    written.zeroAddress.inside).2.2.2.2

/-- A segment's entry tells where it begins. -/
theorem other_offset {i : Nat} (i_lt : i < phnum fin) (other : i ≠ ios) :
    (phentry out (outIndex ios i)).offset.toNat = told strip fin ios i % 2 ^ 32 := by
  rw [written.entry_other i_lt other, otherEntry, putbe32_toNat, placeOf_phoff]
  rfl

/-- A segment's entry tells how much of it there is. -/
theorem other_filesz {i : Nat} (i_lt : i < phnum fin) (other : i ≠ ios) :
    (phentry out (outIndex ios i)).filesz.toNat = size strip fin ios i := by
  rw [written.entry_other i_lt other, size_other other]
  exact congrArg UInt32.toNat (putbe32_getbe32 _)

/-- The table's entry tells where the IOS segment begins. -/
theorem phdr_offset : (phentry out ios).offset.toNat = told strip fin ios ios % 2 ^ 32 := by
  rw [written.entry_phdr, phdrEntry, putbe32_toNat, placeOf_phoff]
  rfl

/-- The table's entry tells the length of the table. -/
theorem phdr_filesz : (phentry out ios).filesz.toNat = (phnum fin + 2) * 0x20 := by
  have bound := phnum_lt fin
  rw [written.entry_phdr, phdrEntry, putbe32_toNat, tableSize, UInt64.toNat_ofNat']
  omega

/-- The notes' entry tells a place behind the table. -/
theorem note_offset : (phentry out (ios + 1)).offset.toNat =
    (told strip fin ios ios + (phnum fin + 2) * 0x20) % 2 ^ 32 := by
  rw [written.entry_note, noteEntry, putbe32_toNat, add_tableSize, placeOf_phoff]
  exact Nat.mod_add_mod _ _ _

/-- The notes' entry tells the length in memory. -/
theorem note_filesz : (phentry out (ios + 1)).filesz = (phentry fin ios).memsz := by
  rw [written.entry_note, noteEntry, putbe32_getbe32]

/-- The loaded entry begins with the table. -/
theorem load_offset : (phentry out (ios + 2)).offset.toNat = told strip fin ios ios % 2 ^ 32 := by
  rw [written.entry_load, loadEntry, putbe32_toNat, placeOf_phoff]
  rfl

/-- The loaded entry is as long as the table and the notes. -/
theorem load_filesz : (phentry out (ios + 2)).filesz.toNat =
    ((phnum fin + 2) * 0x20 + (phentry fin ios).memsz.toNat) % 2 ^ 32 := by
  have bound := phnum_lt fin
  rw [written.entry_load, loadEntry, putbe32_toNat, add_getbe32, tableSize, UInt64.toNat_ofNat']
  omega

/-! ## Only then -/

/-- A preserved IOS segment is as long in the file as in memory. -/
theorem whole_of_preserved (preserved : PreservedAt strip fin out ios) :
    (phentry fin ios).memsz = (phentry fin ios).filesz := by
  obtain ⟨bytes, read, holds⟩ := preserved.note.2
  have length := (fread_eq_some read).1
  have length' := (fread_eq_some holds).1
  rw [written.note_filesz] at length'
  exact UInt32.toNat_inj.1 (length'.symm.trans length)

/-- The first segment in front of the zero-address one would be said to be where the table is. -/
theorem first_of_preserved (preserved : PreservedAt strip fin out ios) :
    ∀ i < ios, size strip fin ios i = 0 := by
  intro i
  induction i using Nat.strong_induction_on with
  | _ i ih =>
    intro before
    by_contra some
    have i_lt : i < phnum fin := Nat.lt_trans before written.zeroAddress.inside
    have other : i ≠ ios := Nat.ne_of_lt before
    have start : told strip fin ios i = sizeofElfheader := place_empty fun j j_lt => by
      rw [step_other (by omega), ih j j_lt (by omega)]
    have index : outIndex ios i = i := if_pos before
    have offset := written.other_offset i_lt other
    have filesz := written.other_filesz i_lt other
    rw [start, index] at offset
    rw [index] at filesz
    have covers : Covers (phentry out i) sizeofElfheader := by
      rw [Covers, offset, filesz, sizeofElfheader]
      omega
    have clear := preserved.clear i (by omega) other (by omega) _ covers
    rw [tableEnd, sizeofElfphentry] at clear
    omega

/-- A preserved segment is written with all that is kept of it. -/
theorem sizes_of_preserved (preserved : PreservedAt strip fin out ios) {i : Nat}
    (i_lt : i < phnum fin) (other : i ≠ ios) :
    size strip fin ios i = kept strip (phentry fin i) := by
  obtain ⟨bytes, read, holds⟩ := preserved.others i i_lt other
  have length := (fread_eq_some read).1
  have length' := (fread_eq_some holds).1
  rw [written.other_filesz i_lt other] at length'
  exact length'.symm.trans length

/-- The note is where it should be. -/
theorem note_placed (preserved : PreservedAt strip fin out ios) :
    (phentry out (ios + 1)).offset.toNat = tableEnd fin ∧
      (phentry out (ios + 1)).filesz.toNat = size strip fin ios ios := by
  have before := told_before (written.first_of_preserved preserved) (Nat.le_refl ios)
  have offset := written.note_offset
  rw [before.1, ← tableEnd_eq] at offset
  rw [offset, Nat.mod_eq_of_lt (tableEnd_lt fin), written.note_filesz,
    written.whole_of_preserved preserved,
    size_ios]
  exact ⟨rfl, rfl⟩

/-- A segment that began behind 4 GiB would be said to be where one in front of it is. -/
theorem near_of_preserved (preserved : PreservedAt strip fin out ios) :
    ∀ i < phnum fin, size strip fin ios i ≠ 0 →
      place (tableEnd fin) (size strip fin ios) i < 2 ^ 32 := by
  have first := written.first_of_preserved preserved
  have whole := written.whole_of_preserved preserved
  intro i
  induction i using Nat.strong_induction_on with
  | _ i ih =>
    intro i_lt some
    by_contra far
    have note := written.note_placed preserved
    have bound := tableEnd_lt fin
    have later : ios < i := by
      by_contra early
      have before := told_before first (Nat.le_of_not_lt early)
      rw [before.2] at far
      exact far bound
    have other : i ≠ ios := Nat.ne_of_gt later
    have index : outIndex ios i = i + 2 := if_neg (by omega)
    have offset := written.other_offset i_lt other
    have filesz := written.other_filesz i_lt other
    rw [told_behind first whole later, index] at offset
    rw [index] at filesz
    -- the byte that its entry begins with
    have covers : Covers (phentry out (i + 2)) (phentry out (i + 2)).offset.toNat := by
      rw [Covers, filesz]
      omega
    have above := preserved.clear (i + 2) (by omega) (by omega) (by omega) _ covers
    have below : (phentry out (i + 2)).offset.toNat < 2 ^ 32 := UInt32.toNat_lt _
    obtain ⟨j, j_lt, inside⟩ := place_cover above (Nat.lt_of_lt_of_le below (Nat.le_of_not_lt far))
    rcases Nat.lt_trichotomy j ios with early | rfl | behind
    · have empty := first j early
      omega
    · refine preserved.apart (i + 2) (by omega) (j + 1) (by omega) (by omega) (by omega) (by omega)
        _ covers ?_
      rw [(told_before first (Nat.le_refl j)).2] at inside
      rw [Covers, note.1, note.2]
      exact inside
    · have j_lt' : j < phnum fin := Nat.lt_trans j_lt i_lt
      have index' : outIndex ios j = j + 2 := if_neg (by omega)
      have offset' := written.other_offset j_lt' (Nat.ne_of_gt behind)
      have filesz' := written.other_filesz j_lt' (Nat.ne_of_gt behind)
      have small := ih j j_lt j_lt' (by omega)
      rw [told_behind first whole behind, index', Nat.mod_eq_of_lt small] at offset'
      rw [index'] at filesz'
      refine preserved.apart (i + 2) (by omega) (j + 2) (by omega) (by omega) (by omega) (by omega)
        _ covers ?_
      rw [Covers, offset', filesz']
      exact inside

/-- A preserved segment is read from where its entry says. -/
theorem reads_of_preserved (preserved : PreservedAt strip fin out ios) {i : Nat}
    (i_lt : i < phnum fin) : fread fin (readAt strip fin ios i) (size strip fin ios i) =
      fread fin (phentry fin i).offset.toNat (size strip fin ios i) := by
  have first := written.first_of_preserved preserved
  have whole := written.whole_of_preserved preserved
  obtain ⟨bytes, read, stored⟩ := written.segment_out i_lt
  by_cases empty : size strip fin ios i = 0
  · rw [empty, fread_zero, fread_zero]
  rcases Nat.lt_trichotomy i ios with early | rfl | later
  · exact absurd (first i early) empty
  · obtain ⟨bytes', read', holds⟩ := preserved.note.2
    have note := written.note_placed preserved
    rw [note.1, note.2] at holds
    rw [(told_before first (Nat.le_refl i)).2] at stored
    rw [read, ← stored, holds, ← read', size_ios]
  · have other := Nat.ne_of_gt later
    obtain ⟨bytes', read', holds⟩ := preserved.others i i_lt other
    rw [written.other_offset i_lt other, written.other_filesz i_lt other,
      told_behind first whole later,
      Nat.mod_eq_of_lt (written.near_of_preserved preserved i i_lt empty)] at holds
    rw [read, ← stored, holds, ← read', written.sizes_of_preserved preserved i_lt other]

/-- A preserved image is sound. -/
theorem sound_of_preserved (preserved : PreservedAt strip fin out ios) :
    SoundAt strip fin ios where
  few := preserved.few
  whole := written.whole_of_preserved preserved
  first := written.first_of_preserved preserved
  sizes _ i_lt other := written.sizes_of_preserved preserved i_lt other
  near := written.near_of_preserved preserved
  reads _ i_lt := written.reads_of_preserved preserved i_lt

/-! ## Then they are -/

/-- A segment that is not empty is where its entry says. -/
theorem sound_offset (sound : SoundAt strip fin ios) {i : Nat} (i_lt : i < phnum fin)
    (other : i ≠ ios) (some : size strip fin ios i ≠ 0) :
    (phentry out (outIndex ios i)).offset.toNat = place (tableEnd fin) (size strip fin ios) i := by
  have later : ios < i := by
    by_contra early
    exact some (sound.first i (by omega))
  rw [written.other_offset i_lt other, told_behind sound.first sound.whole later,
    Nat.mod_eq_of_lt (sound.near i i_lt some)]

/-- In a sound image the notes' entry tells where they are and how long. -/
theorem sound_note (sound : SoundAt strip fin ios) :
    (phentry out (ios + 1)).offset.toNat = place (tableEnd fin) (size strip fin ios) ios ∧
      (phentry out (ios + 1)).filesz.toNat = size strip fin ios ios := by
  have before := told_before sound.first (Nat.le_refl ios)
  rw [written.note_offset, before.1, before.2, ← tableEnd_eq, Nat.mod_eq_of_lt (tableEnd_lt fin),
    written.note_filesz, sound.whole, size_ios]
  exact ⟨rfl, rfl⟩

/-- What an entry of the table covers, the ones for the table itself apart. -/
theorem sound_covers (sound : SoundAt strip fin ios) {j x : Nat} (j_lt : j < phnum fin + 2)
    (phdr : j ≠ ios) (load : j ≠ ios + 2) (covers : Covers (phentry out j) x) :
    ∃ i < phnum fin, j = (if i = ios then ios + 1 else outIndex ios i) ∧
      place (tableEnd fin) (size strip fin ios) i ≤ x ∧
        x < place (tableEnd fin) (size strip fin ios) i + size strip fin ios i := by
  by_cases note : j = ios + 1
  · refine ⟨ios, written.zeroAddress.inside, by rw [if_pos rfl, note], ?_⟩
    have placed := written.sound_note sound
    rw [note, Covers, placed.1, placed.2] at covers
    exact covers
  · obtain ⟨i, i_lt, other, index⟩ : ∃ i < phnum fin, i ≠ ios ∧ outIndex ios i = j := by
      have inside := written.zeroAddress.inside
      by_cases early : j < ios
      · exact ⟨j, by omega, by omega, if_pos early⟩
      · refine ⟨j - 2, by omega, by omega, ?_⟩
        rw [outIndex, if_neg (by omega)]
        omega
    refine ⟨i, i_lt, by rw [if_neg other, index], ?_⟩
    rw [← index, Covers, written.other_filesz i_lt other] at covers
    rwa [written.sound_offset sound i_lt other (by omega)] at covers

/-- A sound image is preserved. -/
theorem preserved_of_sound (sound : SoundAt strip fin ios) : PreservedAt strip fin out ios := by
  have before := told_before sound.first (Nat.le_refl ios)
  have clear : ∀ j < phnum fin + 2, j ≠ ios → j ≠ ios + 2 →
      ∀ x, Covers (phentry out j) x → tableEnd fin ≤ x := by
    intro j j_lt phdr load x covers
    obtain ⟨i, i_lt, -, inside⟩ := written.sound_covers sound j_lt phdr load covers
    exact Nat.le_trans (base_le_place i) inside.1
  have phdr_below {x : Nat} (covers : Covers (phentry out ios) x) : x < tableEnd fin := by
    rw [Covers, written.phdr_offset, written.phdr_filesz, before.1] at covers
    rw [tableEnd_eq]
    exact Nat.lt_of_lt_of_le covers.2 (Nat.add_le_add_right (Nat.mod_le _ _) _)
  refine ⟨?_, ?_, ?_, written.tableEnd_le, fun i i_lt other => ?_, fun i i_lt other => ?_, ⟨?_, ?_⟩,
    ⟨?_, fun x => ?_⟩, fun i i_lt j j_lt apart load load' x covers covers' => ?_, clear⟩
  · rw [written.header_out]
    exact written.magic
  · rw [written.header_out]
    rfl
  · have few := sound.few
    rw [written.header_out]
    have added : (iosHeader (header fin)).phnum = (header fin).phnum + 2 := rfl
    rw [added, UInt16.toNat_add]
    exact Nat.mod_eq_of_lt few
  · rw [written.entry_other i_lt other]
    exact ⟨putbe32_getbe32 _, putbe32_getbe32 _, putbe32_getbe32 _, putbe32_getbe32 _⟩
  · obtain ⟨bytes, read, stored⟩ := written.segment_out i_lt
    rw [sound.reads i i_lt, sound.sizes i i_lt other] at read
    refine ⟨bytes, read, ?_⟩
    rw [written.other_filesz i_lt other]
    by_cases empty : size strip fin ios i = 0
    · rwa [empty, fread_zero] at stored ⊢
    · rwa [written.sound_offset sound i_lt other empty]
  · rw [written.entry_note]
    rfl
  · obtain ⟨bytes, read, stored⟩ := written.segment_out written.zeroAddress.inside
    have note := written.sound_note sound
    rw [sound.reads ios written.zeroAddress.inside, size_ios] at read
    exact ⟨bytes, read, by rwa [note.1, note.2]⟩
  · rw [written.entry_load]
    rfl
  · have note := written.sound_note sound
    have small := written.small ios written.zeroAddress.inside
    have few := sound.few
    rw [Covers, Covers, written.load_offset, written.load_filesz, note.1, note.2, before.1,
      before.2,
      sound.whole, ← (size_ios : size strip _ ios ios = _), tableEnd_eq, sizeofElfheader]
    omega
  · by_cases phdr : i = ios
    · subst phdr
      have below := phdr_below covers
      exact absurd below (Nat.not_lt_of_le (clear j j_lt (Ne.symm apart) load' x covers'))
    by_cases phdr' : j = ios
    · subst phdr'
      have below := phdr_below covers'
      exact absurd below (Nat.not_lt_of_le (clear i i_lt phdr load x covers))
    obtain ⟨k, k_lt, index, inside⟩ := written.sound_covers sound i_lt phdr load covers
    obtain ⟨k', k_lt', index', inside'⟩ := written.sound_covers sound j_lt phdr' load' covers'
    rcases Nat.lt_trichotomy k k' with first | rfl | last
    · have disjoint := @place_apart (tableEnd fin) (size strip fin ios) _ _ first
      omega
    · exact apart (index.trans index'.symm)
    · have disjoint := @place_apart (tableEnd fin) (size strip fin ios) _ _ last
      omega

end Written

end Entries

/-- A run that exits with 0, for an input whose table does not begin behind 2 GiB, preserves the
segments exactly if the input is sound. -/
theorem preserved_iff {strip : UInt64} {fin out : File} (run : main strip fin = some out)
    (near : (header fin).phoff.toNat < 0x80000000) :
    Preserved strip fin out ↔ Sound strip fin := by
  obtain ⟨ios, data, written⟩ := main_written run near
  constructor
  · rintro ⟨ios', zeroAddress, preserved⟩
    obtain rfl := written.zeroAddress.unique zeroAddress
    exact ⟨ios, zeroAddress, written.sound_of_preserved preserved⟩
  · rintro ⟨ios', zeroAddress, sound⟩
    obtain rfl := written.zeroAddress.unique zeroAddress
    exact ⟨ios, zeroAddress, written.preserved_of_sound sound⟩

/-! ## Two files -/

/-- The header of a file with two segments. -/
def twoHeader : Elfheader where
  ident0 := 0x7F454C46
  ident1 := 0x01020100
  ident2 := 0
  ident3 := 0
  machinetype := 0x20028
  version := 1
  entry := 0x13700000
  phoff := 0x34
  shoff := 0
  flags := 0
  ehsize := 0x34
  phentsize := 0x20
  phnum := 2
  shentsize := 0
  shnum := 0
  shtrndx := 0

/-- A zero-address segment and another one. -/
def zeroSegment : Elfphentry := ⟨1, 0x74, 0, 0, 4, 4, 5, 4⟩
def codeSegment : Elfphentry := ⟨1, 0x78, 0x13700000, 0x13700000, 2, 8, 5, 4⟩

/-- A file with the two segments. -/
def twoSegments (first second : Elfphentry) : File :=
  twoHeader.bytes ++ (first.bytes ++ (second.bytes ++ [1, 2, 3, 4, 5, 6]))

/-- The zero-address segment comes first. -/
theorem twoSegments_preserved : ∃ out, main 0 (twoSegments zeroSegment codeSegment) = some out ∧
    Preserved 0 (twoSegments zeroSegment codeSegment) out := by
  obtain ⟨out, run⟩ := Option.isSome_iff_exists.1
    (show (main 0 (twoSegments zeroSegment codeSegment)).isSome = true by decide +kernel)
  refine ⟨out, run, (preserved_iff run (by decide)).2 ⟨0, ?_, ?_⟩⟩
  · exact ⟨by decide, by decide, by decide⟩
  · exact ⟨by decide, by decide, by decide, by decide, by decide +kernel, by decide +kernel⟩

/-- It comes second, and the table is not where its entry says. -/
theorem twoSegments_not_preserved :
    ¬ ∀ strip fin out, main strip fin = some out → Preserved strip fin out := by
  intro always
  obtain ⟨out, run⟩ := Option.isSome_iff_exists.1
    (show (main 0 (twoSegments codeSegment zeroSegment)).isSome = true by decide +kernel)
  obtain ⟨ios, data, written⟩ := main_written run (by decide)
  obtain ⟨ios', zeroAddress, preserved⟩ := always 0 _ out run
  obtain rfl := written.zeroAddress.unique zeroAddress
  have second : ios = 1 := zeroAddress.unique ⟨by decide, by decide, by decide⟩
  subst second
  exact absurd (written.first_of_preserved preserved 0 (by decide)) (by decide)

end D2xCios.Stripios
