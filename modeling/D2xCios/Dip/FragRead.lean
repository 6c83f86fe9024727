import D2xCios.Dip.FragLookup
import D2xCios.Lib.Transfer

/-!
# Reads from a fragment-backed image

Each of the three parts of `Frag_Read` is a transfer from the image into memory,
and transfers that meet compose. A read therefore succeeds exactly when all of
it lies inside the image, and then it has copied the image's bytes.

The word offset of a read is 32 bits wide, so a read cannot go past byte 2^34 of
the image: behind it the offset starts at 0 again (`fragRead_wraps`).
-/

namespace D2xCios.Dip

open D2xCios.Lib

/-- What a block device holds: the bytes of each sector. -/
abbrev Content := Nat → Nat → UInt8

/-- Reads from the device `dev` succeed and return what it holds. Sector numbers are 32 bits
wide. -/
def Storage.Returns {σ : Type} (storage : Storage σ) (dev sectorSize : Nat)
    (content : Content) : Prop :=
  ∀ sector count st, (storage.read dev sector count st).1 = true ∧
    (storage.read dev sector count st).2.1 = (List.range (count * sectorSize)).map fun i =>
      content (u32 (sector + i / sectorSize)) (i % sectorSize)

/-- The bytes of the image: what the device holds for a stored sector, else zero. -/
def FragList.image (ff : FragList) (sectorSize : Nat) (content : Content) : Cells UInt8 :=
  fun b =>
    match ff.source (b / sectorSize) with
    | some sector => content sector (b % sectorSize)
    | none => 0

/-- The statics are set up for the list `ff`, with one of the four sector sizes. -/
structure FragState.Serves (fs : FragState) (ff : FragList) : Prop where
  bits_ge : 9 ≤ fs.ssNumBits
  bits_le : fs.ssNumBits ≤ 12
  sectorSize_eq : fs.sectorSize = 2 ^ fs.ssNumBits
  fragIdx_eq : fs.fragIdx = fragOptimizeList ff

/-- The sector sizes a device can have. -/
def SectorSize (n : Nat) : Prop := n = 512 ∨ n = 1024 ∨ n = 2048 ∨ n = 4096

/-- `ss_num_bits` is the number of bits of an offset in a sector. -/
theorem fragGetNumBits_sectorSize {n : Nat} (size : SectorSize n) :
    9 ≤ fragGetNumBits (u32 (n + 4294967295)) ∧ fragGetNumBits (u32 (n + 4294967295)) ≤ 12 ∧
      n = 2 ^ fragGetNumBits (u32 (n + 4294967295)) := by
  rcases size with rfl | rfl | rfl | rfl <;> simp [u32, fragGetNumBits]

/-- `Frag_Init` sets the statics up for the list it leaves in `fraglist_data`. -/
theorem fragInit_serves {σ : Type} (storage : Storage σ) (device : Nat) (source : Option Mem)
    (size : Nat) (fs : FragState) (st : σ)
    (succeeded : (fragInit storage device source size fs st).1 = 0)
    (sectors : SectorSize (fragInit storage device source size fs st).2.1.sectorSize) :
    (fragInit storage device source size fs st).2.1.Serves
      (FragList.ofMem (fragInit storage device source size fs st).2.1.fraglistData) := by
  obtain ⟨sectorSize, buf, state⟩ := fragInit_ok succeeded
  rw [state] at sectors ⊢
  obtain ⟨bits_ge, bits_le, size_eq⟩ := fragGetNumBits_sectorSize sectors
  exact ⟨bits_ge, bits_le, size_eq, rfl⟩

theorem FragState.Serves.sectorSize_pos {fs : FragState} {ff : FragList} (serves : fs.Serves ff) :
    0 < fs.sectorSize := by
  rw [serves.sectorSize_eq]
  exact Nat.two_pow_pos _

/-! ## Windows of the image -/

section Image

variable {ff : FragList} {ss : Nat} {content : Content}

/-- The sector of a byte, and its place there. -/
theorem sector_of_byte (ss_pos : 0 < ss) (s i : Nat) :
    (s * ss + i) / ss = s + i / ss ∧ (s * ss + i) % ss = i % ss := by
  constructor
  · rw [Nat.mul_comm, Nat.mul_add_div ss_pos]
  · rw [Nat.mul_comm, Nat.mul_add_mod]

/-- Sectors without a source are zeros. -/
theorem image_window_sparse (ss_pos : 0 < ss) {offset delta : Nat}
    (sparse : ∀ s, offset ≤ s → s < offset + delta → ff.source s = none) :
    (ff.image ss content).window (offset * ss) (delta * ss) = List.replicate (delta * ss) 0 := by
  rw [List.eq_replicate_iff]
  refine ⟨Cells.window_length _ _ _, fun byte member => ?_⟩
  obtain ⟨i, i_lt, rfl⟩ := List.mem_map.mp member
  have within : i / ss < delta :=
    (Nat.div_lt_iff_lt_mul ss_pos).mpr (List.mem_range.mp i_lt)
  simp only [FragList.image, (sector_of_byte ss_pos offset i).1]
  rw [sparse _ (Nat.le_add_right _ _) (by omega)]

/-- Sectors with a source are those of the source. -/
theorem image_window_stored (ss_pos : 0 < ss) {offset sector count : Nat}
    (stored : ∀ k, k < count → ff.source (offset + k) = some (u32 (sector + k))) :
    (ff.image ss content).window (offset * ss) (count * ss) =
      (List.range (count * ss)).map fun i => content (u32 (sector + i / ss)) (i % ss) := by
  refine List.map_congr_left fun i member => ?_
  have within : i / ss < count := (Nat.div_lt_iff_lt_mul ss_pos).mpr (List.mem_range.mp member)
  simp only [FragList.image, sector_of_byte ss_pos, stored _ within]

end Image

/-- The sectors of a run of bytes lie below `limit` when its last byte does. -/
theorem sectors_below_iff {ss start len limit : Nat} (ss_pos : 0 < ss) :
    (∀ b, start ≤ b → b < start + len → b / ss < limit) ↔
      len = 0 ∨ start + len ≤ limit * ss := by
  constructor
  · intro below
    rcases Nat.eq_zero_or_pos len with zero | pos
    · exact .inl zero
    · have last := below (start + len - 1) (by omega) (by omega)
      rw [Nat.div_lt_iff_lt_mul ss_pos] at last
      omega
  · intro fits b le lt
    rw [Nat.div_lt_iff_lt_mul ss_pos]
    omega

/-! ## The three parts -/

section Read

variable {σ : Type} {storage : Storage σ} {fs : FragState} {ff : FragList} {content : Content}

/-- What is read for the stored run of a piece is the image of its sectors. -/
theorem read_piece (ss_pos : 0 < fs.sectorSize)
    (returns : storage.Returns fs.fragDev fs.sectorSize content) {offset count : Nat}
    {span : FragSpan} (piece : Piece ff offset count span) (st : σ) :
    let got := if span.count = 0 then (true, [], st)
      else storage.read fs.fragDev span.sector span.count st
    got.1 = true ∧ got.2.1 = (ff.image fs.sectorSize content).window
      (span.offset * fs.sectorSize) (span.count * fs.sectorSize) := by
  intro got
  by_cases empty : span.count = 0
  · simp [got, empty]
  · obtain ⟨succeeded, bytes⟩ := returns span.sector span.count st
    simp only [got, if_neg empty, succeeded, bytes, image_window_stored ss_pos piece.stored,
      and_self]

/-- One round of `__Frag_ReadSect` copies one piece. -/
theorem piece_transfer (serves : fs.Serves ff) {offset data len : Nat} {span : FragSpan}
    (piece : Piece ff offset len span) (mem : Mem) :
    let delta := span.offset - offset
    let image := ff.image fs.sectorSize content
    Transfer image (ff.size * fs.sectorSize) (offset * fs.sectorSize) data
      ((delta + span.count) * fs.sectorSize) mem 0
      ((mem.overlay data (List.replicate (delta <<< fs.ssNumBits) 0)).overlay
        (data + delta <<< fs.ssNumBits)
        (image.window (span.offset * fs.sectorSize) (span.count * fs.sectorSize))) := by
  intro delta image
  have ss_pos := serves.sectorSize_pos
  have begins := piece.begins
  have inside := piece.inside
  have sparse_until : offset + delta = span.offset := by omega
  have sparse : image.window (offset * fs.sectorSize) (delta * fs.sectorSize) =
      List.replicate (delta * fs.sectorSize) 0 :=
    image_window_sparse ss_pos fun s le lt => piece.sparse s le (by omega)
  have gap : Transfer image (ff.size * fs.sectorSize) (offset * fs.sectorSize) data
      (delta * fs.sectorSize) mem 0 _ :=
    .of_overlay (by rw [← Nat.add_mul]; exact Nat.mul_le_mul_right _ (by omega))
  have run : Transfer image (ff.size * fs.sectorSize)
      (offset * fs.sectorSize + delta * fs.sectorSize) (data + delta * fs.sectorSize)
      (span.count * fs.sectorSize)
      (mem.overlay data (image.window (offset * fs.sectorSize) (delta * fs.sectorSize))) 0 _ :=
    .of_overlay (by rw [← Nat.add_mul, ← Nat.add_mul]; exact Nat.mul_le_mul_right _ (by omega))
  have whole := gap.append run
  rw [← Nat.add_mul offset, sparse_until, sparse] at whole
  rw [Nat.shiftLeft_eq, ← serves.sectorSize_eq, Nat.add_mul]
  exact whole

/-- Sectors inside the table are copied from the image. -/
theorem fragReadSect_transfer (wf : ff.WellFormed) (serves : fs.Serves ff)
    (returns : storage.Returns fs.fragDev fs.sectorSize content) (offset data len : Nat)
    (covered : offset + len ≤ tableSectors) (mem : Mem) (st : σ) :
    Transfer (ff.image fs.sectorSize content) (ff.size * fs.sectorSize)
      (offset * fs.sectorSize) data (len * fs.sectorSize) mem
      (fragReadSect storage fs ff offset data len mem st).1
      (fragReadSect storage fs ff offset data len mem st).2.1 := by
  have ss_pos := serves.sectorSize_pos
  induction len using Nat.strongRecOn generalizing offset data mem st with
  | ind len ih =>
    rw [fragReadSect]
    by_cases none_left : len = 0
    · simpa [none_left] using Transfer.nil
    rw [if_neg none_left, serves.fragIdx_eq]
    have len_pos : 0 < len := Nat.pos_of_ne_zero none_left
    have table : tableSectors < 4294967296 := by decide
    have here : offset < tableSectors := by omega
    have small : offset + len < 4294967296 := by omega
    rcases fragGet_piece wf len_pos here small with ⟨span, found, piece⟩ | ⟨failed, beyond⟩
    · obtain ⟨succeeded, bytes⟩ := read_piece serves.sectorSize_pos returns piece st
      have begins := piece.begins
      have progress := piece.progress
      have fits := piece.fits
      have moved : ¬ span.offset - offset + span.count = 0 := by omega
      have next : u32 (offset + (span.offset - offset) + span.count) =
          offset + (span.offset - offset + span.count) := by
        rw [u32_of_lt (by omega), Nat.add_assoc]
      simp only [found, succeeded, bytes, if_neg moved, next, Bool.true_eq_false, if_false]
      let done := span.offset - offset + span.count
      have first : Transfer (ff.image fs.sectorSize content) (ff.size * fs.sectorSize)
        (offset * fs.sectorSize) data (done * fs.sectorSize) mem 0 _ :=
        piece_transfer serves piece mem
      have rest := ih (len - done) (by omega) (offset + done)
        (data + (span.offset - offset) <<< fs.ssNumBits + span.count <<< fs.ssNumBits) (by omega)
      have stored : data + (span.offset - offset) <<< fs.ssNumBits + span.count <<< fs.ssNumBits =
          data + done * fs.sectorSize := by
        rw [Nat.shiftLeft_eq, Nat.shiftLeft_eq, ← serves.sectorSize_eq, Nat.add_mul, Nat.add_assoc]
      have total : done * fs.sectorSize + (len - done) * fs.sectorSize = len * fs.sectorSize := by
        rw [← Nat.add_mul]
        congr 1
        omega
      simp only [stored, Nat.add_mul offset] at rest
      rw [stored, ← total]
      exact first.append (rest _ _)
    · rw [failed]
      have len_bytes : 0 < len * fs.sectorSize := Nat.mul_pos len_pos ss_pos
      have beyond_bytes : ff.size * fs.sectorSize <
          offset * fs.sectorSize + len * fs.sectorSize := by
        rw [← Nat.add_mul]
        exact Nat.mul_lt_mul_of_pos_right beyond ss_pos
      exact .refuse len_bytes beyond_bytes (by simp)

/-- The bytes a partial read takes from the sector of `offset`. -/
def partialLen (sectorSize offset len : Nat) : Nat :=
  let rlen := min (sectorSize - 4 * offset % sectorSize) len
  if rlen = sectorSize then 0 else rlen

/-- A read within a sector stays in the sector and within the length. -/
theorem partialLen_le {sectorSize : Nat} (ss_pos : 0 < sectorSize) (offset len : Nat) :
    4 * offset % sectorSize + partialLen sectorSize offset len ≤ sectorSize ∧
      partialLen sectorSize offset len ≤ len := by
  have place := Nat.mod_lt (4 * offset) ss_pos
  simp only [partialLen]
  split <;> omega

/-- A partial read that leaves something to read ends at a sector boundary. -/
theorem partialLen_boundary {sectorSize offset len : Nat} (words : 4 ∣ sectorSize)
    (ss_pos : 0 < sectorSize) (more : partialLen sectorSize offset len < len) :
    4 ∣ partialLen sectorSize offset len ∧
      sectorSize ∣ 4 * offset + partialLen sectorSize offset len := by
  have place := Nat.mod_lt (4 * offset) ss_pos
  have whole := Nat.div_add_mod (4 * offset) sectorSize
  have place_words : 4 ∣ 4 * offset % sectorSize :=
    (Nat.dvd_mod_iff words).mpr (Nat.dvd_mul_right 4 offset)
  simp only [partialLen] at more ⊢
  split
  case isTrue full =>
    have aligned : 4 * offset % sectorSize = 0 := by omega
    exact ⟨Nat.dvd_zero 4, Nat.dvd_of_mod_eq_zero (by simpa using aligned)⟩
  case isFalse partly =>
    have rest : min (sectorSize - 4 * offset % sectorSize) len =
        sectorSize - 4 * offset % sectorSize := by
      rw [if_neg partly] at more
      omega
    rw [rest]
    refine ⟨Nat.dvd_sub words place_words, ?_⟩
    have next : 4 * offset + (sectorSize - 4 * offset % sectorSize) =
        sectorSize * (4 * offset / sectorSize + 1) := by
      rw [Nat.mul_add]
      omega
    exact ⟨_, next⟩

/-- Less than a sector from a sector boundary on is read at once. -/
theorem partialLen_aligned {sectorSize offset len : Nat} (aligned : sectorSize ∣ 4 * offset)
    (short : len < sectorSize) : partialLen sectorSize offset len = len := by
  have place := Nat.mod_eq_zero_of_dvd aligned
  simp only [partialLen, place]
  split <;> omega

/-- The place of an image word in its sector, as the code computes it. -/
theorem word_place (bits offset : Nat) (bits_ge : 2 ≤ bits) :
    offset >>> (bits - 2) = 4 * offset / 2 ^ bits ∧
      (offset &&& ((2 ^ bits - 1) >>> 2)) <<< 2 = 4 * offset % 2 ^ bits := by
  obtain ⟨k, rfl⟩ : ∃ k, bits = k + 2 := ⟨bits - 2, by omega⟩
  have split : 2 ^ (k + 2) = 4 * 2 ^ k := by rw [Nat.pow_add, Nat.mul_comm]
  have k_pos := Nat.two_pow_pos k
  constructor
  · rw [Nat.add_sub_cancel, Nat.shiftRight_eq_div_pow, split, Nat.mul_div_mul_left _ _ (by decide)]
  · have mask : (2 ^ (k + 2) - 1) >>> 2 = 2 ^ k - 1 := by
      rw [Nat.shiftRight_eq_div_pow, split]
      omega
    rw [mask, Nat.and_two_pow_sub_one_eq_mod, Nat.shiftLeft_eq, split, Nat.mul_mod_mul_left,
      Nat.mul_comm]

/-- A part of one sector is copied from the image. -/
theorem fragReadPartial_transfer (wf : ff.WellFormed) (serves : fs.Serves ff)
    (returns : storage.Returns fs.fragDev fs.sectorSize content) (offset data len : Nat)
    (covered : 0 < len → 4 * offset / fs.sectorSize < tableSectors) (io : FragIo σ) :
    let result := fragReadPartial storage fs ff offset data len io
    Transfer (ff.image fs.sectorSize content) (ff.size * fs.sectorSize) (4 * offset) data
      (partialLen fs.sectorSize offset len) io.mem result.1 result.2.2.mem ∧
      (result.1 = 0 → result.2.1 = partialLen fs.sectorSize offset len) := by
  have ss_pos := serves.sectorSize_pos
  have bits := serves.bits_ge
  obtain ⟨offSec, place⟩ := word_place fs.ssNumBits offset (by omega)
  rw [← serves.sectorSize_eq] at offSec place
  simp only [fragReadPartial, offSec, place]
  have count_eq : (if min (fs.sectorSize - 4 * offset % fs.sectorSize) len = fs.sectorSize then 0
      else min (fs.sectorSize - 4 * offset % fs.sectorSize) len) =
      partialLen fs.sectorSize offset len := rfl
  rw [count_eq]
  by_cases none_left : partialLen fs.sectorSize offset len = 0
  · rw [none_left, if_pos rfl]
    exact ⟨.nil, fun _ => rfl⟩
  · rw [if_neg none_left]
    have count_pos := Nat.pos_of_ne_zero none_left
    obtain ⟨inside, within⟩ := partialLen_le ss_pos offset len
    have whole := Nat.div_add_mod' (4 * offset) fs.sectorSize
    have sector := fragReadSect_transfer wf serves returns (4 * offset / fs.sectorSize) 0 1
      (covered (by omega)) io.sectorBuf io.st
    rw [Nat.one_mul] at sector
    split
    case isTrue failed =>
      have beyond := mt sector.zero_iff.mpr failed
      have after : ff.size ≤ 4 * offset / fs.sectorSize := by
        rw [← Nat.succ_mul, not_or, Nat.mul_le_mul_right_iff ss_pos] at beyond
        omega
      have bytes := Nat.mul_le_mul_right fs.sectorSize after
      exact ⟨.refuse count_pos (by omega) failed, fun zero => absurd zero failed⟩
    case isFalse succeeded =>
      have zero := not_not.mp succeeded
      have fits := (sector.zero_iff.mp zero).resolve_left (Nat.ne_of_gt ss_pos)
      have copied : (io.sectorBuf.overlay 0 ((ff.image fs.sectorSize content).window
          (4 * offset / fs.sectorSize * fs.sectorSize) fs.sectorSize)).window
          (0 + 4 * offset % fs.sectorSize) (partialLen fs.sectorSize offset len) = _ :=
        Cells.window_overlay_window _ _ inside
      rw [Nat.zero_add, whole, ← sector.contents zero] at copied
      rw [copied]
      exact ⟨.of_overlay (by omega), fun _ => rfl⟩

/-- The whole sectors of a request that begins at a sector boundary. -/
theorem fragReadAligned_transfer (wf : ff.WellFormed) (serves : fs.Serves ff)
    (returns : storage.Returns fs.fragDev fs.sectorSize content) (woffset data len : Nat)
    (aligned : fs.sectorSize ∣ 4 * woffset)
    (covered : 4 * woffset + len ≤ tableSectors * fs.sectorSize) (io : FragIo σ) :
    let result := fragReadAligned storage fs ff woffset data len io
    Transfer (ff.image fs.sectorSize content) (ff.size * fs.sectorSize) (4 * woffset) data
      (len / fs.sectorSize * fs.sectorSize) io.mem result.1 result.2.2.mem ∧
      result.2.1 = len / fs.sectorSize := by
  have ss_pos := serves.sectorSize_pos
  have bits := serves.bits_ge
  have sector := (word_place fs.ssNumBits woffset (by omega)).1
  rw [← serves.sectorSize_eq] at sector
  have start := Nat.div_mul_cancel aligned
  have lenSec : len >>> fs.ssNumBits = len / fs.sectorSize := by
    rw [Nat.shiftRight_eq_div_pow, serves.sectorSize_eq]
  simp only [fragReadAligned, sector, lenSec]
  split
  case isTrue whole =>
    have inside : 4 * woffset / fs.sectorSize + len / fs.sectorSize ≤ tableSectors := by
      rw [← Nat.mul_le_mul_right_iff ss_pos, Nat.add_mul, start]
      have cut := Nat.div_mul_le_self len fs.sectorSize
      omega
    have copied := fragReadSect_transfer wf serves returns (4 * woffset / fs.sectorSize) data
      (len / fs.sectorSize) inside io.mem io.st
    rw [start] at copied
    exact ⟨copied, rfl⟩
  case isFalse short =>
    rw [Nat.div_eq_of_lt (Nat.not_le.mp short), Nat.zero_mul]
    exact ⟨.nil, rfl⟩

/-- Nothing is left behind the leading part. -/
theorem fragReadTail_zero (storage : Storage σ) (ff : FragList) (ss_pos : 0 < fs.sectorSize)
    (data woffset : Nat) (io : FragIo σ) :
    fragReadTail storage fs ff data 0 woffset io = (0, io) := by
  have short : ¬ 0 ≥ fs.sectorSize := Nat.not_le.mpr ss_pos
  simp [fragReadTail, fragReadAligned, short]

/-- A request that begins at a sector boundary. -/
theorem fragReadTail_transfer (wf : ff.WellFormed) (serves : fs.Serves ff)
    (returns : storage.Returns fs.fragDev fs.sectorSize content) (data len woffset : Nat)
    (aligned : fs.sectorSize ∣ 4 * woffset)
    (covered : 4 * woffset + len ≤ tableSectors * fs.sectorSize)
    (addressed : 4 * woffset + len ≤ 17179869184) (io : FragIo σ) :
    Transfer (ff.image fs.sectorSize content) (ff.size * fs.sectorSize) (4 * woffset) data len
      io.mem (fragReadTail storage fs ff data len woffset io).1
      (fragReadTail storage fs ff data len woffset io).2.mem := by
  have ss_pos := serves.sectorSize_pos
  have bits := serves.bits_ge
  obtain ⟨body, body_len⟩ :=
    fragReadAligned_transfer wf serves returns woffset data len aligned covered io
  have lenSec_le := Nat.div_mul_le_self len fs.sectorSize
  have short : len - len / fs.sectorSize * fs.sectorSize < fs.sectorSize := by
    have split := Nat.div_add_mod' len fs.sectorSize
    have rest := Nat.mod_lt len ss_pos
    omega
  have rest := Nat.add_sub_cancel' lenSec_le
  have bytes : ∀ n, n <<< fs.ssNumBits = n * fs.sectorSize := fun n => by
    rw [Nat.shiftLeft_eq, serves.sectorSize_eq]
  have advance : 4 * ((len / fs.sectorSize) <<< (fs.ssNumBits - 2)) =
      len / fs.sectorSize * fs.sectorSize := by
    have split : fs.sectorSize = 4 * 2 ^ (fs.ssNumBits - 2) := by
      rw [serves.sectorSize_eq, ← Nat.pow_add 2 2]
      congr 1
      omega
    rw [Nat.shiftLeft_eq, Nat.mul_left_comm, ← split]
  simp only [fragReadTail, bytes]
  generalize fragReadAligned storage fs ff woffset data len io = result at body body_len ⊢
  obtain ⟨ret, lenSec, io₁⟩ := result
  simp only at body body_len ⊢
  subst body_len
  split
  case isTrue failed =>
    have extended : Transfer _ _ _ _ (_ + (len - len / fs.sectorSize * fs.sectorSize)) _ _ _ :=
      body.fail_append failed
    rwa [rest] at extended
  case isFalse succeeded =>
    rw [not_not.mp succeeded] at body
    split
    case isTrue whole =>
      rw [whole, Nat.add_zero] at rest
      rwa [rest] at body
    case isFalse more =>
      rw [u32_of_lt (by omega)]
      have start : 4 * (woffset + (len / fs.sectorSize) <<< (fs.ssNumBits - 2)) =
          4 * woffset + len / fs.sectorSize * fs.sectorSize := by
        rw [Nat.mul_add, advance]
      have boundary : fs.sectorSize ∣
          4 * (woffset + (len / fs.sectorSize) <<< (fs.ssNumBits - 2)) := by
        rw [start]
        exact Nat.dvd_add aligned (Nat.dvd_mul_left _ _)
      have last_sector : 4 * (woffset + (len / fs.sectorSize) <<< (fs.ssNumBits - 2)) /
          fs.sectorSize < tableSectors := by
        rw [start, Nat.div_lt_iff_lt_mul ss_pos]
        omega
      obtain ⟨trail, trail_len⟩ := fragReadPartial_transfer wf serves returns
        (woffset + (len / fs.sectorSize) <<< (fs.ssNumBits - 2))
        (data + len / fs.sectorSize * fs.sectorSize)
        (len - len / fs.sectorSize * fs.sectorSize) (fun _ => last_sector) io₁
      rw [partialLen_aligned boundary short, start] at trail
      rw [partialLen_aligned boundary short] at trail_len
      have whole := body.append trail
      rw [rest] at whole
      split
      case isTrue failed => exact whole
      case isFalse succeeded =>
        have zero := not_not.mp succeeded
        rw [trail_len zero, Nat.sub_self, if_neg (by simp)]
        rwa [zero] at whole

/-- A read whose sectors the table covers and that does not wrap its word offset is a
transfer from the image. -/
theorem fragRead_transfer (wf : ff.WellFormed) (serves : fs.Serves ff)
    (returns : storage.Returns fs.fragDev fs.sectorSize content) (data len woffset : Nat)
    (covered : 0 < len → 4 * woffset + len ≤ tableSectors * fs.sectorSize)
    (addressed : 4 * woffset + len ≤ 17179869184) (io : FragIo σ) :
    Transfer (ff.image fs.sectorSize content) (ff.size * fs.sectorSize) (4 * woffset) data len
      io.mem (fragRead storage fs ff data len woffset io).1
      (fragRead storage fs ff data len woffset io).2.mem := by
  have ss_pos := serves.sectorSize_pos
  have words : 4 ∣ fs.sectorSize := by
    rw [serves.sectorSize_eq]
    exact Nat.pow_dvd_pow 2 (Nat.le_trans (by decide : 2 ≤ 9) serves.bits_ge)
  have first_sector : 0 < len → 4 * woffset / fs.sectorSize < tableSectors := fun len_pos =>
    (Nat.div_lt_iff_lt_mul ss_pos).mpr (by have := covered len_pos; omega)
  obtain ⟨lead, lead_len⟩ :=
    fragReadPartial_transfer wf serves returns woffset data len first_sector io
  obtain ⟨-, lead_le⟩ := partialLen_le ss_pos woffset len
  have rest := Nat.add_sub_cancel' lead_le
  simp only [fragRead]
  generalize fragReadPartial storage fs ff woffset data len io = result at lead lead_len ⊢
  obtain ⟨ret, rlen, io₁⟩ := result
  simp only at lead lead_len ⊢
  split
  case isTrue failed =>
    have extended : Transfer _ _ _ _ (_ + (len - partialLen fs.sectorSize woffset len)) _ _ _ :=
      lead.fail_append failed
    rwa [rest] at extended
  case isFalse succeeded =>
    have zero := not_not.mp succeeded
    rw [lead_len zero]
    rw [zero] at lead
    by_cases more : partialLen fs.sectorSize woffset len < len
    · obtain ⟨lead_words, boundary⟩ := partialLen_boundary words ss_pos more
      have quarter : 4 * (partialLen fs.sectorSize woffset len >>> 2) =
          partialLen fs.sectorSize woffset len := by
        rw [Nat.shiftRight_eq_div_pow]
        exact Nat.mul_div_cancel' lead_words
      have start : 4 * (woffset + partialLen fs.sectorSize woffset len >>> 2) =
          4 * woffset + partialLen fs.sectorSize woffset len := by
        rw [Nat.mul_add, quarter]
      have inside := covered (by omega)
      rw [u32_of_lt (by omega)]
      have tail := fragReadTail_transfer wf serves returns
        (data + partialLen fs.sectorSize woffset len) (len - partialLen fs.sectorSize woffset len)
        (woffset + partialLen fs.sectorSize woffset len >>> 2) (by rwa [start]) (by omega)
        (by omega) io₁
      rw [start] at tail
      have whole := lead.append tail
      rwa [rest] at whole
    · have all : partialLen fs.sectorSize woffset len = len := by omega
      rw [all, Nat.sub_self, fragReadTail_zero storage ff ss_pos]
      rwa [all] at lead

/-- A fragment-backed read returns 0 exactly when every sector it touches lies inside the image,
and then the caller's buffer holds the bytes of the image. Nothing outside the buffer is
written. The read must end at or before byte 2^34, the end of what a word offset addresses. -/
theorem fragRead_image (wf : ff.WellFormed) (serves : fs.Serves ff)
    (returns : storage.Returns fs.fragDev fs.sectorSize content) (data len woffset : Nat)
    (covered : ∀ b, 4 * woffset ≤ b → b < 4 * woffset + len → b / fs.sectorSize < tableSectors)
    (addressed : 4 * woffset + len ≤ 17179869184) (io : FragIo σ) :
    let result := fragRead storage fs ff data len woffset io
    (result.1 = 0 ↔ len = 0 ∨
      ∀ b, 4 * woffset ≤ b → b < 4 * woffset + len → b / fs.sectorSize < ff.size) ∧
    (result.1 = 0 → ∀ i, i < len →
      result.2.mem (data + i) = ff.image fs.sectorSize content (4 * woffset + i)) ∧
    (∀ a, a < data ∨ data + len ≤ a → result.2.mem a = io.mem a) := by
  have ss_pos := serves.sectorSize_pos
  have inside := (sectors_below_iff ss_pos).mp covered
  have copied := fragRead_transfer wf serves returns data len woffset (by omega) addressed io
  refine ⟨?_, ?_, copied.frame⟩
  · have nothing : ∀ P : Prop, (len = 0 ∨ (len = 0 ∨ P)) ↔ (len = 0 ∨ P) := fun P => by
      rw [← or_assoc, or_self]
    rw [copied.zero_iff, sectors_below_iff ss_pos, nothing]
  · intro zero i i_lt
    have within : i < ((ff.image fs.sectorSize content).window (4 * woffset) len).length := by
      simpa using i_lt
    rw [copied.contents zero, Cells.overlay_inside _ _ _ within, Cells.window_getElem]

end Read

/-! ## A list at the limit -/

/-- A device without faults, all its sectors `sectorSize` bytes long. -/
def Storage.holding (content : Content) (sectorSize : Nat) : Storage Unit :=
  let read sector count (st : Unit) := (true, (List.range (count * sectorSize)).map fun i =>
    content (u32 (sector + i / sectorSize)) (i % sectorSize), st)
  { usbstorageInit := fun st => (true, st)
    sdhcInit := fun st => (true, st)
    usbstorageGetSectorSize := fun _ => sectorSize
    usbstorageRead := read
    sdhcRead := read
    alloc := fun _ st => (some fun _ => 0, st) }

/-- The storage returns what it holds. -/
theorem Storage.holding_returns (content : Content) (dev sectorSize : Nat) :
    (Storage.holding content sectorSize).Returns dev sectorSize content := by
  intro sector count st
  by_cases usb : dev = devUsb <;> simp [Storage.read, Storage.holding, usb]

/-- An image as large as the table, with device sector 5 in front. -/
def farList : FragList where
  size := 20971520
  num := 1
  frag _ := { offset := 0, sector := 5, count := 1 }

def farContent : Content := fun sector _ => if sector = 5 then 7 else 0

/-- The statics behind `Frag_Init` on a device with sectors of 1024 bytes. -/
def farState : FragState :=
  { FragState.boot with
    fragDev := devUsb
    sectorSize := 1024
    ssNumBits := 10
    fragIdx := fragOptimizeList farList }

def farIo : FragIo Unit := ⟨fun _ => 0, fun _ => 0, ()⟩

/-- The list with the far fragment is well formed. -/
theorem farList_wellFormed : farList.WellFormed where
  num_le := by decide
  size_lt := by decide
  size_le := by decide
  nonempty _ _ := Nat.one_pos
  inside _ _ := Nat.succ_le_of_lt (by decide : 0 < 20971520)
  ascending i j lt j_lt := by
    have num : j < 1 := j_lt
    omega

/-- It is the one that is served. -/
theorem farState_serves : farState.Serves farList := ⟨by decide, by decide, rfl, rfl⟩

/-- The storage returns its content. -/
theorem farStorage_returns :
    (Storage.holding farContent 1024).Returns farState.fragDev farState.sectorSize farContent :=
  Storage.holding_returns farContent devUsb 1024

/-- Only image sector 0 is stored, and what is stored there is 7. -/
theorem farList_image (b : Nat) :
    farList.image 1024 farContent b = if b / 1024 = 0 then 7 else 0 := by
  by_cases first : b / 1024 = 0
  · simp [FragList.image, FragList.source, farList, farContent, List.range_succ, first, u32]
  · simp [FragList.image, FragList.source, farList, List.range_succ, first]

/-- The list of an image with sectors 5 and 9 of the device in places 0 and 2, as a client hands it
over. -/
def twoFragments : Mem :=
  fun i => [0, 0, 0, 4, 0, 0, 0, 2, 0, 0, 0, 2, 0, 0, 0, 0, 0, 0, 0, 5, 0, 0,
  0, 1, 0, 0, 0, 2, 0, 0, 0, 9, 0, 0, 0, 1].getD i 0

def twoStorage : Storage Unit :=
  Storage.holding (fun sector _ => UInt8.ofNat sector) 512

/-- The statics behind `Frag_Init` with that list. -/
def twoState : FragState := (fragInit twoStorage devUsb (some twoFragments) 36 .boot ()).2.1

def twoList : FragList := FragList.ofMem twoState.fraglistData

/-- The list with two fragments is served. -/
theorem twoState_serves : twoState.Serves twoList :=
  fragInit_serves twoStorage devUsb (some twoFragments) 36 .boot () rfl (.inl rfl)

/-- The list with two fragments is well formed. -/
theorem twoList_wellFormed : twoList.WellFormed where
  num_le := by decide
  size_lt := by decide
  size_le := by decide
  nonempty := by
    rw [show twoList.num = 2 from rfl]
    decide
  inside := by
    rw [show twoList.num = 2 from rfl]
    decide
  ascending i j lt j_lt := by
    rw [show twoList.num = 2 from rfl] at j_lt
    obtain ⟨rfl, rfl⟩ : i = 0 ∧ j = 1 := by omega
    decide

/-- A read from inside the first fragment, over the gap, into the second one. -/
theorem fragRead_image_twoFragments :
    let result := fragRead twoStorage twoState twoList 0 1024 96 farIo
    result.1 = 0 ∧ result.2.mem 0 = 5 ∧ result.2.mem 128 = 0 ∧ result.2.mem 640 = 9 := by
  intro result
  have returns : twoStorage.Returns twoState.fragDev twoState.sectorSize fun sector _ =>
      UInt8.ofNat sector := Storage.holding_returns _ devUsb 512
  have bytes : twoState.sectorSize = 512 := rfl
  obtain ⟨zero_iff, contents, -⟩ := fragRead_image twoList_wellFormed twoState_serves
    returns 0 1024 96 (by intro b _ lt; rw [bytes, tableSectors]; omega) (by decide) farIo
  have zero : result.1 = 0 := zero_iff.mpr (.inr (by
    intro b _ lt
    rw [bytes, show twoList.size = 4 from rfl]
    omega))
  have image : twoList.image twoState.sectorSize (fun sector _ => UInt8.ofNat sector) 384 = 5 ∧
      twoList.image twoState.sectorSize (fun sector _ => UInt8.ofNat sector) 512 = 0 ∧
      twoList.image twoState.sectorSize (fun sector _ => UInt8.ofNat sector) 1024 = 9 := by
    decide
  exact ⟨zero, (contents zero 0 (by decide)).trans image.1,
    (contents zero 128 (by decide)).trans image.2.1,
      (contents zero 640 (by decide)).trans image.2.2⟩

/-- A read of the last word before byte 2^34 and the word behind it. All its sectors lie inside
the image and it returns 0, but the second word is the first word of the image. -/
theorem fragRead_wraps :
    farList.WellFormed ∧ farState.Serves farList ∧
    (Storage.holding farContent 1024).Returns farState.fragDev farState.sectorSize farContent ∧
    (∀ b, 4 * 4294967295 ≤ b → b < 4 * 4294967295 + 8 → b / 1024 < tableSectors) ∧
    (∀ b, 4 * 4294967295 ≤ b → b < 4 * 4294967295 + 8 → b / 1024 < farList.size) ∧
    (fragRead (Storage.holding farContent 1024) farState farList 0 8 4294967295 farIo).1 = 0 ∧
    (fragRead (Storage.holding farContent 1024) farState farList 0 8 4294967295 farIo).2.mem 4 ≠
      farList.image 1024 farContent (4 * 4294967295 + 4) := by
  have inside : ∀ b, 4 * 4294967295 ≤ b → b < 4 * 4294967295 + 8 → b / 1024 < 20971520 := by
    intro b _ lt
    omega
  -- the leading part is the first word, and behind it the offset is 0
  obtain ⟨lead, lead_len⟩ := fragReadPartial_transfer farList_wellFormed farState_serves
    farStorage_returns 4294967295 0 8 (fun _ => by decide) farIo
  have count : partialLen farState.sectorSize 4294967295 8 = 4 := by decide
  rw [count] at lead lead_len
  have lead_zero := lead.zero_iff.mpr (.inr (by decide))
  have tail := fragReadTail_transfer farList_wellFormed farState_serves farStorage_returns 4 4 0
    (by decide) (by decide) (by decide)
    (fragReadPartial (Storage.holding farContent 1024) farState farList 4294967295 0 8 farIo).2.2
  have tail_zero := tail.zero_iff.mpr (.inr (by decide))
  have run : fragRead (Storage.holding farContent 1024) farState farList 0 8 4294967295 farIo =
      fragReadTail (Storage.holding farContent 1024) farState farList 4 4 0
        (fragReadPartial (Storage.holding farContent 1024) farState farList 4294967295 0 8
          farIo).2.2 := by
    simp only [fragRead, lead_zero, lead_len lead_zero]
    rfl
  refine ⟨farList_wellFormed, farState_serves, farStorage_returns, inside, inside,
    by rw [run]; exact tail_zero, ?_⟩
  rw [run, tail.contents tail_zero]
  have stored : Cells.overlay _ 4 ((farList.image 1024 farContent).window 0 4) (4 + 0) = _ :=
    Cells.overlay_inside (fragReadPartial (Storage.holding farContent 1024) farState farList
      4294967295 0 8 farIo).2.2.mem 4 _ (by simp)
  rw [Cells.window_getElem, farList_image, if_pos (by decide)] at stored
  have beyond : farList.image 1024 farContent (4 * 4294967295 + 4) = 0 := by
    rw [farList_image, if_neg (by decide)]
  exact fun same => absurd (stored.symm.trans (same.trans beyond)) (by decide)

end D2xCios.Dip
