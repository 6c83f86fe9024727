import D2xCios.CiosLib.Results
import D2xCios.Lib.Cells

/-!
# Reads from the DVD drive

`DI_ReadDvd` of `dip.c`, with `DMA_CheckRange` of `dma.c`. A read is cut into chunks: whole
sectors that the drive puts where they belong, and parts of a sector that go through a
buffer. The chunks follow from the arguments alone, while the result of one chunk takes the
place of the results before it.
-/

namespace D2xCios.Dip.Dvd

open D2xCios.Lib

/-- `SECTOR_SIZE`, `MAX_SECTOR_SIZE` and `MAX_READ_RETRIES`. -/
def sectorSize : Nat := 0x800
def maxSectorSize : Nat := 0x7F8000
def maxReadRetries : Nat := 16

/-- The limits of the DMA ranges. -/
def dma1StartAddress : Nat := 0x00000000
def dma1EndAddress : Nat := 0x01800000
def dma2StartAddress : Nat := 0x10000000
def dma2EndAddress : Nat := 0x13618000

/-- `DMA_CheckRange` -/
def dmaCheckRange (mem size alignment : Nat) : Nat :=
  if mem &&& 31 = 0 then
    let dmalen :=
      if dma1StartAddress ≤ mem ∧ mem < dma1EndAddress then dma1EndAddress - mem else 0
    let dmalen :=
      if dma2StartAddress ≤ mem ∧ mem < dma2EndAddress then dma2EndAddress - mem else dmalen
    let ret := if dmalen ≥ alignment then (if dmalen < size then dmalen else size) else 0
    ret - (ret &&& (alignment - 1))
  else 0

/-! ## Reads -/

/-- How an attempt to read sectors ends: the result of `DI_HandleCmd`, and the bytes that a
failed one leaves in the buffer. -/
structure Attempt where
  ret : Int
  debris : Cells UInt8

/-- What a chunk meets: whether `DI_Alloc` has a buffer for it, and its attempts. -/
structure Answers where
  alloc : Bool
  attempts : Nat → Attempt

/-- The loop of `__DI_ReadD0`, into the memory from `start` on. -/
def readD0Loop (disc : Cells UInt8) (start len lba : Nat) :
    List Attempt → Int → Cells UInt8 → Int × Cells UInt8
  | [], ret, mem => (ret, mem)
  | attempt :: attempts, ret, mem =>
    if ret = 0 then (ret, mem)
    else
      let bytes :=
        if attempt.ret = 0 then disc.window (sectorSize * lba) (len / sectorSize * sectorSize)
        else attempt.debris.window 0 len
      readD0Loop disc start len lba attempts attempt.ret (mem.overlay start bytes)

/-- `__DI_ReadD0` -/
def diReadD0 (disc : Cells UInt8) (attempts : Nat → Attempt) (start len lba : Nat)
    (mem : Cells UInt8) : Int × Cells UInt8 :=
  readD0Loop disc start len lba ((List.range maxReadRetries).map attempts) dipEio mem

/-- `__DI_ReadFromSector`; `heap` is the memory from the buffer on. -/
def diReadFromSector (disc heap : Cells UInt8) (answers : Answers) (start len pos lba : Nat)
    (mem : Cells UInt8) : Int × Cells UInt8 :=
  if u32 (len + pos) > sectorSize then (ipcEinval, mem)
  else if answers.alloc = false then (ipcEnomem, mem)
  else
    let (ret, buf) := diReadD0 disc answers.attempts 0 sectorSize lba heap
    (ret, if ret = 0 then mem.overlay start (buf.window pos len) else mem)

/-- A chunk of a read: where it starts in the output and on the disc, how long it is, its
position in the sector, and whether it goes to the output directly. -/
structure Chunk where
  cnt : Nat
  lba : Nat
  size : Nat
  pos : Nat
  direct : Bool
  deriving DecidableEq

/-- The chunk of one round of the loop of `DI_ReadDvd`. -/
def chunkAt (outbuf len offset cnt lba : Nat) : Chunk :=
  let size := len - cnt
  let offlba := u32 (lba * 512)
  let pos := if offset > offlba then u32 ((offset - offlba) * 4) else 0
  let dmasize := dmaCheckRange (u32 (outbuf + cnt)) size sectorSize
  if dmasize = 0 ∨ pos ≠ 0 then
    { cnt := cnt, lba := lba, pos := pos, direct := false
      size := if u32 (size + pos) > sectorSize then u32 (4294967296 + sectorSize - pos) else size }
  else
    { cnt := cnt, lba := lba, pos := pos, direct := true
      size := if dmasize > maxSectorSize then maxSectorSize else dmasize }

/-- The next `cnt` and the next `lba`. -/
def Chunk.nextCnt (chunk : Chunk) : Nat := u32 (chunk.cnt + chunk.size)

def Chunk.nextLba (chunk : Chunk) : Nat := u32 (chunk.lba + u32 (chunk.size + chunk.pos) / 2048)

/-- The read of a chunk. -/
def Chunk.read (disc heap : Cells UInt8) (answers : Answers) (chunk : Chunk)
    (mem : Cells UInt8) : Int × Cells UInt8 :=
  if chunk.direct then diReadD0 disc answers.attempts chunk.cnt chunk.size chunk.lba mem
  else diReadFromSector disc heap answers chunk.cnt chunk.size chunk.pos chunk.lba mem

/-- The locals of `DI_ReadDvd`, the memory from `outbuf` on, and the chunks so far. -/
structure Progress where
  cnt : Nat
  lba : Nat
  ret : Int
  mem : Cells UInt8
  chunks : List Chunk

/-- One round of the loop of `DI_ReadDvd`. -/
def readStep (outbuf len offset : Nat) (disc heap : Cells UInt8) (answers : Nat → Answers)
    (s : Progress) : Progress :=
  let chunk := chunkAt outbuf len offset s.cnt s.lba
  let (ret, mem) := chunk.read disc heap (answers s.chunks.length) s.mem
  { cnt := chunk.nextCnt, lba := chunk.nextLba, ret := ret, mem := mem
    chunks := s.chunks ++ [chunk] }

/-- The loop of `DI_ReadDvd`, as far as a number of rounds. -/
def readLoop (outbuf len offset : Nat) (disc heap : Cells UInt8) (answers : Nat → Answers) :
    Nat → Progress → Option Progress
  | 0, s => if s.cnt < len then none else some s
  | fuel + 1, s =>
    if s.cnt < len then
      readLoop outbuf len offset disc heap answers fuel
        (readStep outbuf len offset disc heap answers s)
    else some s

/-- `DI_ReadDvd` -/
def diReadDvd (disc heap : Cells UInt8) (answers : Nat → Answers) (outbuf len offset : UInt32)
    (mem : Cells UInt8) (fuel : Nat) : Option Progress :=
  readLoop outbuf.toNat len.toNat offset.toNat disc heap answers fuel
    { cnt := 0, lba := offset.toNat / 512, ret := 0, mem := mem, chunks := [] }

/-! ## What a read is to do -/

/-- The read of a chunk succeeds: it has its buffer if it needs one, and one of its
attempts succeeds. -/
def Answers.Succeed (answers : Answers) (direct : Bool) : Prop :=
  (direct = true ∨ answers.alloc = true) ∧ ∃ n < maxReadRetries, (answers.attempts n).ret = 0

/-- The chunk lies in a DMA range, and on the borders that DMA asks for. -/
structure Chunk.Dma (outbuf : Nat) (chunk : Chunk) : Prop where
  positive : 0 < chunk.size
  sectors : sectorSize ∣ chunk.size
  aligned : 32 ∣ u32 (outbuf + chunk.cnt)
  range : u32 (outbuf + chunk.cnt) + chunk.size ≤ dma1EndAddress ∨
    dma2StartAddress ≤ u32 (outbuf + chunk.cnt) ∧
      u32 (outbuf + chunk.cnt) + chunk.size ≤ dma2EndAddress

/-- All chunks have been read. -/
def AllRead (answers : Nat → Answers) (chunks : List Chunk) : Prop :=
  ∀ i chunk, chunks[i]? = some chunk → (answers i).Succeed chunk.direct

/-- A read of `len` bytes from the word `offset` on is as it should be. -/
structure Meets (disc : Cells UInt8) (answers : Nat → Answers) (outbuf len offset : Nat)
    (mem : Cells UInt8) (after : Progress) : Prop where
  inside : ∀ chunk ∈ after.chunks, chunk.cnt + chunk.size ≤ len
  frame : ∀ i, len ≤ i → after.mem i = mem i
  direct : ∀ chunk ∈ after.chunks, chunk.direct = true → chunk.Dma outbuf
  result : after.ret = 0 ↔ AllRead answers after.chunks
  contents : AllRead answers after.chunks →
    after.mem.window 0 len = disc.window (4 * offset) len

/-- The chunks from a place on. -/
def chunksFrom (outbuf len offset : Nat) : Nat → (cnt lba : Nat) → List Chunk
  | 0, _, _ => []
  | fuel + 1, cnt, lba =>
    if cnt < len then
      let chunk := chunkAt outbuf len offset cnt lba
      chunk :: chunksFrom outbuf len offset fuel chunk.nextCnt chunk.nextLba
    else []

/-- The chunks of a read. -/
def plan (outbuf len offset : UInt32) : List Chunk :=
  chunksFrom outbuf.toNat len.toNat offset.toNat len.toNat 0 (offset.toNat / 512)

/-- The last chunk of a read fails. -/
def LastFails (answers : Nat → Answers) (chunks : List Chunk) : Prop :=
  ∀ chunk, chunks.getLast? = some chunk → ¬ (answers (chunks.length - 1)).Succeed chunk.direct

/-- The read starts inside a sector, and its length and the position there leave 32 bits. -/
def Wraps (len offset : Nat) : Prop := offset % 512 ≠ 0 ∧ 4294967296 ≤ len + offset % 512 * 4

/-! ## The chunks -/

/-- Where a chunk starts on the disc. -/
def Placed (offset cnt lba : Nat) : Prop :=
  if cnt = 0 then lba = offset / 512 else lba * 2048 = 4 * offset + cnt

/-- The first chunk is in the sector of the offset. -/
theorem Placed.first (offset : Nat) : Placed offset 0 (offset / 512) := by
  rw [Placed, if_pos rfl]

/-- A later chunk begins with a sector. -/
theorem Placed.later {offset cnt lba : Nat} (positive : cnt ≠ 0)
    (here : lba * 2048 = 4 * offset + cnt) : Placed offset cnt lba := by
  rw [Placed, if_neg positive]
  exact here

/-- A chunk is the part of the read that comes next. -/
structure Chunk.Fits (outbuf len offset cnt : Nat) (chunk : Chunk) : Prop where
  here : chunk.cnt = cnt
  position : chunk.lba * 2048 + chunk.pos = 4 * offset + cnt
  positive : 0 < chunk.size
  inside : cnt + chunk.size ≤ len
  dma : chunk.direct = true → chunk.Dma outbuf ∧ chunk.pos = 0
  sector : chunk.direct = false → chunk.size + chunk.pos ≤ sectorSize
  whole : cnt + chunk.size < len → 2048 ∣ chunk.size + chunk.pos

/-- What `DMA_CheckRange` grants: whole sectors, from a border on and inside a range. -/
structure Granted (mem size dmasize : Nat) : Prop where
  sectors : sectorSize ∣ dmasize
  small : dmasize ≤ size
  aligned : dmasize ≠ 0 → 32 ∣ mem
  range : dmasize ≠ 0 → mem + dmasize ≤ dma1EndAddress ∨
    dma2StartAddress ≤ mem ∧ mem + dmasize ≤ dma2EndAddress

/-- Nothing is granted. -/
theorem Granted.none (mem size : Nat) : Granted mem size 0 where
  sectors := Nat.dvd_zero _
  small := Nat.zero_le _
  aligned none := absurd rfl none
  range none := absurd rfl none

/-- What the check of the memory grants. -/
theorem dmaCheckRange_granted (mem size : Nat) :
    Granted mem size (dmaCheckRange mem size sectorSize) := by
  have border : mem &&& 31 = mem % 32 := Nat.and_two_pow_sub_one_eq_mod mem 5
  unfold dmaCheckRange
  rw [border]
  split
  case isFalse => exact .none mem size
  case isTrue aligned =>
    extract_lets dma1 dmalen ret
    have sector : ret &&& (sectorSize - 1) = ret % sectorSize :=
      Nat.and_two_pow_sub_one_eq_mod ret 11
    have low : dma1 = 0 ∨ mem + dma1 ≤ dma1EndAddress := by
      simp only [dma1]
      split
      · exact .inr (by omega)
      · exact .inl rfl
    have room : dmalen = 0 ∨ mem + dmalen ≤ dma1EndAddress ∨
        dma2StartAddress ≤ mem ∧ mem + dmalen ≤ dma2EndAddress := by
      simp only [dmalen]
      split
      · exact .inr (.inr (by omega))
      · exact low.imp_right .inl
    have short : ret ≤ dmalen ∧ ret ≤ size := by
      simp only [ret]
      split
      · split <;> omega
      · omega
    have part := Nat.mod_le ret sectorSize
    rw [sector]
    refine ⟨Nat.dvd_sub_mod ret, by omega, fun _ => Nat.dvd_of_mod_eq_zero aligned, fun some => ?_⟩
    rcases room with none | low | high
    · omega
    · exact .inl (by omega)
    · exact .inr (by omega)

/-- A chunk that starts inside a sector, or that is not granted. -/
theorem chunkAt_bounced {outbuf len offset cnt lba pos : Nat} (short : cnt < len)
    (small : len - cnt + pos < 4294967296) (position : lba * 2048 + pos = 4 * offset + cnt)
    (sector : pos < 2048) :
    Chunk.Fits outbuf len offset cnt
      { cnt := cnt, lba := lba, pos := pos, direct := false
        size := if u32 (len - cnt + pos) > sectorSize then u32 (4294967296 + sectorSize - pos)
          else len - cnt } := by
  have rest : u32 (4294967296 + sectorSize - pos) = 2048 - pos := by
    simp only [u32, sectorSize]
    omega
  rw [u32_of_lt small, rest]
  obtain ⟨size, cut⟩ : ∃ size, (if len - cnt + pos > sectorSize then 2048 - pos
    else len - cnt) = size := ⟨_, rfl⟩
  rw [cut]
  have sized : size + pos = 2048 ∧ 2048 < len - cnt + pos ∨
      size = len - cnt ∧ size + pos ≤ 2048 := by
    have sector_eq : sectorSize = 2048 := rfl
    split at cut <;> omega
  refine ⟨rfl, position, ?_, ?_, fun direct => absurd direct Bool.false_ne_true, fun _ => ?_,
    fun _ => ?_⟩
  · change 0 < size
    omega
  · change cnt + size ≤ len
    omega
  · change size + pos ≤ 2048
    omega
  · rename_i more
    change cnt + size < len at more
    change 2048 ∣ size + pos
    omega

/-- Every round reads the part that comes next, if no length wraps. -/
theorem chunkAt_fits (outbuf : Nat) {len offset cnt lba : Nat} (short : cnt < len)
    (len_lt : len < 4294967296) (offset_lt : offset < 4294967296)
    (end_le : offset + (len + 3) / 4 ≤ 4294967296)
    (noWrap : ¬ Wraps len offset) (placed : Placed offset cnt lba) :
    (chunkAt outbuf len offset cnt lba).Fits outbuf len offset cnt := by
  obtain ⟨offlba, sector⟩ : ∃ offlba, u32 (lba * 512) = offlba := ⟨_, rfl⟩
  obtain ⟨pos, within⟩ :
    ∃ pos, (if offset > offlba then u32 ((offset - offlba) * 4) else 0) = pos := ⟨_, rfl⟩
  have located : lba * 2048 + pos = 4 * offset + cnt ∧ pos < 2048 ∧
      len - cnt + pos < 4294967296 := by
    unfold Placed at placed
    unfold Wraps at noWrap
    simp only [u32] at sector within
    split at placed <;> split at within <;> omega
  obtain ⟨position, small, noCarry⟩ := located
  have granted := dmaCheckRange_granted (u32 (outbuf + cnt)) (len - cnt)
  simp only [chunkAt, sector, within]
  generalize dmaCheckRange (u32 (outbuf + cnt)) (len - cnt) sectorSize = dmasize at granted
  split
  case isTrue => exact chunkAt_bounced short noCarry position small
  case isFalse direct =>
    obtain ⟨size, cut⟩ : ∃ size,
      (if dmasize > maxSectorSize then maxSectorSize else dmasize) = size := ⟨_, rfl⟩
    have some : dmasize ≠ 0 := fun none => direct (.inl none)
    have start : pos = 0 := by omega
    have sectors := granted.sectors
    have range := granted.range some
    have room := granted.small
    rw [cut]
    have sized : 0 < size ∧ size ≤ dmasize ∧ 2048 ∣ size := by
      have most : maxSectorSize = 2048 * 4080 := rfl
      rw [show sectorSize = 2048 from rfl] at sectors
      split at cut <;> omega
    refine ⟨rfl, position, sized.1, ?_, fun _ => ⟨⟨sized.1, sized.2.2, granted.aligned some, ?_⟩,
      start⟩, fun bounced => absurd bounced.symm Bool.false_ne_true, fun _ => ?_⟩
    · change cnt + size ≤ len
      omega
    · change u32 (outbuf + cnt) + size ≤ dma1EndAddress ∨
        dma2StartAddress ≤ u32 (outbuf + cnt) ∧ u32 (outbuf + cnt) + size ≤ dma2EndAddress
      omega
    · change 2048 ∣ size + pos
      rw [start]
      exact sized.2.2

/-- The end of a chunk fits 32 bits. -/
theorem Chunk.Fits.carry {outbuf len offset cnt : Nat} {chunk : Chunk}
    (fits : chunk.Fits outbuf len offset cnt) (len_lt : len < 4294967296) :
    chunk.size + chunk.pos < 4294967296 := by
  have inside := fits.inside
  cases direct : chunk.direct with
  | true =>
    rw [(fits.dma direct).2]
    omega
  | false => exact Nat.lt_of_le_of_lt (fits.sector direct) (by decide)

/-- The next round starts where the chunk ends. -/
theorem Chunk.Fits.next {outbuf len offset cnt : Nat} {chunk : Chunk}
    (fits : chunk.Fits outbuf len offset cnt) (len_lt : len < 4294967296)
    (end_le : offset + (len + 3) / 4 ≤ 4294967296) :
    chunk.nextCnt = cnt + chunk.size ∧
      (cnt + chunk.size < len → Placed offset chunk.nextCnt chunk.nextLba) := by
  have position := fits.position
  have inside := fits.inside
  have positive := fits.positive
  have ended (sectors : Nat) (whole : chunk.size + chunk.pos = 2048 * sectors) :
      (chunk.lba + sectors) * 2048 = 4 * offset + (cnt + chunk.size) := by
    rw [Nat.add_mul]
    omega
  have nextCnt : chunk.nextCnt = cnt + chunk.size := by
    rw [Chunk.nextCnt, fits.here, u32_of_lt (by omega)]
  refine ⟨nextCnt, fun more => ?_⟩
  obtain ⟨sectors, whole⟩ := fits.whole more
  have nextLba : chunk.nextLba = chunk.lba + sectors := by
    have carry := fits.carry len_lt
    rw [Chunk.nextLba, u32_of_lt carry, whole, Nat.mul_div_cancel_left _ (by decide),
      u32_of_lt (by omega)]
  rw [nextCnt, nextLba]
  exact .later (by omega) (ended sectors whole)

/-! ## The reads -/

theorem readD0Loop_zero (disc : Cells UInt8) (start len lba : Nat) (attempts : List Attempt)
    (mem : Cells UInt8) : readD0Loop disc start len lba attempts 0 mem = (0, mem) := by
  cases attempts with
  | nil => rfl
  | cons attempt attempts => rw [readD0Loop, if_pos rfl]

/-- Attempts after one that has failed: one of them succeeds and leaves the sectors behind, or
all of them fail. None writes outside the buffer. -/
theorem readD0Loop_spec (disc : Cells UInt8) (start lba : Nat) {len : Nat}
    (sectors : sectorSize ∣ len) (attempts : List Attempt) {ret : Int} (failed : ret ≠ 0)
    (mem : Cells UInt8) :
    ((readD0Loop disc start len lba attempts ret mem).1 = 0 ↔
        ∃ attempt ∈ attempts, attempt.ret = 0) ∧
      ((readD0Loop disc start len lba attempts ret mem).1 = 0 →
        (readD0Loop disc start len lba attempts ret mem).2 =
          mem.overlay start (disc.window (sectorSize * lba) len)) ∧
      ∀ i, i < start ∨ start + len ≤ i →
        (readD0Loop disc start len lba attempts ret mem).2 i = mem i := by
  induction attempts generalizing ret mem with
  | nil => exact ⟨by simp [readD0Loop, failed], fun done => absurd done failed, fun _ _ => rfl⟩
  | cons attempt attempts ih =>
    rw [readD0Loop, if_neg failed, Nat.div_mul_cancel sectors]
    by_cases done : attempt.ret = 0
    · rw [if_pos done, done, readD0Loop_zero]
      refine ⟨by simp [done], fun _ => rfl, fun i outside => ?_⟩
      exact Cells.overlay_outside _ _ _ (by simpa using outside)
    · rw [if_neg done]
      obtain ⟨result, bytes, frame⟩ := ih done (mem.overlay start (attempt.debris.window 0 len))
      refine ⟨by simp [result, done], fun later => ?_, fun i outside => ?_⟩
      · rw [bytes later]
        exact Cells.overlay_overlay _ _ (by simp)
      · rw [frame i outside]
        exact Cells.overlay_outside _ _ _ (by simpa using outside)

/-- `__DI_ReadD0` succeeds with one of its sixteen attempts. -/
theorem diReadD0_spec (disc : Cells UInt8) (attempts : Nat → Attempt) (start lba : Nat) {len : Nat}
    (sectors : sectorSize ∣ len) (mem : Cells UInt8) :
    ((diReadD0 disc attempts start len lba mem).1 = 0 ↔
        ∃ n < maxReadRetries, (attempts n).ret = 0) ∧
      ((diReadD0 disc attempts start len lba mem).1 = 0 →
        (diReadD0 disc attempts start len lba mem).2 =
          mem.overlay start (disc.window (sectorSize * lba) len)) ∧
      ∀ i, i < start ∨ start + len ≤ i →
        (diReadD0 disc attempts start len lba mem).2 i = mem i := by
  have loop := readD0Loop_spec disc start lba sectors
    ((List.range maxReadRetries).map attempts) (show dipEio ≠ 0 by simp [dipEio]) mem
  simp only [List.mem_map, List.mem_range, exists_exists_and_eq_and] at loop
  exact loop

/-- `__DI_ReadFromSector`, once its check is passed, takes its bytes from the sector, and
goes on behind it. -/
theorem diReadFromSector_spec (disc heap : Cells UInt8) (answers : Answers) (start lba : Nat)
    {len pos : Nat} (passed : ¬ u32 (len + pos) > sectorSize) (mem : Cells UInt8) :
    ((diReadFromSector disc heap answers start len pos lba mem).1 = 0 ↔
        answers.Succeed false) ∧
      ((diReadFromSector disc heap answers start len pos lba mem).1 = 0 →
        (diReadFromSector disc heap answers start len pos lba mem).2 =
          mem.overlay start ((heap.overlay 0
            (disc.window (sectorSize * lba) sectorSize)).window pos len)) ∧
      ((diReadFromSector disc heap answers start len pos lba mem).1 ≠ 0 →
        (diReadFromSector disc heap answers start len pos lba mem).2 = mem) := by
  obtain ⟨result, bytes, -⟩ := diReadD0_spec disc answers.attempts 0 lba
    (Nat.dvd_refl sectorSize) heap
  rw [diReadFromSector, if_neg passed]
  cases alloc : answers.alloc with
  | false =>
    rw [if_pos rfl]
    exact ⟨by simp [Answers.Succeed, alloc, ipcEnomem], fun done => by simp [ipcEnomem] at done,
      fun _ => rfl⟩
  | true =>
    rw [if_neg (by decide)]
    refine ⟨by simp [result, Answers.Succeed, alloc], fun done => ?_, fun failed => if_neg failed⟩
    refine (if_pos done).trans ?_
    rw [bytes done]

/-- What the read of a chunk leaves behind. -/
structure Chunk.Done (disc : Cells UInt8) (answers : Answers) (offset : Nat) (chunk : Chunk)
    (before : Cells UInt8) (run : Int × Cells UInt8) : Prop where
  result : run.1 = 0 ↔ answers.Succeed chunk.direct
  bytes : run.1 = 0 →
    run.2 = before.overlay chunk.cnt (disc.window (4 * offset + chunk.cnt) chunk.size)
  frame : ∀ i, i < chunk.cnt ∨ chunk.cnt + chunk.size ≤ i → run.2 i = before i

/-- A chunk is read to its place, or its read fails. -/
theorem Chunk.Fits.read_done {outbuf len offset cnt : Nat} {chunk : Chunk}
    (fits : chunk.Fits outbuf len offset cnt) (disc heap : Cells UInt8) (answers : Answers)
    (mem : Cells UInt8) :
    chunk.Done disc answers offset mem (chunk.read disc heap answers mem) := by
  have position := fits.position
  rw [← fits.here] at position
  cases direct : chunk.direct with
  | true =>
    obtain ⟨dma, start⟩ := fits.dma direct
    obtain ⟨result, bytes, frame⟩ := diReadD0_spec disc answers.attempts
      chunk.cnt chunk.lba dma.sectors mem
    rw [start, Nat.add_zero, Nat.mul_comm] at position
    rw [Chunk.read, if_pos direct]
    exact ⟨by simp [result, Answers.Succeed, direct],
      fun done => by rw [bytes done, sectorSize, position], frame⟩
  | false =>
    have sector := fits.sector direct
    have short : u32 (chunk.size + chunk.pos) = chunk.size + chunk.pos :=
      u32_of_lt (Nat.lt_of_le_of_lt sector (by decide))
    obtain ⟨result, bytes, none⟩ := diReadFromSector_spec disc heap answers
      chunk.cnt chunk.lba (show ¬ u32 (chunk.size + chunk.pos) > sectorSize by omega) mem
    rw [Chunk.read, if_neg (by simp [direct])]
    have taken := @Cells.window_overlay_window _ heap disc 0 (sectorSize * chunk.lba) sectorSize
      chunk.pos chunk.size (Nat.add_comm chunk.pos _ ▸ sector)
    have start : sectorSize * chunk.lba + chunk.pos = 4 * offset + chunk.cnt :=
      (congrArg (· + chunk.pos) (Nat.mul_comm 2048 chunk.lba)).trans position
    rw [Nat.zero_add, start] at taken
    refine ⟨direct.symm ▸ result, fun done => taken ▸ bytes done, fun i outside => ?_⟩
    by_cases done : (diReadFromSector disc heap answers chunk.cnt chunk.size chunk.pos chunk.lba
        mem).1 = 0
    · rw [bytes done]
      exact Cells.overlay_outside _ _ _ (by simpa using outside)
    · rw [none done]

/-! ## The loop -/

section Loop

variable {outbuf len offset : Nat} (disc heap : Cells UInt8) (answers : Nat → Answers)
  (mem : Cells UInt8)

/-- The reads so far: the chunks are those of the plan, the result is the one of the last of
them, and if none has failed the bytes are in place. -/
structure Kept (outbuf len offset : Nat) (s : Progress) : Prop where
  fits : ∀ chunk ∈ s.chunks, ∃ cnt, chunk.Fits outbuf len offset cnt
  last : ∀ chunk, s.chunks.getLast? = some chunk →
    (s.ret = 0 ↔ (answers (s.chunks.length - 1)).Succeed chunk.direct)
  first : s.chunks = [] → s.ret = 0
  bytes : AllRead answers s.chunks → s.mem = mem.overlay 0 (disc.window (4 * offset) s.cnt)
  frame : ∀ i, s.cnt ≤ i → s.mem i = mem i
  cnt_le : s.cnt ≤ len
  placed : s.cnt < len → Placed offset s.cnt s.lba

variable {disc answers mem}

/-- All chunks are read if the last one is and those in front of it are. -/
theorem allRead_append {chunks : List Chunk} {chunk : Chunk} :
    AllRead answers (chunks ++ [chunk]) ↔
      AllRead answers chunks ∧ (answers chunks.length).Succeed chunk.direct := by
  constructor
  · intro all
    refine ⟨fun i other here => all i other ?_, all _ chunk (by simp)⟩
    rw [List.getElem?_append_left (List.getElem?_eq_some_iff.1 here).1, here]
  · rintro ⟨before, last⟩ i other here
    rcases Nat.lt_trichotomy i chunks.length with inside | rfl | outside
    · rw [List.getElem?_append_left inside] at here
      exact before i other here
    · rw [List.getElem?_concat_length, Option.some.injEq] at here
      exact here ▸ last
    · rw [List.getElem?_eq_none (by simp; omega)] at here
      exact absurd here (Option.some_ne_none other).symm

/-- A step of the loop keeps what it should, and gets on. -/
theorem Kept.step {s : Progress} (kept : Kept disc answers mem outbuf len offset s)
    (short : s.cnt < len) (len_lt : len < 4294967296) (offset_lt : offset < 4294967296)
    (end_le : offset + (len + 3) / 4 ≤ 4294967296) (noWrap : ¬ Wraps len offset) :
    Kept disc answers mem outbuf len offset
        (readStep outbuf len offset disc heap answers s) ∧
      s.cnt < (readStep outbuf len offset disc heap answers s).cnt := by
  have fits := chunkAt_fits outbuf short len_lt offset_lt end_le noWrap
    (kept.placed short)
  obtain ⟨nextCnt, nextPlaced⟩ := fits.next len_lt end_le
  have done := fits.read_done disc heap (answers s.chunks.length) s.mem
  simp only [readStep]
  generalize chunkAt outbuf len offset s.cnt s.lba = chunk at *
  have here := fits.here
  have inside := fits.inside
  refine ⟨⟨?_, ?_, ?_, ?_, ?_, ?_, ?_⟩, ?_⟩
  · intro other mem
    rcases List.mem_append.1 mem with before | last
    · exact kept.fits other before
    · exact ⟨s.cnt, List.mem_singleton.1 last ▸ fits⟩
  · intro other last
    rw [List.getLast?_concat, Option.some.injEq] at last
    simpa [← last] using done.result
  · intro none
    exact absurd none (by simp)
  · intro all
    obtain ⟨before, last⟩ := allRead_append.1 all
    have bytes := done.bytes (done.result.2 last)
    have joined := Cells.overlay_append mem 0 (disc.window (4 * offset) s.cnt)
      (disc.window (4 * offset + s.cnt) chunk.size)
    rw [Cells.window_length, Nat.zero_add, Cells.window_append] at joined
    refine bytes.trans ?_
    rw [kept.bytes before, here, nextCnt, joined]
  · intro i outside
    have behind : s.cnt + chunk.size ≤ i := nextCnt ▸ outside
    exact (done.frame i (.inr (here.symm ▸ behind))).trans (kept.frame i (by omega))
  · rw [nextCnt]
    exact inside
  · rw [nextCnt] at nextPlaced ⊢
    exact nextPlaced
  · rw [nextCnt]
    exact Nat.lt_add_of_pos_right fits.positive

/-- No chunk is left when all is read. -/
theorem chunksFrom_done {cnt : Nat} (done : ¬ cnt < len) (fuel lba : Nat) :
    chunksFrom outbuf len offset fuel cnt lba = [] := by
  cases fuel with
  | zero => rfl
  | succ fuel => exact if_neg done

/-- The loop ends when all is read. -/
theorem readLoop_done {s : Progress} (done : ¬ s.cnt < len) (fuel : Nat) :
    readLoop outbuf len offset disc heap answers fuel s = some s := by
  cases fuel with
  | zero => exact if_neg done
  | succ fuel => exact if_neg done

/-- The loop ends, with all the chunks of the plan. -/
theorem Kept.loop (fuel : Nat) {s : Progress} (kept : Kept disc answers mem outbuf len offset s)
    (enough : len - s.cnt ≤ fuel) (len_lt : len < 4294967296) (offset_lt : offset < 4294967296)
    (end_le : offset + (len + 3) / 4 ≤ 4294967296) (noWrap : ¬ Wraps len offset) :
    ∃ after, readLoop outbuf len offset disc heap answers fuel s = some after ∧
      Kept disc answers mem outbuf len offset after ∧ after.cnt = len ∧
      after.chunks = s.chunks ++ chunksFrom outbuf len offset fuel s.cnt s.lba := by
  induction fuel generalizing s with
  | zero =>
    have done : s.cnt = len := Nat.le_antisymm kept.cnt_le (by omega)
    exact ⟨s, readLoop_done heap (by omega) 0, kept, done, (List.append_nil _).symm⟩
  | succ fuel ih =>
    by_cases short : s.cnt < len
    · obtain ⟨next, more⟩ := kept.step heap short len_lt offset_lt end_le noWrap
      obtain ⟨after, run, kept', done, chunks⟩ := ih next (by omega)
      refine ⟨after, (if_pos short).trans run, kept', done, ?_⟩
      rw [chunks, chunksFrom, if_pos short]
      simp [readStep]
    · have done : s.cnt = len := Nat.le_antisymm kept.cnt_le (Nat.not_lt.1 short)
      refine ⟨s, readLoop_done heap short _, kept, done, ?_⟩
      rw [chunksFrom_done short, List.append_nil]

/-- At the end, the result says whether all chunks have been read exactly if they have, or
the last of them has not. -/
theorem Kept.meets_iff {s : Progress} (kept : Kept disc answers mem outbuf len offset s)
    (done : s.cnt = len) :
    Meets disc answers outbuf len offset mem s ↔
      AllRead answers s.chunks ∨ LastFails answers s.chunks := by
  have result : (s.ret = 0 ↔ AllRead answers s.chunks) ↔
      AllRead answers s.chunks ∨ LastFails answers s.chunks := by
    rcases List.eq_nil_or_concat s.chunks with none | ⟨before, last, chunks⟩
    · simp [none, kept.first none, AllRead]
    · have ended := kept.last last (by simp [chunks])
      rw [ended, LastFails, chunks, List.concat_eq_append, allRead_append]
      simp
      tauto
  rw [← result]
  refine ⟨Meets.result, fun result => ⟨?_, ?_, ?_, result, ?_⟩⟩
  · intro chunk here
    obtain ⟨cnt, fits⟩ := kept.fits chunk here
    rw [fits.here]
    exact fits.inside
  · exact fun i outside => kept.frame i (done.symm ▸ outside)
  · intro chunk here direct
    obtain ⟨cnt, fits⟩ := kept.fits chunk here
    exact (fits.dma direct).1
  · intro all
    have whole := Cells.window_overlay mem 0 (disc.window (4 * offset) len)
    rw [Cells.window_length] at whole
    rw [kept.bytes all, done]
    exact whole

/-- The start of the loop. -/
theorem kept_start : Kept disc answers mem outbuf len offset
    { cnt := 0, lba := offset / 512, ret := 0, mem := mem, chunks := [] } where
  fits _ here := absurd here List.not_mem_nil
  last _ here := absurd here nofun
  first _ := rfl
  bytes _ := by simp
  frame _ _ := rfl
  cnt_le := Nat.zero_le _
  placed _ := .first offset

/-- A read whose length wraps is one chunk, which takes more from the buffer than it holds. -/
theorem chunkAt_wraps (outbuf : Nat) (wraps : Wraps len offset) (len_lt : len < 4294967296)
    (offset_lt : offset < 4294967296) :
    chunkAt outbuf len offset 0 (offset / 512) =
      { cnt := 0, lba := offset / 512, size := len, pos := offset % 512 * 4, direct := false } := by
  obtain ⟨inside, long⟩ := wraps
  have offlba : u32 (offset / 512 * 512) = offset / 512 * 512 := u32_of_lt (by omega)
  have pos : (if offset > u32 (offset / 512 * 512) then
      u32 ((offset - u32 (offset / 512 * 512)) * 4) else 0) = offset % 512 * 4 := by
    rw [offlba, if_pos (by omega), u32_of_lt (by omega)]
    omega
  have wrapped : ¬ u32 (len + offset % 512 * 4) > sectorSize := by
    simp only [u32, sectorSize]
    omega
  simp only [chunkAt, Nat.sub_zero, pos]
  rw [if_pos (.inr (by omega)), if_neg wrapped]

/-- A count that wraps ends the loop behind the first chunk. -/
theorem nextCnt_wraps (wraps : Wraps len offset) (len_lt : len < 4294967296)
    (offset_lt : offset < 4294967296) :
    ¬ (chunkAt outbuf len offset 0 (offset / 512)).nextCnt < len := by
  rw [chunkAt_wraps outbuf wraps len_lt offset_lt, Chunk.nextCnt, Nat.zero_add, u32_of_lt len_lt]
  exact Nat.lt_irrefl len

/-- Such a read ends after its chunk. -/
theorem readLoop_wraps (wraps : Wraps len offset) (len_lt : len < 4294967296)
    (offset_lt : offset < 4294967296) :
    readLoop outbuf len offset disc heap answers len
        { cnt := 0, lba := offset / 512, ret := 0, mem := mem, chunks := [] } =
      some (readStep outbuf len offset disc heap answers
        { cnt := 0, lba := offset / 512, ret := 0, mem := mem, chunks := [] }) := by
  obtain ⟨rounds, succ⟩ : ∃ rounds, len = rounds + 1 := ⟨len - 1, by have := wraps.2; omega⟩
  have short : 0 < len := succ ▸ Nat.succ_pos rounds
  conv => lhs; arg 7; rw [succ]
  rw [readLoop, if_pos short]
  exact readLoop_done heap (nextCnt_wraps wraps len_lt offset_lt) rounds

/-- With a count that wraps there is one chunk. -/
theorem chunksFrom_wraps (wraps : Wraps len offset) (len_lt : len < 4294967296)
    (offset_lt : offset < 4294967296) :
    chunksFrom outbuf len offset len 0 (offset / 512) =
      [chunkAt outbuf len offset 0 (offset / 512)] := by
  obtain ⟨rounds, succ⟩ : ∃ rounds, len = rounds + 1 := ⟨len - 1, by have := wraps.2; omega⟩
  have short : 0 < len := succ ▸ Nat.succ_pos rounds
  conv => lhs; arg 4; rw [succ]
  rw [chunksFrom, if_pos short]
  exact congrArg _ (chunksFrom_done (nextCnt_wraps wraps len_lt offset_lt) _ _)

/-- One chunk is read if its attempts succeed. -/
theorem allRead_single {chunk : Chunk} :
    AllRead answers [chunk] ↔ (answers 0).Succeed chunk.direct :=
  (@allRead_append answers [] chunk).trans (and_iff_right fun _ _ here => absurd here nofun)

/-- If its chunk fails, nothing is read, and the result says so. -/
theorem meets_wraps (wraps : Wraps len offset) (len_lt : len < 4294967296)
    (offset_lt : offset < 4294967296) (failed : ¬ (answers 0).Succeed false) :
    Meets disc answers outbuf len offset mem (readStep outbuf len offset disc heap answers
      { cnt := 0, lba := offset / 512, ret := 0, mem := mem, chunks := [] }) := by
  have chunk := chunkAt_wraps outbuf wraps len_lt offset_lt
  have passed : ¬ u32 (len + offset % 512 * 4) > sectorSize := by
    have long := wraps.2
    simp only [u32, sectorSize]
    omega
  obtain ⟨result, -, none⟩ := diReadFromSector_spec disc heap (answers 0) 0
    (offset / 512) passed mem
  have error := mt result.1 failed
  have some : ¬ AllRead answers [chunkAt outbuf len offset 0 (offset / 512)] := by
    rw [allRead_single, chunk]
    exact failed
  simp only [readStep, List.nil_append, List.length_nil]
  rw [chunk] at some ⊢
  refine ⟨?_, fun i _ => congrFun (none error) i, ?_, iff_of_false error some,
    fun all => absurd all some⟩
  · exact fun other here => List.mem_singleton.1 here ▸ Nat.le_of_eq (Nat.zero_add len)
  · intro other here direct
    rw [List.mem_singleton.1 here] at direct
    exact absurd direct Bool.false_ne_true

/-- If its chunk is read, the bytes behind the buffer end up in the output. -/
theorem not_meets_wraps (wraps : Wraps len offset) (len_lt : len < 4294967296)
    (offset_lt : offset < 4294967296) (done : (answers 0).Succeed false) :
    ∃ heap, ¬ Meets disc answers outbuf len offset mem
      (readStep outbuf len offset disc heap answers
        { cnt := 0, lba := offset / 512, ret := 0, mem := mem, chunks := [] }) := by
  have chunk := chunkAt_wraps outbuf wraps len_lt offset_lt
  obtain ⟨inside, long⟩ := wraps
  have passed : ¬ u32 (len + offset % 512 * 4) > sectorSize := by
    simp only [u32, sectorSize]
    omega
  -- the first byte behind the buffer, and where it should have come from
  obtain ⟨rest, next⟩ : ∃ rest, offset % 512 * 4 + rest = sectorSize :=
    ⟨2048 - offset % 512 * 4, by simp only [sectorSize]; omega⟩
  have behind : rest < len := by
    simp only [sectorSize] at next
    omega
  refine ⟨fun _ => disc (4 * offset + rest) + 1, fun meets => ?_⟩
  obtain ⟨result, bytes, -⟩ := diReadFromSector_spec disc (fun _ => disc (4 * offset + rest) + 1)
    (answers 0) 0 (offset / 512) passed mem
  have contents := meets.contents
  simp only [readStep, List.nil_append, List.length_nil] at contents
  rw [chunk, allRead_single] at contents
  have read : (diReadFromSector disc (fun _ => disc (4 * offset + rest) + 1) (answers 0) 0 len
      (offset % 512 * 4) (offset / 512) mem).2 rest = disc (4 * offset + rest) := by
    have byte := congrArg (fun values => values[rest]?) (contents done)
    simpa [Chunk.read, behind, Cells.window] using byte
  have taken : (diReadFromSector disc (fun _ => disc (4 * offset + rest) + 1) (answers 0) 0 len
      (offset % 512 * 4) (offset / 512) mem).2 rest = disc (4 * offset + rest) + 1 := by
    rw [bytes (result.2 done)]
    have stored := Cells.overlay_inside mem 0 (Cells.window (Cells.overlay
      (fun _ => disc (4 * offset + rest) + 1) 0
      (disc.window (sectorSize * (offset / 512)) sectorSize)) (offset % 512 * 4) len)
      (show rest < _ by simpa using behind)
    rw [Nat.zero_add, Cells.window_getElem, next] at stored
    rw [stored]
    exact Cells.overlay_outside _ _ _ (.inr (by simp))
  have same : disc (4 * offset + rest) + 1 = disc (4 * offset + rest) := taken.symm.trans read
  exact absurd same (by simp)

end Loop

/-! ## Every read -/

variable (disc : Cells UInt8) (answers : Nat → Answers)

/-- A read is as it should be exactly if its chunks have all been read, or the last of them has
not; and if its length wraps, it must fail. -/
theorem diReadDvd_meets_iff (outbuf len offset : UInt32)
    (end_le : offset.toNat + (len.toNat + 3) / 4 ≤ 4294967296) (mem : Cells UInt8) :
    (∀ heap, ∃ after,
        diReadDvd disc heap answers outbuf len offset mem len.toNat = some after ∧
          Meets disc answers outbuf.toNat len.toNat offset.toNat mem after) ↔
      (Wraps len.toNat offset.toNat → ¬ (answers 0).Succeed false) ∧
        (AllRead answers (plan outbuf len offset) ∨
          LastFails answers (plan outbuf len offset)) := by
  have len_lt := len.toNat_lt
  have offset_lt := offset.toNat_lt
  unfold diReadDvd plan
  generalize outbuf.toNat = outbuf, len.toNat = len, offset.toNat = offset at *
  by_cases wraps : Wraps len offset
  · rw [chunksFrom_wraps wraps len_lt offset_lt]
    have failing : LastFails answers [chunkAt outbuf len offset 0 (offset / 512)] ↔
        ¬ (answers 0).Succeed false := by
      simp [LastFails, chunkAt_wraps outbuf wraps len_lt offset_lt]
    simp only [wraps, true_imp_iff, readLoop_wraps _ wraps len_lt offset_lt, Option.some.injEq,
      exists_eq_left', failing]
    constructor
    · intro all
      have failed : ¬ (answers 0).Succeed false := fun done => by
        obtain ⟨heap, wrong⟩ := @not_meets_wraps outbuf len offset disc answers mem
          wraps len_lt offset_lt done
        exact wrong (all heap)
      exact ⟨failed, .inr failed⟩
    · exact fun failed heap => meets_wraps heap wraps len_lt offset_lt failed.1
  · have run (heap : Cells UInt8) := (@kept_start outbuf len offset disc answers mem).loop heap len
      (Nat.sub_le _ _) len_lt offset_lt end_le wraps
    simp only [wraps, false_imp_iff, true_and]
    constructor
    · intro all
      obtain ⟨after, loop, kept, done, chunks⟩ := run (fun _ => 0)
      obtain ⟨after', loop', meets⟩ := all fun _ => 0
      rw [loop, Option.some.injEq] at loop'
      subst loop'
      rw [List.nil_append] at chunks
      exact chunks ▸ (kept.meets_iff done).1 meets
    · intro condition heap
      obtain ⟨after, loop, kept, done, chunks⟩ := run heap
      rw [List.nil_append] at chunks
      exact ⟨after, loop, (kept.meets_iff done).2 (chunks.symm ▸ condition)⟩

/-! ## A chunk that fails first -/

/-- A disc, or memory, of zeros. -/
def zeros : Cells UInt8 := fun _ => 0

/-- There is no buffer for the first chunk, and all goes well from then on. -/
def firstFails (i : Nat) : Answers where
  alloc := i != 0
  attempts _ := { ret := 0, debris := zeros }

/-- The rule for eight bytes on the border of two sectors. -/
theorem diReadDvd_meets_iff_border :
    (∀ heap, ∃ after,
        diReadDvd zeros heap firstFails 4 8 511 zeros (8 : UInt32).toNat = some after ∧
          Meets zeros firstFails (4 : UInt32).toNat (8 : UInt32).toNat (511 : UInt32).toNat zeros
            after) ↔
      (Wraps (8 : UInt32).toNat (511 : UInt32).toNat → ¬ (firstFails 0).Succeed false) ∧
        (AllRead firstFails (plan 4 8 511) ∨ LastFails firstFails (plan 4 8 511)) :=
  diReadDvd_meets_iff zeros firstFails 4 8 511 (by decide) zeros

/-- The first chunk fails, and the second makes the result 0. -/
theorem firstChunk_hidden :
    (diReadDvd zeros zeros firstFails 4 8 511 zeros 8).map Progress.ret = some 0 ∧
      ¬ ∀ heap, ∃ after, diReadDvd zeros heap firstFails 4 8 511 zeros 8 = some after ∧
        Meets zeros firstFails 4 8 511 zeros after := by
  have hidden : (diReadDvd zeros zeros firstFails 4 8 511 zeros 8).map Progress.ret = some 0 := by
    decide
  have first : (diReadDvd zeros zeros firstFails 4 8 511 zeros 8).map
      (fun after => after.chunks[0]?.map Chunk.direct) = some (some false) := by decide
  refine ⟨hidden, fun all => ?_⟩
  obtain ⟨after, run, meets⟩ := all zeros
  rw [run, Option.map_some, Option.some.injEq] at hidden first
  obtain ⟨chunk, here, bounced⟩ := Option.map_eq_some_iff.1 first
  have read := meets.result.1 hidden 0 chunk here
  rw [bounced] at read
  exact absurd read.1 (by decide)

end D2xCios.Dip.Dvd
