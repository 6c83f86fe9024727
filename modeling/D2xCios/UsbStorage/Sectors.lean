import D2xCios.Lib.Filling
import D2xCios.UsbStorage.Attempts

/-!
# Sectors of a USB device

A request is all or error as long as its attempts begin where the request does, and the one that
succeeds is complete. `__cycle` makes sure of neither: it keeps its cursor when it tries again,
takes a short part of a read, or nothing of a command, for success, and looks at the status only
behind a positive result.
-/

namespace D2xCios.UsbStorage.Bulk

open D2xCios.Lib

/-! ## Runs -/

section Runs

variable (write : Bool) (meets : Nat → Attempt) (tag : UInt32) (len : Nat)

/-- How far the attempts before attempt `k` have moved the cursor. -/
def position : Nat → Int
  | 0 => 0
  | k + 1 => position k + (meets k).moves write (u32OfInt (len - position k))

/-- The length with which attempt `k` begins. -/
def lenAt (k : Nat) : Nat := u32OfInt (len - position write meets len k)

def ServedAt (k : Nat) : Prop := (meets k).Served write (lenAt write meets len k) tag

/-- Attempt `k` fails, and another one is made if there are retries left. -/
def Retried (k : Nat) : Prop :=
  ¬ ServedAt write meets tag len k ∧ ¬ (meets k).TimesOut write (lenAt write meets len k)

/-- Attempt `k` is made. -/
def Reached (k : Nat) : Prop := ∀ i < k, Retried write meets tag len i

/-- The parts of its data. -/
def partsAt (buffer : Int) (k : Nat) : List Part :=
  (meets k).parts ((Cursor.mk len buffer).advance (position write meets len k))

variable {write meets tag len} {lun : UInt8} {cb : List UInt8} {buffer : Int}

/-- The variables before attempt `k`. -/
structure Before (write : Bool) (meets : Nat → Attempt) (tag : UInt32) (len : Nat) (buffer : Int)
    (k : Nat) (c : Cycle) : Prop where
  cursor : c.cursor = (Cursor.mk len buffer).advance (position write meets len k)
  tag : c.tag = tag
  made : c.made.map Made.parts = (List.range k).map (partsAt write meets len buffer)
  timely : c.retval ≠ etimedout
  negative : 0 < k → c.retval < 0

/-- The length that is left in front of an attempt. -/
theorem Before.cursor_len {k : Nat} {c : Cycle} (before : Before write meets tag len buffer k c) :
    c.cursor.len = lenAt write meets len k := by
  rw [before.cursor]
  rfl

theorem Before.made_append {k : Nat} {c after : Cycle} {made : Made}
    (before : Before write meets tag len buffer k c) (more : after.made = c.made ++ [made])
    (parts : made.parts = (meets k).parts c.cursor) :
    after.made.map Made.parts = (List.range (k + 1)).map (partsAt write meets len buffer) := by
  rw [more, List.map_append, before.made, List.range_succ, List.map_append, List.map_singleton,
    List.map_singleton, parts, before.cursor]
  rfl

/-- What an attempt that fails leaves. -/
theorem Before.failed {k : Nat} {c : Cycle} (before : Before write meets tag len buffer k c)
    (fails : ¬ ServedAt write meets tag len k) :
    Failed write (meets k) c (attempt write lun cb (meets k) c) := by
  refine attempt_failed ?_ ?_
  · rw [before.cursor]
    exact Cursor.advance_len_lt _ _
  · rw [before.cursor_len, before.tag]
    exact fails

/-- Behind an attempt that is tried again comes the next one. -/
theorem Before.retried {k : Nat} {c : Cycle} (before : Before write meets tag len buffer k c)
    (retried : Retried write meets tag len k) :
    Before write meets tag len buffer (k + 1) (attempt write lun cb (meets k) c) := by
  have failed := @Before.failed _ _ _ _ lun cb _ _ _ before retried.1
  obtain ⟨made, more, parts⟩ := failed.made
  refine ⟨?_, failed.tag.trans before.tag, before.made_append more parts, ?_,
    fun _ => failed.negative⟩
  · rw [failed.reached, before.cursor_len, before.cursor, Cursor.advance_advance]
    rfl
  · rw [Ne, failed.late, before.cursor_len]
    exact retried.2

/-- The loop behind attempts that are made again. -/
theorem attemptsFrom_retried {start : Cycle} (begins : Before write meets tag len buffer 0 start)
    {retries k : Nat} (le : k ≤ retries) (reached : Reached write meets tag len k) :
    ∃ c, Before write meets tag len buffer k c ∧
      attemptsFrom write lun cb meets retries 0 start =
        attemptsFrom write lun cb meets (retries - k) k c := by
  induction k with
  | zero => exact ⟨start, begins, rfl⟩
  | succ k ih =>
    obtain ⟨c, before, run⟩ := ih (Nat.le_of_lt le) fun i below =>
      reached i (Nat.lt_succ_of_lt below)
    have more : retries - k = retries - (k + 1) + 1 := by omega
    have next := @Before.retried _ _ _ _ lun cb _ _ _ before (reached k (Nat.lt_succ_self k))
    refine ⟨_, next, ?_⟩
    rw [run, more, attemptsFrom, if_neg before.timely]
    exact if_pos (next.negative (Nat.succ_pos k))

/-- A timeout ends the attempts. -/
theorem attemptsFrom_late {c : Cycle} (late : c.retval = etimedout) (retries k : Nat) :
    attemptsFrom write lun cb meets retries k c = c := by
  cases retries with
  | zero => rfl
  | succ retries => exact if_pos late

/-- How a run ends: with an attempt that succeeds, or without. -/
structure Ends (write : Bool) (meets : Nat → Attempt) (tag : UInt32) (len : Nat) (lun : UInt8)
    (cb : List UInt8) (buffer : Int) (retries n : Nat) (done : Cycle) : Prop where
  reached (i : Nat) : i < retries ∧ Reached write meets tag len i ↔ i < n
  made : done.made.map Made.parts = (List.range n).map (partsAt write meets len buffer)
  result : (∃ k, n = k + 1 ∧ k < retries ∧ ServedAt write meets tag len k ∧
      done.retval = usbstorageOk ∧ done.made.getLast? =
        some ⟨cbwFor tag lun (lenAt write meets len k) (if write then cbwOut else cbwIn) cb,
          blkMsg (meets k).cbw cbwSize, partsAt write meets len buffer k,
          some (meets k).csw.status⟩) ∨
    (∀ i < retries, Reached write meets tag len i → ¬ ServedAt write meets tag len i) ∧
      done.retval < 0

/-- The attempts end with one of them. -/
theorem attemptsFrom_ends {start : Cycle} (begins : Before write meets tag len buffer 0 start)
    {retries : Nat} (some : 0 < retries) :
    ∃ n, Ends write meets tag len lun cb buffer retries n
      (attemptsFrom write lun cb meets retries 0 start) := by
  obtain ⟨k, le, reached, first⟩ := exists_first (Retried write meets tag len) retries
  obtain ⟨c, before, run⟩ := @attemptsFrom_retried _ _ _ _ lun cb _ _ begins _ _ le reached
  rw [run]
  rcases Nat.eq_or_lt_of_le le with rfl | below
  · rw [Nat.sub_self]
    refine ⟨k, fun i => ?_, before.made, .inr ⟨fun i inside _ => ?_, before.negative some⟩⟩
    · exact and_iff_left_of_imp fun inside j earlier => reached j (Nat.lt_trans earlier inside)
    · exact (reached i inside).1
  have more : retries - k = retries - (k + 1) + 1 := by omega
  have count (i : Nat) : i < retries ∧ Reached write meets tag len i ↔ i < k + 1 := by
    refine ⟨fun ⟨_, all⟩ => ?_, fun inside => ⟨by omega, fun j earlier => reached j (by omega)⟩⟩
    by_contra behind
    exact first below (all k (by omega))
  rw [more, attemptsFrom, if_neg before.timely]
  dsimp only
  by_cases served : ServedAt write meets tag len k
  · have small : c.cursor.len < 2 ^ 32 := by
      rw [before.cursor]
      exact Cursor.advance_len_lt _ _
    have done := @attempt_served write lun cb (meets k) c small (by
      rw [before.cursor_len, before.tag]
      exact served)
    rw [done]
    dsimp only
    rw [if_neg (show ¬ usbstorageOk < 0 by decide)]
    refine ⟨k + 1, count, before.made_append rfl rfl,
      .inl ⟨k, rfl, below, served, rfl, ?_⟩⟩
    rw [List.getLast?_append, List.getLast?_singleton, Option.some_or, before.tag,
      before.cursor_len, before.cursor]
    rfl
  · have failed := @Before.failed _ _ _ _ lun cb _ _ _ before served
    have timedOut : (meets k).TimesOut write (lenAt write meets len k) := by
      by_contra timely
      exact first below ⟨served, timely⟩
    have late : (attempt write lun cb (meets k) c).retval = etimedout := by
      rw [failed.late, before.cursor_len]
      exact timedOut
    obtain ⟨made, appended, parts⟩ := failed.made
    rw [if_pos failed.negative, attemptsFrom_late late]
    refine ⟨k + 1, count, before.made_append appended parts,
      .inr ⟨fun i inside all => ?_, failed.negative⟩⟩
    rcases Nat.lt_succ_iff_lt_or_eq.1 ((count i).1 ⟨inside, all⟩) with earlier | rfl
    · exact (reached i earlier).1
    · exact served

/-! ## Positions -/

theorem moves_le (attempt : Attempt) (len : Nat) : attempt.moves write len ≤ len := by
  rw [Attempt.moves]
  split
  · exact advance_le _ _ _
  · exact Int.natCast_nonneg _

/-- A number that wraps gets smaller. -/
theorem u32OfInt_le {x : Int} (nonneg : 0 ≤ x) : (u32OfInt x : Int) ≤ x := by
  rw [u32OfInt]
  omega

/-- No attempt begins behind the end. -/
theorem position_le (k : Nat) : position write meets len k ≤ len := by
  induction k with
  | zero => exact Int.natCast_nonneg _
  | succ k ih =>
    have moves := @moves_le write (meets k) (u32OfInt (len - position write meets len k))
    have length := u32OfInt_le (Int.sub_nonneg.2 ih)
    rw [position]
    omega

/-- Where attempt `k` begins, its length reaches no further than the request. -/
theorem position_lenAt_le (k : Nat) :
    position write meets len k + lenAt write meets len k ≤ len := by
  have length := u32OfInt_le (Int.sub_nonneg.2 (@position_le write meets len k))
  rw [lenAt]
  omega

/-- No attempt at a write begins in front of the start. -/
theorem position_write_nonneg (k : Nat) : 0 ≤ position true meets len k := by
  induction k with
  | zero => exact Int.le_refl 0
  | succ k ih =>
    rw [position, Attempt.moves]
    split
    · exact Int.add_nonneg ih (advance_write_nonneg _ _)
    · exact Int.add_nonneg ih (Int.le_refl 0)

/-- Without data there is nowhere to go. -/
theorem position_zero (k : Nat) : position write meets 0 k = 0 := by
  induction k with
  | zero => rfl
  | succ k ih =>
    have none : firstShort (meets k).data 0 = 0 := Nat.le_zero.1 firstShort_le
    rw [position, ih, Attempt.moves]
    split
    · rw [show u32OfInt ((0 : Nat) - 0) = 0 from rfl, advance, none,
        if_neg fun goes => absurd goes.1 (by decide)]
      rfl
    · rfl

end Runs

/-! ## Requests -/

section Requests

variable (glue : Glue) (bus : Bus) (request : Request)

/-- The request is passed on to `__cycle`. -/
def Ready : Prop :=
  glue.mounted = true ∧ ¬ (glue.usbfd.maxLun ≤ glue.lun ∨ glue.usbfd.sectorSize glue.lun = 0)

/-- The length that `__cycle` is given. -/
def Request.len : Nat :=
  u32OfInt (request.numSectors.toUInt16.toNat * (glue.usbfd.sectorSize glue.lun).toNat)

/-- Attempt `k` does not begin before the buffer; or it comes to no data, or to none that touch
memory: they go through the buffer of the driver, and nothing is received. -/
def Contained (k : Nat) : Prop :=
  0 ≤ position request.write bus.attempts (request.len glue) k ∨
    ¬ (bus.attempts k).Sends ∨ lenAt request.write bus.attempts (request.len glue) k = 0 ∨
    staged (request.buffer.toNat + position request.write bus.attempts (request.len glue) k) =
        true ∧
      (bus.attempts k).data 0 ≤ 0

/-- Attempt `k` sends the whole command, which can name all the sectors; it begins where the request
does, no part of its data is short, and its status is 0. -/
structure Whole (k : Nat) : Prop where
  sent : (cbwSize : Int) ≤ (bus.attempts k).cbw
  count : request.numSectors.toNat < 2 ^ 16
  size : request.size glue < 2 ^ 32
  start : position request.write bus.attempts (request.len glue) k = 0
  complete : ∀ j < transfers (request.size glue),
    (partLen (request.size glue) j : Int) ≤ (bus.attempts k).data j
  status : (bus.attempts k).csw.status = 0

/-- Every attempt that is made is contained, and the one that succeeds is whole. -/
def Sound : Prop :=
  Ready glue → ∀ k ≤ cycleRetries,
    Reached request.write bus.attempts glue.usbfd.tag (request.len glue) k →
      Contained glue bus request k ∧
        (ServedAt request.write bus.attempts glue.usbfd.tag (request.len glue) k →
          Whole glue bus request k)

variable {glue bus request}

theorem request_len_le : request.len glue ≤ request.size glue := by
  have fewer : request.numSectors.toUInt16.toNat ≤ request.numSectors.toNat := by
    rw [UInt32.toNat_toUInt16]
    exact Nat.mod_le _ _
  have product := Nat.mul_le_mul_right (glue.usbfd.sectorSize glue.lun).toNat fewer
  rw [Request.len, ← Int.natCast_mul, Request.size]
  exact Int.ofNat_le.1 ((u32OfInt_le (Int.natCast_nonneg _)).trans (Int.ofNat_le.2 product))

/-- The length of a request that fits is its size. -/
theorem request_len_eq (count : request.numSectors.toNat < 2 ^ 16)
    (size : request.size glue < 2 ^ 32) : request.len glue = request.size glue := by
  have same : request.numSectors.toUInt16.toNat = request.numSectors.toNat := by
    rw [UInt32.toNat_toUInt16]
    exact Nat.mod_eq_of_lt count
  rw [Request.len, same, ← Int.natCast_mul]
  exact u32OfInt_of_lt size

theorem touched_le {part : Part} (fits : part.result.toNat ≤ part.length) (write : Bool) :
    part.touched write ≤ part.length := by
  rw [Part.touched]
  split
  · exact fits
  · exact Nat.le_refl _

/-- Parts of a transfer that begins inside the buffer and is not too long. -/
theorem dataParts_inside {data : Nat → Int} {cursor : Cursor}
    (lower : (request.buffer.toNat : Int) ≤ cursor.buffer)
    (upper : cursor.buffer + cursor.len ≤ (request.buffer.toNat : Int) + request.size glue)
    {part : Part} (among : part ∈ dataParts data cursor) : part.Inside glue request := by
  obtain ⟨j, -, address, length, fits⟩ := mem_dataParts among
  have touched := touched_le fits request.write
  have next := moved_succ cursor.len j
  have le := moved_le cursor.len (j + 1)
  right
  rw [address]
  omega

/-- Before the buffer, the first part is not inside unless it touches nothing. -/
theorem dataParts_before {data : Nat → Int} {cursor : Cursor} (read : request.write = false)
    (below : cursor.buffer < (request.buffer.toNat : Int)) (more : cursor.len ≠ 0) :
    (∀ part ∈ dataParts data cursor, part.Inside glue request) ↔
      staged cursor.buffer = true ∧ data 0 ≤ 0 := by
  have length : 0 < partLen cursor.len 0 := by
    refine partLen_pos ?_
    rw [transfers, maxTransferSize]
    omega
  constructor
  · intro all
    have untouched := (all _ (dataParts_head data more)).resolve_right fun inside =>
      absurd inside.1 (Int.not_le.2 below)
    rw [Part.touched] at untouched
    by_cases through : staged cursor.buffer = true
    case neg =>
      rw [if_neg fun both => through both.2] at untouched
      exact absurd untouched (Nat.ne_of_gt length)
    rw [if_pos ⟨read, through⟩] at untouched
    refine ⟨through, ?_⟩
    by_contra received
    dsimp only at untouched
    by_cases whole : (partLen cursor.len 0 : Int) ≤ data 0
    · rw [blkMsg_of_le whole] at untouched
      omega
    · rw [blkMsg_of_lt (Int.not_le.1 whole)] at untouched
      omega
  · rintro ⟨through, nothing⟩ part among
    rw [dataParts_none more nothing, List.mem_singleton] at among
    left
    rw [among, Part.touched, if_pos ⟨read, through⟩]
    exact Int.toNat_of_nonpos nothing

/-- The parts of attempt `k` lie inside the buffer exactly if it is contained. -/
theorem inside_iff (k : Nat) :
    (∀ part ∈ partsAt request.write bus.attempts (request.len glue) request.buffer.toNat k,
      part.Inside glue request) ↔ Contained glue bus request k := by
  have upper := @position_lenAt_le request.write bus.attempts (request.len glue) k
  have length := @request_len_le glue request
  rw [partsAt, Contained, Attempt.parts]
  by_cases sends : (bus.attempts k).Sends
  case neg =>
    rw [if_neg sends]
    exact iff_of_true (fun _ absent => absurd absent List.not_mem_nil) (.inr (.inl sends))
  rw [if_pos sends, or_iff_right (not_not.2 sends)]
  by_cases nonneg : 0 ≤ position request.write bus.attempts (request.len glue) k
  · refine iff_of_true (fun part among => dataParts_inside ?_ ?_ among) (.inl nonneg)
    · exact Int.le_add_of_nonneg_right nonneg
    · rw [Cursor.advance]
      dsimp only
      rw [← lenAt]
      omega
  rw [or_iff_right nonneg]
  have read : request.write = false := by
    cases write : request.write with
    | false => rfl
    | true =>
      rw [write] at nonneg
      exact absurd (position_write_nonneg k) nonneg
  by_cases none : lenAt request.write bus.attempts (request.len glue) k = 0
  · rw [dataParts_zero _ none]
    exact iff_of_true (fun _ absent => absurd absent List.not_mem_nil) (.inl none)
  · rw [or_iff_right none]
    refine dataParts_before read ?_ none
    rw [Cursor.advance]
    dsimp only
    omega

/-! ## The last attempt -/

/-- Two runs of addresses are the same if they are as long, and begin at the same unless they are
empty. -/
theorem addresses_eq_iff (a b : Int) (m n : Nat) :
    ((List.range m).map fun i : Nat => a + i) = (List.range n).map (fun i : Nat => b + i) ↔
      m = n ∧ (n = 0 ∨ a = b) := by
  constructor
  · intro same
    have length := congrArg List.length same
    rw [List.length_map, List.length_map, List.length_range, List.length_range] at length
    refine ⟨length, ?_⟩
    subst length
    cases m with
    | zero => exact .inl rfl
    | succ m =>
      rw [List.range_succ_eq_map, List.map_cons, List.map_cons] at same
      have head := (List.cons.inj same).1
      exact .inr (by omega)
  · rintro ⟨rfl, rfl | rfl⟩
    · rfl
    · rfl

/-- The sector of a command is read back. -/
theorem commandSector_command (operation lun : UInt8) (sector : UInt32) (nSectors : UInt16) :
    commandSector (command operation lun sector nSectors) = sector.toNat := by
  have bound := sector.toNat_lt
  simp only [commandSector, command, List.getD_cons_succ, List.getD_cons_zero, UInt32.toNat_toUInt8,
    UInt32.toNat_shiftRight, Nat.shiftRight_eq_div_pow]
  rw [show UInt32.toNat 24 % 32 = 24 from rfl, show UInt32.toNat 16 % 32 = 16 from rfl,
    show UInt32.toNat 8 % 32 = 8 from rfl]
  omega

/-- The count of a command is read back. -/
theorem commandCount_command (operation lun : UInt8) (sector : UInt32) (nSectors : UInt16) :
    commandCount (command operation lun sector nSectors) = nSectors.toNat := by
  have bound := nSectors.toNat_lt
  simp only [commandCount, command, List.getD_cons_succ, List.getD_cons_zero, UInt16.toNat_toUInt8,
    UInt16.toNat_shiftRight, Nat.shiftRight_eq_div_pow]
  rw [show UInt16.toNat 8 % 16 = 8 from rfl]
  omega

/-- The attempt that succeeds. -/
abbrev lastMade (glue : Glue) (bus : Bus) (request : Request) (k : Nat) : Made :=
  ⟨cbwFor glue.usbfd.tag glue.lun (lenAt request.write bus.attempts (request.len glue) k)
      (if request.write then cbwOut else cbwIn)
      (command (if request.write then scsiWrite10 else scsiRead10) glue.lun request.sector
        request.numSectors.toUInt16),
    blkMsg (bus.attempts k).cbw cbwSize,
    partsAt request.write bus.attempts (request.len glue) request.buffer.toNat k,
    some (bus.attempts k).csw.status⟩

/-- It is exact if and only if it is whole. -/
theorem exact_iff {k : Nat} (sends : (bus.attempts k).Sends) :
    (lastMade glue bus request k).Exact glue request ↔ Whole glue bus request k := by
  have bytes : (lastMade glue bus request k).parts.flatMap Part.bytes =
      (List.range (dataMoved (bus.attempts k).data
        (lenAt request.write bus.attempts (request.len glue) k))).map fun i : Nat =>
          (request.buffer.toNat : Int) + position request.write bus.attempts (request.len glue) k +
            i := by
    change (partsAt _ _ _ _ k).flatMap Part.bytes = _
    rw [partsAt, Attempt.parts, if_pos sends, dataParts_bytes]
    rfl
  constructor
  · intro exact
    have sent : (cbwSize : Int) ≤ (bus.attempts k).cbw := by
      by_contra short
      have same : blkMsg (bus.attempts k).cbw cbwSize = cbwSize := exact.sent
      rw [blkMsg_of_lt (Int.not_le.1 short)] at same
      exact short (le_of_eq same.symm)
    have count : request.numSectors.toNat < 2 ^ 16 := by
      have same : commandCount (command _ glue.lun request.sector
        request.numSectors.toUInt16) = request.numSectors.toNat := exact.count
      rw [commandCount_command] at same
      exact same ▸ UInt16.toNat_lt _
    obtain ⟨length, start⟩ := (addresses_eq_iff _ _ _ _).1 (bytes.symm.trans exact.moved)
    have small : lenAt request.write bus.attempts (request.len glue) k < 2 ^ 32 := u32OfInt_lt _
    have most := dataMoved_le (bus.attempts k).data
      (lenAt request.write bus.attempts (request.len glue) k)
    have size : request.size glue < 2 ^ 32 := by omega
    have len := request_len_eq count size
    have position : position request.write bus.attempts (request.len glue) k = 0 := by
      rcases start with none | same
      · rw [len, none]
        exact position_zero k
      · omega
    have whole : lenAt request.write bus.attempts (request.len glue) k = request.size glue := by
      rw [lenAt, position, Int.sub_zero, len]
      exact u32OfInt_of_lt size
    rw [whole] at length
    exact ⟨sent, count, size, position, dataMoved_eq_iff.1 length, Option.some.inj exact.status⟩
  · intro whole
    have len := request_len_eq whole.count whole.size
    have length : lenAt request.write bus.attempts (request.len glue) k = request.size glue := by
      rw [lenAt, whole.start, Int.sub_zero, len]
      exact u32OfInt_of_lt whole.size
    refine ⟨blkMsg_of_le whole.sent, commandSector_command _ _ _ _, ?_, ?_,
      congrArg some whole.status⟩
    · refine (commandCount_command _ _ _ _).trans ?_
      rw [UInt32.toNat_toUInt16]
      exact Nat.mod_eq_of_lt whole.count
    · refine bytes.trans ((addresses_eq_iff _ _ _ _).2 ⟨?_, .inr ?_⟩)
      · rw [length]
        exact dataMoved_eq_iff.2 whole.complete
      · rw [whole.start, Int.add_zero]

/-- The reset behind the last attempt changes the error only. -/
theorem cycle_ends {write : Bool} {lun : UInt8} {cb : List UInt8} {tag : UInt32} {len : Nat}
    {buffer : UInt32} (small : len < 2 ^ 32) :
    ∃ n, Ends write bus.attempts tag len lun cb buffer.toNat (cycleRetries + 1) n
      (cycle write lun cb bus tag len buffer) := by
  have begins : Before write bus.attempts tag len buffer.toNat 0
      ⟨usbstorageOk, ⟨len, buffer.toNat⟩, 0, tag, []⟩ :=
    ⟨(Cursor.advance_zero small).symm, rfl, rfl, show usbstorageOk ≠ etimedout by decide,
      fun none => absurd none (Nat.lt_irrefl 0)⟩
  obtain ⟨n, ends⟩ := @attemptsFrom_ends _ _ _ _ lun cb _ _ begins (cycleRetries + 1) (by decide)
  refine ⟨n, ?_⟩
  rw [cycle]
  split
  · rename_i late
    refine ⟨ends.reached, ends.made, .inr ⟨?_, show etimedout < 0 by decide⟩⟩
    rcases ends.result with ⟨k, -, -, -, fine, -⟩ | ⟨unserved, -⟩
    · rw [fine] at late
      exact absurd late.1 (by decide)
    · exact unserved
  · exact ends

/-- A request that is passed on. -/
theorem sectors_ends (ready : Ready glue) :
    ∃ n, ∃ done : Cycle, Ends request.write bus.attempts glue.usbfd.tag (request.len glue) glue.lun
        (command (if request.write then scsiWrite10 else scsiRead10) glue.lun request.sector
          request.numSectors.toUInt16) request.buffer.toNat (cycleRetries + 1) n done ∧
      sectors glue bus request = (decide (done.retval ≥ 0), done.made) := by
  obtain ⟨n, ends⟩ := @cycle_ends bus request.write glue.lun
    (command (if request.write then scsiWrite10 else scsiRead10) glue.lun request.sector
      request.numSectors.toUInt16) glue.usbfd.tag (request.len glue) request.buffer (u32OfInt_lt _)
  refine ⟨n, _, ends, ?_⟩
  have atMost : ¬ (cycle request.write glue.lun
      (command (if request.write then scsiWrite10 else scsiRead10) glue.lun request.sector
        request.numSectors.toUInt16) bus glue.usbfd.tag (request.len glue)
          request.buffer).retval > 0 := by
    rcases ends.result with ⟨k, -, -, -, fine, -⟩ | ⟨-, negative⟩
    · rw [fine]
      decide
    · exact Int.lt_asymm negative
  rw [sectors, if_neg (by rw [ready.1]; decide), transfer, if_neg ready.2]
  dsimp only
  rw [if_neg fun both => atMost both.1]
  rfl

/-- The parts of all attempts lie inside the buffer exactly if all that are made are contained. -/
theorem made_inside_iff {n : Nat} {cb : List UInt8} {done : Cycle}
    (ends : Ends request.write bus.attempts glue.usbfd.tag (request.len glue) glue.lun cb
      request.buffer.toNat (cycleRetries + 1) n done) :
    (∀ made ∈ done.made, ∀ part ∈ made.parts, part.Inside glue request) ↔
      ∀ k ≤ cycleRetries,
        Reached request.write bus.attempts glue.usbfd.tag (request.len glue) k →
          Contained glue bus request k := by
  rw [← List.forall_mem_map (f := Made.parts)
    (P := fun parts => ∀ part ∈ parts, part.Inside glue request), ends.made, List.forall_mem_map]
  constructor
  · intro all k le reached
    rw [← inside_iff]
    exact all k (List.mem_range.2 ((ends.reached k).1 ⟨Nat.lt_succ_of_le le, reached⟩))
  · intro all k inside
    obtain ⟨le, reached⟩ := (ends.reached k).2 (List.mem_range.1 inside)
    rw [inside_iff]
    exact all k (Nat.le_of_lt_succ le) reached

/-- A request is all or error exactly if its attempts are contained and the one that succeeds is
whole. -/
theorem allOrError_iff (glue : Glue) (bus : Bus) (request : Request) :
    AllOrError glue bus request ↔ Sound glue bus request := by
  by_cases ready : Ready glue
  case neg =>
    have nothing : sectors glue bus request = (false, []) := by
      rw [sectors]
      split
      · rfl
      · rename_i mounted
        rw [transfer, if_pos]
        · rfl
        · by_contra serves
          exact ready ⟨by simpa using mounted, serves⟩
    rw [AllOrError, nothing]
    exact iff_of_true ⟨fun fails => absurd fails Bool.false_ne_true,
      fun _ absent => absurd absent List.not_mem_nil⟩ fun ready' => absurd ready' ready
  obtain ⟨n, done, ends, run⟩ := @sectors_ends glue bus request ready
  rw [AllOrError, run, made_inside_iff ends, Sound, imp_iff_right ready, and_comm]
  constructor
  · rintro ⟨contained, exact⟩ k le reached
    refine ⟨contained k le reached, fun served => ?_⟩
    rcases ends.result with ⟨l, rfl, -, served', fine, last⟩ | ⟨unserved, -⟩
    · have reached' := ((ends.reached l).2 (Nat.lt_succ_self l)).2
      have one : k = l := by
        rcases Nat.lt_trichotomy k l with before | one | behind
        · exact absurd served (reached' k before).1
        · exact one
        · exact absurd served' (reached l behind).1
      subst one
      obtain ⟨made, isLast, isExact⟩ := exact (fine ▸ decide_eq_true (Int.le_refl 0))
      have same : lastMade glue bus request k = made := Option.some.inj (last.symm.trans isLast)
      rw [← exact_iff served.1, same]
      exact isExact
    · exact absurd served (unserved k (Nat.lt_succ_of_le le) reached)
  · intro sound
    refine ⟨fun k le reached => (sound k le reached).1, fun success => ?_⟩
    rcases ends.result with ⟨k, rfl, le, served, -, last⟩ | ⟨-, negative⟩
    · have reached := ((ends.reached k).2 (Nat.lt_succ_self k)).2
      exact ⟨_, last, (exact_iff served.1).2 ((sound k (Nat.le_of_lt_succ le) reached).2 served)⟩
    · exact absurd (of_decide_eq_true success) (Int.not_le.2 negative)

end Requests

/-! ## A command that fails -/

/-- A device with sectors of 512 bytes. -/
def disk : Glue where
  mounted := true
  lun := 0
  usbfd := ⟨1, fun _ => 512, 0x0BADC0DE⟩

/-- All transfers are served, and the status says that the command has failed. -/
def failedCommand : Bus where
  attempts _ := ⟨31, fun _ => 512, 13, ⟨cswSignature, 0x0BADC0DE, 1⟩, 0⟩
  lastReset := 0

/-- A read of the first sector. -/
def firstSector : Request := ⟨false, 0, 1, 0x10000000⟩

/-- It succeeds all the same. -/
theorem failedCommand_succeeds : ¬ AllOrError disk failedCommand firstSector := by
  rintro ⟨exact, -⟩
  obtain ⟨made, last, isExact⟩ := exact rfl
  have status : ((sectors disk failedCommand firstSector).2.getLast?).map Made.status =
      some (some 1) := rfl
  rw [last, Option.map_some, isExact.status] at status
  exact absurd status (by decide)

end D2xCios.UsbStorage.Bulk
