import D2xCios.UsbStorage.Bulk

/-!
# Attempts

What an attempt does, told by the first part of its data that is short. A read takes the result of
such a part as a length, even an error, and moves its cursor by it; a write does not.
-/

namespace D2xCios.UsbStorage.Bulk

/-! ## Cursors -/

theorem u32OfInt_of_lt {n : Nat} (small : n < 2 ^ 32) : u32OfInt n = n := by
  rw [u32OfInt]
  omega

theorem u32OfInt_lt (x : Int) : u32OfInt x < 2 ^ 32 := by
  rw [u32OfInt]
  omega

/-- A subtraction may wrap around before or afterwards. -/
theorem u32OfInt_sub (x y : Int) : u32OfInt (u32OfInt x - y) = u32OfInt (x - y) := by
  rw [u32OfInt, u32OfInt, u32OfInt]
  omega

namespace Cursor

theorem advance_zero {cursor : Cursor} (small : cursor.len < 2 ^ 32) :
    cursor.advance 0 = cursor := by
  rw [advance, Int.sub_zero, Int.add_zero, u32OfInt_of_lt small]

/-- Two moves, one after the other. -/
theorem advance_advance (cursor : Cursor) (x y : Int) :
    (cursor.advance x).advance y = cursor.advance (x + y) := by
  rw [advance, advance, advance, u32OfInt_sub, Int.sub_sub, Int.add_assoc]

theorem advance_len_lt (cursor : Cursor) (x : Int) : (cursor.advance x).len < 2 ^ 32 :=
  u32OfInt_lt _

end Cursor

/-! ## Parts -/

/-- The bytes before part `j`. -/
def moved (len j : Nat) : Nat := min (maxTransferSize * j) len

/-- The length of part `j`. -/
def partLen (len j : Nat) : Nat := thisLen (len - moved len j)

theorem moved_succ (len j : Nat) : moved len (j + 1) = moved len j + partLen len j := by
  rw [partLen, thisLen, moved, moved, maxTransferSize]
  split <;> omega

theorem moved_le (len j : Nat) : moved len j ≤ len := Nat.min_le_right _ _

theorem moved_lt {len j : Nat} (inside : j < transfers len) : moved len j < len := by
  rw [transfers, maxTransferSize] at inside
  rw [moved, maxTransferSize]
  omega

/-- All transfers move the whole length. -/
theorem moved_transfers (len : Nat) : moved len (transfers len) = len := by
  rw [moved, transfers, maxTransferSize]
  omega

theorem partLen_pos {len j : Nat} (inside : j < transfers len) : 0 < partLen len j := by
  have more := moved_lt inside
  rw [partLen, thisLen, maxTransferSize]
  split <;> omega

/-- The first part that is short; behind the last if there is none. -/
def firstShort (data : Nat → Int) (len : Nat) : Nat :=
  (List.range (transfers len)).findIdx fun j => data j < partLen len j

section FirstShort

variable {data : Nat → Int} {len : Nat}

/-- The first short transfer is one of them, or there is none. -/
theorem firstShort_le : firstShort data len ≤ transfers len :=
  Nat.le_trans List.findIdx_le_length (Nat.le_of_eq List.length_range)

/-- The transfers in front of the first short one are complete. -/
theorem complete_of_lt {j : Nat} (before : j < firstShort data len) :
    (partLen len j : Int) ≤ data j := by
  have complete := List.not_of_lt_findIdx before
  simpa only [List.getElem_range, decide_eq_false_iff_not, not_lt] using complete

/-- The first short transfer is short. -/
theorem firstShort_short (inside : firstShort data len < transfers len) :
    data (firstShort data len) < partLen len (firstShort data len) := by
  have bound : (List.range (transfers len)).findIdx (fun j => data j < partLen len j) <
      (List.range (transfers len)).length := by
    rw [List.length_range]
    exact inside
  have short := List.findIdx_getElem (w := bound)
  simp only [List.getElem_range, decide_eq_true_eq] at short
  exact short

/-- A complete transfer. -/
theorem blkMsg_of_le {result : Int} {n : Nat} (complete : (n : Int) ≤ result) :
    blkMsg result n = n := by
  rw [blkMsg, if_neg (by omega), min_eq_right complete]

/-- A short transfer, or a failed one. -/
theorem blkMsg_of_lt {result : Int} {n : Nat} (short : result < n) : blkMsg result n = result := by
  rw [blkMsg]
  split
  · rfl
  · exact min_eq_left (Int.le_of_lt short)

end FirstShort

/-! ## The loop over the data -/

/-- The cursor before part `j`. -/
def Cursor.at (cursor : Cursor) (j : Nat) : Cursor :=
  ⟨cursor.len - moved cursor.len j, cursor.buffer + moved cursor.len j⟩

/-- The complete parts before part `m`. -/
def fullParts (cursor : Cursor) (m : Nat) : List Part :=
  (List.range m).map fun j =>
    ⟨cursor.buffer + moved cursor.len j, partLen cursor.len j, partLen cursor.len j⟩

section Loop

variable {write : Bool} {data : Nat → Int} {cursor : Cursor}

/-- A complete part moves the cursor on, in a write as in a read. -/
theorem part_complete (write : Bool) (n : Nat) (phase : Phase) :
    (if write then writePart n n phase else readPart n n phase) =
      ({ phase with retval := n, cursor := phase.cursor.advance n }, true) := by
  have timely : (n : Int) ≠ etimedout := by
    rw [etimedout]
    omega
  have fine : ¬ (n : Int) < 0 := by omega
  cases write with
  | true => rw [if_pos rfl, writePart, if_neg timely, if_neg fine, if_neg (not_not.2 rfl)]
  | false =>
    rw [if_neg Bool.false_ne_true, readPart, if_neg timely]
    exact if_neg (not_not.2 rfl)

/-- A complete transfer takes the cursor to the next one. -/
theorem Cursor.at_advance (small : cursor.len < 2 ^ 32) (j : Nat) :
    (cursor.at j).advance (partLen cursor.len j) = cursor.at (j + 1) := by
  have next := moved_succ cursor.len j
  have le := moved_le cursor.len (j + 1)
  have len : u32OfInt ((cursor.at j).len - partLen cursor.len j) = (cursor.at (j + 1)).len := by
    rw [Cursor.at, Cursor.at, u32OfInt]
    dsimp only
    omega
  rw [advance, len]
  rw [Cursor.at, Cursor.at, Cursor.mk.injEq]
  refine ⟨rfl, ?_⟩
  dsimp only
  omega

/-- The loop behind complete parts. -/
theorem transferLoop_moved (small : cursor.len < 2 ^ 32) {m : Nat}
    (le : m ≤ transfers cursor.len) (complete : ∀ j < m, (partLen cursor.len j : Int) ≤ data j) :
    ∃ retval : Int, 0 ≤ retval ∧
      transferLoop write data (transfers cursor.len) 0 ⟨usbstorageOk, cursor, []⟩ =
        transferLoop write data (transfers cursor.len - m) m
          ⟨retval, cursor.at m, fullParts cursor m⟩ := by
  induction m with
  | zero =>
    refine ⟨usbstorageOk, Int.le_refl 0, ?_⟩
    have start : cursor.at 0 = cursor := by
      rw [Cursor.at, moved, Nat.mul_zero, Nat.zero_min]
      exact congrArg (Cursor.mk cursor.len) (Int.add_zero _)
    rw [start]
    rfl
  | succ m ih =>
    obtain ⟨retval, -, run⟩ := ih (Nat.le_of_lt le) fun j before =>
      complete j (Nat.lt_succ_of_lt before)
    have more : transfers cursor.len - m = transfers cursor.len - (m + 1) + 1 := by omega
    have left : (cursor.at m).len ≠ 0 := Nat.sub_ne_zero_of_lt (moved_lt le)
    refine ⟨partLen cursor.len m, Int.natCast_nonneg _, ?_⟩
    rw [run, more, transferLoop, if_neg left]
    dsimp only
    have length : thisLen (cursor.at m).len = partLen cursor.len m := rfl
    rw [length, blkMsg_of_le (complete m (Nat.lt_succ_self m)), part_complete]
    dsimp only
    rw [if_pos rfl, Cursor.at_advance small, fullParts, fullParts, List.range_succ, List.map_append]
    rfl

/-- What the loop gives at the first short part. -/
def shortPhase (write : Bool) (result : Int) (phase : Phase) : Phase :=
  if result = etimedout then { phase with retval := etimedout }
  else if write then { phase with retval := edataresidue }
  else { phase with retval := result, cursor := phase.cursor.advance result }

/-- A short part ends the phase. -/
theorem part_short (write : Bool) {n : Nat} {result : Int} (short : result < n) (phase : Phase) :
    (if write then writePart result n phase else readPart result n phase) =
      (shortPhase write result phase, false) := by
  have other : result ≠ n := Int.ne_of_lt short
  by_cases late : result = etimedout
  · cases write with
    | true => rw [if_pos rfl, writePart, if_pos late, shortPhase, if_pos late, late]
    | false => rw [if_neg Bool.false_ne_true, readPart, if_pos late, shortPhase, if_pos late, late]
  · rw [shortPhase, if_neg late]
    cases write with
    | true =>
      rw [if_pos rfl, if_pos rfl, writePart, if_neg late]
      by_cases negative : result < 0
      · rw [if_pos negative]
      · rw [if_neg negative, if_pos other]
    | false =>
      rw [if_neg Bool.false_ne_true, if_neg Bool.false_ne_true, readPart, if_neg late]
      exact if_pos other

/-- The parts of an attempt at the data: the complete ones, and one that is short. -/
def dataParts (data : Nat → Int) (cursor : Cursor) : List Part :=
  let m := firstShort data cursor.len
  if m < transfers cursor.len then
    fullParts cursor m ++
      [⟨cursor.buffer + moved cursor.len m, partLen cursor.len m, data m⟩]
  else fullParts cursor m

/-- How far it moves the cursor. -/
def advance (write : Bool) (data : Nat → Int) (len : Nat) : Int :=
  let m := firstShort data len
  if m < transfers len ∧ write = false ∧ data m ≠ etimedout then moved len m + data m
  else moved len m

/-- Its result, where that is negative. -/
def dataResult (write : Bool) (data : Nat → Int) (len : Nat) : Int :=
  let m := firstShort data len
  if m < transfers len then
    if write = false ∨ data m = etimedout then data m else edataresidue
  else usbstorageOk

/-- What the loop over the data has done. -/
structure Transferred (write : Bool) (data : Nat → Int) (cursor : Cursor) (phase : Phase) :
    Prop where
  failed : dataResult write data cursor.len < 0 → phase.retval = dataResult write data cursor.len
  fine : 0 ≤ dataResult write data cursor.len → 0 ≤ phase.retval
  reached : phase.cursor = cursor.advance (advance write data cursor.len)
  parts : phase.parts = dataParts data cursor

/-- The cursor in front of a transfer. -/
theorem Cursor.at_eq_advance (small : cursor.len < 2 ^ 32) (j : Nat) :
    cursor.at j = cursor.advance (moved cursor.len j) := by
  have le := moved_le cursor.len j
  rw [Cursor.at, Cursor.advance, Cursor.mk.injEq, u32OfInt]
  refine ⟨?_, rfl⟩
  omega

/-- The loop moves part after part up to the first short one. -/
theorem transferLoop_transferred (write : Bool) (data : Nat → Int) (small : cursor.len < 2 ^ 32) :
    Transferred write data cursor (transferLoop write data (transfers cursor.len) 0
      ⟨usbstorageOk, cursor, []⟩) := by
  obtain ⟨retval, fine, run⟩ := @transferLoop_moved write data cursor small
    (firstShort data cursor.len) firstShort_le fun j before => complete_of_lt before
  rw [run]
  by_cases inside : firstShort data cursor.len < transfers cursor.len
  case neg =>
    have all : firstShort data cursor.len = transfers cursor.len :=
      Nat.le_antisymm firstShort_le (Nat.not_lt.1 inside)
    have spent : transfers cursor.len - firstShort data cursor.len = 0 := by omega
    rw [spent, transferLoop]
    refine ⟨fun failed => ?_, fun _ => fine, ?_, ?_⟩
    · rw [dataResult, if_neg inside] at failed
      exact absurd failed (by decide)
    · rw [Cursor.at_eq_advance small, advance, if_neg fun both => inside both.1]
    · rw [dataParts, if_neg inside]
  have more : transfers cursor.len - firstShort data cursor.len =
      transfers cursor.len - (firstShort data cursor.len + 1) + 1 := by omega
  have left : (cursor.at (firstShort data cursor.len)).len ≠ 0 :=
    Nat.sub_ne_zero_of_lt (moved_lt inside)
  have short := firstShort_short inside
  rw [more, transferLoop, if_neg left]
  dsimp only
  have length : thisLen (cursor.at (firstShort data cursor.len)).len =
      partLen cursor.len (firstShort data cursor.len) := rfl
  rw [length, blkMsg_of_lt short, part_short write short]
  dsimp only
  rw [if_neg Bool.false_ne_true]
  have parts : dataParts data cursor = fullParts cursor (firstShort data cursor.len) ++
      [⟨(cursor.at (firstShort data cursor.len)).buffer,
        partLen cursor.len (firstShort data cursor.len), data (firstShort data cursor.len)⟩] :=
    if_pos inside
  rw [← parts, shortPhase]
  by_cases late : data (firstShort data cursor.len) = etimedout
  · have result : dataResult write data cursor.len = etimedout := by
      rw [dataResult, if_pos inside, if_pos (.inr late), late]
    have stays : advance write data cursor.len = moved cursor.len (firstShort data cursor.len) :=
      if_neg fun all => all.2.2 late
    rw [if_pos late]
    refine ⟨fun _ => result.symm, fun fine => ?_, ?_, rfl⟩
    · rw [result] at fine
      exact absurd fine (by decide)
    · rw [stays, Cursor.at_eq_advance small]
  rw [if_neg late]
  cases write with
  | true =>
    have result : dataResult true data cursor.len = edataresidue := by
      rw [dataResult, if_pos inside, if_neg fun either => either.elim (by decide) late]
    have stays : advance true data cursor.len = moved cursor.len (firstShort data cursor.len) :=
      if_neg fun all => absurd all.2.1 (by decide)
    rw [if_pos rfl]
    refine ⟨fun _ => result.symm, fun fine => ?_, ?_, rfl⟩
    · rw [result] at fine
      exact absurd fine (by decide)
    · rw [stays, Cursor.at_eq_advance small]
  | false =>
    have result : dataResult false data cursor.len = data (firstShort data cursor.len) := by
      rw [dataResult, if_pos inside, if_pos (.inl rfl)]
    have goes : advance false data cursor.len =
        moved cursor.len (firstShort data cursor.len) + data (firstShort data cursor.len) :=
      if_pos ⟨inside, rfl, late⟩
    rw [if_neg Bool.false_ne_true]
    refine ⟨fun _ => result.symm, fun fine => result ▸ fine, ?_, rfl⟩
    rw [goes, Cursor.at_eq_advance small, Cursor.advance_advance]

end Loop

/-! ## The bytes of the data -/

section DataParts

variable {write : Bool} {data : Nat → Int} {cursor : Cursor}

/-- How many bytes are moved: those of a short part too, unless it is an error. -/
def dataMoved (data : Nat → Int) (len : Nat) : Nat :=
  let m := firstShort data len
  if m < transfers len then moved len m + (data m).toNat else moved len m

/-- Addresses one behind the other. -/
theorem bytes_append (buffer : Int) (first second : Nat) :
    ((List.range first).map fun i : Nat => buffer + i) ++
        ((List.range second).map fun i : Nat => buffer + first + i) =
      (List.range (first + second)).map fun i : Nat => buffer + i := by
  rw [List.range_add, List.map_append, List.map_map]
  refine congrArg (List.append _) (List.map_congr_left fun i _ => ?_)
  rw [Function.comp_apply, Int.natCast_add, Int.add_assoc]

/-- Complete parts cover the buffer from its start without a gap. -/
theorem fullParts_bytes (cursor : Cursor) (m : Nat) :
    (fullParts cursor m).flatMap Part.bytes =
      (List.range (moved cursor.len m)).map fun i : Nat => cursor.buffer + i := by
  induction m with
  | zero =>
    rw [moved, Nat.mul_zero, Nat.zero_min]
    rfl
  | succ m ih =>
    rw [fullParts, List.range_succ, List.map_append, List.flatMap_append, ← fullParts, ih,
      moved_succ, ← bytes_append, List.map_singleton, List.flatMap_singleton]
    rfl

/-- The bytes are moved in order, from the cursor on. -/
theorem dataParts_bytes (data : Nat → Int) (cursor : Cursor) :
    (dataParts data cursor).flatMap Part.bytes =
      (List.range (dataMoved data cursor.len)).map fun i : Nat => cursor.buffer + i := by
  rw [dataParts, dataMoved]
  by_cases inside : firstShort data cursor.len < transfers cursor.len
  · rw [if_pos inside, if_pos inside, List.flatMap_append, fullParts_bytes, ← bytes_append,
      List.flatMap_singleton]
    rfl
  · rw [if_neg inside, if_neg inside, fullParts_bytes]

/-- All bytes are moved exactly if no part is short. -/
theorem dataMoved_eq_iff {len : Nat} :
    dataMoved data len = len ↔ ∀ j < transfers len, (partLen len j : Int) ≤ data j := by
  rw [dataMoved]
  by_cases inside : firstShort data len < transfers len
  · have short := firstShort_short inside
    have next := moved_succ len (firstShort data len)
    have le := moved_le len (firstShort data len + 1)
    have more := partLen_pos inside
    rw [if_pos inside]
    refine iff_of_false (fun same => ?_) fun complete => ?_
    · omega
    · exact absurd (complete _ inside) (Int.not_le.2 short)
  · have all : firstShort data len = transfers len :=
      Nat.le_antisymm firstShort_le (Nat.not_lt.1 inside)
    rw [if_neg inside, all, moved_transfers]
    exact iff_of_true rfl fun j below => complete_of_lt (all ▸ below)

theorem dataMoved_le (data : Nat → Int) (len : Nat) : dataMoved data len ≤ len := by
  rw [dataMoved]
  by_cases inside : firstShort data len < transfers len
  · have short := firstShort_short inside
    have next := moved_succ len (firstShort data len)
    have le := moved_le len (firstShort data len + 1)
    have more := partLen_pos inside
    rw [if_pos inside]
    omega
  · rw [if_neg inside]
    exact moved_le _ _

theorem advance_le (write : Bool) (data : Nat → Int) (len : Nat) :
    advance write data len ≤ len := by
  rw [advance]
  split
  · rename_i goes
    have short := firstShort_short goes.1
    have next := moved_succ len (firstShort data len)
    have le := moved_le len (firstShort data len + 1)
    omega
  · exact_mod_cast moved_le _ _

/-- A write moves its cursor by complete parts. -/
theorem advance_write_nonneg (data : Nat → Int) (len : Nat) : 0 ≤ advance true data len := by
  rw [advance]
  rw [if_neg fun goes => absurd goes.2.1 (by decide)]
  exact Int.natCast_nonneg _

/-- A part lies where the cursor comes to, and moves no more than its length. -/
theorem mem_dataParts {part : Part} (inside : part ∈ dataParts data cursor) :
    ∃ j < transfers cursor.len, part.address = cursor.buffer + moved cursor.len j ∧
      part.length = partLen cursor.len j ∧ part.result.toNat ≤ part.length := by
  have full {m : Nat} (le : m ≤ transfers cursor.len) (among : part ∈ fullParts cursor m) :
      ∃ j < transfers cursor.len, part.address = cursor.buffer + moved cursor.len j ∧
        part.length = partLen cursor.len j ∧ part.result.toNat ≤ part.length := by
    obtain ⟨j, below, rfl⟩ := List.mem_map.1 among
    exact ⟨j, Nat.lt_of_lt_of_le (List.mem_range.1 below) le, rfl, rfl, Nat.le_refl _⟩
  rw [dataParts] at inside
  by_cases more : firstShort data cursor.len < transfers cursor.len
  · rw [if_pos more] at inside
    rcases List.mem_append.1 inside with among | last
    · exact full firstShort_le among
    · rw [List.mem_singleton.1 last]
      have short := firstShort_short more
      refine ⟨_, more, rfl, rfl, ?_⟩
      dsimp only
      omega
  · rw [if_neg more] at inside
    exact full firstShort_le inside

theorem dataParts_zero (data : Nat → Int) {cursor : Cursor} (none : cursor.len = 0) :
    dataParts data cursor = [] := by
  have zero : transfers cursor.len = 0 := by
    rw [none]
    rfl
  have first : firstShort data cursor.len = 0 := Nat.le_zero.1 (zero ▸ firstShort_le)
  rw [dataParts, first, if_neg (by rw [zero]; exact Nat.lt_irrefl 0)]
  rfl

/-- The first part is at the cursor. -/
theorem dataParts_head (data : Nat → Int) (more : cursor.len ≠ 0) :
    (⟨cursor.buffer, partLen cursor.len 0, blkMsg (data 0) (partLen cursor.len 0)⟩ : Part) ∈
      dataParts data cursor := by
  have some : 0 < transfers cursor.len := by
    rw [transfers, maxTransferSize]
    omega
  have start : moved cursor.len 0 = 0 := by rw [moved, Nat.mul_zero, Nat.zero_min]
  rw [dataParts]
  rcases Nat.eq_zero_or_pos (firstShort data cursor.len) with zero | before
  · have short := firstShort_short (zero ▸ some)
    rw [zero] at short ⊢
    rw [if_pos some, start, blkMsg_of_lt short]
    exact List.mem_append_right _ (List.mem_singleton.2 (by rw [Int.natCast_zero, Int.add_zero]))
  · have full : (⟨cursor.buffer, partLen cursor.len 0, blkMsg (data 0) (partLen cursor.len 0)⟩ :
        Part) ∈ fullParts cursor (firstShort data cursor.len) := by
      refine List.mem_map.2 ⟨0, List.mem_range.2 before, ?_⟩
      rw [start, blkMsg_of_le (complete_of_lt before), Int.natCast_zero, Int.add_zero]
    split
    · exact List.mem_append_left _ full
    · exact full

/-- If nothing is received at first, there is only that part. -/
theorem dataParts_none (more : cursor.len ≠ 0) (nothing : data 0 ≤ 0) :
    dataParts data cursor = [⟨cursor.buffer, partLen cursor.len 0, data 0⟩] := by
  have some : 0 < transfers cursor.len := by
    rw [transfers, maxTransferSize]
    omega
  have length := partLen_pos some
  have zero : firstShort data cursor.len = 0 := by
    by_contra later
    have complete := complete_of_lt (Nat.pos_of_ne_zero later)
    omega
  have start : moved cursor.len 0 = 0 := by rw [moved, Nat.mul_zero, Nat.zero_min]
  rw [dataParts, zero, if_pos some, start, Int.natCast_zero, Int.add_zero]
  rfl

end DataParts

/-! ## An attempt -/

namespace Attempt

variable (meets : Attempt)

/-- The command is sent, or nothing of it, which `__send_cbw` takes for success. -/
def Sends : Prop := meets.cbw = 0 ∨ (cbwSize : Int) ≤ meets.cbw

instance decidableSends : Decidable meets.Sends := instDecidableOr

/-- A valid status is received. -/
def Answers (tag : UInt32) : Prop :=
  (cswSize : Int) ≤ meets.cswResult ∧ meets.csw.signature = cswSignature ∧ meets.csw.tag = tag

/-- The attempt succeeds. -/
def Served (write : Bool) (len : Nat) (tag : UInt32) : Prop :=
  meets.Sends ∧ 0 ≤ dataResult write meets.data len ∧ meets.Answers tag

/-- The transfer at which it fails, or the reset behind it, times out. -/
def TimesOut (write : Bool) (len : Nat) : Prop :=
  meets.reset = etimedout ∨
    (if meets.Sends then
      if dataResult write meets.data len < 0 then dataResult write meets.data len
      else meets.cswResult
    else meets.cbw) = etimedout

/-- How far it moves the cursor. -/
def moves (write : Bool) (len : Nat) : Int :=
  if meets.Sends then advance write meets.data len else 0

/-- The parts of its data. -/
def parts (cursor : Cursor) : List Part := if meets.Sends then dataParts meets.data cursor else []

variable {meets}

/-- A command that is taken whole. -/
theorem sendCbw_sends (sends : meets.Sends) : sendCbw meets.cbw = usbstorageOk := by
  rw [sendCbw, blkMsg]
  rcases sends with zero | whole
  · rw [zero]
    rfl
  · have fine : ¬ meets.cbw < 0 := by
      rw [cbwSize] at whole
      omega
    rw [if_neg fine, min_eq_right whole, if_pos rfl]

/-- A command that is not taken whole. -/
theorem sendCbw_fails (fails : ¬ meets.Sends) :
    sendCbw meets.cbw < 0 ∧ (sendCbw meets.cbw = etimedout ↔ meets.cbw = etimedout) := by
  rw [Sends, not_or, Int.not_le] at fails
  rw [sendCbw, blkMsg_of_lt fails.2]
  rw [if_neg (Int.ne_of_lt fails.2)]
  by_cases positive : meets.cbw > 0
  · rw [if_pos positive]
    refine ⟨by decide, iff_of_false (by decide) fun late => ?_⟩
    rw [late] at positive
    exact absurd positive (by decide)
  · rw [if_neg positive]
    exact ⟨lt_of_le_of_ne (Int.not_lt.1 positive) fails.1, Iff.rfl⟩

/-- A status with the right signature and tag. -/
theorem readCsw_answers {tag : UInt32} (answers : meets.Answers tag) (status : UInt8) :
    readCsw tag status meets.cswResult meets.csw = (usbstorageOk, meets.csw.status, tag + 1) := by
  obtain ⟨whole, signature, same⟩ := answers
  have fine : ¬ (cswSize : Int) < 0 := by decide
  rw [readCsw, blkMsg_of_le whole]
  dsimp only
  rw [if_neg fun both => both.2 rfl, if_neg fine, if_pos rfl, if_neg (not_not.2 signature),
    if_neg (not_not.2 same)]

/-- A status that does not come, or is not the one that is waited for. -/
theorem readCsw_fails {tag : UInt32} (fails : ¬ meets.Answers tag) (status : UInt8) :
    ∃ retval status', readCsw tag status meets.cswResult meets.csw = (retval, status', tag) ∧
      retval < 0 ∧ (retval = etimedout ↔ meets.cswResult = etimedout) := by
  rw [readCsw]
  by_cases whole : (cswSize : Int) ≤ meets.cswResult
  · have fine : ¬ (cswSize : Int) < 0 := by decide
    have timely : meets.cswResult ≠ etimedout := by
      intro late
      rw [late] at whole
      exact absurd whole (by decide)
    rw [blkMsg_of_le whole]
    dsimp only
    rw [if_neg fun both => both.2 rfl, if_neg fine, if_pos rfl]
    by_cases signature : meets.csw.signature = cswSignature
    case neg =>
      rw [if_pos signature]
      exact ⟨_, _, rfl, by decide, iff_of_false (by decide) timely⟩
    rw [if_neg (not_not.2 signature)]
    by_cases same : meets.csw.tag = tag
    · exact absurd ⟨whole, signature, same⟩ fails
    · rw [if_pos same]
      exact ⟨_, _, rfl, by decide, iff_of_false (by decide) timely⟩
  rw [Int.not_le] at whole
  rw [blkMsg_of_lt whole]
  dsimp only
  by_cases positive : meets.cswResult > 0
  · rw [if_pos ⟨positive, Int.ne_of_lt whole⟩]
    refine ⟨_, _, rfl, by decide, iff_of_false (by decide) fun late => ?_⟩
    rw [late] at positive
    exact absurd positive (by decide)
  rw [if_neg fun both => positive both.1]
  by_cases negative : meets.cswResult < 0
  · rw [if_pos negative]
    exact ⟨_, _, rfl, negative, Iff.rfl⟩
  -- nothing is received, and the memory is cleared
  have zero : meets.cswResult ≠ etimedout := by
    intro late
    rw [late] at negative
    exact negative (by decide)
  rw [if_neg negative, if_neg (Int.ne_of_lt whole),
    if_pos (show Csw.cleared.signature ≠ cswSignature by decide)]
  exact ⟨_, _, rfl, by decide, iff_of_false (by decide) zero⟩

end Attempt

section Attempts

variable {write : Bool} {lun : UInt8} {cb : List UInt8} {meets : Attempt} {c : Cycle}

/-- An attempt that succeeds. -/
theorem attempt_served (small : c.cursor.len < 2 ^ 32)
    (served : meets.Served write c.cursor.len c.tag) :
    attempt write lun cb meets c =
      { retval := usbstorageOk
        cursor := c.cursor.advance (meets.moves write c.cursor.len)
        status := meets.csw.status
        tag := c.tag + 1
        made := c.made ++ [⟨cbwFor c.tag lun c.cursor.len (if write then cbwOut else cbwIn) cb,
          blkMsg meets.cbw cbwSize, meets.parts c.cursor, some meets.csw.status⟩] } := by
  obtain ⟨sends, fine, answers⟩ := served
  have done := transferLoop_transferred write meets.data small
  rw [attempt, Attempt.sendCbw_sends sends]
  dsimp only
  rw [if_neg (show ¬ usbstorageOk < 0 by decide), if_neg (Int.not_lt.2 (done.fine fine)),
    Attempt.readCsw_answers answers]
  dsimp only
  rw [if_neg (show ¬ usbstorageOk < 0 by decide), done.reached, done.parts, Attempt.moves,
    Attempt.parts, if_pos sends, if_pos sends]

/-- What an attempt that fails does. -/
structure Failed (write : Bool) (meets : Attempt) (c after : Cycle) : Prop where
  negative : after.retval < 0
  late : after.retval = etimedout ↔ meets.TimesOut write c.cursor.len
  reached : after.cursor = c.cursor.advance (meets.moves write c.cursor.len)
  tag : after.tag = c.tag
  made : ∃ made : Made, after.made = c.made ++ [made] ∧ made.parts = meets.parts c.cursor

/-- Every way to fail ends with a reset. -/
theorem failed_reset {c' : Cycle} {retval : Int} {made : Made} (negative : retval < 0)
    (late : retval = etimedout ↔
      (if meets.Sends then
        if dataResult write meets.data c.cursor.len < 0 then
          dataResult write meets.data c.cursor.len
        else meets.cswResult
      else meets.cbw) = etimedout)
    (reached : c'.cursor = c.cursor.advance (meets.moves write c.cursor.len))
    (tag : c'.tag = c.tag) (before : c'.made = c.made)
    (parts : made.parts = meets.parts c.cursor) :
    Failed write meets c (c'.failed meets.reset retval made) := by
  refine ⟨?_, ?_, reached, tag, made, congrArg (· ++ [made]) before, parts⟩
  · rw [Cycle.failed]
    dsimp only
    split
    · decide
    · exact negative
  · rw [Attempt.TimesOut, ← late, Cycle.failed]
    dsimp only
    by_cases reset : meets.reset = etimedout
    · rw [if_pos reset]
      exact iff_of_true rfl (.inl reset)
    · rw [if_neg reset]
      exact (or_iff_right reset).symm

/-- An attempt that fails leaves the cursor where its transfers have taken it. -/
theorem attempt_failed (small : c.cursor.len < 2 ^ 32)
    (fails : ¬ meets.Served write c.cursor.len c.tag) :
    Failed write meets c (attempt write lun cb meets c) := by
  rw [attempt]
  by_cases sends : meets.Sends
  case neg =>
    obtain ⟨negative, late⟩ := Attempt.sendCbw_fails sends
    dsimp only
    rw [if_pos negative]
    refine failed_reset negative ?_ ?_ rfl rfl ?_
    · rw [if_neg sends, late]
    · rw [Attempt.moves, if_neg sends, Cursor.advance_zero small]
    · rw [Attempt.parts, if_neg sends]
  have done := transferLoop_transferred write meets.data small
  have moves : meets.moves write c.cursor.len = advance write meets.data c.cursor.len :=
    if_pos sends
  have parts : meets.parts c.cursor = dataParts meets.data c.cursor := if_pos sends
  rw [Attempt.sendCbw_sends sends]
  dsimp only
  rw [if_neg (show ¬ usbstorageOk < 0 by decide)]
  by_cases negative : dataResult write meets.data c.cursor.len < 0
  · have result := done.failed negative
    rw [if_pos (result.symm ▸ negative)]
    refine failed_reset (result.symm ▸ negative) ?_ ?_ rfl rfl ?_
    · rw [if_pos sends, if_pos negative, result]
    · rw [moves, ← done.reached]
    · rw [parts, ← done.parts]
  have answers : ¬ meets.Answers c.tag := fun answers =>
    fails ⟨sends, Int.not_lt.1 negative, answers⟩
  obtain ⟨retval, status, read, bad, late⟩ := Attempt.readCsw_fails answers c.status
  rw [if_neg (Int.not_lt.2 (done.fine (Int.not_lt.1 negative))), read]
  dsimp only
  rw [if_pos bad]
  refine failed_reset bad ?_ ?_ rfl rfl ?_
  · rw [if_pos sends, if_neg negative, late]
  · rw [moves, ← done.reached]
  · rw [parts, ← done.parts]

end Attempts

end D2xCios.UsbStorage.Bulk
