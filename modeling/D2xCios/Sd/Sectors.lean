import Mathlib.Data.List.Basic
import Mathlib.Data.UInt

/-!
# Sectors of the SD card

`sdio_ReadSectors` and `sdio_WriteSectors` of `sdio.c`. Each makes up to ten attempts,
and an attempt selects the card, sends the data command and deselects the card. A card
that is not SDHC is addressed by bytes, and the address is made in the loop, from the
one of the attempt before: it is right in the first data command only.
-/

namespace D2xCios.Sd

/-- `PAGE_SIZE512` -/
def pageSize512 : UInt32 := 512

/-- The commands. -/
def sdioCmdSelect : UInt32 := 0x07
def sdioCmdDeselect : UInt32 := 0x07
def sdioCmdReadmultiblock : UInt32 := 0x12
def sdioCmdWritemultiblock : UInt32 := 0x19

/-- `SDIOCMD_TYPE_AC`, `SDIO_RESPONSE_R1` and `SDIO_RESPONSE_R1B`. -/
def sdiocmdTypeAc : UInt32 := 3
def sdioResponseR1 : UInt32 := 1
def sdioResponseR1b : UInt32 := 2

/-- `struct _sdiorequest`; `isdma` is whether there is a buffer. -/
structure SdioRequest where
  cmd : UInt32
  cmdType : UInt32
  rspType : UInt32
  arg : UInt32
  blkCnt : UInt32
  blkSize : UInt32
  dmaAddr : Option UInt32
  deriving DecidableEq

/-- A command with the result of its ioctl. -/
structure Sent where
  request : SdioRequest
  ret : Int
  deriving DecidableEq

/-- The card: `__sd0_rca` and `__sd0_sdhc`. -/
structure Card where
  rca : UInt16
  sdhc : Bool

/-- How the commands of an attempt end. -/
structure Attempt where
  select : Int
  data : Int
  deselect : Int

/-- `__sd0_select` -/
def sd0Select (card : Card) (ret : Int) : Sent where
  request :=
    { cmd := sdioCmdSelect, cmdType := sdiocmdTypeAc, rspType := sdioResponseR1b
      arg := card.rca.toUInt32 <<< 16, blkCnt := 0, blkSize := 0, dmaAddr := none }
  ret := ret

/-- `__sd0_deselect` -/
def sd0Deselect (ret : Int) : Sent where
  request :=
    { cmd := sdioCmdDeselect, cmdType := sdiocmdTypeAc, rspType := sdioResponseR1b
      arg := 0, blkCnt := 0, blkSize := 0, dmaAddr := none }
  ret := ret

/-- The data command. -/
def sendData (cmd sector numSectors buffer : UInt32) (ret : Int) : Sent where
  request :=
    { cmd := cmd, cmdType := sdiocmdTypeAc, rspType := sdioResponseR1
      arg := sector, blkCnt := numSectors, blkSize := pageSize512, dmaAddr := some buffer }
  ret := ret

/-- The attempts with the data command `cmd`: the result and the commands sent. -/
def sectorsLoop (card : Card) (cmd numSectors buffer : UInt32) :
    List Attempt → (sector : UInt32) → Bool × List Sent
  | [], _ => (false, [])
  | attempt :: attempts, sector =>
    if attempt.select < 0 then
      let (ret, sent) := sectorsLoop card cmd numSectors buffer attempts sector
      (ret, sd0Select card attempt.select :: sent)
    else
      let sector := if card.sdhc then sector else sector * pageSize512
      let tried := [sd0Select card attempt.select,
        sendData cmd sector numSectors buffer attempt.data, sd0Deselect attempt.deselect]
      if attempt.data ≥ 0 then (true, tried)
      else
        let (ret, sent) := sectorsLoop card cmd numSectors buffer attempts sector
        (ret, tried ++ sent)

/-- The ten rounds of the loops. -/
def tenAttempts (attempts : Nat → Attempt) : List Attempt := (List.range 10).map attempts

/-- `sdio_ReadSectors` -/
def sdioReadSectors (card : Card) (sector numSectors : UInt32) (buffer : Option UInt32)
    (attempts : Nat → Attempt) : Bool × List Sent :=
  match buffer with
  | none => (false, [])
  | some buffer =>
    sectorsLoop card sdioCmdReadmultiblock numSectors buffer (tenAttempts attempts) sector

/-- `sdio_WriteSectors` -/
def sdioWriteSectors (card : Card) (sector numSectors : UInt32) (buffer : Option UInt32)
    (attempts : Nat → Attempt) : Bool × List Sent :=
  match buffer with
  | none => (false, [])
  | some buffer =>
    sectorsLoop card sdioCmdWritemultiblock numSectors buffer (tenAttempts attempts) sector

/-! ## Addresses -/

/-- Where a sector lies: its number, or the number of its first byte. -/
def cardAddress (card : Card) (sector : UInt32) : UInt32 :=
  if card.sdhc then sector else sector * pageSize512

/-- All data commands are for the same place, and the result says whether one of them
has succeeded. -/
structure SamePlace (card : Card) (cmd sector numSectors : UInt32) (run : Bool × List Sent) :
    Prop where
  place : ∀ sent ∈ run.2, sent.request.cmd = cmd →
    sent.request.arg = cardAddress card sector ∧ sent.request.blkCnt = numSectors
  result : run.1 = true ↔ ∃ sent ∈ run.2, sent.request.cmd = cmd ∧ 0 ≤ sent.ret

/-- An attempt sends its data command. -/
def Attempt.Selected (attempt : Attempt) : Prop := 0 ≤ attempt.select

/-- There is an attempt that sends its data command after one that has failed in its own,
while no data command before it has succeeded. -/
inductive Retried : List Attempt → Prop
  | again {attempt : Attempt} {attempts : List Attempt} (selected : attempt.Selected)
      (failed : attempt.data < 0) (later : ∃ other ∈ attempts, other.Selected) :
      Retried (attempt :: attempts)
  | skip {attempt : Attempt} {attempts : List Attempt} (unselected : attempt.select < 0)
      (later : Retried attempts) : Retried (attempt :: attempts)

section Loop

variable (card : Card) {cmd : UInt32} (numSectors buffer : UInt32)

/-- An attempt at which the card is not selected sends no data. -/
theorem sectorsLoop_unselected {attempt : Attempt} (unselected : attempt.select < 0)
    (attempts : List Attempt) (sector : UInt32) :
    sectorsLoop card cmd numSectors buffer (attempt :: attempts) sector =
      ((sectorsLoop card cmd numSectors buffer attempts sector).1,
        sd0Select card attempt.select ::
          (sectorsLoop card cmd numSectors buffer attempts sector).2) := by
  rw [sectorsLoop, if_pos unselected]

/-- An attempt that succeeds is the last one. -/
theorem sectorsLoop_done {attempt : Attempt} (selected : attempt.Selected)
    (done : 0 ≤ attempt.data) (attempts : List Attempt) (sector : UInt32) :
    sectorsLoop card cmd numSectors buffer (attempt :: attempts) sector =
      (true, [sd0Select card attempt.select,
        sendData cmd (cardAddress card sector) numSectors buffer attempt.data,
        sd0Deselect attempt.deselect]) := by
  rw [sectorsLoop, if_neg (Int.not_lt.2 selected)]
  exact if_pos done

/-- Behind an attempt that fails the address is computed again from itself. -/
theorem sectorsLoop_failed {attempt : Attempt} (selected : attempt.Selected)
    (failed : attempt.data < 0) (attempts : List Attempt) (sector : UInt32) :
    sectorsLoop card cmd numSectors buffer (attempt :: attempts) sector =
      ((sectorsLoop card cmd numSectors buffer attempts (cardAddress card sector)).1,
        sd0Select card attempt.select ::
          sendData cmd (cardAddress card sector) numSectors buffer attempt.data ::
          sd0Deselect attempt.deselect ::
          (sectorsLoop card cmd numSectors buffer attempts (cardAddress card sector)).2) := by
  rw [sectorsLoop, if_neg (Int.not_lt.2 selected)]
  exact if_neg (Int.not_le.2 failed)

/-- The commands of an attempt around its data command are no data commands. -/
theorem select_ne (noSelect : cmd ≠ sdioCmdSelect) (ret : Int) :
    (sd0Select card ret).request.cmd ≠ cmd := fun same => noSelect same.symm

theorem deselect_ne (noSelect : cmd ≠ sdioCmdSelect) (ret : Int) :
    (sd0Deselect ret).request.cmd ≠ cmd := fun same => noSelect same.symm

/-- The data commands that a run has sent. -/
def dataSent (cmd : UInt32) (run : Bool × List Sent) : List Sent :=
  run.2.filter fun sent => sent.request.cmd = cmd

variable (noSelect : cmd ≠ sdioCmdSelect)

include noSelect

/-- The data commands behind an attempt without a selected card. -/
theorem dataSent_unselected {attempt : Attempt} (unselected : attempt.select < 0)
    (attempts : List Attempt) (sector : UInt32) :
    dataSent cmd (sectorsLoop card cmd numSectors buffer (attempt :: attempts) sector) =
      dataSent cmd (sectorsLoop card cmd numSectors buffer attempts sector) := by
  rw [sectorsLoop_unselected card numSectors buffer unselected]
  simp [dataSent, select_ne card noSelect]

/-- The data command of an attempt that succeeds. -/
theorem dataSent_done {attempt : Attempt} (selected : attempt.Selected) (done : 0 ≤ attempt.data)
    (attempts : List Attempt) (sector : UInt32) :
    dataSent cmd (sectorsLoop card cmd numSectors buffer (attempt :: attempts) sector) =
      [sendData cmd (cardAddress card sector) numSectors buffer attempt.data] := by
  rw [sectorsLoop_done card numSectors buffer selected done]
  simp [dataSent, select_ne card noSelect, deselect_ne noSelect, sendData]

/-- The data commands of an attempt that fails and of those behind it. -/
theorem dataSent_failed {attempt : Attempt} (selected : attempt.Selected)
    (failed : attempt.data < 0) (attempts : List Attempt) (sector : UInt32) :
    dataSent cmd (sectorsLoop card cmd numSectors buffer (attempt :: attempts) sector) =
      sendData cmd (cardAddress card sector) numSectors buffer attempt.data ::
        dataSent cmd
          (sectorsLoop card cmd numSectors buffer attempts (cardAddress card sector)) := by
  rw [sectorsLoop_failed card numSectors buffer selected failed]
  simp [dataSent, select_ne card noSelect, deselect_ne noSelect, sendData]

/-- The result says whether a data command has succeeded. -/
theorem sectorsLoop_result (attempts : List Attempt) (sector : UInt32) :
    (sectorsLoop card cmd numSectors buffer attempts sector).1 = true ↔
      ∃ sent ∈ dataSent cmd (sectorsLoop card cmd numSectors buffer attempts sector),
        0 ≤ sent.ret := by
  induction attempts generalizing sector with
  | nil => simp [sectorsLoop, dataSent]
  | cons attempt attempts ih =>
    by_cases selected : attempt.Selected
    · by_cases done : 0 ≤ attempt.data
      · rw [dataSent_done card numSectors buffer noSelect selected done,
          sectorsLoop_done card numSectors buffer selected done]
        simp [sendData, done]
      · rw [dataSent_failed card numSectors buffer noSelect selected (Int.not_le.1 done),
          sectorsLoop_failed card numSectors buffer selected (Int.not_le.1 done), ih]
        simp [sendData, done]
    · rw [dataSent_unselected card numSectors buffer noSelect (Int.not_le.1 selected),
        sectorsLoop_unselected card numSectors buffer (Int.not_le.1 selected), ih]

/-- Every data command asks for all the sectors. -/
theorem dataSent_blkCnt (attempts : List Attempt) (sector : UInt32) :
    ∀ sent ∈ dataSent cmd (sectorsLoop card cmd numSectors buffer attempts sector),
      sent.request.blkCnt = numSectors := by
  induction attempts generalizing sector with
  | nil => simp [sectorsLoop, dataSent]
  | cons attempt attempts ih =>
    by_cases selected : attempt.Selected
    · by_cases done : 0 ≤ attempt.data
      · rw [dataSent_done card numSectors buffer noSelect selected done]
        simp [sendData]
      · rw [dataSent_failed card numSectors buffer noSelect selected (Int.not_le.1 done)]
        exact List.forall_mem_cons.2 ⟨rfl, ih _⟩
    · rw [dataSent_unselected card numSectors buffer noSelect (Int.not_le.1 selected)]
      exact ih sector

/-! ## The place of the data commands -/

/-- A run starts at the address that is made of the sector. -/
theorem dataSent_first {attempts : List Attempt} (selected : ∃ a ∈ attempts, a.Selected)
    (sector : UInt32) :
    ∃ sent ∈ dataSent cmd (sectorsLoop card cmd numSectors buffer attempts sector),
      sent.request.arg = cardAddress card sector := by
  induction attempts with
  | nil => simp at selected
  | cons attempt attempts ih =>
    by_cases first : attempt.Selected
    · by_cases done : 0 ≤ attempt.data
      · rw [dataSent_done card numSectors buffer noSelect first done]
        exact ⟨_, List.mem_cons_self, rfl⟩
      · rw [dataSent_failed card numSectors buffer noSelect first (Int.not_le.1 done)]
        exact ⟨_, List.mem_cons_self, rfl⟩
    · rw [dataSent_unselected card numSectors buffer noSelect (Int.not_le.1 first)]
      exact ih (by simpa [first] using selected)

/-- Without a card that can be selected there is no data command. -/
theorem dataSent_none {attempts : List Attempt} (unselected : ¬ ∃ a ∈ attempts, a.Selected)
    (sector : UInt32) :
    dataSent cmd (sectorsLoop card cmd numSectors buffer attempts sector) = [] := by
  induction attempts with
  | nil => simp [sectorsLoop, dataSent]
  | cons attempt attempts ih =>
    have first : ¬ attempt.Selected := fun selected =>
      unselected ⟨attempt, List.mem_cons_self, selected⟩
    rw [dataSent_unselected card numSectors buffer noSelect (Int.not_le.1 first)]
    exact ih fun ⟨a, here, selected⟩ => unselected ⟨a, List.mem_cons_of_mem _ here, selected⟩

/-- From an address that is made of itself, the run goes nowhere else. -/
theorem dataSent_fixed {sector : UInt32} (fixed : cardAddress card sector = sector)
    (attempts : List Attempt) :
    ∀ sent ∈ dataSent cmd (sectorsLoop card cmd numSectors buffer attempts sector),
      sent.request.arg = sector := by
  induction attempts with
  | nil => simp [sectorsLoop, dataSent]
  | cons attempt attempts ih =>
    by_cases selected : attempt.Selected
    · by_cases done : 0 ≤ attempt.data
      · rw [dataSent_done card numSectors buffer noSelect selected done]
        simp [sendData, fixed]
      · rw [dataSent_failed card numSectors buffer noSelect selected (Int.not_le.1 done), fixed]
        exact List.forall_mem_cons.2 ⟨rfl, ih⟩
    · rw [dataSent_unselected card numSectors buffer noSelect (Int.not_le.1 selected)]
      exact ih

/-- All data commands are for the same place exactly if no second one is sent, or the
address is made of itself. -/
theorem dataSent_place_iff (attempts : List Attempt) (sector : UInt32) :
    (∀ sent ∈ dataSent cmd (sectorsLoop card cmd numSectors buffer attempts sector),
      sent.request.arg = cardAddress card sector) ↔
      ¬ Retried attempts ∨
        cardAddress card (cardAddress card sector) = cardAddress card sector := by
  induction attempts with
  | nil =>
    have never : ¬ Retried [] := fun retried => by cases retried
    simp [sectorsLoop, dataSent, never]
  | cons attempt attempts ih =>
    by_cases selected : attempt.Selected
    · by_cases done : 0 ≤ attempt.data
      · have never : ¬ Retried (attempt :: attempts) := by
          intro retried
          cases retried with
          | again _ failed _ => exact absurd done (Int.not_le.2 failed)
          | skip unselected _ => exact absurd selected (Int.not_le.2 unselected)
        rw [dataSent_done card numSectors buffer noSelect selected done]
        simp [sendData, never]
      · have failed : attempt.data < 0 := Int.not_le.1 done
        rw [dataSent_failed card numSectors buffer noSelect selected failed,
          List.forall_mem_cons]
        constructor
        · rintro ⟨-, rest⟩
          by_cases later : ∃ a ∈ attempts, a.Selected
          · obtain ⟨sent, here, address⟩ := dataSent_first card numSectors buffer noSelect later
              (cardAddress card sector)
            exact .inr (address.symm.trans (rest sent here))
          · refine .inl fun retried => ?_
            cases retried with
            | again _ _ again => exact later again
            | skip unselected _ => exact absurd selected (Int.not_le.2 unselected)
        · intro fine
          refine ⟨rfl, ?_⟩
          by_cases later : ∃ a ∈ attempts, a.Selected
          · have fixed := fine.resolve_left fun never => never (.again selected failed later)
            exact dataSent_fixed card numSectors buffer noSelect fixed attempts
          · rw [dataSent_none card numSectors buffer noSelect later]
            simp
    · have unselected : attempt.select < 0 := Int.not_le.1 selected
      have same : Retried (attempt :: attempts) ↔ Retried attempts := by
        constructor
        · intro retried
          cases retried with
          | again here _ _ => exact absurd here selected
          | skip _ later => exact later
        · exact .skip unselected
      rw [dataSent_unselected card numSectors buffer noSelect unselected, ih, same]

omit noSelect in
/-- The addresses that are made of themselves. -/
theorem cardAddress_fixed_iff (sector : UInt32) :
    cardAddress card (cardAddress card sector) = cardAddress card sector ↔
      card.sdhc = true ∨ sector.toNat % 2 ^ 23 = 0 := by
  cases sdhc : card.sdhc with
  | true => simp [cardAddress, sdhc]
  | false =>
    have small := sector.toNat_lt
    simp only [cardAddress, sdhc, Bool.false_eq_true, if_false, false_or, ← UInt32.toNat_inj,
      UInt32.toNat_mul, pageSize512, UInt32.reduceToNat]
    omega

/-- The loop keeps to one place exactly for an SDHC card, without a second data command
or where a multiple of the address is the address again. -/
theorem samePlace_loop_iff (attempts : List Attempt) (sector : UInt32) :
    SamePlace card cmd sector numSectors
        (sectorsLoop card cmd numSectors buffer attempts sector) ↔
      card.sdhc = true ∨ ¬ Retried attempts ∨ sector.toNat % 2 ^ 23 = 0 := by
  have place := dataSent_place_iff card numSectors buffer noSelect attempts sector
  rw [cardAddress_fixed_iff, or_left_comm] at place
  rw [← place]
  constructor
  · intro same sent here
    obtain ⟨inside, command⟩ := List.mem_filter.1 here
    exact (same.place sent inside (by simpa using command)).1
  · intro address
    refine ⟨fun sent inside command => ?_, ?_⟩
    · have here : sent ∈ dataSent cmd (sectorsLoop card cmd numSectors buffer attempts sector) :=
        List.mem_filter.2 ⟨inside, by simpa using command⟩
      exact ⟨address sent here,
        dataSent_blkCnt card numSectors buffer noSelect attempts sector sent here⟩
    · rw [sectorsLoop_result card numSectors buffer noSelect]
      simp only [dataSent, List.mem_filter, decide_eq_true_eq, and_assoc]

end Loop

/-- No command is sent without a buffer. -/
theorem samePlace_nothing (card : Card) (cmd sector numSectors : UInt32) :
    SamePlace card cmd sector numSectors (false, []) where
  place := by simp
  result := by simp

/-! ## Reading and writing -/

/-- A read and a write send all their data commands to the place of the sector, and report
whether one has succeeded, exactly if there is no buffer, the card is SDHC, no second data
command is sent or the sector number is a multiple of 2²³. -/
theorem sectors_samePlace_iff (card : Card) (sector numSectors : UInt32) (buffer : Option UInt32)
    (attempts : Nat → Attempt) :
    (SamePlace card sdioCmdReadmultiblock sector numSectors
        (sdioReadSectors card sector numSectors buffer attempts) ∧
      SamePlace card sdioCmdWritemultiblock sector numSectors
        (sdioWriteSectors card sector numSectors buffer attempts)) ↔
      buffer = none ∨ card.sdhc = true ∨ ¬ Retried (tenAttempts attempts) ∨
        sector.toNat % 2 ^ 23 = 0 := by
  cases buffer with
  | none =>
    exact iff_of_true ⟨samePlace_nothing .., samePlace_nothing ..⟩ (.inl rfl)
  | some buffer =>
    have read := @samePlace_loop_iff card sdioCmdReadmultiblock numSectors buffer (by decide)
      (tenAttempts attempts) sector
    have write := @samePlace_loop_iff card sdioCmdWritemultiblock numSectors buffer (by decide)
      (tenAttempts attempts) sector
    simp only [sdioReadSectors, sdioWriteSectors, read, write, and_self, reduceCtorEq, false_or]

/-- The data command for the first sector fails on a standard card, and the next one goes
to another place of the card. -/
theorem retry_elsewhere :
    ¬ SamePlace ⟨0, false⟩ sdioCmdReadmultiblock 1 1
      (sdioReadSectors ⟨0, false⟩ 1 1 (some 0) fun i => ⟨0, if i = 0 then -1 else 0, 0⟩) := by
  intro same
  have place := (same.place
    (sendData sdioCmdReadmultiblock 262144 1 0 0) (by decide) rfl).1
  exact absurd place (by decide)

end D2xCios.Sd
