import D2xCios.Exi.Controller
import D2xCios.Lib.Slices

/-!
# Immediate EXI transfers

The EXI driver of the RA module and the SWI handlers behind it. The plain transfers
trigger every chunk of four bytes from the driver; the batched ones hand MLOAD slices of
256 bytes, and the chunks are made in its handler.
-/

namespace D2xCios.Exi

open D2xCios.Lib

variable {δ : Type} (slave : Slave δ)

/-! ## SWI handlers -/

/-- `base` in `Swi_Handler`. -/
def swiBase (arg1 : UInt32) : UInt32 := 0xd806800 + (arg1 &&& 3) * 0x14

/-- SWI 3, get register. -/
def swiGetRegister (arg1 : UInt32) (exi : Controller δ) : UInt32 × Controller δ :=
  exi.load slave arg1

/-- SWI 7, `DATA` and `CR` write. -/
def swiExiDataCr (arg1 arg2 arg3 : UInt32) (exi : Controller δ) : Controller δ :=
  (exi.store slave (swiBase arg1 + 0x10) arg2).store slave (swiBase arg1 + 0x0c) arg3

/-- `while ((*(vu32 *)cr_addr & 1) && --timeout)`, which leaves `timeout` behind. -/
def pollCr (crAddr : UInt32) : (timeout : Nat) → Controller δ → Nat × Controller δ
  | 0, exi => (0, exi)
  | timeout + 1, exi =>
    let cr := exi.load slave crAddr
    if cr.1 &&& 1 ≠ 0 then pollCr crAddr timeout cr.2 else (timeout + 1, cr.2)

/-- The bound of the polls in `Swi_Handler`. -/
def swiTimeout : Nat := 100000

/-- SWI 8, `CR` trigger, polls and `DATA` read. -/
def swiExiCrRead (arg1 arg2 : UInt32) (exi : Controller δ) : UInt32 × Controller δ :=
  let triggered := exi.store slave (swiBase arg1 + 0x0c) arg2
  (pollCr slave (swiBase arg1 + 0x0c) swiTimeout triggered).2.load slave (swiBase arg1 + 0x10)

/-- One round of the loop of SWI 10. -/
def swiBatchWriteChunk (arg1 : UInt32) (mem : Mem) (src n : Nat) (exi : Controller δ) :
    Int × Controller δ :=
  let val := packLoop n fun i => mem (src + i)
  let sent := (exi.store slave (swiBase arg1 + 0x10) val).store slave (swiBase arg1 + 0x0c)
    ((1 : UInt32) ||| ((1 : UInt32) <<< 2) ||| ((UInt32.ofNat n - 1) <<< 4))
  let polled := pollCr slave (swiBase arg1 + 0x0c) swiTimeout sent
  (if polled.1 = 0 then -1 else 0, polled.2)

/-- SWI 10, batch write of the `arg3` bytes at `arg2`. -/
def swiExiBatchWrite (arg1 : UInt32) (mem : Mem) (arg2 arg3 : Nat) (exi : Controller δ) :
    Int × Controller δ :=
  sliced 4 (swiBatchWriteChunk slave arg1 mem) arg2 arg3 exi

/-- One round of the loop of SWI 11. -/
def swiBatchReadChunk (arg1 : UInt32) (dst n : Nat) (state : Mem × Controller δ) :
    Int × (Mem × Controller δ) :=
  let triggered := state.2.store slave (swiBase arg1 + 0x0c)
    ((1 : UInt32) ||| ((UInt32.ofNat n - 1) <<< 4))
  let polled := pollCr slave (swiBase arg1 + 0x0c) swiTimeout triggered
  if polled.1 = 0 then (-1, (state.1, polled.2))
  else
    let val := polled.2.load slave (swiBase arg1 + 0x10)
    (0, (state.1.fill dst n (unpacked val.1), val.2))

/-- SWI 11, batch read of `arg3` bytes to `arg2`. -/
def swiExiBatchRead (arg1 : UInt32) (arg2 arg3 : Nat) (state : Mem × Controller δ) :
    Int × (Mem × Controller δ) :=
  sliced 4 (swiBatchReadChunk slave arg1) arg2 arg3 state

/-! ## The driver -/

/-- `EXI_CR(ch)` -/
def exiCr (ch : Int32) : UInt32 := (0x0D806800 + ch * 0x14 + 0x0C).toUInt32

/-- `SPINS_BEFORE_YIELD` -/
def spinsBeforeYield : Nat := 256

/-- `MAX_YIELDS` -/
def maxYields : Nat := 200

/-- `build_cr` -/
def buildCr (transferLen : UInt32) (write : Bool) : UInt32 :=
  let cr := (1 : UInt32) ||| (((transferLen - 1) &&& 3) <<< 4)
  if write then cr ||| ((1 : UInt32) <<< 2) else cr

/-- `wait_cr_done`, which has seen TSTART set `spins` times since the last of `yields`
sleeps. -/
def waitCrDone (chan : Int32) (spins yields : Nat) (exi : Controller δ) : Int × Controller δ :=
  let cr := swiGetRegister slave (exiCr chan) exi
  if cr.1 &&& 1 = 0 then (0, cr.2)
  else if spins + 1 ≥ spinsBeforeYield then
    if yields + 1 ≥ maxYields then (-2, cr.2) else waitCrDone chan 0 (yields + 1) cr.2
  else waitCrDone chan (spins + 1) yields cr.2
termination_by (maxYields - yields, spinsBeforeYield - spins)

/-- One round of the loop of `exi_imm_write`. -/
def exiImmWriteChunk (chan : Int32) (mem : Mem) (buf n : Nat) (exi : Controller δ) :
    Int × Controller δ :=
  let val := packLoop n fun i => mem (buf + i)
  let sent := swiExiDataCr slave chan.toUInt32 val (buildCr (UInt32.ofNat n) true) exi
  let waited := waitCrDone slave chan 0 0 sent
  (if waited.1 < 0 then -2 else 0, waited.2)

/-- `exi_imm_write` -/
def exiImmWrite (chan : Int32) (mem : Mem) (data len : Nat) (exi : Controller δ) :
    Int × Controller δ :=
  sliced 4 (exiImmWriteChunk slave chan mem) data len exi

/-- One round of the loop of `exi_imm_read`. -/
def exiImmReadChunk (chan : Int32) (buf n : Nat) (state : Mem × Controller δ) :
    Int × (Mem × Controller δ) :=
  let val := swiExiCrRead slave chan.toUInt32 (buildCr (UInt32.ofNat n) false) state.2
  (0, (state.1.fill buf n (unpacked val.1), val.2))

/-- `exi_imm_read` -/
def exiImmRead (chan : Int32) (data len : Nat) (state : Mem × Controller δ) :
    Int × (Mem × Controller δ) :=
  sliced 4 (exiImmReadChunk slave chan) data len state

/-- `EXI_BATCH_SLICE` -/
def exiBatchSlice : Nat := 256

instance : NeZero exiBatchSlice := ⟨by decide⟩

/-- `exi_batch_write` -/
def exiBatchWrite (chan : Int32) (mem : Mem) (data len : Nat) (exi : Controller δ) :
    Int × Controller δ :=
  if chan < 0 ∨ chan > 2 then (-1, exi)
  else sliced exiBatchSlice (fun p n exi =>
    let written := swiExiBatchWrite slave chan.toUInt32 mem p n exi
    (if written.1 = 0 then 0 else -2, written.2)) data len exi

/-- `exi_batch_read` -/
def exiBatchRead (chan : Int32) (data len : Nat) (state : Mem × Controller δ) :
    Int × (Mem × Controller δ) :=
  if chan < 0 ∨ chan > 2 then (-1, state)
  else sliced exiBatchSlice (fun p n state =>
    let read := swiExiBatchRead slave chan.toUInt32 p n state
    (if read.1 = 0 then 0 else -2, read.2)) data len state

/-! ## Waiting for a transfer -/

variable (exi : Controller δ) {channel : Fin 3}

/-- A transfer shorter than the bound is waited for. -/
theorem pollCr_done {timeout : Nat} (inTime : (exi.channels channel).busy < timeout) :
    (pollCr slave (regAddr channel .cr) timeout exi).1 ≠ 0 ∧
      (pollCr slave (regAddr channel .cr) timeout exi).2 = exi.settled channel := by
  induction timeout generalizing exi with
  | zero => exact absurd inTime (Nat.not_lt_zero _)
  | succ timeout ih =>
    cases busy : (exi.channels channel).busy with
    | zero =>
      obtain ⟨clear, settled⟩ := Controller.load_cr_done slave busy
      simp [pollCr, clear, settled]
    | succ left =>
      obtain ⟨set, polled⟩ := Controller.load_cr_busy slave busy
      rw [busy] at inTime
      have rest := ih (exi.update channel fun ch => { ch with busy := left })
        (by simpa [Controller.update] using Nat.lt_of_succ_lt_succ inTime)
      simpa [pollCr, set, polled, Controller.settled, Controller.update] using rest

/-- The control register of a channel. -/
theorem exiCr_eq (channel : Fin 3) : exiCr (Int32.ofNat channel) = regAddr channel .cr := by
  revert channel
  decide

/-- A transfer that ends within the spins of all yields is waited for. -/
theorem waitCrDone_done {spins yields : Nat} (spun : spins < spinsBeforeYield)
    (inTime : yields * spinsBeforeYield + spins + (exi.channels channel).busy <
      maxYields * spinsBeforeYield) :
    waitCrDone slave (Int32.ofNat channel) spins yields exi = (0, exi.settled channel) := by
  induction left : (exi.channels channel).busy generalizing spins yields exi with
  | zero =>
    obtain ⟨clear, settled⟩ := Controller.load_cr_done slave left
    rw [waitCrDone, swiGetRegister, exiCr_eq]
    simp [clear, settled]
  | succ left' ih =>
    obtain ⟨set, polled⟩ := Controller.load_cr_busy slave left
    rw [left] at inTime
    have same : (exi.update channel fun ch => { ch with busy := left' }).settled channel =
        exi.settled channel := by
      simp [Controller.settled, Controller.update]
    have busy : ((exi.update channel fun ch => { ch with busy := left' }).channels channel).busy =
        left' := by
      simp [Controller.update]
    rw [waitCrDone, swiGetRegister, exiCr_eq, if_neg set, polled]
    by_cases full : spins + 1 ≥ spinsBeforeYield
    · have more : ¬ yields + 1 ≥ maxYields := by
        simp only [spinsBeforeYield, maxYields] at spun inTime full ⊢
        omega
      rw [if_pos full, if_neg more, ih _ _ _ busy, same]
      · exact Nat.zero_lt_succ _
      · simp only [busy, Nat.add_zero, spinsBeforeYield, maxYields] at spun inTime full ⊢
        omega
    · rw [if_neg full, ih _ _ _ busy, same]
      · simp only [spinsBeforeYield] at full ⊢
        omega
      · simp only [busy, spinsBeforeYield, maxYields] at inTime ⊢
        omega

end D2xCios.Exi
