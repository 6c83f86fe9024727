import D2xCios.Lib.Words
import Mathlib.Logic.Function.Basic

/-!
# The EXI controller

Three channels with a data and a control register each. A store to a control register
that sets TSTART starts an immediate transfer of up to four bytes to or from the device
on the channel, and the bit reads back as set while the transfer is under way.

`Controller.delays` is how long the transfers take, counted in reads of the control register,
and `Controller.stores` is a ghost.
-/

namespace D2xCios.Exi

open D2xCios.Lib

/-- What is at the far end of a channel, and what the data register shows that is not
from there. -/
structure Slave (δ : Type) where
  receive : δ → UInt8 → δ
  transmit : δ → UInt8 × δ
  /-- What follows the bytes of a short read. -/
  rest : UInt32 → List UInt8
  /-- What a load finds while a transfer is under way. -/
  unsettled : UInt32

/-- The registers of a channel that immediate transfers use. -/
inductive Register where
  | cr
  | data
  deriving DecidableEq

/-- A channel and the device on it. -/
structure Channel (δ : Type) where
  device : δ
  data : UInt32
  cr : UInt32
  /-- How many more loads of `cr` find TSTART set. -/
  busy : Nat

/-- The controller. -/
structure Controller (δ : Type) where
  channels : Fin 3 → Channel δ
  /-- Every store to a register, the first one first. -/
  stores : List (UInt32 × UInt32)
  /-- How long the coming transfers take, the next one first. -/
  delays : Nat → Nat

/-- The address of a register: `EXI_CR(ch)` and `EXI_DATA(ch)`. -/
def regAddr (channel : Fin 3) : Register → UInt32
  | .cr => 0x0D806800 + UInt32.ofNat channel * 0x14 + 0x0C
  | .data => 0x0D806800 + UInt32.ofNat channel * 0x14 + 0x10

/-- The register at an address. -/
def decode (addr : UInt32) : Option (Fin 3 × Register) :=
  [(0, .cr), (0, .data), (1, .cr), (1, .data), (2, .cr), (2, .data)].find? fun register =>
    regAddr register.1 register.2 = addr

@[simp] theorem decode_regAddr (channel : Fin 3) (register : Register) :
    decode (regAddr channel register) = some (channel, register) := by
  cases register
  · revert channel
    decide
  · revert channel
    decide

variable {δ : Type} (slave : Slave δ)

namespace Slave

/-- The device sends the next `n` bytes. -/
def transmits : Nat → δ → List UInt8 × δ
  | 0, device => ([], device)
  | n + 1, device =>
    let sent := slave.transmit device
    let later := transmits n sent.2
    (sent.1 :: later.1, later.2)

@[simp] theorem transmits_length (n : Nat) (device : δ) :
    (slave.transmits n device).1.length = n := by
  induction n generalizing device with
  | zero => rfl
  | succ n ih => rw [transmits, List.length_cons, ih]

/-- What is sent in two parts is sent as a whole. -/
theorem transmits_add (first second : Nat) (device : δ) :
    slave.transmits (first + second) device =
      ((slave.transmits first device).1 ++
          (slave.transmits second (slave.transmits first device).2).1,
        (slave.transmits second (slave.transmits first device).2).2) := by
  induction first generalizing device with
  | zero => simp [transmits]
  | succ first ih =>
    rw [Nat.succ_add, transmits, transmits, ih]
    rfl

end Slave

/-- The number of bytes a control word asks for: TLEN, plus one. -/
def transferLen (cr : UInt32) : Nat := (cr >>> 4 &&& 3).toNat + 1

namespace Channel

/-- A transfer as the control word `cr` describes it: to the device the first bytes of
the data register, or from the device into it. -/
def start (cr : UInt32) (delay : Nat) (channel : Channel δ) : Channel δ :=
  let n := transferLen cr
  if cr &&& 4 ≠ 0 then
    { channel with
      device := ((bytes32 channel.data).take n).foldl slave.receive channel.device
      cr := cr
      busy := delay }
  else
    let sent := slave.transmits n channel.device
    { device := sent.2
      data := be32 (bufferOf (sent.1 ++ slave.rest channel.data)) 0
      cr := cr
      busy := delay }

end Channel

namespace Controller

/-- Change one channel. -/
def update (channel : Fin 3) (change : Channel δ → Channel δ) (exi : Controller δ) : Controller δ :=
  { exi with
    channels := Function.update exi.channels channel (change (exi.channels channel)) }

/-- `*(vu32 *)addr = value` -/
def store (addr value : UInt32) (exi : Controller δ) : Controller δ :=
  let logged := { exi with stores := exi.stores ++ [(addr, value)] }
  match decode addr with
  | some (channel, .data) => logged.update channel fun ch => { ch with data := value }
  | some (channel, .cr) =>
    if value &&& 1 ≠ 0 then
      { logged.update channel (Channel.start slave value (exi.delays 0)) with
        delays := fun i => exi.delays (i + 1) }
    else logged.update channel fun ch => { ch with cr := value }
  | none => logged

/-- `*(vu32 *)addr` -/
def load (addr : UInt32) (exi : Controller δ) : UInt32 × Controller δ :=
  match decode addr with
  | some (channel, .data) =>
    (if (exi.channels channel).busy = 0 then (exi.channels channel).data else slave.unsettled, exi)
  | some (channel, .cr) =>
    match (exi.channels channel).busy with
    | 0 => ((exi.channels channel).cr &&& ~~~1, exi)
    | left + 1 =>
      ((exi.channels channel).cr ||| 1, exi.update channel fun ch => { ch with busy := left })
  | none => (0, exi)

/-- The same controller, with transfers that take other times. -/
def timed (exi : Controller δ) (delays : Nat → Nat) : Controller δ := { exi with delays := delays }

/-- The channel's transfer has come to its end. -/
def settled (channel : Fin 3) (exi : Controller δ) : Controller δ :=
  exi.update channel fun ch => { ch with busy := 0 }

/-! ## What loads of the control register find -/

variable {exi : Controller δ} {channel : Fin 3}

/-- The control register of a transfer that is done. -/
theorem load_cr_done (done : (exi.channels channel).busy = 0) :
    (exi.load slave (regAddr channel .cr)).1 &&& 1 = 0 ∧
      (exi.load slave (regAddr channel .cr)).2 = exi.settled channel := by
  have clear : ∀ word : UInt32, word &&& ~~~1 &&& 1 = 0 := fun word => by
    rw [UInt32.and_assoc]
    exact UInt32.and_zero
  have still : exi.settled channel = exi := by
    have same : { exi.channels channel with busy := 0 } = exi.channels channel := by
      rw [← done]
    rw [settled, update, same, Function.update_eq_self]
  simp [load, done, clear, still]

/-- The control register of a transfer that goes on. -/
theorem load_cr_busy {left : Nat} (busy : (exi.channels channel).busy = left + 1) :
    (exi.load slave (regAddr channel .cr)).1 &&& 1 ≠ 0 ∧
      (exi.load slave (regAddr channel .cr)).2 =
        exi.update channel fun ch => { ch with busy := left } := by
  have set : ∀ word : UInt32, (word ||| 1) &&& 1 ≠ 0 := fun word clear => by
    have bit := congrArg (·.toBitVec.getLsbD 0) clear
    simp at bit
  simp [load, busy, set]

end Controller

end D2xCios.Exi
