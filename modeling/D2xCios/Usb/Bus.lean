import D2xCios.Lib.Words
import Mathlib.Data.List.Dedup
import Mathlib.Data.List.Perm.Subperm

/-!
# The bus under the link

What the link shares with IOS and the adapter: the buffers of an exchange, the two
request blocks with their completion records, the message queue `g_q`, and the
transfers IOS works on. The adapter answers the requests it receives in order, one
IN message each; everything else about the order of events is left open, and
`Bus.apply` performs one event of it.

`Bus.answers`, `Bus.mostOnWire` and `Bus.orderly` are ghosts.
-/

namespace D2xCios.Usb

open D2xCios.Lib

variable {ι : Type}

/-- Where the bytes of an exchange are: in a bounce buffer of the link, or in a buffer
of the caller's. Different places do not overlap. -/
inductive Place (ι : Type) where
  /-- `small_out` -/
  | smallOut
  /-- `small_in` -/
  | smallIn
  | caller (buffer : ι)
  deriving DecidableEq

/-- The endpoints `EP_OUT` and `EP_IN`. -/
inductive Endpoint where
  | epOut
  | epIn
  deriving DecidableEq

/-- What `g_q` carries: the completion records of both transfers, and timer tokens. -/
inductive Message where
  | outRecord
  | inRecord
  | token (number : UInt32)
  deriving DecidableEq

/-- A request block: the data it describes, and the result in its completion record. -/
structure Request (ι : Type) where
  data : Place ι
  len : Nat
  reply : Int

/-- A request on its way to the adapter. -/
structure Outbound (ι : Type) where
  serial : Nat
  data : Place ι
  len : Nat
  /-- The adapter has the message, but IOS has not reported so yet. -/
  received : Bool

/-- A read that waits for an IN message. -/
structure Inbound (ι : Type) where
  serial : Nat
  data : Place ι
  cap : Nat

/-- What the adapter made of one request. -/
structure Answer where
  serial : Nat
  request : List UInt8
  reply : List UInt8
  deriving DecidableEq

/-- The buffers, the request blocks, the queue, and the transfers under way. -/
structure Bus (ι : Type) where
  mem : Place ι → Mem
  /-- `g_q`, oldest message first. -/
  queue : List Message
  reqOut : Request ι
  reqIn : Request ι
  outbound : List (Outbound ι)
  inbound : List (Inbound ι)
  /-- IN messages the adapter has ready, oldest first. -/
  owed : List Answer
  /-- Every answer there has been, latest first. -/
  answers : List Answer
  /-- Most exchanges that had a transfer under way at once. -/
  mostOnWire : Nat
  /-- No read has ended without taking along the answer to its request. -/
  orderly : Bool

/-- An event of the bus. -/
inductive BusEvent where
  /-- The adapter receives a request and settles on its reply. -/
  | receive (reply : List UInt8)
  /-- IOS reports the end of an OUT transfer. -/
  | outDone (result : Int)
  /-- The adapter's next IN message ends the read. -/
  | answer
  /-- The read ends in an error, and takes the adapter's next message along. -/
  | answerLost (code : Nat)
  /-- The read ends in an error of its own. -/
  | inFail (code : Nat)
  /-- A timer fires. -/
  | token (number : UInt32)

namespace Bus

/-- At power-on. -/
def boot (mem : Place ι → Mem) : Bus ι where
  mem := mem
  queue := []
  reqOut := ⟨.smallOut, 0, 0⟩
  reqIn := ⟨.smallIn, 0, 0⟩
  outbound := []
  inbound := []
  owed := []
  answers := []
  mostOnWire := 0
  orderly := true

/-- The exchanges with a transfer under way. -/
def onWire (bus : Bus ι) : List Nat :=
  (bus.outbound.map Outbound.serial ++ bus.inbound.map Inbound.serial).dedup

/-- Store to one place. -/
def store [DecidableEq ι] (place : Place ι) (update : Mem → Mem) (bus : Bus ι) : Bus ι :=
  { bus with mem := Function.update bus.mem place (update (bus.mem place)) }

/-- The oldest read ends with `result`. -/
def endRead (result : Int) (bus : Bus ι) : Bus ι :=
  { bus with
    inbound := bus.inbound.tail
    reqIn := { bus.reqIn with reply := result }
    queue := bus.queue ++ [.inRecord] }

/-- One event of the bus. An event that nothing is there for does nothing. -/
def apply [DecidableEq ι] (bus : Bus ι) : BusEvent → Bus ι
  | .receive reply =>
    match bus.outbound with
    | [] => bus
    | request :: later =>
      if request.received then bus
      else
        let made : Answer :=
          { serial := request.serial
            request := (bus.mem request.data).window 0 request.len
            reply := reply }
        { bus with
          outbound := { request with received := true } :: later
          owed := bus.owed ++ [made]
          answers := made :: bus.answers
          orderly := bus.orderly && !bus.inbound.isEmpty }
  | .outDone result =>
    match bus.outbound with
    | [] => bus
    | _ :: later =>
      { bus with
        outbound := later
        reqOut := { bus.reqOut with reply := result }
        queue := bus.queue ++ [.outRecord] }
  | .answer =>
    match bus.owed, bus.inbound with
    | made :: owed, read :: _ =>
      let bytes := made.reply.take read.cap
      { (bus.store read.data fun cells => cells.overlay 0 bytes).endRead bytes.length with
        owed := owed }
    | _, _ => bus
  | .answerLost code =>
    match bus.owed, bus.inbound with
    | _ :: owed, _ :: _ => { bus.endRead (Int.negSucc code) with owed := owed }
    | _, _ => bus
  | .inFail code =>
    match bus.inbound with
    | [] => bus
    | _ :: _ => { bus.endRead (Int.negSucc code) with orderly := bus.orderly && bus.owed.isEmpty }
  | .token number => { bus with queue := bus.queue ++ [.token number] }

/-- `req_fill`: describe a transfer in the request block of its endpoint. -/
def reqFill (endpoint : Endpoint) (len : Nat) (data : Place ι) (bus : Bus ι) : Bus ι :=
  match endpoint with
  | .epOut => { bus with reqOut := ⟨data, len, 0⟩ }
  | .epIn => { bus with reqIn := ⟨data, len, 0⟩ }

/-- IOS takes a transfer on. -/
def takeOn (endpoint : Endpoint) (serial : Nat) (bus : Bus ι) : Bus ι :=
  let taken :=
    match endpoint with
    | .epOut =>
      let request : Outbound ι := ⟨serial, bus.reqOut.data, bus.reqOut.len, false⟩
      { bus with outbound := bus.outbound ++ [request] }
    | .epIn =>
      let read : Inbound ι := ⟨serial, bus.reqIn.data, bus.reqIn.len⟩
      { bus with inbound := bus.inbound ++ [read] }
  { taken with mostOnWire := max taken.mostOnWire taken.onWire.length }

end Bus

/-- One step of the surroundings. -/
inductive Step where
  | bus (event : BusEvent)
  /-- The module goes on: IOS takes on the transfer it asks for, or hands it a message. -/
  | resume
  /-- IOS refuses the transfer the module asks for. -/
  | refuse (code : Nat)

/-- The bus goes on until IOS answers a request: with an error, or with 0. -/
def settle [DecidableEq ι] : List Step → Bus ι → Int × List Step × Bus ι
  | [], bus => (0, [], bus)
  | .bus event :: later, bus => settle later (bus.apply event)
  | .resume :: later, bus => (0, later, bus)
  | .refuse code :: later, bus => (Int.negSucc code, later, bus)

/-! ## What an event does -/

section Events

variable [DecidableEq ι]

namespace Bus

/-- OUT and IN transfers the module has yet to hear the end of. -/
def outPending (bus : Bus ι) : Nat := bus.outbound.length + bus.queue.count .outRecord
def inPending (bus : Bus ι) : Nat := bus.inbound.length + bus.queue.count .inRecord

omit [DecidableEq ι] in
theorem outbound_eq_nil {bus : Bus ι} (none : bus.outPending = 0) : bus.outbound = [] :=
  List.length_eq_zero_iff.mp (Nat.eq_zero_of_add_eq_zero_right none)

omit [DecidableEq ι] in
theorem inbound_eq_nil {bus : Bus ι} (none : bus.inPending = 0) : bus.inbound = [] :=
  List.length_eq_zero_iff.mp (Nat.eq_zero_of_add_eq_zero_right none)

/-- What one event can do. -/
inductive Moves (bus : Bus ι) : Bus ι → Prop where
  | still : Moves bus bus
  | receive {request later} (reply : List UInt8) (first : bus.outbound = request :: later)
    (unheard : request.received = false) :
    Moves bus
      { bus with
        outbound := { request with received := true } :: later
        owed := bus.owed ++
          [⟨request.serial, (bus.mem request.data).window 0 request.len, reply⟩]
        answers :=
          ⟨request.serial, (bus.mem request.data).window 0 request.len, reply⟩ :: bus.answers
        orderly := bus.orderly && !bus.inbound.isEmpty }
  | outDone {request later} (result : Int) (first : bus.outbound = request :: later) :
    Moves bus
      { bus with
        outbound := later
        reqOut := { bus.reqOut with reply := result }
        queue := bus.queue ++ [.outRecord] }
  | answer {made owed read reads} (ready : bus.owed = made :: owed)
    (waiting : bus.inbound = read :: reads) :
    Moves bus
      { (bus.store read.data fun cells => cells.overlay 0 (made.reply.take read.cap)).endRead
          (made.reply.take read.cap).length with
        owed := owed }
  | answerLost {made owed read reads} (code : Nat) (ready : bus.owed = made :: owed)
    (waiting : bus.inbound = read :: reads) :
    Moves bus { bus.endRead (Int.negSucc code) with owed := owed }
  | inFail {read reads} (code : Nat) (waiting : bus.inbound = read :: reads) :
    Moves bus
      { bus.endRead (Int.negSucc code) with orderly := bus.orderly && bus.owed.isEmpty }
  | token (number : UInt32) : Moves bus { bus with queue := bus.queue ++ [.token number] }

/-- Every event is a move of the bus. -/
theorem apply_moves (bus : Bus ι) (event : BusEvent) : bus.Moves (bus.apply event) := by
  cases event with
  | receive reply =>
    rw [apply]
    split
    · exact .still
    · rename_i request later first
      split
      · exact .still
      · rename_i unheard
        exact .receive reply first (by simpa using unheard)
  | outDone result =>
    rw [apply]
    split
    · exact .still
    · rename_i request later first
      exact .outDone result first
  | answer =>
    rw [apply]
    split
    · rename_i made owed read reads ready waiting
      exact .answer ready waiting
    · exact .still
  | answerLost code =>
    rw [apply]
    split
    · rename_i made owed read reads ready waiting
      exact .answerLost code ready waiting
    · exact .still
  | inFail code =>
    rw [apply]
    split
    · exact .still
    · rename_i read reads waiting
      exact .inFail code waiting
  | token number => exact .token number

/-- An event moves the end of a transfer into the queue, and loses none. -/
theorem Moves.pending {bus after : Bus ι} (moves : bus.Moves after) :
    after.outPending = bus.outPending ∧ after.inPending = bus.inPending := by
  cases moves with
  | still => exact ⟨rfl, rfl⟩
  | receive reply first unheard => simp [outPending, inPending, first]
  | outDone result first => simp [outPending, inPending, first]; omega
  | answer ready waiting => simp [outPending, inPending, endRead, store, waiting]; omega
  | answerLost code ready waiting => simp [outPending, inPending, endRead, waiting]; omega
  | inFail code waiting => simp [outPending, inPending, endRead, waiting]; omega
  | token number => simp [outPending, inPending]

/-- While no transfer is under way, events only reach the queue. -/
theorem Moves.idle {bus after : Bus ι} (moves : bus.Moves after) (out : bus.outbound = [])
    (into : bus.inbound = []) :
    ∃ queue, after = { bus with queue := queue } ∧
      queue.count .outRecord = bus.queue.count .outRecord ∧
      queue.count .inRecord = bus.queue.count .inRecord := by
  cases moves with
  | still => exact ⟨bus.queue, rfl, rfl, rfl⟩
  | receive reply first unheard => simp [out] at first
  | outDone result first => simp [out] at first
  | answer ready waiting => simp [into] at waiting
  | answerLost code ready waiting => simp [into] at waiting
  | inFail code waiting => simp [into] at waiting
  | token number => exact ⟨_, rfl, by simp, by simp⟩

/-- No event changes what the request block describes. -/
theorem Moves.outData {bus after : Bus ι} (moves : bus.Moves after) :
    after.reqOut.data = bus.reqOut.data := by
  cases moves <;> rfl

omit [DecidableEq ι] in
/-- The exchanges on the wire are one if their transfers are of one. -/
theorem onWire_le_one {bus : Bus ι} {serial : Nat}
    (out : ∀ request ∈ bus.outbound, request.serial = serial)
    (into : ∀ read ∈ bus.inbound, read.serial = serial) : bus.onWire.length ≤ 1 := by
  have inside : bus.onWire ⊆ [serial] := by
    intro number member
    rw [onWire, List.mem_dedup, List.mem_append, List.mem_map, List.mem_map] at member
    rcases member with ⟨request, member, rfl⟩ | ⟨read, member, rfl⟩
    · simp [out request member]
    · simp [into read member]
  exact (List.Nodup.subperm (List.nodup_dedup _) inside).length_le

omit [DecidableEq ι] in
/-- Taking on a transfer of the exchange on the wire puts no second one there. -/
theorem takeOn_single {bus : Bus ι} (endpoint : Endpoint) {serial : Nat}
    (single : bus.mostOnWire ≤ 1)
    (out : ∀ request ∈ bus.outbound, request.serial = serial)
    (into : ∀ read ∈ bus.inbound, read.serial = serial) :
    (bus.takeOn endpoint serial).mostOnWire ≤ 1 := by
  cases endpoint with
  | epOut =>
    refine Nat.max_le.mpr ⟨single, onWire_le_one ?_ into⟩
    intro request member
    rcases List.mem_append.mp member with member | member
    · exact out request member
    · rw [List.mem_singleton.mp member]
  | epIn =>
    refine Nat.max_le.mpr ⟨single, onWire_le_one out ?_⟩
    intro read member
    rcases List.mem_append.mp member with member | member
    · exact into read member
    · rw [List.mem_singleton.mp member]

end Bus

end Events

end D2xCios.Usb
