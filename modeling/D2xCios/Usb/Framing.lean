import D2xCios.Usb.Attribution
import D2xCios.Usb.Ownership

/-!
# Framing

What a call puts on the wire. A message whose length is a multiple of 64 would not be
seen to end, so it gets one pad byte; OHCI wants its buffers on a cache line and
crosses one page boundary a transfer. A call posts at most one exchange: `WellFramed` is
what holds of it, `OnTheWire` says where it is once IOS has taken it on, and `Posts` that
everything else a call does is quiet.
-/

namespace D2xCios.Usb

open D2xCios.Lib D2xCios.Ra

variable {ι : Type}

/-- Where the buffers of the module lie, and how large they are. -/
structure Layout (ι : Type) where
  addr : Place ι → Nat
  size : Place ι → Nat
  smallOut_aligned : addr .smallOut % 32 = 0
  smallOut_size : size .smallOut = smallOutSize
  smallIn_aligned : addr .smallIn % 32 = 0
  smallIn_size : size .smallIn = smallInSize

/-- The addresses of the caller's buffers. -/
def Layout.callers (layout : Layout ι) (buffer : ι) : Nat := layout.addr (.caller buffer)

/-- The 4096-byte page boundaries inside `len` bytes from `addr` on. -/
def pageCrossings (addr len : Nat) : Nat := (addr + len - 1) / 4096 - addr / 4096

/-- A transfer OHCI can do, inside one buffer. -/
structure Layout.Fit (layout : Layout ι) (place : Place ι) (len : Nat) : Prop where
  aligned : layout.addr place % 32 = 0
  crossings : pageCrossings (layout.addr place) len ≤ 1
  inside : len ≤ layout.size place
  word : len < 65536

/-- `dma_ok` covers whatever is no longer than what it was asked about. -/
theorem Layout.fit_of_dmaOk {layout : Layout ι} {buffer : ι} {asked len : Nat}
    (ok : dmaOk layout.callers buffer asked = true) (le : len ≤ asked)
    (inside : len ≤ layout.size (.caller buffer)) : layout.Fit (.caller buffer) len := by
  obtain ⟨aligned, near⟩ := Bool.and_eq_true_iff.mp ok
  have aligned : layout.addr (.caller buffer) % 32 = 0 := by simpa [callers] using aligned
  have near : layout.addr (.caller buffer) % 4096 + asked ≤ 8192 := of_decide_eq_true near
  refine ⟨aligned, ?_, inside, by omega⟩
  unfold pageCrossings
  omega

/-- A request that fits the small buffer may be sent from it. -/
theorem Layout.fit_smallOut (layout : Layout ι) {len : Nat} (small : len ≤ smallOutSize) :
    layout.Fit .smallOut len := by
  have aligned := layout.smallOut_aligned
  have size : smallOutSize = 288 := rfl
  refine ⟨aligned, ?_, by rwa [layout.smallOut_size], by omega⟩
  unfold pageCrossings
  omega

/-- A reply may be as long as the small buffer. -/
theorem Layout.fit_smallIn (layout : Layout ι) : layout.Fit .smallIn smallInSize := by
  have aligned := layout.smallIn_aligned
  refine ⟨aligned, ?_, Nat.le_of_eq layout.smallIn_size.symm, by decide⟩
  unfold pageCrossings smallInSize
  omega

/-- Nothing has been put on the wire: what is there was there before. -/
structure Quiet (link after : Link ι) : Prop where
  outbound : after.bus.outbound.map (fun request => (request.serial, request.data, request.len)) <:+
    link.bus.outbound.map fun request => (request.serial, request.data, request.len)
  inbound : after.bus.inbound <:+ link.bus.inbound

/-- The exchange that `xs_post` is asked for, when its buffers hold what `link` says. -/
structure WellFramed (layout : Layout ι) (request : List UInt8) (out : Place ι) (outLen : Nat)
    (into : Place ι) (inCap : Nat) (link : Link ι) : Prop where
  /-- The end of the message can be seen. -/
  framed : outLen % 64 ≠ 0
  content : ∃ pad, (pad = [] ∨ pad = [0]) ∧ link.bytes out outLen = request ++ pad
  outFit : layout.Fit out outLen
  inFit : layout.Fit into inCap

/-- What is on the wire was there before, or is a transfer of the exchange. -/
structure PutsOnly (link : Link ι) (out : Place ι) (outLen : Nat) (into : Place ι) (inCap : Nat)
    (bus : Bus ι) : Prop where
  outbound : ∀ request ∈ bus.outbound,
    (∃ earlier ∈ link.bus.outbound, earlier.data = request.data ∧ earlier.len = request.len) ∨
      (request.data = out ∧ request.len = outLen)
  inbound : ∀ read ∈ bus.inbound, read ∈ link.bus.inbound ∨ (read.data = into ∧ read.cap = inCap)

variable [DecidableEq ι]

/-- The exchange is on the wire: IOS has taken on the read and, behind it, the message,
whose bytes are those it was asked to send unless a read under way is into its buffer. -/
structure OnTheWire (out : Place ι) (outLen : Nat) (into : Place ι) (inCap : Nat)
    (link sent : Link ι) : Prop where
  message : ∃ earlier, sent.bus.outbound = earlier ++ [⟨link.serial + 1, out, outLen, false⟩]
  /-- What waits for the adapter is the read, behind earlier ones. -/
  read : sent.bus.inbound <:+ link.bus.inbound ++ [⟨link.serial + 1, into, inCap⟩]
  /-- The module has one more end of a read to hear of. -/
  pending : sent.bus.inPending = link.bus.inPending + 1
  bytes : into ≠ out → (∀ earlier ∈ link.bus.inbound, earlier.data ≠ out) →
    sent.bytes out outLen = link.bytes out outLen

/-- How a call with the request in `tx` ends; `asking` is the link when it turns to the
request. It is turned away because the link is down, because of an earlier exchange, or
because its buffers are unfit, and then puts nothing on the wire; or it posts one
exchange, and nothing else. -/
inductive Posts (layout : Layout ι) (unfit : Prop) (tx : ι) (txLen : Nat) (asking link : Link ι) :
    Int × Link ι → Prop where
  | down (down : link.up = false) : Posts layout unfit tx txLen asking link (raUsbEdead, link)
  | occupied {after : Link ι} (waiting : link.xs.busy = true ∨ link.postOpen = true)
    (quiet : Quiet link after) : Posts layout unfit tx txLen asking link (raUsbEbusy, after)
  | unfit {after : Link ι} (cannot : unfit) (quiet : Quiet link after) :
    Posts layout unfit tx txLen asking link (raUsbEbuf, after)
  | posted {staged : Link ι} (fit : ¬ unfit) (quiet : Quiet link staged) {out into : Place ι}
    {outLen inCap : Nat} (isPost : Bool)
    (exchange : WellFramed layout (asking.bytes (.caller tx) txLen) out outLen into inCap staged)
    (puts : PutsOnly staged out outLen into inCap
      (xsPost out outLen into inCap isPost staged).2.bus)
    (sends : 0 ≤ (xsPost out outLen into inCap isPost staged).1 →
      OnTheWire out outLen into inCap staged (xsPost out outLen into inCap isPost staged).2)
    (rest : Link ι → Int × Link ι) (still : ∀ sent, Quiet sent (rest sent).2) :
    Posts layout unfit tx txLen asking link
      (ifOk (xsPost out outLen into inCap isPost staged) rest)

/-! ## What is quiet -/

namespace Quiet

omit [DecidableEq ι] in
theorem refl (link : Link ι) : Quiet link link := ⟨List.suffix_refl _, List.suffix_refl _⟩

omit [DecidableEq ι] in
theorem trans {link middle after : Link ι} (early : Quiet link middle)
    (late : Quiet middle after) : Quiet link after :=
  ⟨late.outbound.trans early.outbound, late.inbound.trans early.inbound⟩

omit [DecidableEq ι] in
/-- The transfers are the same. -/
theorem same {link after : Link ι} (outbound : after.bus.outbound = link.bus.outbound)
    (inbound : after.bus.inbound = link.bus.inbound) : Quiet link after where
  outbound := outbound ▸ List.suffix_refl _
  inbound := inbound ▸ List.suffix_refl _

/-- A store into a buffer is quiet. -/
theorem store (link : Link ι) (place : Place ι) (update : Mem → Mem) :
    Quiet link (link.store place update) := .same rfl rfl

omit [DecidableEq ι] in
/-- Asking for an exchange is quiet. -/
theorem ask (tx : ι) (txLen : Nat) (link : Link ι) : Quiet link (link.ask tx txLen) :=
  .same rfl rfl

/-- Events only end transfers. -/
theorem moves {link : Link ι} {next : Bus ι} (moves : link.bus.Moves next) :
    Quiet link { link with bus := next } := by
  cases moves with
  | still => exact .refl link
  | receive reply first unheard => exact ⟨by simp [first], List.suffix_refl _⟩
  | outDone result first => exact ⟨by simp [first], List.suffix_refl _⟩
  | answer ready waiting =>
    refine ⟨List.suffix_refl _, ?_⟩
    simp [Bus.endRead, Bus.store, waiting]
  | answerLost code ready waiting =>
    refine ⟨List.suffix_refl _, ?_⟩
    simp [Bus.endRead, waiting]
  | inFail code waiting =>
    refine ⟨List.suffix_refl _, ?_⟩
    simp [Bus.endRead, waiting]
  | token number => exact .same rfl rfl

theorem keeps (link : Link ι) : WaitKeeps (Quiet link) where
  event before happening quiet := quiet.trans (moves (before.bus.apply_moves happening))
  message before message queue all quiet := by
    cases message <;> exact quiet.trans (.same rfl rfl)
  timer before tok later quiet := quiet.trans (.same rfl rfl)

/-- The wait for an exchange is quiet. -/
theorem xsWait (link : Link ι) : Quiet link (xsWait link).2 := by
  have settled : ∀ waited : Link ι, Quiet waited (settleExchange waited) := fun waited => by
    unfold settleExchange
    simp only
    split <;> exact .same rfl rfl
  have ends := xsWait_ends link
  generalize Usb.xsWait link = result at ends ⊢
  cases ends with
  | free idle => exact .refl link
  | done busy both kept => exact (kept _ (keeps link) (.refl link)).trans (settled _)
  | timeout busy kept => exact kept _ (keeps link) (.refl link)

/-- Padding is quiet. -/
theorem pad (out : Place ι) (len : Nat) (link : Link ι) : Quiet link (pad out len link).2 := by
  unfold Usb.pad
  split
  · exact .store link out _
  · exact .refl link

/-- The staging of a request is quiet. -/
theorem chooseOut {addr : ι → Nat} {tx : ι} {txLen : Nat} {link staged : Link ι} {out : Place ι}
    (chosen : chooseOut addr tx txLen link = some (out, staged)) : Quiet link staged := by
  unfold Usb.chooseOut at chosen
  split at chosen
  · obtain ⟨rfl, rfl⟩ := Prod.mk.inj (Option.some.inj chosen)
    exact .store link .smallOut _
  · split at chosen
    · obtain ⟨rfl, rfl⟩ := Prod.mk.inj (Option.some.inj chosen)
      exact .refl link
    · cases chosen

/-- The copy of a reply is quiet. -/
theorem copyOut (rx : ι) (rxLen skip : Nat) (link : Link ι) :
    Quiet link (copyOut rx rxLen skip link) := by
  unfold Usb.copyOut
  simp only
  split
  · exact (store link _ _).trans (store _ _ _)
  · exact .store link _ _

/-- The end of an exchange is quiet. -/
theorem finishXfer (into : Place ι) (rx : Option ι) (rxLen skip : Nat) (link : Link ι) :
    Quiet link (finishXfer into rx rxLen skip link).2 := by
  unfold Usb.finishXfer
  split
  · exact .refl link
  · cases rx with
    | none => exact .refl link
    | some buffer =>
      simp only
      split
      · exact .copyOut buffer rxLen skip link
      · exact .refl link

end Quiet

/-! ## What goes out -/

/-- No event changes what a request block describes. -/
theorem Later.block {endpoint : Endpoint} {len : Nat} {data : Place ι} {before after : Bus ι}
    (later : Later (before.reqFill endpoint len data) after) :
    match endpoint with
    | .epOut => after.reqOut.data = data ∧ after.reqOut.len = len
    | .epIn => after.reqIn.data = data ∧ after.reqIn.len = len := by
  cases endpoint with
  | epOut =>
    refine later (fun bus => bus.reqOut.data = data ∧ bus.reqOut.len = len) ?_ ⟨rfl, rfl⟩
    intro _ _ moves block
    cases moves <;> exact block
  | epIn =>
    refine later (fun bus => bus.reqIn.data = data ∧ bus.reqIn.len = len) ?_ ⟨rfl, rfl⟩
    intro _ _ moves block
    cases moves <;> exact block

namespace PutsOnly

variable {link : Link ι} {out into : Place ι} {outLen inCap : Nat}

omit [DecidableEq ι] in
/-- Nothing has been put on the bus at the start. -/
theorem start : PutsOnly link out outLen into inCap link.bus where
  outbound request member := .inl ⟨request, member, rfl, rfl⟩
  inbound _ member := .inl member

/-- Events put nothing on the wire. -/
theorem moves {before next : Bus ι} (moves : before.Moves next)
    (only : PutsOnly link out outLen into inCap before) :
    PutsOnly link out outLen into inCap next := by
  have outbound := only.outbound
  have inbound := only.inbound
  cases moves with
  | still => exact only
  | receive reply first unheard =>
    rw [first, List.forall_mem_cons] at outbound
    exact ⟨List.forall_mem_cons.mpr outbound, inbound⟩
  | outDone result first =>
    rw [first, List.forall_mem_cons] at outbound
    exact ⟨outbound.2, inbound⟩
  | answer ready waiting | answerLost code ready waiting | inFail code waiting =>
    rw [waiting, List.forall_mem_cons] at inbound
    exact ⟨outbound, by simpa [Bus.endRead, Bus.store, waiting] using inbound.2⟩
  | token number => exact ⟨outbound, inbound⟩

/-- Asking puts nothing on the wire yet. -/
theorem asked {endpoint : Endpoint} {len : Nat} {data : Place ι} {before after : Bus ι}
    (later : Later (before.reqFill endpoint len data) after)
    (only : PutsOnly link out outLen into inCap before) :
    PutsOnly link out outLen into inCap after := by
  have filled : PutsOnly link out outLen into inCap (before.reqFill endpoint len data) := by
    cases endpoint <;> exact ⟨only.outbound, only.inbound⟩
  exact later _ (fun _ _ => moves) filled

omit [DecidableEq ι] in
theorem takeOut {bus : Bus ι} (only : PutsOnly link out outLen into inCap bus)
    (block : bus.reqOut.data = out ∧ bus.reqOut.len = outLen) (serial : Nat) :
    PutsOnly link out outLen into inCap (bus.takeOn .epOut serial) where
  outbound request member := by
    rcases List.mem_append.mp member with member | member
    · exact only.outbound request member
    · obtain rfl := List.mem_singleton.mp member
      exact .inr block
  inbound := only.inbound

omit [DecidableEq ι] in
theorem takeIn {bus : Bus ι} (only : PutsOnly link out outLen into inCap bus)
    (block : bus.reqIn.data = into ∧ bus.reqIn.len = inCap) (serial : Nat) :
    PutsOnly link out outLen into inCap (bus.takeOn .epIn serial) where
  outbound := only.outbound
  inbound read member := by
    rcases List.mem_append.mp member with member | member
    · exact only.inbound read member
    · obtain rfl := List.mem_singleton.mp member
      exact .inr block

/-- `xs_post` puts the two transfers of its exchange on the wire, at their full lengths. -/
theorem xsPost (outWord : outLen < 65536) (inWord : inCap < 65536) (isPost : Bool) :
    PutsOnly link out outLen into inCap (xsPost out outLen into inCap isPost link).2.bus := by
  have ends := xsPost_ends out outLen into inCap isPost link
  generalize Usb.xsPost out outLen into inCap isPost link = result at ends ⊢
  have before : PutsOnly link out outLen into inCap link.bus := start
  cases ends with
  | rejected failed => exact start
  | refused idle failed script later => exact asked later before
  | asked idle script later ends =>
    rw [Nat.mod_eq_of_lt inWord] at later
    have listening := (asked later before).takeIn later.block (link.serial + 1)
    cases ends with
    | refused r script later => exact asked later listening
    | sent script later =>
      rw [Nat.mod_eq_of_lt outWord] at later
      exact (asked later listening).takeOut later.block _

end PutsOnly

/-- Since `waiting` waited and `pending` ends of reads were to be heard of, events have
only ended reads; the buffer `out` is as it was if none of them is into it. -/
structure Ending (out : Place ι) (waiting : List (Inbound ι)) (pending : Nat) (cells : Mem)
    (bus : Bus ι) : Prop where
  inbound : bus.inbound <:+ waiting
  pending : bus.inPending = pending
  cells : (∀ read ∈ waiting, read.data ≠ out) → bus.mem out = cells

namespace Ending

variable {out : Place ι} {waiting : List (Inbound ι)} {pending : Nat} {cells : Mem}

/-- What another side does leaves the transfers at their end. -/
theorem moves {before next : Bus ι} (moves : before.Moves next)
    (ending : Ending out waiting pending cells before) :
    Ending out waiting pending cells next := by
  have pending := moves.pending.2.trans ending.pending
  have inbound := ending.inbound
  cases moves with
  | still | receive reply first unheard | outDone result first | token number =>
    exact ⟨inbound, pending, ending.cells⟩
  | answer ready first =>
    rename_i made owed read reads
    refine ⟨?_, pending, fun clear => ?_⟩
    · simpa [Bus.endRead, Bus.store, first] using (List.suffix_cons _ _).trans (first ▸ inbound)
    · have other : read.data ≠ out := clear read (inbound.mem (by simp [first]))
      simpa [Bus.endRead, Bus.store, Function.update_of_ne other.symm] using ending.cells clear
  | answerLost code ready first | inFail code first =>
    exact ⟨by simpa [Bus.endRead, first] using (List.suffix_cons _ _).trans (first ▸ inbound),
      pending, ending.cells⟩

/-- A transfer that has been asked for leaves the ones in front of it at their end. -/
theorem asked {endpoint : Endpoint} {len : Nat} {data : Place ι} {before after : Bus ι}
    (later : Later (before.reqFill endpoint len data) after)
    (ending : Ending out waiting pending cells before) :
    Ending out waiting pending cells after := by
  refine later _ (fun _ _ => moves) ?_
  cases endpoint <;> exact ⟨ending.inbound, ending.pending, ending.cells⟩

omit [DecidableEq ι] in
theorem takeIn {bus : Bus ι} (ending : Ending out waiting pending cells bus) (serial : Nat) :
    Ending out (waiting ++ [⟨serial, bus.reqIn.data, bus.reqIn.len⟩]) (pending + 1) cells
      (bus.takeOn .epIn serial) where
  inbound := by
    obtain ⟨ended, whole⟩ := ending.inbound
    exact ⟨ended, by simp [Bus.takeOn, ← whole]⟩
  pending := by
    have before := ending.pending
    simp only [Bus.inPending, Bus.takeOn, List.length_append, List.length_singleton] at before ⊢
    omega
  cells clear := ending.cells fun read member => clear read (List.mem_append_left _ member)

end Ending

/-- An exchange that `xs_post` took is on the wire. -/
theorem xsPost_onTheWire {out into : Place ι} {outLen inCap : Nat} (outWord : outLen < 65536)
    (inWord : inCap < 65536) (isPost : Bool) (link : Link ι)
    (took : 0 ≤ (xsPost out outLen into inCap isPost link).1) :
    OnTheWire out outLen into inCap link (xsPost out outLen into inCap isPost link).2 := by
  have ends := xsPost_ends out outLen into inCap isPost link
  generalize xsPost out outLen into inCap isPost link = result at ends took ⊢
  cases ends with
  | rejected failed => exact absurd failed (Int.not_lt.mpr took)
  | refused idle failed script later => exact absurd failed (Int.not_lt.mpr took)
  | asked idle script later ends =>
    rw [Nat.mod_eq_of_lt inWord] at later
    have start : Ending out link.bus.inbound link.bus.inPending (link.bus.mem out) link.bus :=
      ⟨List.suffix_refl _, rfl, fun _ => rfl⟩
    have listening := (start.asked later).takeIn (link.serial + 1)
    rw [later.block.1, later.block.2] at listening
    cases ends with
    | refused r script later => exact absurd raUsbEdead_neg (Int.not_lt.mpr took)
    | sent script later =>
      rw [Nat.mod_eq_of_lt outWord] at later
      have ended := listening.asked later
      obtain ⟨data, len⟩ := later.block
      refine ⟨⟨_, by simp only [Bus.takeOn, data, len]; rfl⟩, ended.inbound, ended.pending, ?_⟩
      intro apart clear
      refine congrArg (fun cells => cells.window 0 outLen) (ended.cells fun read member => ?_)
      rcases List.mem_append.mp member with earlier | own
      · exact clear read earlier
      · rw [List.mem_singleton.mp own]
        exact apart

section Staging

variable {layout : Layout ι} {tx : ι} {txLen : Nat}

/-- The length of a framed message. -/
theorem pad_length (out : Place ι) (len : Nat) (link : Link ι) :
    (pad out len link).1 % 64 ≠ 0 ∧ len ≤ (pad out len link).1 ∧
      (pad out len link).1 ≤ len + 1 := by
  unfold pad
  split
  · rename_i packet
    exact ⟨by simp only; omega, Nat.le_succ len, Nat.le_refl _⟩
  · rename_i short
    exact ⟨short, Nat.le_refl _, Nat.le_succ len⟩

/-- A framed message is the request with at most one pad byte behind it. -/
theorem pad_content (out : Place ι) (len : Nat) (link : Link ι) :
    ∃ pad, (pad = [] ∨ pad = [0]) ∧
      (Usb.pad out len link).2.bytes out (Usb.pad out len link).1 = link.bytes out len ++ pad := by
  rw [pad_bytes, framed]
  split
  · exact ⟨[0], .inr rfl, rfl⟩
  · exact ⟨[], .inl rfl, (List.append_nil _).symm⟩

/-- A buffer of the module's that requests are built in: the request lies in it, and it is
small enough to be bounced or has room for the longest message. -/
structure Layout.Holds (layout : Layout ι) (tx : ι) (txLen : Nat) : Prop where
  inside : txLen ≤ layout.size (.caller tx)
  room : layout.size (.caller tx) < smallOutSize ∨ raUsbTxMax < layout.size (.caller tx)

omit [DecidableEq ι] in
/-- A message sent in place has room for its pad. -/
theorem Layout.Holds.inPlace (holds : layout.Holds tx txLen)
    (ok : dmaOk layout.callers tx (txLen + 1) = true) (large : smallOutSize < txLen + 1) {len : Nat}
    (le : len ≤ txLen + 1) : layout.Fit (.caller tx) len := by
  have bound := dmaOk_le ok
  have room := holds.room
  have inside := holds.inside
  have most : raUsbTxMax = 8191 := rfl
  exact layout.fit_of_dmaOk ok le (by omega)

/-- Where a blocking call sends from fits the message with its pad. -/
theorem chooseOut_fit (holds : layout.Holds tx txLen) {link staged : Link ι} {out : Place ι}
    (chosen : chooseOut layout.callers tx txLen link = some (out, staged)) {len : Nat}
    (le : len ≤ txLen + 1) : layout.Fit out len := by
  unfold chooseOut at chosen
  split at chosen
  · rename_i small
    obtain ⟨rfl, rfl⟩ := Prod.mk.inj (Option.some.inj chosen)
    exact layout.fit_smallOut (Nat.le_trans le small)
  · rename_i large
    split at chosen
    · rename_i ok
      obtain ⟨rfl, rfl⟩ := Prod.mk.inj (Option.some.inj chosen)
      exact holds.inPlace ok (Nat.lt_of_not_le large) le
    · cases chosen

omit [DecidableEq ι] in
/-- Where a blocking call reads to fits the reply. -/
theorem chooseIn_fit {rx : Option ι} {rxLen skip cap : Nat} {into : Place ι}
    (inside : ∀ buffer ∈ rx, rxLen ≤ layout.size (.caller buffer))
    (chosen : chooseIn layout.callers rx rxLen skip = some (into, cap)) : layout.Fit into cap := by
  have bounced : ∀ small : Prop, ∀ [Decidable small],
      (if small then some (Place.smallIn (ι := ι), smallInSize) else none) = some (into, cap) →
      layout.Fit into cap := by
    intro small _ taken
    split at taken
    · obtain ⟨rfl, rfl⟩ := Prod.mk.inj (Option.some.inj taken)
      exact layout.fit_smallIn
    · cases taken
  cases rx with
  | none => exact bounced _ chosen
  | some buffer =>
    simp only [chooseIn] at chosen
    split at chosen
    · rename_i place
      obtain ⟨rfl, rfl⟩ := Prod.mk.inj (Option.some.inj chosen)
      exact layout.fit_of_dmaOk place.2.2 (Nat.le_refl _) (inside buffer rfl)
    · exact bounced _ chosen

end Staging

/-! ## Calls -/

section Calls

variable {layout : Layout ι} {tx : ι} {txLen : Nat}

/-- `ra_usb_xfer` has no place to send the request from, or none to read the reply to. -/
def XferUnfit (layout : Layout ι) (tx : ι) (txLen : Nat) (rx : Option ι) (rxLen skip : Nat) :
    Prop :=
  (smallOutSize < txLen + 1 ∧ dmaOk layout.callers tx (txLen + 1) = false) ∨
    (smallInSize < skip + rxLen ∧
      ∀ buffer ∈ rx, skip = 0 → dmaOk layout.callers buffer rxLen = false)

/-- `ra_usb_post` sends and reads in place only. -/
def PostUnfit (layout : Layout ι) (tx : ι) (txLen : Nat) (rx : ι) (rxCap : Nat) : Prop :=
  raUsbTxMax < txLen ∨ dmaOk layout.callers tx (txLen + 1) = false ∨
    dmaOk layout.callers rx rxCap = false

/-- No buffer is found exactly for a long request from memory that is not fit for DMA. -/
theorem chooseOut_none (link : Link ι) :
    chooseOut layout.callers tx txLen link = none ↔
      smallOutSize < txLen + 1 ∧ dmaOk layout.callers tx (txLen + 1) = false := by
  unfold chooseOut
  split
  · rename_i small
    exact ⟨nofun, fun large => absurd small (Nat.not_le.mpr large.1)⟩
  · rename_i large
    split
    · rename_i ok
      exact ⟨nofun, fun unfit => by simp [ok] at unfit⟩
    · rename_i bad
      exact ⟨fun _ => ⟨Nat.lt_of_not_le large, by simpa using bad⟩, fun _ => rfl⟩

omit [DecidableEq ι] in
/-- No buffer is found exactly for a long reply into memory that is not fit for DMA. -/
theorem chooseIn_none (rx : Option ι) (rxLen skip : Nat) :
    chooseIn layout.callers rx rxLen skip = none ↔
      smallInSize < skip + rxLen ∧
        ∀ buffer ∈ rx, skip = 0 → dmaOk layout.callers buffer rxLen = false := by
  have bounced : (if skip + rxLen ≤ smallInSize then some (Place.smallIn (ι := ι), smallInSize)
      else none) = none ↔ smallInSize < skip + rxLen := by simp
  cases rx with
  | none => simp [chooseIn]
  | some buffer =>
    simp only [Option.mem_some_iff, forall_eq']
    rw [show chooseIn layout.callers (some buffer) rxLen skip =
      if skip = 0 ∧ smallInSize < rxLen ∧ dmaOk layout.callers buffer rxLen = true then
        some (.caller buffer, rxLen)
      else if skip + rxLen ≤ smallInSize then some (.smallIn, smallInSize) else none from rfl]
    by_cases place : skip = 0 ∧ smallInSize < rxLen ∧ dmaOk layout.callers buffer rxLen = true
    · rw [if_pos place]
      exact ⟨fun none => absurd none (Option.some_ne_none _), fun unfit =>
        absurd (unfit.2 place.1) (by simp [place.2.2])⟩
    · rw [if_neg place, bounced]
      refine ⟨fun large => ⟨large, fun zero => ?_⟩, fun unfit => unfit.1⟩
      by_contra ok
      exact place ⟨zero, by omega, by simpa using ok⟩

/-- An exchange puts its request and its reply on the bus, or is unfit. -/
theorem raUsbXfer_posts (holds : layout.Holds tx txLen) (rx : Option ι) (rxLen skip : Nat)
    (inside : ∀ buffer ∈ rx, rxLen ≤ layout.size (.caller buffer)) (link : Link ι) :
    Posts layout (XferUnfit layout tx txLen rx rxLen skip) tx txLen (xsWait link).2 link
      (raUsbXfer layout.callers tx txLen rx rxLen skip link) := by
  unfold raUsbXfer
  split
  · rename_i down
    exact .down (by simpa using down)
  have waited := Quiet.xsWait link
  have waiting : (xsWait link).1 < 0 → link.xs.busy = true := by
    intro failed
    cases busy : link.xs.busy with
    | false => simp [xsWait, busy] at failed
    | true => rfl
  simp only
  split
  · rename_i failed
    exact .occupied (.inl (waiting failed)) waited
  · cases chosenOut : chooseOut layout.callers tx txLen ((xsWait link).2.ask tx txLen) with
    | none => exact .unfit (.inl ((chooseOut_none _).mp chosenOut)) waited
    | some sent =>
      obtain ⟨out, staged⟩ := sent
      have quiet : Quiet link (pad out txLen staged).2 :=
        waited.trans <| (Quiet.ask tx txLen _).trans <|
          (Quiet.chooseOut chosenOut).trans (.pad out txLen staged)
      cases chosenIn : chooseIn layout.callers rx rxLen skip with
      | none => exact .unfit (.inr ((chooseIn_none rx rxLen skip).mp chosenIn)) quiet
      | some read =>
        obtain ⟨into, cap⟩ := read
        have fit : ¬ XferUnfit layout tx txLen rx rxLen skip := by
          rintro (noOut | noIn)
          · simp [(chooseOut_none _).mpr noOut] at chosenOut
          · simp [(chooseIn_none rx rxLen skip).mpr noIn] at chosenIn
        obtain ⟨framed, _, short⟩ := pad_length out txLen staged
        obtain ⟨padding, few, content⟩ := pad_content out txLen staged
        have outFit := chooseOut_fit holds chosenOut short
        have inFit := chooseIn_fit inside chosenIn
        refine .posted fit quiet false ⟨framed, ⟨padding, few, ?_⟩, outFit, inFit⟩
          (.xsPost outFit.word inFit.word false)
          (xsPost_onTheWire outFit.word inFit.word false _) _ ?_
        · rw [content, chooseOut_bytes chosenOut]
          rfl
        · intro sent
          unfold ifOk
          split
          · exact .xsWait sent
          · exact (Quiet.xsWait sent).trans (.finishXfer into rx rxLen skip _)

/-- A posted exchange puts its request and its reply on the bus, or is unfit. -/
theorem raUsbPost_posts (room : raUsbTxMax < layout.size (.caller tx)) (rx : ι) (rxCap : Nat)
    (inside : rxCap ≤ layout.size (.caller rx)) (link : Link ι) :
    Posts layout (PostUnfit layout tx txLen rx rxCap) tx txLen link link
      (raUsbPost layout.callers tx txLen rx rxCap link) := by
  unfold raUsbPost
  split
  · rename_i down
    exact .down (by simpa using down)
  split
  · rename_i taken
    exact .occupied (by simpa using taken) (.refl link)
  split
  · rename_i unfit
    refine .unfit ?_ (.refl link)
    simpa [PostUnfit, or_assoc] using unfit
  · rename_i fit
    simp only [Bool.or_eq_true, Bool.not_eq_true', not_or, decide_eq_true_eq,
      Bool.not_eq_false] at fit
    obtain ⟨⟨short, outOk⟩, inOk⟩ := fit
    have able : ¬ PostUnfit layout tx txLen rx rxCap := by simp [PostUnfit, short, outOk, inOk]
    obtain ⟨framed, _, length⟩ := pad_length (.caller tx) txLen (link.ask tx txLen)
    obtain ⟨padding, few, content⟩ := pad_content (.caller tx) txLen (link.ask tx txLen)
    have quiet : Quiet link (pad (.caller tx) txLen (link.ask tx txLen)).2 :=
      (Quiet.ask tx txLen link).trans (.pad _ txLen _)
    have outFit : layout.Fit (.caller tx) (pad (.caller tx) txLen (link.ask tx txLen)).1 :=
      layout.fit_of_dmaOk outOk length (by omega)
    have inFit : layout.Fit (.caller rx) rxCap :=
      layout.fit_of_dmaOk inOk (Nat.le_refl _) inside
    have exchange : WellFramed layout (link.bytes (.caller tx) txLen) (.caller tx)
        (pad (.caller tx) txLen (link.ask tx txLen)).1 (.caller rx) rxCap
        (pad (.caller tx) txLen (link.ask tx txLen)).2 :=
      ⟨framed, ⟨padding, few, content⟩, outFit, inFit⟩
    refine .posted able quiet true exchange (.xsPost outFit.word inFit.word true)
      (xsPost_onTheWire outFit.word inFit.word true _) _ ?_
    exact fun sent => .same rfl rfl

/-- Whatever a call of the module's asks for, the message and the buffer for the reply that
it puts on the wire are well framed, and a call that cannot have them so puts nothing
there. A blocking call sends what its request holds once an earlier exchange has ended. -/
theorem usb_framing (layout : Layout ι) (tx snap : ι) (txLen snapLen : Nat) (rx : Option ι)
    (snapRx : ι) (rxLen skip rxCap : Nat) (holds : layout.Holds tx txLen)
    (snapRoom : raUsbTxMax < layout.size (.caller snap))
    (rxInside : ∀ buffer ∈ rx, rxLen ≤ layout.size (.caller buffer))
    (snapInside : rxCap ≤ layout.size (.caller snapRx)) (link : Link ι) :
    Posts layout (XferUnfit layout tx txLen rx rxLen skip) tx txLen (xsWait link).2 link
        (raUsbXfer layout.callers tx txLen rx rxLen skip link) ∧
      Posts layout (PostUnfit layout snap snapLen snapRx rxCap) snap snapLen link link
        (raUsbPost layout.callers snap snapLen snapRx rxCap link) :=
  ⟨raUsbXfer_posts holds rx rxLen skip rxInside link,
    raUsbPost_posts snapRoom snapRx rxCap snapInside link⟩

end Calls

/-- A place for everything: the statics one behind the other from a page on, and the stack. -/
def moduleLayout : Layout Area where
  addr
    | .caller (.static .snapTx) => 0x136A0000
    | .caller (.static .snapRx) => 0x136A2000
    | .caller (.static .chunkRx) => 0x136A2820
    | .smallOut => 0x136A3840
    | .smallIn => 0x136A3960
    | .caller .request => 0x136A39E2
    | .caller .reply => 0x136A3AE8
  size
    | .caller (.static buffer) => bufferSize buffer
    | .smallOut => smallOutSize
    | .smallIn => smallInSize
    | .caller .request => 260
    | .caller .reply => 10
  smallOut_aligned := rfl
  smallOut_size := rfl
  smallIn_aligned := rfl
  smallIn_size := rfl

/-- The link before its first exchange, with clear buffers. -/
def idleLink : Link Area := .boot true (fun _ _ => 0) []

/-- A debug packet that needs a pad byte, and the longest snapshot. -/
theorem module_calls_framed :
    Posts moduleLayout (XferUnfit moduleLayout .request 256 none 0 0) .request 256
        (xsWait idleLink).2 idleLink
        (raUsbXfer moduleLayout.callers .request 256 none 0 0 idleLink) ∧
      Posts moduleLayout
        (PostUnfit moduleLayout (.static .snapTx) 8191 (.static .snapRx) raSnapRxBufSz)
        (.static .snapTx) 8191 idleLink idleLink
        (raUsbPost moduleLayout.callers (.static .snapTx) 8191 (.static .snapRx) raSnapRxBufSz
          idleLink) :=
  usb_framing moduleLayout .request (.static .snapTx) 256 8191 none (.static .snapRx) 0 0
    raSnapRxBufSz ⟨by decide, .inl (by decide)⟩ (Nat.le_refl 8192) (by simp)
    (Nat.le_refl raSnapRxBufSz) idleLink

end D2xCios.Usb
