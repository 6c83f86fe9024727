import D2xCios.Usb.Bus

/-!
# The USB link

The exchange machinery of `usb_link.c`. One exchange is on the wire at a time: `xsPost`
puts it there, `xsWait` waits for both completions, and what a wait leaves behind
stays on the wire for the next one. `raUsbXfer` is the blocking exchange,
`raUsbPost` and `raUsbReap` the two halves of the pipelined one.

A wait has a positive timeout. When the timer fires is up to the surroundings, so the
length of the timeout does not matter; behind the last step of the surroundings the
timer of the wait fires at once. Lengths are natural numbers: no buffer is near 4 GiB.
The device is found before the first exchange, and discovery uses another queue.
-/

namespace D2xCios

/-! ## Results -/

/-- `RA_USB_ETIMEOUT`: no reply in time, the exchange is left in flight. -/
def raUsbEtimeout : Int := -300

/-- `RA_USB_EBUSY`: a previous exchange is still in flight. -/
def raUsbEbusy : Int := -301

/-- `RA_USB_EDEAD`: the link is down. -/
def raUsbEdead : Int := -302

/-- `RA_USB_EBUF`: a buffer that is neither fit for DMA nor small. -/
def raUsbEbuf : Int := -303

/-- `RA_USB_ESHORT`: OUT moved fewer bytes than asked. -/
def raUsbEshort : Int := -304

/-- `RA_USB_EIDLE`: reap with nothing posted. -/
def raUsbEidle : Int := -305

theorem raUsbEtimeout_neg : raUsbEtimeout < 0 := by decide

theorem raUsbEdead_neg : raUsbEdead < 0 := by decide

end D2xCios

namespace D2xCios.Usb

open D2xCios.Lib

/-- `RA_USB_TX_MAX` -/
def raUsbTxMax : Nat := 8191

/-- `sizeof(small_out)` and `sizeof(small_in)`. -/
def smallOutSize : Nat := 288
def smallInSize : Nat := 128

/-! ## State -/

/-- `xs`, the exchange on the wire. -/
structure Exchange (ι : Type) where
  busy : Bool
  isPost : Bool
  outDone : Bool
  inDone : Bool
  outRes : Int
  inRes : Int
  outLen : Nat
  inBuf : Place ι
  inCap : Nat

/-- Both completions have been consumed. -/
def Exchange.done {ι : Type} (xs : Exchange ι) : Bool := xs.outDone && xs.inDone

/-- `xs_result` -/
def Exchange.result {ι : Type} (xs : Exchange ι) : Int :=
  if xs.outRes ≠ xs.outLen then if xs.outRes < 0 then xs.outRes else raUsbEshort
  else if xs.inRes < 0 then xs.inRes
  else 0

/-- An exchange that did not fail has read its reply. -/
theorem Exchange.result_cases {ι : Type} (xs : Exchange ι) :
    xs.result < 0 ∨ (xs.result = 0 ∧ 0 ≤ xs.inRes) := by
  have short : raUsbEshort < 0 := by decide
  unfold Exchange.result
  split
  · split
    · rename_i failed
      exact .inl failed
    · exact .inl short
  · split
    · rename_i failed
      exact .inl failed
    · rename_i read
      exact .inr ⟨rfl, Int.not_lt.mp read⟩

/-- A store of the module's, with the OUT and the IN buffer of the exchange that was on
the wire at the time. -/
structure Store (ι : Type) where
  place : Place ι
  wire : Option (Place ι × Place ι)
  deriving DecidableEq

/-- The statics of the link, with its surroundings. `serial`, `message` and `stores` are
ghosts: the number of the current exchange, the message its call asked to be sent, and
what the module has stored, latest first. -/
structure Link (ι : Type) where
  /-- `g_up`, `g_dead` and `g_tok`. -/
  up : Bool
  dead : Bool
  tok : UInt32
  xs : Exchange ι
  postOpen : Bool
  postReady : Bool
  postRes : Int
  bus : Bus ι
  script : List Step
  serial : Nat
  message : List UInt8
  stores : List (Store ι)

namespace Link

variable {ι : Type}

/-- At power-on, with the device found or not. -/
def boot (up : Bool) (mem : Place ι → Mem) (script : List Step) : Link ι where
  up := up
  dead := false
  tok := 0
  xs :=
    { busy := false, isPost := false, outDone := false, inDone := false, outRes := 0
      inRes := 0, outLen := 0, inBuf := .smallIn, inCap := 0 }
  postOpen := false
  postReady := false
  postRes := 0
  bus := .boot mem
  script := script
  serial := 0
  message := []
  stores := []

/-- The buffers of the exchange on the wire, OUT first. -/
def wire (link : Link ι) : Option (Place ι × Place ι) :=
  if link.xs.busy then some (link.bus.reqOut.data, link.xs.inBuf) else none

/-- The module stores to one place. -/
def store [DecidableEq ι] (place : Place ι) (update : Mem → Mem) (link : Link ι) : Link ι :=
  { link with
    bus := link.bus.store place update
    stores := { place := place, wire := link.wire } :: link.stores }

/-- The bytes from the start of a place. -/
def bytes (link : Link ι) (place : Place ι) (count : Nat) : List UInt8 :=
  (link.bus.mem place).window 0 count

end Link

section Machine

variable {ι : Type} [DecidableEq ι]

/-- `if (r < 0) return r;` -/
def ifOk (step : Int × Link ι) (next : Link ι → Int × Link ι) : Int × Link ι :=
  if step.1 < 0 then step else next step.2

/-! ## Waiting -/

/-- What the wait does with a message that is not its timer's. -/
def consume (link : Link ι) : Message → Link ι
  | .outRecord =>
    { link with xs := { link.xs with outDone := true, outRes := link.bus.reqOut.reply } }
  | .inRecord =>
    { link with xs := { link.xs with inDone := true, inRes := link.bus.reqIn.reply } }
  -- an earlier wait's timer that fired late
  | .token _ => link

/-- Replace what is left in `g_q`. -/
def Link.left (queue : List Message) (link : Link ι) : Link ι :=
  { link with bus := { link.bus with queue := queue } }

/-- The loop of `xs_wait` once nothing happens any more but that its timer fires. -/
def drain (tok : UInt32) : List Message → Link ι → Link ι
  | [], link => link.left []
  | message :: queue, link =>
    if link.xs.done then link.left (message :: queue)
    else if message = .token tok then link.left queue
    else drain tok queue (consume (link.left queue) message)

/-- The loop of `xs_wait`, with the token of its timer. -/
def waitLoop (tok : UInt32) : List Step → Link ι → Link ι
  | [], link => drain tok link.bus.queue { link with script := [] }
  | step :: later, link =>
    if link.xs.done then { link with script := step :: later }
    else
      match step with
      | .bus event => waitLoop tok later { link with bus := link.bus.apply event }
      | .resume | .refuse _ =>
        match link.bus.queue with
        | [] => waitLoop tok later link
        | message :: queue =>
          if message = .token tok then { link.left queue with script := later }
          else waitLoop tok later (consume (link.left queue) message)

/-- The end of a wait that saw both completions. -/
def settleExchange (link : Link ι) : Link ι :=
  let free := { link with xs := { link.xs with busy := false, isPost := false } }
  if link.xs.isPost then { free with postRes := link.xs.result, postReady := true } else free

/-- `xs_wait` -/
def xsWait (link : Link ι) : Int × Link ι :=
  if !link.xs.busy then (0, link)
  else
    let tok := link.tok + 1
    let waited := waitLoop (tok &&& 0xFFFF) link.script { link with tok := tok }
    if waited.xs.done then (0, settleExchange waited) else (raUsbEtimeout, waited)

/-! ## Posting -/

/-- `bulk_async` -/
def bulkAsync (endpoint : Endpoint) (len : Nat) (data : Place ι) (link : Link ι) : Int × Link ι :=
  match settle link.script (link.bus.reqFill endpoint len data) with
  | (result, later, bus) =>
    if result < 0 then (result, { link with script := later, bus := bus })
    else (result, { link with script := later, bus := bus.takeOn endpoint link.serial })

/-- The exchange `xs_post` sets out with. -/
def Link.setOut (outLen : Nat) (into : Place ι) (inCap : Nat) (isPost : Bool) (link : Link ι) :
    Link ι :=
  { link with
    xs :=
      { busy := false, isPost := isPost, outDone := false, inDone := false, outRes := 0
        inRes := 0, outLen := outLen, inBuf := into, inCap := inCap }
    serial := link.serial + 1 }

/-- The second half of `xs_post`: the read is waiting, and the request goes out. -/
def sendOut (out : Place ι) (outLen : Nat) (listening : Link ι) : Int × Link ι :=
  let sent := bulkAsync .epOut (outLen % 65536) out
    { listening with xs := { listening.xs with busy := true } }
  if sent.1 < 0 then
    -- the IN stays posted with no request behind it
    (raUsbEdead, { sent.2 with
      xs := { sent.2.xs with outDone := true, outRes := sent.1 }, dead := true })
  else (0, sent.2)

/-- `xs_post` -/
def xsPost (out : Place ι) (outLen : Nat) (into : Place ι) (inCap : Nat) (isPost : Bool)
    (link : Link ι) : Int × Link ι :=
  if link.dead then (raUsbEdead, link)
  else if link.xs.busy then (raUsbEbusy, link)
  else
    ifOk (bulkAsync .epIn (inCap % 65536) into (link.setOut outLen into inCap isPost))
      (sendOut out outLen)

/-! ## Exchanges -/

/-- A message with its framing pad: no message is a multiple of 64 bytes. -/
def framed (message : List UInt8) : List UInt8 :=
  if message.length % 64 = 0 then message ++ [0] else message

/-- Append that pad in place. -/
def pad (out : Place ι) (len : Nat) (link : Link ι) : Nat × Link ι :=
  if len % 64 = 0 then (len + 1, link.store out fun cells => cells.write len 0) else (len, link)

variable (addr : ι → Nat)

/-- `dma_ok`: 32-byte aligned and at most one 4 KB page crossing. -/
def dmaOk (buffer : ι) (len : Nat) : Bool :=
  addr buffer % 32 == 0 && addr buffer % 4096 + len ≤ 8192

omit [DecidableEq ι] in
/-- Memory that is fit for DMA is checked up to 8192 bytes. -/
theorem dmaOk_le {addr : ι → Nat} {buffer : ι} {len : Nat} (fit : dmaOk addr buffer len = true) :
    len ≤ 8192 := by
  have fits := (Bool.and_eq_true_iff.mp fit).2
  exact Nat.le_trans (Nat.le_add_left _ _) (of_decide_eq_true fits)

/-- Where `ra_usb_xfer` sends from: a small request is copied. -/
def chooseOut (tx : ι) (txLen : Nat) (link : Link ι) : Option (Place ι × Link ι) :=
  if txLen + 1 ≤ smallOutSize then
    some (.smallOut,
      link.store .smallOut fun cells => cells.overlay 0 (link.bytes (.caller tx) txLen))
  else if dmaOk addr tx (txLen + 1) then some (.caller tx, link)
  else none

/-- Where `ra_usb_xfer` reads to, and how much. -/
def chooseIn (rx : Option ι) (rxLen skip : Nat) : Option (Place ι × Nat) :=
  let bounced := if skip + rxLen ≤ smallInSize then some (.smallIn, smallInSize) else none
  match rx with
  | some buffer =>
    if skip = 0 ∧ smallInSize < rxLen ∧ dmaOk addr buffer rxLen then some (.caller buffer, rxLen)
    else bounced
  | none => bounced

omit [DecidableEq ι] in
/-- A reply is read in place, or bounced when the part asked for is small. -/
theorem chooseIn_cases {addr : ι → Nat} {rx : Option ι} {rxLen skip cap : Nat} {into : Place ι}
    (chosen : chooseIn addr rx rxLen skip = some (into, cap)) :
    (into = .smallIn ∧ cap = smallInSize ∧ skip + rxLen ≤ smallInSize) ∨
      ∃ buffer, rx = some buffer ∧ into = .caller buffer ∧ cap = rxLen ∧ skip = 0 ∧
        rxLen ≤ 8192 := by
  have bounced : (if skip + rxLen ≤ smallInSize then some (Place.smallIn, smallInSize) else none) =
      some (into, cap) → into = .smallIn ∧ cap = smallInSize ∧ skip + rxLen ≤ smallInSize := by
    intro taken
    split at taken
    · rename_i small
      obtain ⟨rfl, rfl⟩ := Prod.mk.inj (Option.some.inj taken)
      exact ⟨rfl, rfl, small⟩
    · cases taken
  cases rx with
  | none => exact .inl (bounced chosen)
  | some buffer =>
    simp only [chooseIn] at chosen
    split at chosen
    · rename_i place
      obtain ⟨rfl, rfl⟩ := Prod.mk.inj (Option.some.inj chosen)
      exact .inr ⟨buffer, rfl, rfl, rfl, place.1, dmaOk_le place.2.2⟩
    · exact .inl (bounced chosen)

/-- Copy the reply's bytes behind `skip` from the bounce buffer to `rx`, cleared first. -/
def copyOut (rx : ι) (rxLen skip : Nat) (link : Link ι) : Link ι :=
  let cleared := link.store (.caller rx) fun cells => cells.overlay 0 (List.replicate rxLen 0)
  let inRes := link.xs.inRes.toNat
  if skip < inRes then
    cleared.store (.caller rx) fun cells =>
      cells.overlay 0 ((link.bus.mem .smallIn).window skip (min (inRes - skip) rxLen))
  else cleared

/-- The end of `ra_usb_xfer`: the result of the exchange, and the reply in `rx`. -/
def finishXfer (into : Place ι) (rx : Option ι) (rxLen skip : Nat) (link : Link ι) :
    Int × Link ι :=
  if link.xs.result < 0 then (link.xs.result, link)
  else
    match rx with
    | none => (0, link)
    | some buffer =>
      if into ≠ .caller buffer ∧ rxLen ≠ 0 then (0, copyOut buffer rxLen skip link) else (0, link)

/-- What the caller asks to be sent, with its framing pad. -/
def Link.ask (tx : ι) (txLen : Nat) (link : Link ι) : Link ι :=
  { link with message := framed (link.bytes (.caller tx) txLen) }

/-- `ra_usb_xfer` -/
def raUsbXfer (tx : ι) (txLen : Nat) (rx : Option ι) (rxLen skip : Nat) (link : Link ι) :
    Int × Link ι :=
  if !link.up then (raUsbEdead, link)
  else
    -- whatever is still on the wire goes first
    let waited := xsWait link
    if waited.1 < 0 then (raUsbEbusy, waited.2)
    else
      match chooseOut addr tx txLen (waited.2.ask tx txLen) with
      | none => (raUsbEbuf, waited.2)
      | some (out, staged) =>
        let padded := pad out txLen staged
        match chooseIn addr rx rxLen skip with
        | none => (raUsbEbuf, padded.2)
        | some (into, cap) =>
          ifOk (xsPost out padded.1 into cap false padded.2) fun posted =>
            ifOk (xsWait posted) (finishXfer into rx rxLen skip)

/-- `ra_usb_post` -/
def raUsbPost (tx : ι) (txLen : Nat) (rx : ι) (rxCap : Nat) (link : Link ι) : Int × Link ι :=
  if !link.up then (raUsbEdead, link)
  else if link.xs.busy || link.postOpen then (raUsbEbusy, link)
  else if raUsbTxMax < txLen || !dmaOk addr tx (txLen + 1) || !dmaOk addr rx rxCap then
    (raUsbEbuf, link)
  else
    let padded := pad (.caller tx) txLen (link.ask tx txLen)
    ifOk (xsPost (.caller tx) padded.1 (.caller rx) rxCap true padded.2) fun sent =>
      (0, { sent with postOpen := true, postReady := false })

/-- The end of `ra_usb_reap`. -/
def finishReap (link : Link ι) : Int × Link ι :=
  (link.postRes, { link with postOpen := false, postReady := false })

/-- `ra_usb_reap` -/
def raUsbReap (link : Link ι) : Int × Link ι :=
  if !link.postOpen then (raUsbEidle, link)
  else if link.postReady then finishReap link
  else ifOk (xsWait link) finishReap

/-! ## What events, messages and steps keep -/

/-- Whatever events of the bus keep, `after` has from `bus`. -/
def Later (bus after : Bus ι) : Prop :=
  ∀ kept : Bus ι → Prop, (∀ before next, before.Moves next → kept before → kept next) →
    kept bus → kept after

/-- Without a transfer in flight only the queue can change. -/
theorem Later.idle {bus after : Bus ι} (later : Later bus after) (out : bus.outbound = [])
    (into : bus.inbound = []) :
    ∃ queue, after = { bus with queue := queue } ∧
      queue.count .outRecord = bus.queue.count .outRecord ∧
      queue.count .inRecord = bus.queue.count .inRecord := by
  refine later (fun after => ∃ queue, after = { bus with queue := queue } ∧
    queue.count .outRecord = bus.queue.count .outRecord ∧
    queue.count .inRecord = bus.queue.count .inRecord) ?_ ⟨bus.queue, rfl, rfl, rfl⟩
  rintro _ next moves ⟨queue, rfl, outSame, inSame⟩
  obtain ⟨queue', rfl, outSame', inSame'⟩ := moves.idle out into
  exact ⟨queue', rfl, outSame'.trans outSame, inSame'.trans inSame⟩

/-- Settling is what the other side does. -/
theorem settle_later (script : List Step) (bus : Bus ι) : Later bus (settle script bus).2.2 := by
  intro kept moves before
  induction script generalizing bus with
  | nil => exact before
  | cons step later ih =>
    cases step with
    | bus event => exact ih _ (moves _ _ (bus.apply_moves event) before)
    | resume => exact before
    | refuse code => exact before

/-- What the bus, the messages and the timer keep, a wait keeps. -/
structure WaitKeeps (kept : Link ι → Prop) : Prop where
  event : ∀ link happening, kept link → kept { link with bus := link.bus.apply happening }
  message : ∀ link message queue, link.bus.queue = message :: queue → kept link →
    kept (consume (link.left queue) message)
  timer : ∀ link tok later, kept link → kept { link with tok := tok, script := later }

namespace WaitKeeps

variable {kept : Link ι → Prop} (keeps : WaitKeeps kept)

include keeps

/-- What a drain of the queue keeps. -/
theorem drain (tok : UInt32) (queue : List Message) (link : Link ι) (all : link.bus.queue = queue)
    (before : kept link) : kept (drain tok queue link) := by
  induction queue generalizing link with
  | nil =>
    have same : link.left [] = link := by rw [Link.left, ← all]
    rwa [Usb.drain, same]
  | cons message queue ih =>
    have same : link.left (message :: queue) = link := by rw [Link.left, ← all]
    rw [Usb.drain]
    split
    · rwa [same]
    · split
      · rename_i own
        have taken := keeps.message link message queue all before
        rwa [own] at taken
      · refine ih _ ?_ (keeps.message link message queue all before)
        cases message <;> rfl

/-- What the loop of the wait keeps. -/
theorem waitLoop (tok : UInt32) (script : List Step) (link : Link ι) (before : kept link) :
    kept (waitLoop tok script link) := by
  induction script generalizing link with
  | nil => exact keeps.drain tok _ _ rfl (keeps.timer _ link.tok _ before)
  | cons step later ih =>
    have go : kept (match link.bus.queue with
        | [] => Usb.waitLoop tok later link
        | message :: queue =>
          if message = .token tok then { link.left queue with script := later }
          else Usb.waitLoop tok later (consume (link.left queue) message)) := by
      split
      · exact ih _ before
      · rename_i message queue all
        have taken := keeps.message link message queue all before
        split
        · rename_i own
          rw [own] at taken
          exact keeps.timer _ (link.left queue).tok _ taken
        · exact ih _ taken
    cases step with
    | bus happening =>
      rw [Usb.waitLoop]
      split
      · exact keeps.timer _ link.tok _ before
      · exact ih _ (keeps.event _ _ before)
    | resume | refuse code =>
      rw [Usb.waitLoop]
      split
      · exact keeps.timer _ link.tok _ before
      · exact go

end WaitKeeps

/-- What a wait came to: it had nothing to wait for, it saw both completions, or it left
the exchange on the wire. -/
inductive WaitEnds (link : Link ι) : Int × Link ι → Prop where
  | free (idle : link.xs.busy = false) : WaitEnds link (0, link)
  | done (busy : link.xs.busy = true) {waited : Link ι} (both : waited.xs.done = true)
    (keeps : ∀ kept, WaitKeeps kept → kept link → kept waited) :
    WaitEnds link (0, settleExchange waited)
  | timeout (busy : link.xs.busy = true) {waited : Link ι}
    (keeps : ∀ kept, WaitKeeps kept → kept link → kept waited) :
    WaitEnds link (raUsbEtimeout, waited)

/-- How a wait ends. -/
theorem xsWait_ends (link : Link ι) : WaitEnds link (xsWait link) := by
  unfold xsWait
  split
  · rename_i idle
    exact .free (by simpa using idle)
  · rename_i busy
    have busy : link.xs.busy = true := by simpa using busy
    have keeps : ∀ kept, WaitKeeps kept → kept link →
        kept (waitLoop ((link.tok + 1) &&& 0xFFFF) link.script { link with tok := link.tok + 1 }) :=
      fun kept keeps before =>
        keeps.waitLoop _ _ _ (keeps.timer link (link.tok + 1) link.script before)
    simp only
    split
    · rename_i both
      exact .done busy both keeps
    · exact .timeout busy keeps

/-- What IOS did with a transfer the module asked for. -/
inductive AskEnds (endpoint : Endpoint) (len : Nat) (data : Place ι) (link : Link ι) :
    Int × Link ι → Prop where
  | refused {r : Int} (failed : r < 0) (script : List Step) {bus : Bus ι}
    (later : Later (link.bus.reqFill endpoint len data) bus) :
    AskEnds endpoint len data link (r, { link with script := script, bus := bus })
  | taken {r : Int} (fine : ¬ r < 0) (script : List Step) {bus : Bus ι}
    (later : Later (link.bus.reqFill endpoint len data) bus) :
    AskEnds endpoint len data link
      (r, { link with script := script, bus := bus.takeOn endpoint link.serial })

/-- How asking for a transfer ends. -/
theorem bulkAsync_ends (endpoint : Endpoint) (len : Nat) (data : Place ι) (link : Link ι) :
    AskEnds endpoint len data link (bulkAsync endpoint len data link) := by
  have later := settle_later link.script (link.bus.reqFill endpoint len data)
  unfold bulkAsync
  split
  rename_i r script bus result
  rw [result] at later
  split
  · rename_i failed
    exact .refused failed script later
  · rename_i fine
    exact .taken fine script later

/-- What became of a request whose reply is waited for. -/
inductive SendEnds (out : Place ι) (outLen : Nat) (listening : Link ι) : Int × Link ι → Prop where
  | refused (r : Int) (script : List Step) {bus : Bus ι}
    (later : Later (listening.bus.reqFill .epOut (outLen % 65536) out) bus) :
    SendEnds out outLen listening
      (raUsbEdead, { listening with
        xs := { listening.xs with busy := true, outDone := true, outRes := r }
        dead := true, script := script, bus := bus })
  | sent (script : List Step) {bus : Bus ι}
    (later : Later (listening.bus.reqFill .epOut (outLen % 65536) out) bus) :
    SendEnds out outLen listening
      (0, { listening with
        xs := { listening.xs with busy := true }
        script := script, bus := bus.takeOn .epOut listening.serial })

/-- How sending a request ends. -/
theorem sendOut_ends (out : Place ι) (outLen : Nat) (listening : Link ι) :
    SendEnds out outLen listening (sendOut out outLen listening) := by
  have asked := bulkAsync_ends .epOut (outLen % 65536) out
    { listening with xs := { listening.xs with busy := true } }
  unfold sendOut
  generalize bulkAsync .epOut (outLen % 65536) out
    { listening with xs := { listening.xs with busy := true } } = sent at asked ⊢
  cases asked with
  | refused failed script later =>
    simp only [if_pos failed]
    exact .refused _ script later
  | taken fine script later =>
    simp only [if_neg fine]
    exact .sent script later

/-- What posting came to: it was rejected, IOS refused the read, or the request was
handed to IOS behind the read. -/
inductive PostEnds (out : Place ι) (outLen : Nat) (into : Place ι) (inCap : Nat) (isPost : Bool)
    (link : Link ι) : Int × Link ι → Prop where
  | rejected {r : Int} (failed : r < 0) : PostEnds out outLen into inCap isPost link (r, link)
  | refused (idle : link.xs.busy = false) {r : Int} (failed : r < 0) (script : List Step)
    {bus : Bus ι} (later : Later (link.bus.reqFill .epIn (inCap % 65536) into) bus) :
    PostEnds out outLen into inCap isPost link
      (r, { link.setOut outLen into inCap isPost with script := script, bus := bus })
  | asked (idle : link.xs.busy = false) (script : List Step) {bus : Bus ι}
    (later : Later (link.bus.reqFill .epIn (inCap % 65536) into) bus) {ended : Int × Link ι}
    (ends : SendEnds out outLen { link.setOut outLen into inCap isPost with
      script := script, bus := bus.takeOn .epIn (link.serial + 1) } ended) :
    PostEnds out outLen into inCap isPost link ended

/-- How putting an exchange on the bus ends. -/
theorem xsPost_ends (out : Place ι) (outLen : Nat) (into : Place ι) (inCap : Nat) (isPost : Bool)
    (link : Link ι) :
    PostEnds out outLen into inCap isPost link (xsPost out outLen into inCap isPost link) := by
  unfold xsPost
  split
  · exact .rejected (by decide)
  · split
    · exact .rejected (by decide)
    · rename_i idle
      have idle : link.xs.busy = false := by simpa using idle
      have asked := bulkAsync_ends .epIn (inCap % 65536) into
        (link.setOut outLen into inCap isPost)
      unfold ifOk
      generalize bulkAsync .epIn (inCap % 65536) into (link.setOut outLen into inCap isPost) =
        listening at asked ⊢
      cases asked with
      | refused failed script later =>
        rw [if_pos failed]
        exact .refused idle failed script later
      | taken fine script later =>
        rw [if_neg fine]
        exact .asked idle script later (sendOut_ends out outLen _)

/-- What waiting leaves alone. -/
structure Stays (link after : Link ι) : Prop where
  up : after.up = link.up
  dead : after.dead = link.dead
  busy : after.xs.busy = link.xs.busy
  isPost : after.xs.isPost = link.xs.isPost
  outLen : after.xs.outLen = link.xs.outLen
  inBuf : after.xs.inBuf = link.xs.inBuf
  inCap : after.xs.inCap = link.xs.inCap
  postOpen : after.postOpen = link.postOpen
  postReady : after.postReady = link.postReady
  postRes : after.postRes = link.postRes
  outData : after.bus.reqOut.data = link.bus.reqOut.data
  serial : after.serial = link.serial
  message : after.message = link.message
  stores : after.stores = link.stores

omit [DecidableEq ι] in
theorem Stays.refl (link : Link ι) : Stays link link := by constructor <;> rfl

/-- What stays over a wait. -/
theorem stays_keeps (link : Link ι) : WaitKeeps (Stays link) where
  event before happening stays := by
    have moves := before.bus.apply_moves happening
    exact { stays with outData := moves.outData.trans stays.outData }
  message before message queue all stays := by
    cases message <;> exact { stays with }
  timer _ _ _ stays := { stays with }

end Machine

end D2xCios.Usb
