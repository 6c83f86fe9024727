import D2xCios.Ra.Steps
import D2xCios.Usb.Link

/-!
# Who owns a buffer

The main loop over the USB link. From the post of an exchange until both its
completions are consumed its two buffers belong to the bus, and a store of the module's
to one of them corrupts a message. The link itself stores between exchanges only, so it
all rests with the functions that build a request and clear the buffer for its reply:
they do not ask whether an exchange that timed out still uses that buffer.
`untouched_iff` says exactly when a run is free of such stores.
-/

namespace D2xCios.Usb

open D2xCios.Lib D2xCios.Ra

/-- The buffers the main program hands to the link: statics, and the stack. -/
inductive Area where
  | static (buffer : Buffer)
  | request
  | reply
  deriving DecidableEq

/-- The size of a static buffer. -/
def bufferSize : Buffer → Nat
  | .snapTx => 8192
  | .snapRx => raSnapRxBufSz
  | .chunkRx => 6 + 6 + 8 + 1024 * 4 + 4

/-- The link, and what each look at game memory will find. -/
structure UsbIo where
  link : Link Area
  images : Nat → PpcImage

namespace UsbIo

/-- What the main program stores to a static buffer: a reply buffer is cleared, and the
request's bytes are known once it is handed to the link. -/
def built (buffer : Buffer) (cells : Mem) : Mem :=
  match buffer with
  | .snapTx => cells
  | _ => fun i => if i < bufferSize buffer then 0 else cells i

/-- The contents of a buffer that a request was built in. The stores to a static buffer
were made when it was built. -/
def hold (area : Area) (bytes : List UInt8) (link : Link Area) : Link Area :=
  { link with bus := link.bus.store (.caller area) fun cells => cells.overlay 0 bytes }

/-- Where a request with the reply in `rx` is built. -/
def requestArea : Buffer → Area
  | .chunkRx => .request
  | _ => .static .snapTx

/-- The outcome of a call: the contents of the reply's buffer, or the error. -/
def outcome (area : Area) (done : Int × Link Area) : Except Int Mem :=
  if done.1 = 0 then .ok (done.2.bus.mem (.caller area)) else .error done.1

end UsbIo

open UsbIo

/-- The outside of the main program in a USB build. -/
def usbPort (addr : Area → Nat) : Port UsbIo where
  ppc io := (io.images 0, { io with images := fun n => io.images (n + 1) })
  store buffer io := { io with link := io.link.store (.caller (.static buffer)) (built buffer) }
  send tx rxLen io :=
    let done := raUsbXfer addr .request tx.length (some .reply) rxLen tx.length
      (hold .request tx io.link)
    (outcome .reply done, { io with link := done.2 })
  phaseB tx rx io :=
    let done := raUsbXfer addr (requestArea rx) tx.length (some (.static rx)) (bufferSize rx) 0
      (hold (requestArea rx) tx io.link)
    (outcome (.static rx) done, { io with link := done.2 })
  debug tx io :=
    { io with link := (raUsbXfer addr .request tx.length none 0 0 (hold .request tx io.link)).2 }
  post tx io :=
    let done := raUsbPost addr (.static .snapTx) tx.length (.static .snapRx) raSnapRxBufSz
      (hold (.static .snapTx) tx io.link)
    (if done.1 < 0 then .error done.1 else .ok (), { io with link := done.2 })
  posted io := io.link.postOpen
  reap io :=
    let done := raUsbReap io.link
    (outcome (.static .snapRx) done, { io with link := done.2 })
  inFlight io :=
    if io.link.xs.busy then
      match io.link.xs.inBuf with
      | .caller (.static buffer) => some buffer
      | _ => none
    else none

/-- A store that left the buffers of the exchange on the wire alone. -/
def Store.Harmless {ι : Type} (store : Store ι) : Prop :=
  ∀ out into, store.wire = some (out, into) → store.place ≠ out ∧ store.place ≠ into

/-- The module never stored to a buffer of the exchange on the wire. -/
def Untouched {ι : Type} (link : Link ι) : Prop := ∀ store ∈ link.stores, store.Harmless

/-! ## What the link stores -/

section Stores

variable {ι : Type} {link after : Link ι}

/-- All stores in between were made while nothing was on the wire. -/
def Aside (link after : Link ι) : Prop :=
  ∃ new, after.stores = new ++ link.stores ∧ ∀ store ∈ new, store.wire = none

namespace Aside

/-- Without a store nothing is touched. -/
theorem same (stores : after.stores = link.stores) : Aside link after := ⟨[], stores, nofun⟩

theorem trans {middle : Link ι} (early : Aside link middle) (late : Aside middle after) :
    Aside link after := by
  obtain ⟨first, firstStores, firstNone⟩ := early
  obtain ⟨second, secondStores, secondNone⟩ := late
  refine ⟨second ++ first, by rw [secondStores, firstStores, List.append_assoc], ?_⟩
  intro store member
  rcases List.mem_append.mp member with member | member
  · exact secondNone store member
  · exact firstNone store member

/-- Such stores touch nothing. -/
theorem untouched (aside : Aside link after) : Untouched after ↔ Untouched link := by
  obtain ⟨new, stores, none⟩ := aside
  constructor
  · intro untouched store member
    exact untouched store (by rw [stores]; exact List.mem_append_right _ member)
  · intro untouched store member
    rw [stores] at member
    rcases List.mem_append.mp member with member | member
    · intro out into wire
      rw [none store member] at wire
      cases wire
    · exact untouched store member

theorem store [DecidableEq ι] (free : link.xs.busy = false) (place : Place ι) (update : Mem → Mem) :
    Aside link (link.store place update) := by
  refine ⟨[_], rfl, ?_⟩
  intro entry member
  rw [List.mem_singleton.mp member]
  simp [Link.wire, free]

end Aside

/-- All stores in between were made aside, and an exchange that is on the wire now was
so before, or is `fresh`. -/
structure Effect (fresh : Place ι → Place ι → Prop) (link after : Link ι) : Prop where
  aside : Aside link after
  wire : ∀ out into, after.wire = some (out, into) → link.wire = some (out, into) ∨ fresh out into

namespace Effect

variable {fresh : Place ι → Place ι → Prop}

theorem refl (link : Link ι) : Effect fresh link link := ⟨.same rfl, fun _ _ wire => .inl wire⟩

theorem trans {middle : Link ι} (early : Effect fresh link middle)
    (late : Effect fresh middle after) : Effect fresh link after := by
  refine ⟨early.aside.trans late.aside, fun out into wire => ?_⟩
  rcases late.wire out into wire with wire | new
  · exact early.wire out into wire
  · exact .inr new

/-- What is done while no exchange is in flight is an effect. -/
theorem free (aside : Aside link after) (idle : after.xs.busy = false) :
    Effect fresh link after := by
  refine ⟨aside, fun out into wire => ?_⟩
  simp [Link.wire, idle] at wire

end Effect

variable [DecidableEq ι] {fresh : Place ι → Place ι → Prop}

/-- The effect of the wait. -/
theorem xsWait_effect (link : Link ι) : Effect fresh link (xsWait link).2 := by
  have ends := xsWait_ends link
  generalize xsWait link = ended at ends ⊢
  cases ends with
  | free idle => exact .refl link
  | @done busy waited both keeps =>
    have stays := keeps _ (stays_keeps link) (.refl link)
    refine .free (.same ?_) ?_
    · rw [← stays.stores]
      unfold settleExchange
      split <;> rfl
    · unfold settleExchange
      split <;> rfl
  | @timeout busy waited keeps =>
    have stays := keeps _ (stays_keeps link) (.refl link)
    refine ⟨.same stays.stores, fun out into wire => .inl ?_⟩
    rw [← wire, Link.wire, Link.wire, stays.busy, stays.outData, stays.inBuf]

/-- A wait that succeeds leaves no exchange in flight. -/
theorem xsWait_free (fine : ¬ (xsWait link).1 < 0) : (xsWait link).2.xs.busy = false := by
  have ends := xsWait_ends link
  generalize xsWait link = ended at ends fine ⊢
  cases ends with
  | free idle => exact idle
  | done busy both keeps =>
    unfold settleExchange
    split <;> rfl
  | timeout busy keeps => exact absurd raUsbEtimeout_neg fine

/-- The buffer of a transfer stays the one it was asked for with. -/
theorem Later.outData {bus after : Bus ι} (later : Later bus after) :
    after.reqOut.data = bus.reqOut.data :=
  later (fun after => after.reqOut.data = bus.reqOut.data)
    (fun _ _ moves same => moves.outData.trans same) rfl

/-- The effect of putting an exchange on the bus. -/
theorem xsPost_effect (out into : Place ι) (outLen inCap : Nat) (isPost : Bool)
    (link : Link ι) (allowed : fresh out into) :
    Effect fresh link (xsPost out outLen into inCap isPost link).2 := by
  have ends := xsPost_ends out outLen into inCap isPost link
  generalize xsPost out outLen into inCap isPost link = ended at ends ⊢
  cases ends with
  | rejected failed => exact .refl link
  | refused idle failed script later => exact .free (.same rfl) rfl
  | asked idle script later sends =>
    cases sends with
    | refused r script later =>
      refine ⟨.same rfl, fun out' into' wire => .inr ?_⟩
      have data := later.outData
      simp only [Link.wire, if_true, data, Bus.reqFill, Link.setOut, Option.some.injEq,
        Prod.mk.injEq] at wire
      obtain ⟨rfl, rfl⟩ := wire
      exact allowed
    | sent script later =>
      refine ⟨.same rfl, fun out' into' wire => .inr ?_⟩
      have data := later.outData
      simp only [Link.wire, if_true, Bus.takeOn, data, Bus.reqFill, Link.setOut,
        Option.some.injEq, Prod.mk.injEq] at wire
      obtain ⟨rfl, rfl⟩ := wire
      exact allowed

/-- The effect of padding. -/
theorem pad_effect (out : Place ι) (len : Nat) (free : link.xs.busy = false) :
    Effect fresh link (pad out len link).2 := by
  unfold pad
  split
  · exact .free (.store free _ _) free
  · exact .refl link

/-- The effect of staging a request. -/
theorem chooseOut_effect {addr : ι → Nat} {tx : ι} {txLen : Nat} {out : Place ι}
    (free : link.xs.busy = false) (chosen : chooseOut addr tx txLen link = some (out, after)) :
    Effect fresh link after ∧ after.xs.busy = false ∧ (out = .smallOut ∨ out = .caller tx) := by
  unfold chooseOut at chosen
  split at chosen
  · obtain ⟨rfl, rfl⟩ := Prod.mk.inj (Option.some.inj chosen)
    exact ⟨.free (.store free _ _) free, free, .inl rfl⟩
  · split at chosen
    · obtain ⟨rfl, rfl⟩ := Prod.mk.inj (Option.some.inj chosen)
      exact ⟨.refl link, free, .inr rfl⟩
    · cases chosen

/-- The effect of the end of an exchange. -/
theorem finishXfer_effect (into : Place ι) (rx : Option ι) (rxLen skip : Nat)
    (free : link.xs.busy = false) : Effect fresh link (finishXfer into rx rxLen skip link).2 := by
  unfold finishXfer
  split
  · exact .refl link
  · cases rx with
    | none => exact .refl link
    | some buffer =>
      simp only
      split
      · unfold copyOut
        simp only
        split
        · have cleared := Aside.store free (.caller buffer)
            fun cells => cells.overlay 0 (List.replicate rxLen 0)
          have stillFree : (link.store (.caller buffer)
            fun cells => cells.overlay 0 (List.replicate rxLen 0)).xs.busy = false := free
          exact .free (cleared.trans (.store stillFree _ _)) free
        · exact .free (.store free _ _) free
      · exact .refl link

/-- The effect of a blocking exchange. -/
theorem raUsbXfer_effect (addr : ι → Nat) (tx : ι) (txLen : Nat) (rx : Option ι)
    (rxLen skip : Nat) (link : Link ι)
    (allowed : ∀ out into, (out = .smallOut ∨ out = .caller tx) →
      ((into = .smallIn ∧ skip + rxLen ≤ smallInSize) ∨
        ∃ buffer, rx = some buffer ∧ into = .caller buffer) → fresh out into) :
    Effect fresh link (raUsbXfer addr tx txLen rx rxLen skip link).2 := by
  unfold raUsbXfer
  split
  · exact .refl link
  · have waited : Effect fresh link (xsWait link).2 := xsWait_effect link
    simp only
    split
    · exact waited
    · rename_i fine
      have free := xsWait_free fine
      split
      · exact waited
      · rename_i out staged chosenOut
        have asked : Effect fresh (xsWait link).2 ((xsWait link).2.ask tx txLen) :=
          .free (.same rfl) free
        have askedFree : ((xsWait link).2.ask tx txLen).xs.busy = false := free
        obtain ⟨copied, stagedFree, outPlace⟩ := chooseOut_effect askedFree chosenOut
        have padded : Effect fresh _ _ := pad_effect out txLen stagedFree
        have ready := waited.trans (asked.trans (copied.trans padded))
        split
        · exact ready
        · rename_i into cap chosenIn
          have inPlace : (into = .smallIn ∧ skip + rxLen ≤ smallInSize) ∨
              ∃ buffer, rx = some buffer ∧ into = .caller buffer := by
            rcases chooseIn_cases chosenIn with ⟨rfl, -, small⟩ | ⟨buffer, same, rfl, -⟩
            · exact .inl ⟨rfl, small⟩
            · exact .inr ⟨buffer, same, rfl⟩
          have posted := ready.trans (xsPost_effect out into (pad out txLen staged).1 cap false
            (pad out txLen staged).2 (allowed out into outPlace inPlace))
          unfold ifOk
          split
          · exact posted
          · beta_reduce
            have replied := posted.trans (xsWait_effect _)
            split
            · exact replied
            · rename_i fine
              exact replied.trans (finishXfer_effect into rx rxLen skip (xsWait_free fine))

/-- The effect of a posted exchange. -/
theorem raUsbPost_effect (addr : ι → Nat) (tx : ι) (txLen : Nat) (rx : ι) (rxCap : Nat)
    (link : Link ι) (allowed : fresh (.caller tx) (.caller rx)) :
    Effect fresh link (raUsbPost addr tx txLen rx rxCap link).2 := by
  unfold raUsbPost
  split
  · exact .refl link
  · split
    · exact .refl link
    · rename_i idle
      have free : (link.ask tx txLen).xs.busy = false := by
        have idle : link.xs.busy = false ∧ link.postOpen = false := by simpa using idle
        exact idle.1
      split
      · exact .refl link
      · have asked : Effect fresh link (link.ask tx txLen) := .free (.same rfl) free
        have padded : Effect fresh _ _ := pad_effect (.caller tx) txLen free
        have posted := (asked.trans padded).trans (xsPost_effect (.caller tx) (.caller rx)
          (pad (.caller tx) txLen (link.ask tx txLen)).1 rxCap true _ allowed)
        simp only [ifOk]
        split
        · exact posted
        · exact posted.trans ⟨.same rfl, fun _ _ wire => .inl wire⟩

/-- The effect of collecting a posted exchange. -/
theorem raUsbReap_effect (link : Link ι) : Effect fresh link (raUsbReap link).2 := by
  have finish : ∀ before : Link ι, Effect fresh before (finishReap before).2 := fun _ =>
    ⟨.same rfl, fun _ _ wire => .inl wire⟩
  unfold raUsbReap
  split
  · exact .refl link
  · split
    · exact finish link
    · unfold ifOk
      split
      · exact xsWait_effect link
      · exact (xsWait_effect link).trans (finish _)

end Stores

/-! ## Runs of the main loop -/

/-- What the link may have on the wire: static buffers are replied into, and a request
leaves `ra_snap_tx_buf` only with its reply in `ra_snap_rx_buf`. -/
def Shaped (out into : Place Area) : Prop :=
  (∀ buffer, out = .caller (.static buffer) → buffer = .snapTx ∧
    into = .caller (.static .snapRx)) ∧ into ≠ .caller (.static .snapTx)

/-- A function sets out to build a request while no reply is on its way into the buffer
it clears. -/
def Clear : Event → Prop
  | .begins rx wire => wire ≠ some rx
  | _ => True

/-- What is known behind any step: the exchange on the wire is in shape, and no store
touched its buffers unless a function set out too early. -/
structure Owned (state : UsbIo × List Event) : Prop where
  shaped : ∀ out into, state.1.link.wire = some (out, into) → Shaped out into
  untouched : Untouched state.1.link ↔ ∀ event ∈ state.2, Clear event

namespace Owned

variable {io : UsbIo} {trace : List Event}

/-- A step of the link itself. -/
theorem effect (owned : Owned (io, trace)) {after : Link Area}
    (effect : Effect Shaped io.link after) {events : List Event}
    (clear : (∀ event ∈ events, Clear event) ↔ ∀ event ∈ trace, Clear event) :
    Owned ({ io with link := after }, events) where
  shaped out into wire := by
    rcases effect.wire out into wire with wire | new
    · exact owned.shaped out into wire
    · exact new
  untouched := (effect.aside.untouched.trans owned.untouched).trans clear.symm

/-- An entry that is clear changes nothing. -/
theorem clear_cons {event : Event} (clear : Clear event) :
    (∀ entry ∈ event :: trace, Clear entry) ↔ ∀ entry ∈ trace, Clear entry := by
  simp [clear]

/-- The reply buffer the port reports is the one of the exchange on the wire. -/
theorem inFlight_wire (addr : Area → Nat) (io : UsbIo) :
    (usbPort addr).inFlight io =
      match io.link.wire with
      | some (_, .caller (.static buffer)) => some buffer
      | _ => none := by
  simp only [usbPort, Link.wire]
  cases io.link.xs.busy with
  | false => rfl
  | true =>
    cases io.link.xs.inBuf with
    | caller area => cases area <;> rfl
    | smallOut => rfl
    | smallIn => rfl

/-- The stores of a function that builds a request do no harm exactly when the function
does not set out too early. -/
theorem harmless (owned : Owned (io, trace)) (addr : Area → Nat) {rx : Buffer}
    (reply : rx ≠ .snapTx) :
    (Store.Harmless ⟨.caller (.static rx), io.link.wire⟩ ∧
      (rx = .snapRx → Store.Harmless ⟨.caller (.static .snapTx), io.link.wire⟩)) ↔
      (usbPort addr).inFlight io ≠ some rx := by
  cases wire : io.link.wire with
  | none => simp [Store.Harmless, inFlight_wire, wire]
  | some places =>
    obtain ⟨out, into⟩ := places
    obtain ⟨outShape, intoShape⟩ := owned.shaped out into wire
    have outOther : out ≠ .caller (.static rx) := fun same => reply (outShape rx same).1
    have free : (usbPort addr).inFlight io ≠ some rx ↔ Place.caller (.static rx) ≠ into := by
      rw [inFlight_wire, wire]
      cases into with
      | caller area => cases area <;> simp [eq_comm]
      | smallOut => simp
      | smallIn => simp
    rw [free]
    constructor
    · rintro ⟨harmless, -⟩
      exact (harmless out into rfl).2
    · intro apart
      refine ⟨?_, ?_⟩
      · rintro _ _ ⟨⟩
        exact ⟨outOther.symm, apart⟩
      · rintro rfl _ _ ⟨⟩
        refine ⟨fun same => ?_, intoShape.symm⟩
        exact apart (outShape .snapTx same.symm).2.symm

/-- Storing to a static buffer. -/
theorem untouched_store {link : Link Area} (place : Place Area) (update : Mem → Mem) :
    Untouched (link.store place update) ↔
      Store.Harmless ⟨place, link.wire⟩ ∧ Untouched link := by
  simp [Untouched, Link.store]

/-- A snapshot is built while nothing is in flight from its buffer. -/
theorem build (owned : Owned (io, trace)) (addr : Area → Nat) {rx : Buffer}
    (reply : rx ≠ .snapTx) :
    Owned (buildStores (usbPort addr) rx io,
      .begins rx ((usbPort addr).inFlight io) :: trace) := by
  have harmless := owned.harmless addr reply
  have clear : (∀ event ∈ Event.begins rx ((usbPort addr).inFlight io) :: trace, Clear event) ↔
      (usbPort addr).inFlight io ≠ some rx ∧ ∀ event ∈ trace, Clear event := by
    rw [List.forall_mem_cons]
    rfl
  cases rx with
  | snapTx => exact absurd rfl reply
  | chunkRx =>
    refine ⟨owned.shaped, ?_⟩
    rw [clear, ← harmless, ← owned.untouched]
    change Untouched (io.link.store _ _) ↔ _
    rw [untouched_store]
    simp
  | snapRx =>
    refine ⟨owned.shaped, ?_⟩
    rw [clear, ← harmless, ← owned.untouched]
    change Untouched ((io.link.store _ _).store _ _) ↔ _
    rw [untouched_store, untouched_store]
    have wire : ∀ update, (io.link.store (.caller (.static .snapTx)) update).wire = io.link.wire :=
      fun _ => rfl
    rw [wire]
    simp [and_assoc]

/-- A run's step. -/
theorem step (addr : Area → Nat) {loop : MainLoop} {before after : UsbIo × List Event}
    (owned : Owned before) (step : OutsideStep (usbPort addr) loop before after) :
    Owned after := by
  have held : ∀ (area : Area) (bytes : List UInt8) (link : Link Area),
      Effect Shaped link (hold area bytes link) := fun _ _ _ =>
    ⟨.same rfl, fun _ _ wire => .inl wire⟩
  have stack : ∀ out into : Place Area, (out = .smallOut ∨ out = .caller .request) →
      into ≠ .caller (.static .snapTx) → Shaped out into := by
    rintro out into (rfl | rfl) apart
    · exact ⟨nofun, apart⟩
    · exact ⟨nofun, apart⟩
  cases step with
  | build rx reply => exact owned.build addr reply
  | exchange view tx rx reply =>
    refine owned.effect ((held _ _ _).trans (raUsbXfer_effect addr _ _ _ _ _ _ ?_))
      (clear_cons trivial)
    intro out into outPlace inPlace
    cases rx with
    | snapTx => exact absurd rfl reply
    | chunkRx =>
      refine stack out into outPlace ?_
      rcases inPlace with ⟨rfl, -⟩ | ⟨buffer, same, rfl⟩
      · nofun
      · cases same
        nofun
    | snapRx =>
      rcases inPlace with ⟨-, small⟩ | ⟨buffer, same, rfl⟩
      · exact absurd small (by decide)
      · cases same
        refine ⟨fun buffer same => ⟨?_, rfl⟩, nofun⟩
        rcases outPlace with rfl | rfl
        · cases same
        · cases same
          rfl
  | send view tx rxLen =>
    refine owned.effect ((held _ _ _).trans (raUsbXfer_effect addr _ _ _ _ _ _ ?_))
      (clear_cons trivial)
    intro out into outPlace inPlace
    refine stack out into outPlace ?_
    rcases inPlace with ⟨rfl, -⟩ | ⟨buffer, same, rfl⟩
    · nofun
    · cases same
      nofun
  | debug view tx =>
    refine owned.effect ((held _ _ _).trans (raUsbXfer_effect addr _ _ _ _ _ _ ?_))
      (clear_cons trivial)
    intro out into outPlace inPlace
    refine stack out into outPlace ?_
    rcases inPlace with ⟨rfl, -⟩ | ⟨buffer, same, rfl⟩
    · nofun
    · cases same
  | post view tx order =>
    refine owned.effect ((held _ _ _).trans (raUsbPost_effect addr _ _ _ _ _ ?_))
      (clear_cons trivial)
    refine ⟨fun buffer same => ?_, nofun⟩
    cases same
    exact ⟨rfl, rfl⟩
  | reap order => exact owned.effect (raUsbReap_effect _) Iff.rfl
  | @note io trace event other =>
    refine ⟨owned.shaped, owned.untouched.trans (clear_cons ?_).symm⟩
    cases event with
    | begins rx wire => exact absurd trivial other
    | _ => trivial

/-- A run. -/
theorem run (addr : Area → Nat) {loop : MainLoop} {before after : UsbIo × List Event}
    (steps : Relation.ReflTransGen (OutsideStep (usbPort addr) loop) before after)
    (owned : Owned before) : Owned after := by
  induction steps with
  | refl => exact owned
  | tail _ next ih => exact ih.step addr next

end Owned

/-- The main program at power-on, over a USB link. -/
def usbBoot (up : Bool) (mem : Place Area → Mem) (script : List Step) (images : Nat → PpcImage) :
    UsbIo :=
  ⟨.boot up mem script, images⟩

/-- Over any bus the pipelined loop leaves the buffers of the exchange on the wire alone
exactly when no function sets out to build a request whose reply buffer is in use. -/
theorem untouched_iff (addr : Area → Nat) (up : Bool) (mem : Place Area → Mem)
    (script : List Step) (images : Nat → PpcImage) (ctrs : List UInt32) :
    Untouched (runLoop (usbPort addr) .pipelined (usbBoot up mem script images) ctrs).io.link ↔
      ∀ event ∈ (runLoop (usbPort addr) .pipelined (usbBoot up mem script images) ctrs).trace,
        Clear event := by
  have start := powerOn_quietly (usbPort addr) .pipelined .usb (usbBoot up mem script images)
  have loop := runLoop_advances (usbPort addr) .pipelined (usbBoot up mem script images) ctrs
  have boot : Owned (usbBoot up mem script images, []) :=
    ⟨nofun, by simp [Untouched, usbBoot, Link.boot]⟩
  exact ((boot.run addr start.outside).run addr loop.outside).untouched

/-- Nothing gets through at power-on. Then a snapshot brings a query for one address, the
answer goes out, and no reply to it comes. -/
def unrepliedScript : List Step :=
  List.replicate 14 (.refuse 0) ++
    [.resume, .resume,
      .bus (.receive [raMagicEspToGc, 0, raEvtAddrQuery, 1, 0, 0, 0, 1, 0, 0, 0x10, 0]),
      .bus (.outDone 20), .bus .answer, .resume, .resume]

/-- The next round of the fire clears the buffer the first answer's reply is on its way to. -/
theorem unreplied_answer_overwritten :
    ¬ ∀ (script : List Step) (ctrs : List UInt32),
      Untouched (runLoop (usbPort fun _ => 0) .pipelined
        (usbBoot true (fun _ _ => 0) script fun _ _ => 0) ctrs).io.link := by
  intro claimed
  have cleared : (⟨.caller (.static .snapRx), some (.smallOut, .caller (.static .snapRx))⟩ :
      Store Area) ∈ (runLoop (usbPort fun _ => 0) .pipelined
        (usbBoot true (fun _ _ => 0) unrepliedScript fun _ _ => 0) [1, 2]).io.link.stores := by
    decide +kernel
  exact (claimed unrepliedScript [1, 2] _ cleared _ _ rfl).2 rfl

end D2xCios.Usb
