import D2xCios.Usb.Link

/-!
# Whose reply it is

Calls of the link, over any order of bus events, late timer tokens and timeouts. The
link matches a reply with its request by order alone: the answer that arrives next is
taken for the answer to the exchange on the wire. `Tracked` says what makes that right,
for an exchange with `out` OUT and `into` IN transfers, and every function of the link
keeps it, as long as no read ends without taking its answer along (`Bus.orderly`) and
callers leave a posted reply buffer alone. A read that fails while the adapter still
owes its answer shifts every later reply by one: `stale_reply_returned`.
-/

namespace D2xCios.Usb

open D2xCios.Lib

/-! ## Calls and what they return -/

/-- A call of the link. -/
inductive Call (ι : Type) where
  | xfer (tx : ι) (txLen : Nat) (rx : Option ι) (rxLen skip : Nat)
  | post (tx : ι) (txLen : Nat) (rx : ι) (rxCap : Nat)
  | reap

/-- A posted exchange. -/
structure Posted (ι : Type) where
  serial : Nat
  request : List UInt8
  rx : ι
  cap : Nat

/-- An exchange whose result a call has returned. -/
structure Return where
  /-- The exchange this very call put on the wire, or that was posted. -/
  serial : Nat
  /-- The message it asked to be sent. -/
  request : List UInt8
  skip : Nat
  result : Int
  /-- The bytes of the buffer the reply was asked into. -/
  rx : List UInt8
  deriving DecidableEq

/-- What the callers know: the exchange that waits to be reaped, and what has been
returned, latest first. -/
structure Seen (ι : Type) where
  posted : Option (Posted ι)
  returns : List Return

/-- The link and its callers. -/
structure Session (ι : Type) where
  link : Link ι
  seen : Seen ι

section Sessions

variable {ι : Type} [DecidableEq ι] (addr : ι → Nat)

/-- The buffer of a blocking call, as its caller finds it. -/
def Link.received (link : Link ι) (rx : Option ι) (rxLen : Nat) : List UInt8 :=
  (rx.map fun buffer => link.bytes (.caller buffer) rxLen).getD []

namespace Session

/-- Power-on, with nothing called yet. -/
def boot (up : Bool) (mem : Place ι → Mem) (script : List Step) : Session ι where
  link := .boot up mem script
  seen := ⟨none, []⟩

/-- Perform a call, and take down an exchange that ended with it. -/
def perform (session : Session ι) : Call ι → Session ι
  | .xfer tx txLen rx rxLen skip =>
    let done := raUsbXfer addr tx txLen rx rxLen skip session.link
    let entry : Return := ⟨done.2.serial, done.2.message, skip, 0, done.2.received rx rxLen⟩
    let returns := session.seen.returns
    ⟨done.2, session.seen.posted, if done.1 = 0 then entry :: returns else returns⟩
  | .post tx txLen rx rxCap =>
    let done := raUsbPost addr tx txLen rx rxCap session.link
    let entry : Posted ι := ⟨done.2.serial, done.2.message, rx, rxCap⟩
    ⟨done.2, if done.1 = 0 then some entry else session.seen.posted, session.seen.returns⟩
  | .reap =>
    let done := raUsbReap session.link
    match session.seen.posted with
    | some post =>
      if done.2.postOpen then ⟨done.2, session.seen⟩
      else
        let bytes := done.2.bytes (.caller post.rx) post.cap
        let entry : Return := ⟨post.serial, post.request, 0, done.1, bytes⟩
        ⟨done.2, none, entry :: session.seen.returns⟩
    | none => ⟨done.2, session.seen⟩

/-- Perform calls, one after the other. -/
def run (session : Session ι) (calls : List (Call ι)) : Session ι :=
  calls.foldl (perform addr) session

/-- An exchange leaves the reply buffer of a posted one alone. -/
def Spares (session : Session ι) : Call ι → Prop
  | .xfer tx _ rx _ _ =>
    ∀ post, session.seen.posted = some post → rx ≠ some post.rx ∧ tx ≠ post.rx
  | _ => True

/-- The callers leave posted reply buffers alone. -/
def Respects (session : Session ι) : List (Call ι) → Prop
  | [] => True
  | call :: later => session.Spares call ∧ (session.perform addr call).Respects later

end Session

/-- The reply to the request with this serial number. -/
def ReplyTo (answers : List Answer) (serial : Nat) (request reply : List UInt8) : Prop :=
  ⟨serial, request, reply⟩ ∈ answers

/-- A call that returned 0 delivered the bytes behind `skip` of the reply to its own
request. -/
def Own (answers : List Answer) (entry : Return) : Prop :=
  entry.result = 0 → ∃ reply, ReplyTo answers entry.serial entry.request reply ∧
    (reply.drop entry.skip).take entry.rx.length <+: entry.rx

/-- Every reply went to the call that asked for it. -/
structure Attributed (session : Session ι) : Prop where
  /-- At no time were two exchanges on the wire. -/
  single : session.link.bus.mostOnWire ≤ 1
  own : ∀ entry ∈ session.seen.returns, Own session.link.bus.answers entry
  /-- No exchange was returned twice. -/
  once : (session.seen.returns.map Return.serial).Nodup
  /-- The adapter answered no exchange twice. -/
  answered : (session.link.bus.answers.map Answer.serial).Nodup

end Sessions

/-! ## The invariant -/

section Invariant

variable {ι : Type}

/-- The answer to an exchange is in the place it was asked into, `count` bytes of it. -/
def Arrived (bus : Bus ι) (serial : Nat) (request : List UInt8) (place : Place ι) (cap : Nat)
    (count : Int) : Prop :=
  ∃ reply, ReplyTo bus.answers serial request reply ∧ count = (reply.take cap).length ∧
    (bus.mem place).window 0 (reply.take cap).length = reply.take cap

/-- The adapter has yet to receive the request. -/
def Unheard (out into : Nat) (bus : Bus ι) : Prop :=
  (out = 0 ∧ into = 1) ∨ ∃ request ∈ bus.outbound, request.received = false

/-- What an orderly bus owes and delivers. -/
structure Orderly (out into : Nat) (link : Link ι) : Prop where
  owed : ∀ made ∈ link.bus.owed,
    made ∈ link.bus.answers ∧ made.serial = link.serial ∧ made.request = link.message
  waits : link.bus.owed.length ≤ link.bus.inbound.length
  silent : Unheard out into link.bus → link.bus.owed = []
  intact : ∀ request ∈ link.bus.outbound, request.received = false →
    (link.bus.mem request.data).window 0 request.len = link.message
  unsent : out = 0 → into = 1 →
    (link.bus.mem link.bus.reqOut.data).window 0 link.bus.reqOut.len = link.message
  arrived : into = 1 → link.bus.inbound = [] → link.bus.reqIn.reply < 0 ∨
    Arrived link.bus link.serial link.message link.xs.inBuf link.xs.inCap link.bus.reqIn.reply

/-- Where a posted exchange is: on the wire, or with its reply in place. -/
structure Waiting (link : Link ι) (returns : List Return) (post : Posted ι) : Prop where
  old : post.serial ≤ link.serial
  unreturned : post.serial ∉ returns.map Return.serial
  flying : link.postReady = false → link.xs.busy = true ∧ link.xs.isPost = true ∧
    link.serial = post.serial ∧ link.message = post.request ∧
    link.xs.inBuf = .caller post.rx ∧ link.xs.inCap = post.cap
  landed : link.postReady = true → link.bus.orderly = true → link.postRes = 0 →
    ∃ count, Arrived link.bus post.serial post.request (.caller post.rx) post.cap count
  spared : link.postReady = true → link.xs.busy = true →
    link.xs.isPost = false ∧ link.xs.inBuf ≠ .caller post.rx

/-- The exchange on the wire has `out` OUT and `into` IN transfers the link has to hear
from or has heard from, and every answer so far is accounted for. -/
structure Tracked (seen : Seen ι) (out into : Nat) (link : Link ι) : Prop where
  outLe : out ≤ into
  inLe : into ≤ 1
  busy : link.xs.busy.toNat = into
  outOnce : link.bus.outPending + (link.xs.busy && link.xs.outDone).toNat = out
  inOnce : link.bus.inPending + (link.xs.busy && link.xs.inDone).toNat = into
  outOwn : ∀ request ∈ link.bus.outbound, request.serial = link.serial
  inOwn : ∀ read ∈ link.bus.inbound,
    read.serial = link.serial ∧ read.data = link.xs.inBuf ∧ read.cap = link.xs.inCap
  inRes : link.xs.busy = true → link.xs.inDone = true → link.xs.inRes = link.bus.reqIn.reply
  single : link.bus.mostOnWire ≤ 1
  past : ∀ made ∈ link.bus.answers, made.serial ≤ link.serial
  fresh : Unheard out into link.bus → ∀ made ∈ link.bus.answers, made.serial < link.serial
  answered : (link.bus.answers.map Answer.serial).Nodup
  orderly : link.bus.orderly = true → Orderly out into link
  posted : link.postOpen = seen.posted.isSome
  waiting : ∀ post, seen.posted = some post → Waiting link seen.returns post
  own : link.bus.orderly = true → ∀ entry ∈ seen.returns, Own link.bus.answers entry
  old : ∀ entry ∈ seen.returns, entry.serial ≤ link.serial
  once : (seen.returns.map Return.serial).Nodup

/-! ## Events keep it -/

/-- An answer in place stays there while its place is left alone. -/
theorem Arrived.grow {bus after : Bus ι} {serial : Nat} {request : List UInt8} {place : Place ι}
    {cap : Nat} {count : Int} (arrived : Arrived bus serial request place cap count)
    (answers : bus.answers ⊆ after.answers) (mem : after.mem place = bus.mem place) :
    Arrived after serial request place cap count := by
  obtain ⟨reply, made, size, bytes⟩ := arrived
  exact ⟨reply, answers made, size, by rwa [mem]⟩

/-- An own answer stays one. -/
theorem Own.grow {answers after : List Answer} {entry : Return} (own : Own answers entry)
    (grow : answers ⊆ after) : Own after entry := by
  intro success
  obtain ⟨reply, made, bytes⟩ := own success
  exact ⟨reply, grow made, bytes⟩

namespace Tracked

variable {seen : Seen ι} {out into : Nat} {link : Link ι}

/-- A pending OUT transfer is the only one, of an exchange that is on the wire. -/
theorem outbound_single (tracked : Tracked seen out into link) {request : Outbound ι}
    {later : List (Outbound ι)} (first : link.bus.outbound = request :: later) :
    later = [] ∧ out = 1 ∧ into = 1 ∧ link.xs.busy = true := by
  have pending := tracked.outOnce
  have outLe := tracked.outLe
  have inLe := tracked.inLe
  have busy := tracked.busy
  rw [Bus.outPending, first, List.length_cons] at pending
  have lone : later.length = 0 := by omega
  refine ⟨List.length_eq_zero_iff.mp lone, by omega, by omega, ?_⟩
  cases isBusy : link.xs.busy with
  | true => rfl
  | false => rw [isBusy] at busy; simp at busy; omega

/-- So is a pending read, and it has not been heard of. -/
theorem inbound_single (tracked : Tracked seen out into link) {read : Inbound ι}
    {reads : List (Inbound ι)} (waiting : link.bus.inbound = read :: reads) :
    reads = [] ∧ into = 1 ∧ link.xs.busy = true ∧ link.xs.inDone = false := by
  have pending := tracked.inOnce
  have inLe := tracked.inLe
  have busy := tracked.busy
  rw [Bus.inPending, waiting, List.length_cons] at pending
  have lone : reads.length = 0 := by omega
  have isBusy : link.xs.busy = true := by
    cases isBusy : link.xs.busy with
    | true => rfl
    | false => rw [isBusy] at busy; simp at busy; omega
  refine ⟨List.length_eq_zero_iff.mp lone, by omega, isBusy, ?_⟩
  cases isDone : link.xs.inDone with
  | false => rfl
  | true => rw [isBusy, isDone] at pending; simp at pending; omega

/-- Another bus under the same statics. -/
theorem change (tracked : Tracked seen out into link) {bus : Bus ι}
    (pending : bus.outPending = link.bus.outPending ∧ bus.inPending = link.bus.inPending)
    (single : bus.mostOnWire = link.bus.mostOnWire)
    (outOwn : ∀ request ∈ bus.outbound, request.serial = link.serial)
    (inOwn : bus.inbound ⊆ link.bus.inbound)
    (inRes : bus.reqIn = link.bus.reqIn ∨ link.xs.inDone = false)
    (answers : link.bus.answers ⊆ bus.answers)
    (past : ∀ made ∈ bus.answers, made.serial ≤ link.serial)
    (fresh : Unheard out into bus → ∀ made ∈ bus.answers, made.serial < link.serial)
    (answered : (bus.answers.map Answer.serial).Nodup)
    (calm : bus.orderly = true → link.bus.orderly = true)
    (orderly : bus.orderly = true → Orderly out into { link with bus := bus })
    (mem : ∀ place, bus.mem place = link.bus.mem place ∨
      (link.xs.busy = true ∧ place = link.xs.inBuf)) :
    Tracked seen out into { link with bus := bus } where
  outLe := tracked.outLe
  inLe := tracked.inLe
  busy := tracked.busy
  outOnce := by simpa [pending.1] using tracked.outOnce
  inOnce := by simpa [pending.2] using tracked.inOnce
  outOwn := outOwn
  inOwn read member := tracked.inOwn read (inOwn member)
  inRes busy ended := by
    rcases inRes with same | notYet
    · simpa [same] using tracked.inRes busy ended
    · rw [notYet] at ended
      cases ended
  single := by simpa [single] using tracked.single
  past := past
  fresh := fresh
  answered := answered
  orderly := orderly
  posted := tracked.posted
  waiting post isPosted := by
    have waiting := tracked.waiting post isPosted
    refine { waiting with landed := ?_ }
    intro ready isOrderly success
    obtain ⟨count, arrived⟩ := waiting.landed ready (calm isOrderly) success
    rcases mem (.caller post.rx) with same | ⟨busy, target⟩
    · exact ⟨count, arrived.grow answers same⟩
    · exact absurd target.symm (waiting.spared ready busy).2
  own isOrderly entry member := (tracked.own (calm isOrderly) entry member).grow answers
  old := tracked.old
  once := tracked.once

variable [DecidableEq ι]

/-- Every event of the bus keeps the account. -/
theorem moves (tracked : Tracked seen out into link) {bus : Bus ι}
    (moves : link.bus.Moves bus) : Tracked seen out into { link with bus := bus } := by
  have pending := moves.pending
  cases moves with
  | still => exact tracked
  | @receive request later reply first unheard =>
    obtain ⟨rfl, rfl, rfl, -⟩ := tracked.outbound_single first
    have member : request ∈ link.bus.outbound := by simp [first]
    have silent : Unheard 1 1 link.bus := .inr ⟨request, member, unheard⟩
    have new : ∀ made ∈ link.bus.answers, made.serial ≠ request.serial := fun made old same =>
      absurd (tracked.fresh silent made old) (by rw [same, tracked.outOwn _ member]; omega)
    refine tracked.change pending rfl ?_ (List.Subset.refl _) (.inl rfl)
      (List.subset_cons_self _ _) ?_ ?_ ?_ ?_ ?_ fun _ => .inl rfl
    · simpa using tracked.outOwn _ member
    · simpa [tracked.outOwn _ member] using tracked.past
    · rintro (⟨zero, -⟩ | heard)
      · cases zero
      · simp at heard
    · simpa using ⟨fun made old same => new made old same, tracked.answered⟩
    · intro calm
      exact (Bool.and_eq_true_iff.mp calm).1
    · intro calm
      obtain ⟨isOrderly, listening⟩ := Bool.and_eq_true_iff.mp calm
      have orderly := tracked.orderly isOrderly
      have message := orderly.intact request member unheard
      have none := orderly.silent silent
      have some : link.bus.inbound ≠ [] := by simpa using listening
      refine ⟨?_, ?_, ?_, ?_, nofun, ?_⟩
      · simp [none, tracked.outOwn _ member, message]
      · have listens := List.length_pos_iff.mpr some
        simpa [none] using Nat.succ_le_of_lt listens
      · rintro (⟨zero, -⟩ | heard)
        · cases zero
        · simp at heard
      · simp
      · intro _ ended
        exact absurd ended some
  | @outDone request later result first =>
    obtain ⟨rfl, rfl, rfl, -⟩ := tracked.outbound_single first
    have heard : ¬ Unheard 1 1 ({ link.bus with
        outbound := []
        reqOut := { link.bus.reqOut with reply := result }
        queue := link.bus.queue ++ [.outRecord] } : Bus ι) := by
      rintro (⟨zero, -⟩ | heard)
      · cases zero
      · simp at heard
    refine tracked.change pending rfl (by simp) (List.Subset.refl _) (.inl rfl)
      (List.Subset.refl _) tracked.past (fun silent => absurd silent heard) tracked.answered id ?_
      fun _ => .inl rfl
    intro isOrderly
    have orderly := tracked.orderly isOrderly
    exact ⟨orderly.owed, orderly.waits, fun silent => absurd silent heard, by simp,
      nofun, orderly.arrived⟩
  | @answer made owed read reads ready waiting =>
    obtain ⟨rfl, rfl, busy, notYet⟩ := tracked.inbound_single waiting
    obtain ⟨serial, data, cap⟩ := tracked.inOwn read (by simp [waiting])
    refine tracked.change pending rfl tracked.outOwn ?_ (.inr notYet)
      (List.Subset.refl _) tracked.past tracked.fresh tracked.answered id ?_ ?_
    · simp [Bus.endRead, Bus.store, waiting]
    · intro isOrderly
      have orderly := tracked.orderly isOrderly
      have heard : ¬ Unheard out 1 link.bus := fun silent => by
        simp [orderly.silent silent] at ready
      obtain ⟨old, own, asked⟩ := orderly.owed made (by simp [ready])
      have alone : owed = [] := by
        have waits := orderly.waits
        rw [ready, waiting] at waits
        simpa using waits
      refine ⟨by simp [alone], by simp [alone], fun silent => absurd silent heard, ?_,
        fun zero _ => absurd (.inl ⟨zero, rfl⟩) heard, ?_⟩
      · intro request member unheard
        exact absurd (.inr ⟨request, member, unheard⟩) heard
      · intro _ _
        refine .inr ⟨made.reply, ?_, ?_, ?_⟩
        · rw [ReplyTo, ← own, ← asked]
          exact old
        · simp [Bus.endRead, cap]
        · simp only [Bus.endRead, Bus.store, ← data, Function.update_self, ← cap]
          exact Cells.window_overlay _ _ _
    · intro place
      by_cases target : place = read.data
      · exact .inr ⟨busy, target.trans data⟩
      · exact .inl (by simp [Bus.endRead, Bus.store, Function.update_of_ne target])
  | @answerLost made owed read reads code ready waiting =>
    obtain ⟨rfl, rfl, busy, notYet⟩ := tracked.inbound_single waiting
    refine tracked.change pending rfl tracked.outOwn ?_ (.inr notYet)
      (List.Subset.refl _) tracked.past tracked.fresh tracked.answered id ?_ fun _ => .inl rfl
    · simp [Bus.endRead, waiting]
    · intro isOrderly
      have orderly := tracked.orderly isOrderly
      have alone : owed = [] := by
        have waits := orderly.waits
        rw [ready, waiting] at waits
        simpa using waits
      refine ⟨by simp [alone], by simp [alone], fun _ => alone, orderly.intact, orderly.unsent, ?_⟩
      exact fun _ _ => .inl (Int.negSucc_lt_zero code)
  | @inFail read reads code waiting =>
    obtain ⟨rfl, rfl, busy, notYet⟩ := tracked.inbound_single waiting
    refine tracked.change pending rfl tracked.outOwn ?_ (.inr notYet)
      (List.Subset.refl _) tracked.past tracked.fresh tracked.answered ?_ ?_ fun _ => .inl rfl
    · simp [Bus.endRead, waiting]
    · intro calm
      exact (Bool.and_eq_true_iff.mp calm).1
    · intro calm
      obtain ⟨isOrderly, nothing⟩ := Bool.and_eq_true_iff.mp calm
      have orderly := tracked.orderly isOrderly
      have none : link.bus.owed = [] := by simpa using nothing
      refine ⟨orderly.owed, by simp [Bus.endRead, none], fun _ => none, orderly.intact,
        orderly.unsent, ?_⟩
      exact fun _ _ => .inl (Int.negSucc_lt_zero code)
  | token number =>
    refine tracked.change pending rfl tracked.outOwn (List.Subset.refl _) (.inl rfl)
      (List.Subset.refl _) tracked.past tracked.fresh tracked.answered id ?_ fun _ => .inl rfl
    intro isOrderly
    have orderly := tracked.orderly isOrderly
    exact ⟨orderly.owed, orderly.waits, orderly.silent, orderly.intact, orderly.unsent,
      orderly.arrived⟩

/-! ## Waits keep it -/

omit [DecidableEq ι] in
/-- Another queue, and other completions consumed. -/
theorem requeue (tracked : Tracked seen out into link) {tok : UInt32} {script : List Step}
    {queue : List Message} {outDone inDone : Bool} {outRes inRes : Int}
    (outOnce : link.bus.outbound.length + queue.count .outRecord +
      (link.xs.busy && outDone).toNat = out)
    (inOnce : link.bus.inbound.length + queue.count .inRecord +
      (link.xs.busy && inDone).toNat = into)
    (result : link.xs.busy = true → inDone = true → inRes = link.bus.reqIn.reply) :
    Tracked seen out into { link with
      tok := tok
      script := script
      xs := { link.xs with
        outDone := outDone, outRes := outRes, inDone := inDone, inRes := inRes }
      bus := { link.bus with queue := queue } } :=
  { tracked with
    outOnce := outOnce
    inOnce := inOnce
    inRes := result
    orderly := fun isOrderly =>
      have orderly := tracked.orderly isOrderly
      ⟨orderly.owed, orderly.waits, orderly.silent, orderly.intact, orderly.unsent,
        orderly.arrived⟩
    waiting := fun post isPosted =>
      have waiting := tracked.waiting post isPosted
      ⟨waiting.old, waiting.unreturned, waiting.flying, waiting.landed, waiting.spared⟩ }

omit [DecidableEq ι] in
/-- A message of the queue is handed to the wait. -/
theorem consumed (tracked : Tracked seen out into link) {message : Message}
    {queue : List Message} (all : link.bus.queue = message :: queue) :
    Tracked seen out into (consume (link.left queue) message) := by
  have outOnce := tracked.outOnce
  have inOnce := tracked.inOnce
  have outLe := tracked.outLe
  have inLe := tracked.inLe
  have busy := tracked.busy
  rw [Bus.outPending, all] at outOnce
  rw [Bus.inPending, all] at inOnce
  cases message with
  | outRecord =>
    rw [List.count_cons_self] at outOnce
    refine tracked.requeue ?_ (by simpa [Link.left] using inOnce) tracked.inRes
    rw [Bool.and_true, busy]
    omega
  | inRecord =>
    rw [List.count_cons_self] at inOnce
    refine tracked.requeue (by simpa [Link.left] using outOnce) ?_ fun _ _ => rfl
    rw [Bool.and_true, busy]
    omega
  | token number =>
    exact tracked.requeue (by simpa using outOnce) (by simpa using inOnce) tracked.inRes

omit [DecidableEq ι] in
/-- Timer token and script do not matter. -/
theorem forget (tracked : Tracked seen out into link) {tok : UInt32} {script : List Step} :
    Tracked seen out into { link with tok := tok, script := script } :=
  tracked.requeue tracked.outOnce tracked.inOnce tracked.inRes

/-- A wait keeps the account. -/
theorem waitKeeps (seen : Seen ι) (out into : Nat) :
    WaitKeeps (@Tracked ι seen out into) where
  event link happening tracked := tracked.moves (link.bus.apply_moves happening)
  message _ _ _ all tracked := tracked.consumed all
  timer _ _ _ tracked := tracked.forget

omit [DecidableEq ι] in
/-- Once both completions are consumed nothing is pending. -/
theorem finished (tracked : Tracked seen 1 1 link) (both : link.xs.done = true) :
    link.bus.outPending = 0 ∧ link.bus.inPending = 0 := by
  obtain ⟨outDone, inDone⟩ := Bool.and_eq_true_iff.mp both
  have outOnce := tracked.outOnce
  have inOnce := tracked.inOnce
  rw [outDone, Bool.and_true, tracked.busy] at outOnce
  rw [inDone, Bool.and_true, tracked.busy] at inOnce
  omega

omit [DecidableEq ι] in
/-- A finished exchange that did not fail has its answer in place. -/
theorem delivered (tracked : Tracked seen 1 1 link) (both : link.xs.done = true)
    (isOrderly : link.bus.orderly = true) (fine : ¬ link.xs.result < 0) :
    Arrived link.bus link.serial link.message link.xs.inBuf link.xs.inCap link.xs.inRes := by
  have busy : link.xs.busy = true := by simpa using tracked.busy
  have inDone := (Bool.and_eq_true_iff.mp both).2
  have ended := Bus.inbound_eq_nil (tracked.finished both).2
  rcases (tracked.orderly isOrderly).arrived rfl ended with failed | arrived
  · rw [← tracked.inRes busy inDone] at failed
    have read := (link.xs.result_cases.resolve_left fine).2
    omega
  · rwa [tracked.inRes busy inDone]

omit [DecidableEq ι] in
/-- Nothing is on the wire any more. -/
theorem freed (tracked : Tracked seen 1 1 link) (both : link.xs.done = true) {postRes : Int}
    {postReady : Bool}
    (waiting : ∀ post, seen.posted = some post → Waiting { link with
      xs := { link.xs with busy := false, isPost := false }
      postRes := postRes, postReady := postReady } seen.returns post) :
    Tracked seen 0 0 { link with
      xs := { link.xs with busy := false, isPost := false }
      postRes := postRes, postReady := postReady } := by
  obtain ⟨outNone, inNone⟩ := tracked.finished both
  have heard : ¬ Unheard 0 0 link.bus := by
    rintro (⟨-, one⟩ | unheard)
    · cases one
    · simp [Bus.outbound_eq_nil outNone] at unheard
  exact { tracked with
    outLe := Nat.le_refl _
    inLe := Nat.zero_le _
    busy := rfl
    outOnce := by simpa using outNone
    inOnce := by simpa using inNone
    inRes := nofun
    fresh := fun silent => absurd silent heard
    orderly := fun isOrderly =>
      have orderly := tracked.orderly isOrderly
      ⟨orderly.owed, orderly.waits, fun silent => absurd silent heard, orderly.intact, nofun, nofun⟩
    waiting := waiting }

omit [DecidableEq ι] in
/-- The end of a wait that saw both completions. -/
theorem settled (tracked : Tracked seen 1 1 link) (both : link.xs.done = true) :
    Tracked seen 0 0 (settleExchange link) := by
  have busy : link.xs.busy = true := by simpa using tracked.busy
  unfold settleExchange
  split
  · rename_i isPost
    refine tracked.freed both fun post isPosted => ?_
    have waiting := tracked.waiting post isPosted
    have notYet : link.postReady = false := by
      cases ready : link.postReady with
      | false => rfl
      | true => exact absurd isPost (by simp [(waiting.spared ready busy).1])
    obtain ⟨-, -, serial, message, inBuf, inCap⟩ := waiting.flying notYet
    refine ⟨waiting.old, waiting.unreturned, nofun, ?_, nofun⟩
    intro _ isOrderly success
    have arrived := tracked.delivered both isOrderly (Int.not_lt.mpr (Int.le_of_eq success.symm))
    rw [serial, message, inBuf, inCap] at arrived
    exact ⟨_, arrived⟩
  · rename_i isXfer
    refine tracked.freed both fun post isPosted => ?_
    have waiting := tracked.waiting post isPosted
    refine ⟨waiting.old, waiting.unreturned, ?_, waiting.landed, nofun⟩
    intro notYet
    exact absurd (waiting.flying notYet).2.1 isXfer

omit [DecidableEq ι] in
/-- Between exchanges nothing is under way. -/
theorem nothing (idle : Tracked seen 0 0 link) : link.xs.busy = false ∧
    link.bus.outbound = [] ∧ link.bus.inbound = [] ∧
    (link.bus.orderly = true → link.bus.owed = []) := by
  have free : link.xs.busy = false := by simpa using idle.busy
  have outNone : link.bus.outPending = 0 := by simpa [free] using idle.outOnce
  have inNone : link.bus.inPending = 0 := by simpa [free] using idle.inOnce
  refine ⟨free, Bus.outbound_eq_nil outNone, Bus.inbound_eq_nil inNone, fun isOrderly => ?_⟩
  have waits := (idle.orderly isOrderly).waits
  rw [Bus.inbound_eq_nil inNone] at waits
  exact List.length_eq_zero_iff.mp (Nat.le_zero.mp waits)

end Tracked

/-- What happens between exchanges: nothing of the bus but its queue and the buffers no
posted reply is in. -/
structure Rests (seen : Seen ι) (link after : Link ι) : Prop where
  busy : after.xs.busy = false
  serial : link.serial ≤ after.serial
  postOpen : after.postOpen = link.postOpen
  postReady : after.postReady = link.postReady
  postRes : after.postRes = link.postRes
  outbound : after.bus.outbound = link.bus.outbound
  inbound : after.bus.inbound = link.bus.inbound
  owed : after.bus.owed = link.bus.owed
  answers : after.bus.answers = link.bus.answers
  mostOnWire : after.bus.mostOnWire = link.bus.mostOnWire
  orderly : after.bus.orderly = link.bus.orderly
  outRecords : after.bus.queue.count .outRecord = link.bus.queue.count .outRecord
  inRecords : after.bus.queue.count .inRecord = link.bus.queue.count .inRecord
  mem : ∀ post, seen.posted = some post →
    after.bus.mem (.caller post.rx) = link.bus.mem (.caller post.rx)

/-- While no exchange is in flight nothing is tracked, and rest changes nothing. -/
theorem Tracked.rests {seen : Seen ι} {link after : Link ι} (idle : Tracked seen 0 0 link)
    (rests : Rests seen link after) : Tracked seen 0 0 after := by
  obtain ⟨free, outNone, inNone, owedNone⟩ := idle.nothing
  have outOnce := idle.outOnce
  have inOnce := idle.inOnce
  simp only [free, Bool.false_and, Bool.toNat_false, Nat.add_zero] at outOnce inOnce
  have heard : ¬ Unheard 0 0 after.bus := by
    rintro (⟨-, one⟩ | unheard)
    · cases one
    · simp [rests.outbound, outNone] at unheard
  refine ⟨Nat.le_refl _, Nat.zero_le _, by simp [rests.busy], ?_, ?_, ?_, ?_, ?_, ?_, ?_,
    fun silent => absurd silent heard, ?_, ?_, ?_, ?_, ?_, ?_, idle.once⟩
  · rw [rests.busy, Bus.outPending, rests.outbound, rests.outRecords]
    exact outOnce
  · rw [rests.busy, Bus.inPending, rests.inbound, rests.inRecords]
    exact inOnce
  · simp [rests.outbound, outNone]
  · simp [rests.inbound, inNone]
  · simp [rests.busy]
  · rw [rests.mostOnWire]
    exact idle.single
  · rw [rests.answers]
    exact fun made member => Nat.le_trans (idle.past made member) rests.serial
  · rw [rests.answers]
    exact idle.answered
  · intro isOrderly
    have none := owedNone (rests.orderly ▸ isOrderly)
    rw [← rests.owed] at none
    exact ⟨by simp [none], by simp [none], fun _ => none, by simp [rests.outbound, outNone],
      fun _ never => absurd never (by simp), fun never => absurd never (by simp)⟩
  · rw [rests.postOpen]
    exact idle.posted
  · intro post isPosted
    have waiting := idle.waiting post isPosted
    refine ⟨Nat.le_trans waiting.old rests.serial, waiting.unreturned, ?_, ?_, by simp [rests.busy]⟩
    · intro notYet
      have flying := (waiting.flying (rests.postReady ▸ notYet)).1
      simp [free] at flying
    · intro ready isOrderly success
      obtain ⟨count, arrived⟩ := waiting.landed (rests.postReady ▸ ready)
        (rests.orderly ▸ isOrderly) (rests.postRes ▸ success)
      exact ⟨count, arrived.grow (by rw [rests.answers]; exact List.Subset.refl _)
        (rests.mem post isPosted)⟩
  · intro isOrderly
    rw [rests.answers]
    exact idle.own (rests.orderly ▸ isOrderly)
  · exact fun entry member => Nat.le_trans (idle.old entry member) rests.serial

/-! ## Posting keeps it -/

namespace Tracked

variable {seen : Seen ι} {link : Link ι}

/-- A read waits for the answer to a request that is about to go out. -/
theorem listening (idle : Tracked seen 0 0 link) {out into : Place ι} {outLen inCap : Nat}
    {isPost : Bool} {queue : List Message} {script : List Step}
    (message : link.bytes out outLen = link.message)
    (outSmall : outLen < 65536) (inSmall : inCap < 65536)
    (spared : ∀ post, seen.posted = some post → isPost = false ∧ into ≠ .caller post.rx)
    (outRecords : queue.count .outRecord = link.bus.queue.count .outRecord)
    (inRecords : queue.count .inRecord = link.bus.queue.count .inRecord) :
    Tracked seen 0 1 { link.setOut outLen into inCap isPost with
      xs := { (link.setOut outLen into inCap isPost).xs with busy := true }
      script := script
      bus := (({ link.bus.reqFill .epIn (inCap % 65536) into with queue := queue } : Bus ι).takeOn
        .epIn (link.serial + 1)).reqFill .epOut (outLen % 65536) out } := by
  obtain ⟨free, outNone, inNone, owedNone⟩ := idle.nothing
  have outOnce := idle.outOnce
  have inOnce := idle.inOnce
  simp only [free, Bool.false_and, Bool.toNat_false, Nat.add_zero] at outOnce inOnce
  have ready : ∀ post, seen.posted = some post → link.postReady = true := by
    intro post isPosted
    cases ready : link.postReady with
    | true => rfl
    | false => simpa [free] using ((idle.waiting post isPosted).flying ready).1
  have outFits : outLen % 65536 = outLen := Nat.mod_eq_of_lt outSmall
  have inFits : inCap % 65536 = inCap := Nat.mod_eq_of_lt inSmall
  refine ⟨Nat.zero_le _, Nat.le_refl _, rfl, ?_, ?_, ?_, ?_, nofun, ?_, ?_, ?_, idle.answered, ?_,
    idle.posted, ?_, idle.own, ?_, idle.once⟩
  · simpa [Bus.outPending, Bus.takeOn, Bus.reqFill, Link.setOut, outRecords] using outOnce
  · rw [Bus.inPending] at inOnce
    simp [Bus.inPending, Bus.takeOn, Bus.reqFill, Link.setOut, inRecords, inNone]
    omega
  · simp [Bus.takeOn, Bus.reqFill, outNone]
  · simp [Bus.takeOn, Bus.reqFill, Link.setOut, inNone, inFits]
  · exact Bus.takeOn_single .epIn idle.single (by simp [Bus.reqFill, outNone])
      (by simp [Bus.reqFill, inNone])
  · exact fun made member => Nat.le_succ_of_le (idle.past made member)
  · exact fun _ made member => Nat.lt_succ_of_le (idle.past made member)
  · intro isOrderly
    have none : link.bus.owed = [] := owedNone isOrderly
    refine ⟨?_, ?_, fun _ => none, ?_, ?_, ?_⟩
    · simp [Bus.takeOn, Bus.reqFill, none]
    · simp [Bus.takeOn, Bus.reqFill, none]
    · simp [Bus.takeOn, Bus.reqFill, outNone]
    · intro _ _
      simpa [Bus.takeOn, Bus.reqFill, Link.bytes, Link.setOut, outFits] using message
    · simp [Bus.takeOn, Bus.reqFill]
  · intro post isPosted
    have waiting := idle.waiting post isPosted
    refine ⟨Nat.le_succ_of_le waiting.old, waiting.unreturned, ?_, waiting.landed,
      fun _ _ => spared post isPosted⟩
    intro notYet
    exact absurd (ready post isPosted) (by simpa [Link.setOut] using notYet)
  · exact fun entry member => Nat.le_succ_of_le (idle.old entry member)

/-- IOS refuses the request: the read stays behind, and the link is dead. -/
theorem sendRefused (listening : Tracked seen 0 1 link) (notYet : link.xs.outDone = false)
    (outRes : Int) :
    Tracked seen 1 1 { link with
      xs := { link.xs with outDone := true, outRes := outRes }, dead := true } := by
  have outOnce := listening.outOnce
  rw [notYet, Bool.and_false, Bool.toNat_false, Nat.add_zero] at outOnce
  have heard : ¬ Unheard 1 1 link.bus := by
    rintro (⟨one, -⟩ | unheard)
    · cases one
    · simp [Bus.outbound_eq_nil outOnce] at unheard
  exact { listening with
    outLe := Nat.le_refl _
    outOnce := by simp [outOnce, listening.busy]
    fresh := fun silent => absurd silent heard
    orderly := fun isOrderly =>
      have orderly := listening.orderly isOrderly
      ⟨orderly.owed, orderly.waits, fun silent => absurd silent heard, orderly.intact, nofun,
        orderly.arrived⟩
    waiting := fun post isPosted =>
      have waiting := listening.waiting post isPosted
      ⟨waiting.old, waiting.unreturned, waiting.flying, waiting.landed, waiting.spared⟩ }

/-- IOS takes the request on. -/
theorem sendTaken (listening : Tracked seen 0 1 link) (notYet : link.xs.outDone = false) :
    Tracked seen 1 1 { link with bus := link.bus.takeOn .epOut link.serial } := by
  have outOnce := listening.outOnce
  rw [notYet, Bool.and_false, Bool.toNat_false, Nat.add_zero] at outOnce
  have outNone := Bus.outbound_eq_nil outOnce
  have silent : Unheard 0 1 link.bus := .inl ⟨rfl, rfl⟩
  exact { listening with
    outLe := Nat.le_refl _
    outOnce := by
      rw [Bus.outPending, outNone] at outOnce
      simpa [Bus.outPending, Bus.takeOn, outNone, notYet] using outOnce
    outOwn := by simp [Bus.takeOn, outNone]
    single := Bus.takeOn_single .epOut listening.single listening.outOwn
      fun read member => (listening.inOwn read member).1
    fresh := fun _ => listening.fresh silent
    orderly := fun isOrderly =>
      have orderly := listening.orderly isOrderly
      { owed := orderly.owed
        waits := orderly.waits
        silent := fun _ => orderly.silent silent
        intact := by simpa [Bus.takeOn, outNone] using orderly.unsent rfl rfl
        unsent := nofun
        arrived := orderly.arrived }
    waiting := fun post isPosted =>
      have waiting := listening.waiting post isPosted
      ⟨waiting.old, waiting.unreturned, waiting.flying, waiting.landed, waiting.spared⟩ }

end Tracked

/-- The account, with the wire in use or free. -/
def Steady (seen : Seen ι) (link : Link ι) : Prop :=
  Tracked seen link.xs.busy.toNat link.xs.busy.toNat link

namespace Steady

variable {seen : Seen ι} {link : Link ι}

/-- Without an exchange in flight a steady link is tracked without a load. -/
theorem free (steady : Steady seen link) (idle : link.xs.busy = false) :
    Tracked seen 0 0 link := by
  rwa [Steady, idle] at steady

/-- A tracked link is steady. -/
theorem of_tracked {load : Nat} (tracked : Tracked seen load load link) : Steady seen link := by
  rwa [Steady, tracked.busy]

variable [DecidableEq ι]

/-- A wait keeps the link steady. -/
theorem xsWait (steady : Steady seen link) : Steady seen (Usb.xsWait link).2 := by
  have ends := xsWait_ends link
  generalize Usb.xsWait link = ended at ends ⊢
  cases ends with
  | free idle => exact steady
  | done busy both keeps =>
    rw [Steady, busy] at steady
    exact .of_tracked ((keeps _ (Tracked.waitKeeps seen 1 1) steady).settled both)
  | timeout busy keeps =>
    rw [Steady, busy] at steady
    exact .of_tracked (keeps _ (Tracked.waitKeeps seen 1 1) steady)

end Steady

/-- The exchange is on the wire. -/
structure Sent (into : Place ι) (inCap : Nat) (isPost : Bool) (link after : Link ι) : Prop where
  busy : after.xs.busy = true
  isPost : after.xs.isPost = isPost
  inBuf : after.xs.inBuf = into
  inCap : after.xs.inCap = inCap
  serial : after.serial = link.serial + 1
  message : after.message = link.message
  postOpen : after.postOpen = link.postOpen

variable [DecidableEq ι]

/-- Posting keeps the account, and a post that succeeded is on the wire. -/
theorem Tracked.xsPost {seen : Seen ι} {link : Link ι} (idle : Tracked seen 0 0 link)
    {out into : Place ι} {outLen inCap : Nat} {isPost : Bool}
    (message : link.bytes out outLen = link.message)
    (outSmall : outLen < 65536) (inSmall : inCap < 65536)
    (spared : ∀ post, seen.posted = some post → isPost = false ∧ into ≠ .caller post.rx) :
    Steady seen (xsPost out outLen into inCap isPost link).2 ∧
      (¬ (xsPost out outLen into inCap isPost link).1 < 0 →
        Sent into inCap isPost link (xsPost out outLen into inCap isPost link).2) := by
  obtain ⟨free, outNone, inNone, -⟩ := idle.nothing
  have ends := xsPost_ends out outLen into inCap isPost link
  generalize Usb.xsPost out outLen into inCap isPost link = ended at ends ⊢
  cases ends with
  | rejected failed => exact ⟨.of_tracked idle, fun fine => absurd failed fine⟩
  | refused _ failed script later =>
    obtain ⟨queue, rfl, outRecords, inRecords⟩ := later.idle outNone inNone
    refine ⟨.of_tracked (idle.rests ?_), fun fine => absurd failed fine⟩
    exact { busy := rfl, serial := Nat.le_succ _, postOpen := rfl, postReady := rfl, postRes := rfl,
            outbound := rfl, inbound := rfl, owed := rfl, answers := rfl, mostOnWire := rfl,
            orderly := rfl, outRecords := outRecords, inRecords := inRecords,
            mem := fun _ _ => rfl }
  | asked _ script later sends =>
    obtain ⟨queue, rfl, outRecords, inRecords⟩ := later.idle outNone inNone
    cases sends with
    | refused r script later =>
      have listening := later
        (fun bus => Tracked seen 0 1 { link.setOut outLen into inCap isPost with
          xs := { (link.setOut outLen into inCap isPost).xs with busy := true }
          script := script, bus := bus })
        (fun _ _ moves tracked => tracked.moves moves)
        (idle.listening message outSmall inSmall spared outRecords inRecords)
      exact ⟨.of_tracked (listening.sendRefused rfl r), fun fine => absurd raUsbEdead_neg fine⟩
    | sent script later =>
      have listening := later
        (fun bus => Tracked seen 0 1 { link.setOut outLen into inCap isPost with
          xs := { (link.setOut outLen into inCap isPost).xs with busy := true }
          script := script, bus := bus })
        (fun _ _ moves tracked => tracked.moves moves)
        (idle.listening message outSmall inSmall spared outRecords inRecords)
      refine ⟨.of_tracked (listening.sendTaken rfl), fun _ => ?_⟩
      exact ⟨rfl, rfl, rfl, rfl, rfl, rfl, rfl⟩

/-! ## Calls keep it -/

variable {seen : Seen ι} {link : Link ι}

/-- A wait that did not fail leaves the wire free. -/
theorem Steady.waited (steady : Steady seen link) (fine : ¬ (Usb.xsWait link).1 < 0) :
    Tracked seen 0 0 (Usb.xsWait link).2 := by
  have ends := xsWait_ends link
  generalize Usb.xsWait link = ended at ends fine ⊢
  cases ends with
  | free idle => exact steady.free idle
  | done busy both keeps =>
    rw [Steady, busy] at steady
    exact (keeps _ (Tracked.waitKeeps seen 1 1) steady).settled both
  | timeout busy keeps => exact absurd raUsbEtimeout_neg fine

/-- An exchange that was waited for, and the answer it brought. -/
structure Fetched (into : Place ι) (inCap : Nat) (link after : Link ι) : Prop where
  serial : after.serial = link.serial + 1
  message : after.message = link.message
  inBuf : after.xs.inBuf = into
  arrived : after.bus.orderly = true → ¬ after.xs.result < 0 →
    Arrived after.bus after.serial after.message into inCap after.xs.inRes

/-- An exchange of a blocking call, once it has been waited for. -/
theorem Sent.waited {into : Place ι} {inCap : Nat} {before : Link ι}
    (sent : Sent into inCap false before link) (steady : Steady seen link)
    (fine : ¬ (xsWait link).1 < 0) : Fetched into inCap before (xsWait link).2 := by
  have ends := xsWait_ends link
  generalize Usb.xsWait link = ended at ends fine ⊢
  cases ends with
  | free idle => simp [sent.busy] at idle
  | @done busy waited both keeps =>
    rw [Steady, busy] at steady
    have tracked := keeps _ (Tracked.waitKeeps seen 1 1) steady
    have stays := keeps _ (stays_keeps link) (.refl link)
    have isXfer : waited.xs.isPost = false := stays.isPost.trans sent.isPost
    have inBuf : waited.xs.inBuf = into := stays.inBuf.trans sent.inBuf
    have inCap : waited.xs.inCap = inCap := stays.inCap.trans sent.inCap
    simp only [settleExchange, isXfer, Bool.false_eq_true, if_false]
    refine ⟨stays.serial.trans sent.serial, stays.message.trans sent.message, inBuf, ?_⟩
    intro isOrderly success
    have delivered := tracked.delivered both isOrderly success
    rwa [inBuf, inCap] at delivered
  | timeout busy keeps => exact absurd raUsbEtimeout_neg fine

omit [DecidableEq ι] in
/-- What is put into a call's buffer is the part of the reply it asked for. -/
theorem Arrived.own {bus : Bus ι} {serial : Nat} {request : List UInt8} {place : Place ι}
    {cap : Nat} {count : Int} (arrived : Arrived bus serial request place cap count)
    {skip : Nat} {rx : List UInt8}
    (part : ∀ reply : List UInt8, count = (reply.take cap).length →
      (bus.mem place).window 0 (reply.take cap).length = reply.take cap →
      (reply.drop skip).take rx.length <+: rx) (result : Int) :
    Own bus.answers ⟨serial, request, skip, result, rx⟩ := by
  obtain ⟨reply, made, size, bytes⟩ := arrived
  exact fun _ => ⟨reply, made, part reply size bytes⟩

/-- A store between exchanges that leaves the posted reply buffer alone. -/
theorem Rests.store (free : link.xs.busy = false) {place : Place ι} (update : Mem → Mem)
    (spared : ∀ post, seen.posted = some post → place ≠ .caller post.rx) :
    Rests seen link (link.store place update) where
  busy := free
  serial := Nat.le_refl _
  postOpen := rfl
  postReady := rfl
  postRes := rfl
  outbound := rfl
  inbound := rfl
  owed := rfl
  answers := rfl
  mostOnWire := rfl
  orderly := rfl
  outRecords := rfl
  inRecords := rfl
  mem post isPosted := Function.update_of_ne (spared post isPosted).symm _ _

/-- A store into a buffer that no posted exchange uses. -/
theorem Tracked.store (idle : Tracked seen 0 0 link) {place : Place ι} (update : Mem → Mem)
    (spared : ∀ post, seen.posted = some post → place ≠ .caller post.rx) :
    Tracked seen 0 0 (link.store place update) :=
  idle.rests (.store idle.nothing.1 update spared)

/-- The pad completes the message in place. -/
theorem pad_bytes (out : Place ι) (len : Nat) (link : Link ι) :
    (pad out len link).2.bytes out (pad out len link).1 = framed (link.bytes out len) := by
  have length : (link.bytes out len).length = len := by simp [Link.bytes]
  unfold Usb.pad framed
  rw [length]
  split
  · have kept : ((link.bus.mem out).write len 0).window 0 len = link.bytes out len :=
      Cells.window_congr fun i h => Cells.write_other _ _ (by omega)
    simp [Link.bytes, Link.store, Bus.store, Cells.window_succ]
    exact kept
  · rfl

/-- Padding leaves the message. -/
theorem pad_message (out : Place ι) (len : Nat) (link : Link ι) :
    (pad out len link).2.message = link.message := by
  unfold Usb.pad
  split <;> rfl

theorem pad_le {out : Place ι} {len bound : Nat} {link : Link ι} (small : len + 1 < bound) :
    (pad out len link).1 < bound := by
  unfold Usb.pad
  split
  · exact small
  · exact Nat.lt_of_succ_lt small

/-- Padding between exchanges. -/
theorem Tracked.pad (idle : Tracked seen 0 0 link) {out : Place ι} (len : Nat)
    (spared : ∀ post, seen.posted = some post → out ≠ .caller post.rx) :
    Tracked seen 0 0 (pad out len link).2 := by
  unfold Usb.pad
  split
  · exact idle.store _ spared
  · exact idle

/-- The message's buffer holds the request. -/
theorem chooseOut_bytes {addr : ι → Nat} {tx : ι} {txLen : Nat} {out : Place ι}
    {link staged : Link ι} (chosen : chooseOut addr tx txLen link = some (out, staged)) :
    staged.bytes out txLen = link.bytes (.caller tx) txLen := by
  unfold Usb.chooseOut at chosen
  split at chosen
  · obtain ⟨rfl, rfl⟩ := Prod.mk.inj (Option.some.inj chosen)
    have length : (link.bytes (.caller tx) txLen).length = txLen := by simp [Link.bytes]
    have copied := Cells.window_overlay (link.bus.mem .smallOut) 0 (link.bytes (.caller tx) txLen)
    rw [length] at copied
    simpa [Link.bytes, Link.store, Bus.store] using copied
  · split at chosen
    · obtain ⟨rfl, rfl⟩ := Prod.mk.inj (Option.some.inj chosen)
      rfl
    · cases chosen

/-- The request of a blocking call is ready to go out. -/
theorem Tracked.chooseOut {addr : ι → Nat} (idle : Tracked seen 0 0 link) {tx : ι} {txLen : Nat}
    {out : Place ι} {staged : Link ι} (chosen : chooseOut addr tx txLen link = some (out, staged))
    (spared : ∀ post, seen.posted = some post → tx ≠ post.rx) :
    Tracked seen 0 0 staged ∧ staged.bytes out txLen = link.bytes (.caller tx) txLen ∧
      txLen + 1 < 65536 ∧ (∀ post, seen.posted = some post → out ≠ .caller post.rx) ∧
      staged.serial = link.serial ∧ staged.message = link.message := by
  have bytes := chooseOut_bytes chosen
  unfold Usb.chooseOut at chosen
  split at chosen
  · rename_i small
    obtain ⟨rfl, rfl⟩ := Prod.mk.inj (Option.some.inj chosen)
    simp only [smallOutSize] at small
    exact ⟨idle.store _ (by simp), bytes, by omega, by simp, rfl, rfl⟩
  · split at chosen
    · rename_i fit
      obtain ⟨rfl, rfl⟩ := Prod.mk.inj (Option.some.inj chosen)
      have fits := dmaOk_le fit
      refine ⟨idle, bytes, by omega, ?_, rfl, rfl⟩
      intro post isPosted same
      exact spared post isPosted (Place.caller.inj same)
    · cases chosen

/-- The bounced reply's bytes behind `skip` are what `rx` begins with. -/
theorem copyOut_bytes {reply : List UInt8} (size : link.xs.inRes = reply.length)
    (bytes : (link.bus.mem .smallIn).window 0 reply.length = reply) (rx : ι) (rxLen skip : Nat) :
    (reply.drop skip).take rxLen <+: (copyOut rx rxLen skip link).bytes (.caller rx) rxLen := by
  unfold copyOut
  simp only [size, Int.toNat_natCast]
  split
  · have part := Cells.window_part (link.bus.mem .smallIn) 0 reply.length skip rxLen
    rw [bytes, Nat.zero_add] at part
    rw [← part]
    generalize wanted : (reply.drop skip).take rxLen = copied
    have fits : copied.length ≤ rxLen := by
      rw [← wanted, List.length_take]
      exact Nat.min_le_left _ _
    simp only [Link.bytes, Link.store, Bus.store, Function.update_self]
    generalize Cells.overlay (link.bus.mem (.caller rx)) 0 (List.replicate rxLen 0) = cleared
    have whole := Cells.window_prefix (cleared.overlay 0 copied) 0 fits
    rwa [Cells.window_overlay] at whole
  · rename_i short
    rw [List.drop_eq_nil_iff.mpr (Nat.le_of_not_lt short), List.take_nil]
    exact List.nil_prefix

/-- The end of a blocking call. -/
theorem Fetched.finish {addr : ι → Nat} {into : Place ι} {cap rxLen skip : Nat} {rx : Option ι}
    {before : Link ι} (fetched : Fetched into cap before link) (idle : Tracked seen 0 0 link)
    (chosen : chooseIn addr rx rxLen skip = some (into, cap))
    (spared : ∀ post, seen.posted = some post → rx ≠ some post.rx) :
    Tracked seen 0 0 (finishXfer into rx rxLen skip link).2 ∧
      (finishXfer into rx rxLen skip link).2.serial = link.serial ∧
      ((finishXfer into rx rxLen skip link).1 = 0 →
        (finishXfer into rx rxLen skip link).2.bus.orderly = true →
        Own (finishXfer into rx rxLen skip link).2.bus.answers
          ⟨(finishXfer into rx rxLen skip link).2.serial,
            (finishXfer into rx rxLen skip link).2.message, skip, 0,
            (finishXfer into rx rxLen skip link).2.received rx rxLen⟩) := by
  unfold finishXfer
  split
  · rename_i failed
    exact ⟨idle, rfl, fun zero => by simp only at zero; omega⟩
  · rename_i success
    cases rx with
    | none =>
      refine ⟨idle, rfl, fun _ isOrderly => ?_⟩
      exact (fetched.arrived isOrderly success).own (fun reply _ _ => by simp [Link.received]) 0
    | some buffer =>
      have apart : ∀ post, seen.posted = some post → Place.caller buffer ≠ .caller post.rx :=
        fun post isPosted same => spared post isPosted (congrArg some (Place.caller.inj same))
      simp only
      split
      · rename_i bounce
        have copied : Tracked seen 0 0 (copyOut buffer rxLen skip link) := by
          unfold copyOut
          simp only
          split
          · exact (idle.store _ apart).store _ apart
          · exact idle.store _ apart
        have same : (copyOut buffer rxLen skip link).serial = link.serial ∧
            (copyOut buffer rxLen skip link).message = link.message ∧
            (copyOut buffer rxLen skip link).bus.answers = link.bus.answers ∧
            (copyOut buffer rxLen skip link).bus.orderly = link.bus.orderly := by
          unfold copyOut
          simp only
          split <;> exact ⟨rfl, rfl, rfl, rfl⟩
        obtain ⟨serial, message, answers, orderly⟩ := same
        refine ⟨copied, serial, fun _ isOrderly => ?_⟩
        rw [orderly] at isOrderly
        rw [serial, message, answers]
        refine (fetched.arrived isOrderly success).own ?_ 0
        intro reply size bytes
        rcases chooseIn_cases chosen with ⟨rfl, rfl, small⟩ | ⟨_, taken, rfl, -⟩
        · have part := copyOut_bytes size bytes buffer rxLen skip
          rw [List.drop_take, List.take_take, Nat.min_eq_left (by omega)] at part
          simpa [Link.received, Link.bytes] using part
        · exact absurd (congrArg Place.caller (Option.some.inj taken).symm) bounce.1
      · rename_i inPlace
        refine ⟨idle, rfl, fun _ isOrderly => ?_⟩
        refine (fetched.arrived isOrderly success).own ?_ 0
        intro reply size bytes
        rcases chooseIn_cases chosen with ⟨rfl, -, -⟩ | ⟨_, taken, rfl, rfl, rfl, -⟩
        · have nothing : rxLen = 0 := by simpa using inPlace
          simp [nothing, Link.received, Link.bytes]
        · obtain rfl := Option.some.inj taken
          have whole := Cells.window_prefix (link.bus.mem (.caller buffer)) 0
            (List.length_take_le cap reply)
          rw [bytes] at whole
          simpa [Link.received, Link.bytes] using whole

omit [DecidableEq ι] in
/-- What the caller asks for has no part in the account between exchanges. -/
theorem Tracked.ask (idle : Tracked seen 0 0 link) (tx : ι) (txLen : Nat) :
    Tracked seen 0 0 (link.ask tx txLen) :=
  idle.rests
    { busy := idle.nothing.1, serial := Nat.le_refl _, postOpen := rfl, postReady := rfl
      postRes := rfl, outbound := rfl, inbound := rfl, owed := rfl, answers := rfl
      mostOnWire := rfl, orderly := rfl, outRecords := rfl, inRecords := rfl
      mem := fun _ _ => rfl }

/-- What a blocking call leaves behind when it returns 0. -/
structure Answered (seen : Seen ι) (skip : Nat) (rx : List UInt8) (after : Link ι) : Prop where
  unposted : ∀ post, seen.posted = some post → post.serial < after.serial
  unreturned : ∀ entry ∈ seen.returns, entry.serial < after.serial
  own : after.bus.orderly = true →
    Own after.bus.answers ⟨after.serial, after.message, skip, 0, rx⟩

/-- A blocking exchange, from the post to the reply in place. -/
theorem Tracked.exchange {addr : ι → Nat} (idle : Tracked seen 0 0 link) {out into : Place ι}
    {outLen cap rxLen skip : Nat} {rx : Option ι} (asked : link.bytes out outLen = link.message)
    (small : outLen < 65536) (chosen : chooseIn addr rx rxLen skip = some (into, cap))
    (spared : ∀ post, seen.posted = some post → rx ≠ some post.rx) {ended : Int × Link ι}
    (ends : ended = ifOk (Usb.xsPost out outLen into cap false link) fun posted =>
      ifOk (xsWait posted) (finishXfer into rx rxLen skip)) :
    Steady seen ended.2 ∧
      (ended.1 = 0 → Answered seen skip (ended.2.received rx rxLen) ended.2) := by
  have capSmall : cap < 65536 := by
    rcases chooseIn_cases chosen with ⟨-, rfl, -⟩ | ⟨_, -, -, rfl, -, fits⟩
    · decide
    · omega
  have inSpared : ∀ post, seen.posted = some post → into ≠ .caller post.rx := by
    intro post isPosted
    rcases chooseIn_cases chosen with ⟨rfl, -, -⟩ | ⟨buffer, rfl, rfl, -⟩
    · simp
    · exact fun same => spared post isPosted (congrArg some (Place.caller.inj same))
  obtain ⟨posted, onWire⟩ := idle.xsPost asked small capSmall
    fun post isPosted => ⟨rfl, inSpared post isPosted⟩
  subst ends
  unfold ifOk
  split
  · rename_i failed
    exact ⟨posted, fun zero => absurd failed (by rw [zero]; decide)⟩
  · rename_i sent
    beta_reduce
    split
    · rename_i failed
      exact ⟨posted.xsWait, fun zero => absurd failed (by rw [zero]; decide)⟩
    · rename_i replied
      have fetched := (onWire sent).waited posted replied
      obtain ⟨finished, same, own⟩ := fetched.finish (posted.waited replied) chosen spared
      refine ⟨.of_tracked finished, fun zero => ⟨?_, ?_, own zero⟩⟩
      · intro post isPosted
        have old := (idle.waiting post isPosted).old
        rw [same, fetched.serial]
        omega
      · intro entry member
        have old := idle.old entry member
        rw [same, fetched.serial]
        omega

/-- A blocking exchange returns the answer to its own request. -/
theorem raUsbXfer_tracked (addr : ι → Nat) (steady : Steady seen link) (tx : ι) (txLen : Nat)
    (rx : Option ι) (rxLen skip : Nat)
    (spared : ∀ post, seen.posted = some post → rx ≠ some post.rx ∧ tx ≠ post.rx) :
    Steady seen (raUsbXfer addr tx txLen rx rxLen skip link).2 ∧
      ((raUsbXfer addr tx txLen rx rxLen skip link).1 = 0 →
        Answered seen skip ((raUsbXfer addr tx txLen rx rxLen skip link).2.received rx rxLen)
          (raUsbXfer addr tx txLen rx rxLen skip link).2) := by
  have dead : ¬ raUsbEdead = 0 := by decide
  have busy : ¬ raUsbEbusy = 0 := by decide
  have buf : ¬ raUsbEbuf = 0 := by decide
  unfold raUsbXfer
  split
  · exact ⟨steady, fun zero => absurd zero dead⟩
  · simp only
    split
    · exact ⟨steady.xsWait, fun zero => absurd zero busy⟩
    · rename_i waited
      have idle := steady.waited waited
      split
      · exact ⟨.of_tracked idle, fun zero => absurd zero buf⟩
      · rename_i out staged chosenOut
        obtain ⟨ready, sameBytes, small, outSpared, serial, message⟩ :=
          (idle.ask tx txLen).chooseOut chosenOut fun post isPosted => (spared post isPosted).2
        have padded := ready.pad txLen outSpared
        split
        · exact ⟨.of_tracked padded, fun zero => absurd zero buf⟩
        · rename_i into cap chosenIn
          have asked : (pad out txLen staged).2.bytes out (pad out txLen staged).1 =
              (pad out txLen staged).2.message := by
            rw [pad_bytes, sameBytes, pad_message, message]
            rfl
          exact padded.exchange asked (pad_le small) chosenIn
            (fun post isPosted => (spared post isPosted).1) rfl

omit [DecidableEq ι] in
/-- The callers learn of a posted exchange. -/
theorem Sent.opened {into : ι} {cap : Nat} {returns : List Return} {before : Link ι}
    (sent : Sent (.caller into) cap true before link)
    (steady : Steady ⟨none, returns⟩ link) (idle : Tracked ⟨none, returns⟩ 0 0 before) :
    Steady ⟨some ⟨link.serial, link.message, into, cap⟩, returns⟩
      { link with postOpen := true, postReady := false } := by
  have new : ∀ entry ∈ returns, entry.serial < link.serial := by
    intro entry member
    have old := idle.old entry member
    rw [sent.serial]
    omega
  exact { steady with
    orderly := fun isOrderly =>
      have orderly := steady.orderly isOrderly
      ⟨orderly.owed, orderly.waits, orderly.silent, orderly.intact, orderly.unsent,
        orderly.arrived⟩
    posted := rfl
    waiting := by
      rintro _ ⟨⟩
      refine ⟨Nat.le_refl _, ?_, ?_, nofun, nofun⟩
      · intro member
        obtain ⟨entry, member, same⟩ := List.mem_map.mp member
        exact absurd (new entry member) (Nat.not_lt.mpr (Nat.le_of_eq same.symm))
      · exact fun _ => ⟨sent.busy, sent.isPost, rfl, rfl, sent.inBuf, sent.inCap⟩ }

/-- A posted exchange is noted, if it could be posted. -/
theorem raUsbPost_tracked (addr : ι → Nat) (steady : Steady seen link) (tx : ι) (txLen : Nat)
    (rx : ι) (rxCap : Nat) :
    Steady (if (raUsbPost addr tx txLen rx rxCap link).1 = 0 then
        ⟨some ⟨(raUsbPost addr tx txLen rx rxCap link).2.serial,
          (raUsbPost addr tx txLen rx rxCap link).2.message, rx, rxCap⟩, seen.returns⟩ else seen)
      (raUsbPost addr tx txLen rx rxCap link).2 := by
  unfold raUsbPost
  split
  · exact steady
  · split
    · exact steady
    · rename_i free
      split
      · exact steady
      · rename_i fits
        obtain ⟨notBusy, closed⟩ : link.xs.busy = false ∧ link.postOpen = false := by
          simpa using free
        have none : seen.posted = none := by
          have posted := steady.posted
          rw [closed] at posted
          exact Option.isNone_iff_eq_none.mp (by simpa using posted.symm)
        obtain ⟨posted, returns⟩ := seen
        obtain rfl : posted = Option.none := none
        have idle := (steady.free notBusy).ask tx txLen
        have padded : Tracked ⟨Option.none, returns⟩ 0 0
            (pad (.caller tx) txLen (link.ask tx txLen)).2 := idle.pad txLen nofun
        simp only [Bool.or_eq_true, decide_eq_true_eq, Bool.not_eq_true', not_or, Nat.not_lt,
          Bool.not_eq_false] at fits
        obtain ⟨⟨small, -⟩, rxFits⟩ := fits
        have txSmall : txLen + 1 < 65536 := by
          simp only [raUsbTxMax] at small
          omega
        have rxSmall : rxCap < 65536 := Nat.lt_of_le_of_lt (dmaOk_le rxFits) (by decide)
        have asked : (pad (.caller tx) txLen (link.ask tx txLen)).2.bytes (.caller tx)
            (pad (.caller tx) txLen (link.ask tx txLen)).1 =
            (pad (.caller tx) txLen (link.ask tx txLen)).2.message := by
          rw [pad_bytes, pad_message]
          rfl
        obtain ⟨sent, onWire⟩ := padded.xsPost asked (pad_le txSmall) rxSmall nofun
        simp only
        generalize Usb.xsPost (.caller tx) _ (.caller rx) rxCap true _ = ended at sent onWire ⊢
        unfold ifOk
        by_cases failed : ended.1 < 0
        · have nonzero : ended.1 ≠ 0 := Int.ne_of_lt failed
          simp only [if_pos failed, if_neg nonzero]
          exact sent
        · simp only [if_neg failed, if_true]
          exact (onWire failed).opened sent padded

omit [DecidableEq ι] in
/-- The exchange that was posted has ended, and the reap returns its result. -/
theorem Steady.reaped {post : Posted ι} {returns : List Return}
    (steady : Steady ⟨some post, returns⟩ link) (ready : link.postReady = true) :
    Steady ⟨none, ⟨post.serial, post.request, 0, link.postRes,
        link.bytes (.caller post.rx) post.cap⟩ :: returns⟩
      { link with postOpen := false, postReady := false } := by
  have waiting := steady.waiting post rfl
  exact { steady with
    orderly := fun isOrderly =>
      have orderly := steady.orderly isOrderly
      ⟨orderly.owed, orderly.waits, orderly.silent, orderly.intact, orderly.unsent,
        orderly.arrived⟩
    posted := rfl
    waiting := nofun
    own := by
      intro isOrderly entry member
      rcases List.mem_cons.mp member with rfl | member
      · intro success
        obtain ⟨count, arrived⟩ := waiting.landed ready isOrderly success
        refine arrived.own ?_ link.postRes success
        intro reply _ bytes
        have whole := Cells.window_prefix (link.bus.mem (.caller post.rx)) 0
          (List.length_take_le post.cap reply)
        rw [bytes] at whole
        simpa [Link.bytes] using whole
      · exact steady.own isOrderly entry member
    old := by
      intro entry member
      rcases List.mem_cons.mp member with rfl | member
      · exact waiting.old
      · exact steady.old entry member
    once := List.nodup_cons.mpr ⟨waiting.unreturned, steady.once⟩ }

/-- A wait for the posted exchange that did not fail has its result. -/
theorem Steady.landed {post : Posted ι} {returns : List Return}
    (steady : Steady ⟨some post, returns⟩ link) (notYet : link.postReady = false)
    (fine : ¬ (Usb.xsWait link).1 < 0) : (Usb.xsWait link).2.postReady = true := by
  obtain ⟨busy, isPost, -⟩ := (steady.waiting post rfl).flying notYet
  have ends := xsWait_ends link
  generalize Usb.xsWait link = ended at ends fine ⊢
  cases ends with
  | free idle => simp [busy] at idle
  | done _ both keeps =>
    have stays := keeps _ (stays_keeps link) (.refl link)
    simp [settleExchange, stays.isPost, isPost]
  | timeout _ keeps => exact absurd raUsbEtimeout_neg fine

omit [DecidableEq ι] in
/-- The callers learn of a blocking exchange that succeeded. -/
theorem Steady.noted {skip : Nat} {rx : List UInt8} (steady : Steady seen link)
    (answered : Answered seen skip rx link) :
    Steady ⟨seen.posted, ⟨link.serial, link.message, skip, 0, rx⟩ :: seen.returns⟩ link := by
  have new : link.serial ∉ seen.returns.map Return.serial := by
    intro member
    obtain ⟨entry, member, same⟩ := List.mem_map.mp member
    exact absurd (answered.unreturned entry member) (Nat.not_lt.mpr (Nat.le_of_eq same.symm))
  exact { steady with
    waiting := by
      intro post isPosted
      have waiting := steady.waiting post isPosted
      refine ⟨waiting.old, ?_, waiting.flying, waiting.landed, waiting.spared⟩
      intro member
      rcases List.mem_cons.mp member with same | member
      · exact absurd (answered.unposted post isPosted) (Nat.not_lt.mpr (Nat.le_of_eq same.symm))
      · exact waiting.unreturned member
    own := by
      intro isOrderly entry member
      rcases List.mem_cons.mp member with rfl | member
      · exact answered.own isOrderly
      · exact steady.own isOrderly entry member
    old := by
      intro entry member
      rcases List.mem_cons.mp member with rfl | member
      · exact Nat.le_refl _
      · exact steady.old entry member
    once := List.nodup_cons.mpr ⟨new, steady.once⟩ }

/-- A call that spares the posted reply buffer keeps the account. -/
theorem perform_steady (addr : ι → Nat) {session : Session ι} (call : Call ι)
    (steady : Steady session.seen session.link) (spares : session.Spares call) :
    Steady (session.perform addr call).seen (session.perform addr call).link := by
  cases call with
  | xfer tx txLen rx rxLen skip =>
    obtain ⟨kept, answered⟩ := raUsbXfer_tracked addr steady tx txLen rx rxLen skip spares
    simp only [Session.perform]
    split
    · rename_i zero
      exact kept.noted (answered zero)
    · exact kept
  | post tx txLen rx rxCap =>
    have kept := raUsbPost_tracked addr steady tx txLen rx rxCap
    simp only [Session.perform]
    split
    · rename_i zero
      rwa [if_pos zero] at kept
    · rename_i nonzero
      rwa [if_neg nonzero] at kept
  | reap =>
    obtain ⟨link, posted, returns⟩ := session
    have isOpen : link.postOpen = posted.isSome := steady.posted
    cases posted with
    | none =>
      simp only [Session.perform, raUsbReap, show link.postOpen = false from isOpen]
      exact steady
    | some post =>
      have isOpen : link.postOpen = true := isOpen
      have steady : Steady ⟨some post, returns⟩ link := steady
      cases ready : link.postReady with
      | true =>
        simp only [Session.perform, raUsbReap, isOpen, ready, finishReap, Bool.not_true,
          Bool.false_eq_true, if_false, if_true]
        exact steady.reaped ready
      | false =>
        have waited := steady.xsWait
        simp only [Session.perform, raUsbReap, isOpen, ready, ifOk, Bool.not_true,
          Bool.false_eq_true, if_false]
        by_cases failed : (xsWait link).1 < 0
        · have stillOpen : (xsWait link).2.postOpen = true := waited.posted
          simp only [if_pos failed, stillOpen, if_true]
          exact waited
        · simp only [if_neg failed, finishReap, Bool.false_eq_true, if_false]
          exact waited.reaped (steady.landed ready failed)

omit [DecidableEq ι] in
/-- At power-on there is nothing to account for. -/
theorem boot_steady (up : Bool) (mem : Place ι → Mem) (script : List Step) :
    Steady (Session.boot up mem script).seen (Session.boot up mem script).link where
  outLe := Nat.le_refl _
  inLe := Nat.zero_le _
  busy := rfl
  outOnce := rfl
  inOnce := rfl
  outOwn := nofun
  inOwn := nofun
  inRes := nofun
  single := Nat.zero_le _
  past := nofun
  fresh := nofun
  answered := List.nodup_nil
  orderly _ := ⟨nofun, Nat.le_refl _, fun _ => rfl, nofun, nofun, nofun⟩
  posted := rfl
  waiting := nofun
  own := nofun
  old := nofun
  once := List.nodup_nil

/-- Calls keep the account. -/
theorem run_steady (addr : ι → Nat) (calls : List (Call ι)) {session : Session ι}
    (steady : Steady session.seen session.link) (respects : session.Respects addr calls) :
    Steady (session.run addr calls).seen (session.run addr calls).link := by
  induction calls generalizing session with
  | nil => exact steady
  | cons call later ih => exact ih (perform_steady addr call steady respects.1) respects.2

/-- Over an orderly bus every reply goes to the call that asked for it. -/
theorem replies_attributed (addr : ι → Nat) (up : Bool) (mem : Place ι → Mem)
    (script : List Step) (calls : List (Call ι))
    (respects : (Session.boot up mem script).Respects addr calls)
    (orderly : ((Session.boot up mem script).run addr calls).link.bus.orderly = true) :
    Attributed ((Session.boot up mem script).run addr calls) := by
  have steady := run_steady addr calls (boot_steady up mem script) respects
  exact ⟨steady.single, steady.own orderly, steady.once, steady.answered⟩

/-! ## A read that leaves its answer behind -/

/-- Two blocking exchanges of one byte each way. -/
def twoExchanges : List (Call Bool) :=
  [.xfer false 1 (some true) 1 0, .xfer false 1 (some true) 1 0]

/-- Both are answered in time. -/
def promptScript : List Step :=
  [.resume, .resume, .bus (.receive [1]), .bus (.outDone 1), .bus .answer, .resume, .resume,
    .resume, .resume, .bus (.receive [2]), .bus (.outDone 1), .bus .answer, .resume, .resume]

/-- The first read ends in an error while the adapter still owes the answer. -/
def failingScript : List Step :=
  [.resume, .resume, .bus (.receive [1]), .bus (.outDone 1), .bus (.inFail 0), .resume, .resume,
    .resume, .resume, .bus .answer, .bus (.receive [2]), .bus (.outDone 1), .resume, .resume]

/-- Two exchanges from power-on. -/
def exchanged (script : List Step) : Session Bool :=
  (Session.boot true (fun _ _ => 0) script).run (fun _ => 0) twoExchanges

/-- A run in which every reply comes at once. -/
theorem replies_attributed_prompt :
    ((exchanged promptScript).seen.returns = [⟨2, [0], 0, 0, [2]⟩, ⟨1, [0], 0, 0, [1]⟩]) ∧
      Attributed (exchanged promptScript) :=
  ⟨by decide +kernel,
    replies_attributed _ _ _ _ _ ⟨nofun, nofun, trivial⟩ (by decide +kernel)⟩

/-- The second call returns 0 with the reply to the first call's request. -/
theorem stale_reply_returned :
    ¬ ∀ (script : List Step) (calls : List (Call Bool)),
      (Session.boot true (fun _ _ => 0) script).Respects (fun _ => 0) calls →
        Attributed ((Session.boot true (fun _ _ => 0) script).run (fun _ => 0) calls) := by
  intro attributed
  have answers : (exchanged failingScript).link.bus.answers = [⟨2, [0], [2]⟩, ⟨1, [0], [1]⟩] := by
    decide +kernel
  have returned : ⟨2, [0], 0, 0, [1]⟩ ∈ (exchanged failingScript).seen.returns := by
    decide +kernel
  have own : Own (exchanged failingScript).link.bus.answers ⟨2, [0], 0, 0, [1]⟩ :=
    (attributed failingScript twoExchanges ⟨nofun, nofun, trivial⟩).own _ returned
  rw [answers] at own
  obtain ⟨reply, made, bytes⟩ := own rfl
  obtain rfl : reply = [2] := by simpa [ReplyTo] using made
  exact absurd bytes (by decide)

end Invariant

end D2xCios.Usb
