import D2xCios.Ra.Steps

/-!
# Address-query hand-off

The console appends a queried set when it parses the query, the adapter when it
receives the answer, so the replicas agree only if every query is answered. The
ledger of a run is kept on its trace: `unanswered` is the query the adapter still
waits for, `Accounts` says that every accepted query joined the list once.

Every step preserves the ledger (`ReplicaStep.ledger`). A query is lost when its
answer fails, or the rounds run out, and the next snapshot brings another one or
a resync: `handoff_iff`.
-/

namespace D2xCios.Ra

open D2xCios.Lib

/-! ## The ledger -/

/-- The query the adapter waits for an answer to, by what the module did. -/
def unanswered : List Event → Option (List UInt32)
  | [] => none
  | .parsed _ reply :: earlier => (acceptedQuery reply).or (unanswered earlier)
  | .answered query :: earlier =>
    if unanswered earlier = some query then none else unanswered earlier
  | _ :: earlier => unanswered earlier

/-- Queries were replaced, and the list fetched anew, only once the earlier query
had been answered. -/
def NeverLost : List Event → Prop
  | [] => True
  | .parsed _ reply :: earlier =>
    ((acceptedQuery reply).isSome → unanswered earlier = none) ∧ NeverLost earlier
  | .refetch _ :: earlier => unanswered earlier = none ∧ NeverLost earlier
  | _ :: earlier => NeverLost earlier

instance decidableNeverLost : (trace : List Event) → Decidable (NeverLost trace)
  | [] => isTrue trivial
  | .parsed _ reply :: earlier =>
    have := decidableNeverLost earlier
    inferInstanceAs (Decidable
      (((acceptedQuery reply).isSome → unanswered earlier = none) ∧ NeverLost earlier))
  | .refetch _ :: earlier =>
    have := decidableNeverLost earlier
    inferInstanceAs (Decidable (unanswered earlier = none ∧ NeverLost earlier))
  | .begins _ _ :: earlier => decidableNeverLost earlier
  | .request _ _ :: earlier => decidableNeverLost earlier
  | .answered _ :: earlier => decidableNeverLost earlier
  | .refetched _ :: earlier => decidableNeverLost earlier

/-- The trace leads from the list `start` to `list`: every accepted query is appended
when it is parsed, unless the list is full, and at no other time. -/
def Accounts (start : List UInt32) : List Event → (list : List UInt32) → Prop
  | [], list => list = start
  | .parsed before reply :: earlier, list =>
    Accounts start earlier before.watchlist.addrs ∧
      list = match acceptedQuery reply with
        | some query =>
          if before.watchlist.count + query.length ≤ raMaxWatchAddrs then
            before.watchlist.addrs ++ query
          else before.watchlist.addrs
        | none => (raParseResponse before reply).state.watchlist.addrs
  | .refetched watchlist :: earlier, list => list = watchlist ∧ ∃ old, Accounts start earlier old
  | _ :: earlier, list => Accounts start earlier list

/-- No query was pending when the event was to replace it or the list. -/
def Event.NoneWaiting : Event → Prop
  | .parsed before reply => (acceptedQuery reply).isSome → before.pending.count = 0
  | .refetch pending => pending = []
  | _ => True

/-- No query was pending when an acceptable one was parsed or a resync set out. -/
def NoneWaiting (trace : List Event) : Prop := ∀ event ∈ trace, event.NoneWaiting

/-- The pending query of a state. -/
def PendingQuery.waiting (pending : PendingQuery) : Option (List UInt32) :=
  if pending.count = 0 then Option.none else some pending.addrs

@[simp] theorem PendingQuery.waiting_eq_none {pending : PendingQuery} :
    pending.waiting = Option.none ↔ pending.count = 0 := by
  simp [PendingQuery.waiting]

/-! ## What parsing does to query and list -/

section Parsing

variable (s : RaState) (reply : Mem)

/-- An accepted query is remembered, and appended when the list has room. -/
theorem parse_accepted {query : List UInt32} (accepted : acceptedQuery reply = some query) :
    (raParseResponse s reply).state.pending.waiting = some query ∧
      (raParseResponse s reply).state.watchlist.addrs =
        if s.watchlist.count + query.length ≤ raMaxWatchAddrs then s.watchlist.addrs ++ query
        else s.watchlist.addrs := by
  unfold acceptedQuery at accepted
  split at accepted
  · rename_i shape
    obtain ⟨magic, event, some, bounded⟩ := shape
    cases accepted
    have remembered : ∀ cells : Cells UInt32,
        (cells.fill 0 (be16 reply payloadAt).toNat (addrAt reply (payloadAt + 2))).window 0
          (be16 reply payloadAt).toNat =
        (List.range (be16 reply payloadAt).toNat).map (addrAt reply (payloadAt + 2)) := by
      intro cells
      have stored := Cells.window_overlay cells 0
        ((List.range (be16 reply payloadAt).toNat).map (addrAt reply (payloadAt + 2)))
      simpa [Cells.fill_eq_overlay] using stored
    rw [parse_addrQuery magic event]
    simp only [parseAddrQuery, dif_pos (And.intro some bounded), List.length_map, List.length_range]
    by_cases room : s.watchlist.count + (be16 reply payloadAt).toNat ≤ raMaxWatchAddrs
    · simp only [dif_pos room, if_pos room, Watchlist.append_addrs]
      refine ⟨?_, ?_⟩
      · simp only [PendingQuery.waiting, PendingQuery.addrs, remembered]
        exact if_neg (Nat.pos_iff_ne_zero.mp some)
      · congr 1
        simpa [Cells.window] using remembered s.pending.cells
    · simp only [dif_neg room, if_neg room, and_true]
      simp only [PendingQuery.waiting, PendingQuery.addrs, remembered]
      exact if_neg (Nat.pos_iff_ne_zero.mp some)
  · cases accepted

/-- Any other reply leaves the pending query alone. -/
theorem parse_notAccepted (other : acceptedQuery reply = none) :
    (raParseResponse s reply).state.pending = s.pending := by
  unfold acceptedQuery at other
  split at other
  · cases other
  · rename_i shape
    by_cases magic : reply 0 = raMagicEspToGc
    · by_cases query : reply 2 = raEvtAddrQuery
      · have count : ¬ (0 < (be16 reply payloadAt).toNat ∧
            (be16 reply payloadAt).toNat ≤ raAddrQueryMax) := fun bounds =>
          shape ⟨magic, query, bounds⟩
        rw [parse_addrQuery magic query]
        simp [parseAddrQuery, count]
      · by_cases append : reply 2 = raEvtWatchlistAppend
        · rw [parse_append magic append]
          simp only [parseWatchlistAppend]
          split
          · rfl
          · split <;> rfl
        · by_cases removal : reply 2 = raEvtWatchlistRemoveIdx
          · rw [parse_removeIdx magic removal]
            simp only [parseWatchlistRemoveIdx]
            split
            · rfl
            · split <;> rfl
          · by_cases update : reply 2 = raEvtWatchlistUpdate
            · rw [parse_update magic update]
              rfl
            · obtain ⟨led, unrelated⟩ :=
                parse_unrelated (s := s) ⟨query, append, removal, update⟩
              rw [unrelated]
    · rw [parse_badMagic magic]

end Parsing

/-- The ledger agrees with the state. -/
structure Ledger (start : List UInt32) (s : RaState) (trace : List Event) : Prop where
  waiting : unanswered trace = s.pending.waiting
  lost : NeverLost trace ↔ NoneWaiting trace
  list : Accounts start trace s.watchlist.addrs

/-- None waits if none does at the last event and before. -/
theorem NoneWaiting.cons {event : Event} {trace : List Event} :
    NoneWaiting (event :: trace) ↔ event.NoneWaiting ∧ NoneWaiting trace :=
  List.forall_mem_cons

/-- An event that replaces nothing has no say in it. -/
theorem NoneWaiting.skip {event : Event} {trace : List Event} (free : event.NoneWaiting) :
    NoneWaiting trace ↔ NoneWaiting (event :: trace) :=
  ⟨fun rest => NoneWaiting.cons.mpr ⟨free, rest⟩, fun all => (NoneWaiting.cons.mp all).2⟩

/-- Quiet events leave the ledger as it is. -/
theorem Ledger.quietly {start : List UInt32} {s : RaState} {trace sent : List Event}
    (silent : ∀ event ∈ sent, event.Quiet) (ledger : Ledger start s trace) :
    Ledger start s (sent ++ trace) := by
  induction sent with
  | nil => exact ledger
  | cons event sent ih =>
    have rest := ih fun other member => silent other (List.mem_cons_of_mem _ member)
    have quiet := silent event List.mem_cons_self
    cases event with
    | begins rx wire =>
      exact ⟨rest.waiting, rest.lost.trans (NoneWaiting.skip trivial), rest.list⟩
    | request view bytes =>
      exact ⟨rest.waiting, rest.lost.trans (NoneWaiting.skip trivial), rest.list⟩
    | parsed before reply => cases quiet
    | answered query => cases quiet
    | refetch pending => cases quiet
    | refetched watchlist => cases quiet

theorem addrs_eq_nil {pending : PendingQuery} : pending.addrs = [] ↔ pending.count = 0 := by
  rw [← List.length_eq_zero_iff]
  simp [PendingQuery.addrs]

/-- Every step keeps the ledger. -/
theorem ReplicaStep.ledger {start : List UInt32} {before after : RaState × List Event}
    (step : ReplicaStep before after) (ledger : Ledger start before.1 before.2) :
    Ledger start after.1 after.2 := by
  cases step with
  | @quiet s trace event silent =>
    have alone : ∀ other ∈ [event], other.Quiet := by simpa using silent
    exact ledger.quietly alone
  | @parse s trace reply =>
    have waiting :
      NeverLost (.parsed s reply :: trace) ↔ NoneWaiting (.parsed s reply :: trace) := by
      rw [NeverLost, NoneWaiting.cons, ledger.lost, ledger.waiting, PendingQuery.waiting_eq_none]
      rfl
    cases accepted : acceptedQuery reply with
    | some query =>
      obtain ⟨pending, watchlist⟩ := parse_accepted s reply accepted
      refine ⟨?_, waiting, ledger.list, ?_⟩
      · rw [unanswered, accepted, pending]
        rfl
      · rw [watchlist, accepted]
    | none =>
      refine ⟨?_, waiting, ledger.list, ?_⟩
      · rw [unanswered, accepted, Option.none_or, parse_notAccepted s reply accepted,
          ledger.waiting]
      · rw [accepted]
  | @answer s trace waiting =>
    have asked : unanswered trace = some s.pending.addrs := by
      rw [ledger.waiting, PendingQuery.waiting, if_neg waiting]
    refine ⟨?_, ledger.lost.trans (NoneWaiting.skip trivial), ledger.list⟩
    rw [unanswered, if_pos asked]
    rfl
  | @resync s trace after sent silent kept =>
    have begun : Ledger start s (.refetch s.pending.addrs :: trace) := by
      refine ⟨ledger.waiting, ?_, ledger.list⟩
      rw [NeverLost, NoneWaiting.cons, ledger.lost, ledger.waiting, PendingQuery.waiting_eq_none,
        ← addrs_eq_nil]
      rfl
    have fetching := begun.quietly silent
    refine ⟨?_, fetching.lost.trans (NoneWaiting.skip trivial), rfl, _, fetching.list⟩
    rw [kept]
    exact fetching.waiting
  | celebrate led => exact ⟨ledger.waiting, ledger.lost, ledger.list⟩

/-- So does every run of steps. -/
theorem ledger_of_steps {start : List UInt32} {before after : RaState × List Event}
    (steps : Relation.ReflTransGen ReplicaStep before after)
    (ledger : Ledger start before.1 before.2) : Ledger start after.1 after.2 := by
  induction steps with
  | refl => exact ledger
  | tail _ step ih => exact step.ledger ih

section Runs

variable {σ : Type} (port : Port σ)

/-- The main loop starts with a settled ledger. -/
theorem powerOn_ledger (build : LinkBuild) (io : σ) :
    let sys := powerOn port build io
    Ledger sys.ra.watchlist.addrs sys.ra sys.trace := by
  intro sys
  have quiet := powerOn_quietly port (.blocking build) build io
  obtain ⟨sent, trace, silent⟩ := quiet.trace
  have boot : Ledger sys.ra.watchlist.addrs sys.ra [] := by
    refine ⟨?_, by simp [NeverLost, NoneWaiting], rfl⟩
    have none : sys.ra.pending = .none := by rw [quiet.ra]; rfl
    rw [none]
    rfl
  have settled := boot.quietly silent
  rw [trace]
  exact settled

/-- In every run, no query is lost and each is appended once exactly when none is
pending whenever another one is accepted or a resync sets out. -/
theorem handoff_iff (loop : MainLoop) (io : σ) (ctrs : List UInt32) :
    let start := (powerOn port loop.build io).ra.watchlist.addrs
    let run := runLoop port loop io ctrs
    (NeverLost run.trace ∧ Accounts start run.trace run.ra.watchlist.addrs) ↔
      NoneWaiting run.trace := by
  intro start run
  have ledger := ledger_of_steps (runLoop_advances port loop io ctrs).replica
    (powerOn_ledger port loop.build io)
  rw [← ledger.lost]
  exact and_iff_left ledger.list

end Runs

/-- A reply that asks for one address. -/
def oneAddressQuery (low : UInt8) : Mem :=
  bufferOf [raMagicEspToGc, 0, raEvtAddrQuery, 1, 0, 0, 0, 1, 0, 0, 0x10, low]

/-- Nothing answers at power-on; then two snapshots bring a query each, and no answer
to the first one gets through in between. -/
def unansweredScript : List (Except Int Mem) :=
  List.replicate 4 (.error raUsbEtimeout) ++ [.ok (oneAddressQuery 0)] ++
    List.replicate addrQueryRounds (.error raUsbEtimeout) ++ [.ok (oneAddressQuery 1)]

/-- The second query takes the place of the first. -/
theorem failed_answers_lose_query :
    ¬ ∀ (loop : MainLoop) (script : List (Except Int Mem)) (ctrs : List UInt32),
      let port := Port.scripted fun _ => 0
      let start := (powerOn port loop.build script).ra.watchlist.addrs
      let run := runLoop port loop script ctrs
      NeverLost run.trace ∧ Accounts start run.trace run.ra.watchlist.addrs := by
  intro claimed
  have kept := (claimed (.blocking .exi) unansweredScript [1, 2]).1
  revert kept
  decide +kernel

end D2xCios.Ra
