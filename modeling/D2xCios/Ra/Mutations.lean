import D2xCios.Lib.Delivery
import D2xCios.Ra.Parse
import Mathlib.Data.List.Perm.Subperm

/-!
# Verified watchlist sync

The adapter edits the shared watchlist by a stream of numbered mutations and
resends the one the console's sequence echo asks for. `Mutation.apply` is what a
mutation means on the list; `parse_follows` says that the parser applies a
response exactly when it carries the next number, so that the module's list is
determined by its position in the stream (`Lib.Delivery`).

The number has sixteen bits. A response that is 65535 positions late therefore
carries the number of the next mutation and is applied in its place: delivery is
exactly-once within a window of fewer than 65535 positions backwards.
-/

namespace D2xCios.Ra

open D2xCios.Lib D2xCios.Lib.Delivery

/-- One edit of the shared watchlist. -/
inductive Mutation where
  | append (addrs : List UInt32)
  | removeIdx (indices : List Nat)

namespace Mutation

/-- What an edit means: concatenation at the end, or dropping the listed
positions with the order of the survivors kept. -/
def apply : Mutation → List UInt32 → List UInt32
  | .append addrs, list => list ++ addrs
  | .removeIdx indices, list => Compaction.survivors indices list

/-- The edits the adapter may announce for a given list. -/
def WellFormed : Mutation → List UInt32 → Prop
  | .append addrs, list =>
      1 ≤ addrs.length ∧ addrs.length ≤ 512 ∧ list.length + addrs.length ≤ raMaxWatchAddrs
  | .removeIdx indices, list =>
      indices ≠ [] ∧ indices.Pairwise (· < ·) ∧ ∀ i ∈ indices, i < list.length

/-- The reply buffer carries the edit under number `seq`. -/
def OnWire (seq : UInt16) (buf : Mem) : Mutation → Prop
  | .append addrs =>
      buf 0 = raMagicEspToGc ∧ buf 2 = raEvtWatchlistAppend ∧ be16 buf payloadAt = seq ∧
        (be16 buf (payloadAt + 2)).toNat = addrs.length ∧
        ∀ j (h : j < addrs.length), addrAt buf (payloadAt + 4) j = addrs[j]
  | .removeIdx indices =>
      buf 0 = raMagicEspToGc ∧ buf 2 = raEvtWatchlistRemoveIdx ∧ be16 buf payloadAt = seq ∧
        (be16 buf (payloadAt + 2)).toNat = indices.length ∧
        ∀ m (h : m < indices.length), (be16 buf (payloadAt + 4 + m * 2)).toNat = indices[m]

/-- Strictly ascending positions below the length are no more than the length. -/
theorem removeIdx_length_le {indices : List Nat} {list : List UInt32}
    (wellFormed : (removeIdx indices).WellFormed list) : indices.length ≤ list.length := by
  obtain ⟨_, ascending, inside⟩ := wellFormed
  have distinct : indices.Nodup := ascending.imp Nat.ne_of_lt
  have subset : indices ⊆ List.range list.length := fun i member =>
    List.mem_range.mpr (inside i member)
  simpa using (distinct.subperm subset).length_le

/-- Parsing the next edit applies it and adopts its number. -/
theorem parse_next (s : RaState) (buf : Mem) (mutation : Mutation)
    (wellFormed : mutation.WellFormed s.watchlist.addrs)
    (onWire : mutation.OnWire (s.wlSeq + 1) buf) :
    (raParseResponse s buf).state.watchlist.addrs = mutation.apply s.watchlist.addrs ∧
      (raParseResponse s buf).state.wlSeq = s.wlSeq + 1 := by
  cases mutation with
  | append addrs =>
    obtain ⟨magic, event, next, counted, carried⟩ := onWire
    obtain ⟨some, _, room⟩ := wellFormed
    rw [Watchlist.addrs_length] at room
    have source : (List.range addrs.length).map (addrAt buf (payloadAt + 4)) = addrs := by
      apply List.ext_getElem (by simp)
      intro j _ h
      simpa using carried j h
    have parsed := parseWatchlistAppend_next s buf next counted some room
    rw [source] at parsed
    rw [parse_append magic event]
    exact parsed
  | removeIdx indices =>
    obtain ⟨magic, event, next, counted, carried⟩ := onWire
    have bounded := removeIdx_length_le wellFormed
    rw [Watchlist.addrs_length] at bounded
    rw [parse_removeIdx magic event]
    exact parseWatchlistRemoveIdx_next s buf next counted carried wellFormed.2.1
      (List.length_pos_iff.mpr wellFormed.1) bounded

/-- Parsing an edit under any other number changes neither list nor number. -/
theorem parse_other {s : RaState} {buf : Mem} {mutation : Mutation} {seq : UInt16}
    (onWire : mutation.OnWire seq buf) (other : seq ≠ s.wlSeq + 1) :
    (raParseResponse s buf).state = s := by
  cases mutation with
  | append addrs =>
    obtain ⟨magic, event, rfl, _⟩ := onWire
    rw [parse_append magic event, parseWatchlistAppend_outOfSeq s buf other]
  | removeIdx indices =>
    obtain ⟨magic, event, rfl, _⟩ := onWire
    rw [parse_removeIdx magic event, parseWatchlistRemoveIdx_outOfSeq s buf other]

end Mutation

/-- The list after the first `n` edits of a stream. -/
def mutated (stream : Nat → Mutation) (start : List UInt32) (n : Nat) : List UInt32 :=
  applied (fun k => (stream k).apply) start n

/-- Every edit of the stream is well formed for the list it meets. -/
def WellFormedStream (stream : Nat → Mutation) (start : List UInt32) : Prop :=
  ∀ n, (stream (n + 1)).WellFormed (mutated stream start n)

/-- The number of the `k`-th edit after a list numbered `base`. -/
def seqOf (base : UInt16) (k : Nat) : UInt16 := base + UInt16.ofNat k

/-- A reply buffer carries the `k`-th edit of a stream, or nothing of it: a bad
magic, or an event that is neither query, edit nor update notice. -/
def CarriesEdit (stream : Nat → Mutation) (base : UInt16) (buf : Mem) : Carried → Prop
  | some k => 1 ≤ k ∧ (stream k).OnWire (seqOf base k) buf
  | none => buf 0 ≠ raMagicEspToGc ∨ UnrelatedEvent (buf 2)

theorem seqOf_zero (base : UInt16) : seqOf base 0 = base := by
  simp [seqOf]

theorem seqOf_succ (base : UInt16) (n : Nat) : seqOf base (n + 1) = seqOf base n + 1 := by
  rw [seqOf, seqOf, UInt16.ofNat_add, ← UInt16.add_assoc]
  rfl

/-- Numbers repeat every 65536 edits. -/
theorem seqOf_periodic (base : UInt16) (k n : Nat) (same : seqOf base k = seqOf base n) :
    k % 65536 = n % 65536 := by
  have residues := congrArg UInt16.toNat ((UInt16.add_right_inj base).mp same)
  simpa using residues

/-- The parser, as a receiver of a stream of edits. -/
theorem parse_follows {stream : Nat → Mutation} {start : List UInt32} {base : UInt16}
    (wellFormed : WellFormedStream stream start) :
    Follows (fun s buf => (raParseResponse s buf).state) (fun s => s.watchlist.addrs)
      (fun s => s.wlSeq) (fun k => (stream k).apply) (seqOf base) (CarriesEdit stream base)
      start where
  accepts := by
    intro s buf n carries here numbered
    have edit := wellFormed n
    rw [mutated, ← here] at edit
    have onWire := carries.2
    rw [seqOf_succ, ← numbered] at onWire
    have parsed := Mutation.parse_next s buf _ edit onWire
    rw [seqOf_succ, ← numbered]
    exact parsed
  ignores := by
    intro s buf carried n carries numbered other
    cases carried with
    | none =>
      rcases carries with bad | event
      · simp [parse_badMagic bad]
      · obtain ⟨led, parsed⟩ := parse_unrelated (s := s) event
        simp [parsed]
    | some k =>
      have different := other k rfl
      rw [seqOf_succ, ← numbered] at different
      simp [Mutation.parse_other carries.2 different]

/-- The state after parsing a sequence of responses. -/
def parseAll (s : RaState) (responses : List Mem) : RaState :=
  responses.foldl (fun s buf => (raParseResponse s buf).state) s

/-- Every response lies fewer than `ahead` positions past, and fewer than
`behind` positions before, the last edit applied when it is parsed. -/
def InWindow (ahead behind : Nat) (schedule : List Carried) : Prop :=
  ∀ prior k rest, schedule = prior ++ some k :: rest →
    k < position prior + ahead ∧ position prior < k + behind

/-- Exactly-once delivery for all schedules within a window: at every moment the
list and its number are those of one place in the stream, parsing the edit that
follows it moves the place there, and nothing else moves it. -/
def DeliveredExactlyOnce (ahead behind : Nat) : Prop :=
  ∀ (s : RaState) (stream : Nat → Mutation), WellFormedStream stream s.watchlist.addrs →
  ∀ responses : List (Mem × Carried),
    (∀ response ∈ responses, CarriesEdit stream s.wlSeq response.1 response.2) →
    InWindow ahead behind (responses.map Prod.snd) →
    ∃ place : Nat → Nat, place 0 = 0 ∧
      (∀ t, t ≤ responses.length →
        (parseAll s ((responses.take t).map Prod.fst)).watchlist.addrs =
            mutated stream s.watchlist.addrs (place t) ∧
          (parseAll s ((responses.take t).map Prod.fst)).wlSeq = seqOf s.wlSeq (place t)) ∧
      ∀ t (h : t < responses.length), place t ≤ place (t + 1) ∧
        (place (t + 1) ≠ place t →
          place (t + 1) = place t + 1 ∧ responses[t].2 = some (place t + 1)) ∧
        (responses[t].2 = some (place t + 1) → place (t + 1) = place t + 1)

/-- Delivery is exactly-once and in order for responses that are fewer than 65536
positions early and fewer than 65535 positions late. -/
theorem watchlist_delivered_exactly_once : DeliveredExactlyOnce 65536 65535 := by
  intro s stream wellFormed responses carries window
  refine ⟨fun t => position ((responses.take t).map Prod.snd), by simp, ?_, ?_⟩
  · intro t _
    have unambiguous : Unambiguous (seqOf s.wlSeq) (responses.map Prod.snd) :=
      unambiguous_of_window (seqOf_periodic s.wlSeq) fun prior k rest split => by
        have bounds := window prior k rest split
        omega
    rw [← List.take_append_drop t responses, List.map_append] at unambiguous
    exact (parse_follows wellFormed).run s rfl (seqOf_zero _).symm (responses.take t)
      (fun response member => carries response (List.mem_of_mem_take member)) unambiguous.front
  · intro t inside
    have next : (responses.take (t + 1)).map Prod.snd =
        (responses.take t).map Prod.snd ++ [responses[t].2] := by
      rw [List.take_succ_eq_append_getElem inside, List.map_append, List.map_singleton]
    simp only [next, position_snoc]
    rcases advance_cases (position ((responses.take t).map Prod.snd)) responses[t].2 with
      ⟨edit, moved⟩ | ⟨other, stayed⟩
    · rw [moved]
      exact ⟨Nat.le_succ _, fun _ => ⟨rfl, edit⟩, fun _ => rfl⟩
    · rw [stayed]
      exact ⟨Nat.le_refl _, fun changed => absurd rfl changed, fun next => absurd next other⟩

/-! ## The window cannot be wider -/

section Wraparound

/-- A stream that appends its own position and removes it again. -/
def alternating (k : Nat) : Mutation :=
  if k % 2 = 0 then .removeIdx [0] else .append [UInt32.ofNat k]

/-- The reply that carries an edit of `alternating` under its number. -/
def alternatingReply (k : Nat) : Mem :=
  bufferOf (
    [raMagicEspToGc, 0x07, if k % 2 = 0 then raEvtWatchlistRemoveIdx else raEvtWatchlistAppend,
      0x01, 0x00, 0x00] ++ bytes16 (seqOf 0 k) ++ [0x00, 0x01] ++
    if k % 2 = 0 then [0x00, 0x00] else bytes32 (UInt32.ofNat k))

/-- The first `n` edits of the stream, each delivered once and in order. -/
def inOrder (n : Nat) : List (Mem × Carried) :=
  (List.range n).map fun i => (alternatingReply (i + 1), some (i + 1))

/-- The replies that alternate, on the wire. -/
theorem alternatingReply_onWire (k : Nat) :
    (alternating k).OnWire (seqOf 0 k) (alternatingReply k) := by
  have number : (alternatingReply k).window payloadAt 2 = bytes16 (seqOf 0 k) := by
    simp [alternatingReply, bufferOf, Cells.window, payloadAt, EspHeader.size, bytes16,
      List.range_succ]
  have one : (be16 (alternatingReply k) (payloadAt + 2)).toNat = 1 := by
    simp [alternatingReply, bufferOf, be16, payloadAt, EspHeader.size, bytes16]
  by_cases even : k % 2 = 0
  · simp only [alternating, even, if_true, Mutation.OnWire]
    refine ⟨rfl, by simp [alternatingReply, bufferOf, even], be16_of_bytes number, one, ?_⟩
    intro m h
    have zero : m = 0 := by simpa using h
    subst zero
    simp [alternatingReply, bufferOf, even, be16, payloadAt, EspHeader.size, bytes16]
  · simp only [alternating, even, if_false, Mutation.OnWire]
    refine ⟨rfl, by simp [alternatingReply, bufferOf, even], be16_of_bytes number, one, ?_⟩
    intro j h
    have zero : j = 0 := by simpa using h
    subst zero
    apply be32_of_bytes
    simp [alternatingReply, bufferOf, even, Cells.window, payloadAt, EspHeader.size, bytes16,
      bytes32, List.range_succ]

/-- The list is empty or has one address, in turns. -/
theorem alternating_mutated (n : Nat) :
    mutated alternating [] n = if n % 2 = 0 then [] else [UInt32.ofNat n] := by
  induction n with
  | zero => rfl
  | succ n ih =>
    have step : mutated alternating [] (n + 1) =
        (alternating (n + 1)).apply (mutated alternating [] n) := rfl
    rw [step, ih]
    by_cases even : n % 2 = 0
    · have odd : (n + 1) % 2 ≠ 0 := by omega
      simp [alternating, even, odd, Mutation.apply]
    · have next : (n + 1) % 2 = 0 := by omega
      simp [alternating, even, next, Mutation.apply, Compaction.survivors]

/-- The stream that alternates is well formed. -/
theorem alternating_wellFormed : WellFormedStream alternating [] := by
  intro n
  rw [alternating_mutated]
  by_cases even : n % 2 = 0
  · have odd : (n + 1) % 2 ≠ 0 := by omega
    simp [alternating, even, odd, Mutation.WellFormed, raMaxWatchAddrs]
  · have next : (n + 1) % 2 = 0 := by omega
    simp [alternating, even, next, Mutation.WellFormed]

/-- The responses in their order carry the stream. -/
theorem inOrder_carries (n : Nat) :
    ∀ response ∈ inOrder n, CarriesEdit alternating 0 response.1 response.2 := by
  intro response member
  obtain ⟨i, _, rfl⟩ := List.mem_map.mp member
  exact ⟨Nat.le_add_left 1 i, alternatingReply_onWire (i + 1)⟩

/-- The position behind the responses in their order. -/
theorem inOrder_position (n : Nat) : position ((inOrder n).map Prod.snd) = n := by
  induction n with
  | zero => rfl
  | succ n ih =>
    have snoc : (inOrder (n + 1)).map Prod.snd = (inOrder n).map Prod.snd ++ [some (n + 1)] := by
      simp [inOrder, List.range_succ]
    rw [snoc, position_snoc, ih]
    exact if_pos rfl

/-- The first of the responses in their order. -/
theorem inOrder_take {n t : Nat} (le : t ≤ n) : (inOrder n).take t = inOrder t := by
  rw [inOrder, ← List.map_take, List.take_range, Nat.min_eq_left le, inOrder]

/-- In-order delivery keeps within any window. -/
theorem inOrder_split {n : Nat} {prior : List Carried} {k : Nat} {rest : List Carried}
    (split : (inOrder n).map Prod.snd = prior ++ some k :: rest) : k = position prior + 1 := by
  have lengths := congrArg List.length split
  simp only [List.length_map, inOrder, List.length_range, List.length_append,
    List.length_cons] at lengths
  have before : prior = (inOrder prior.length).map Prod.snd := by
    have front := congrArg (List.take prior.length) split
    rw [List.take_left, ← List.map_take, inOrder_take (by omega)] at front
    exact front.symm
  have here := congrArg (fun list => list[prior.length]?) split
  simp only [inOrder, List.map_map, List.getElem?_map, List.getElem?_append_right (Nat.le_refl _),
    Nat.sub_self, List.getElem?_cons_zero] at here
  rw [List.getElem?_range (by omega)] at here
  have place : position prior = prior.length := by
    rw [before, inOrder_position]
    simp [inOrder]
  simp only [Option.map_some, Function.comp, Option.some.injEq] at here
  omega

/-- The state behind the responses in their order. -/
theorem inOrder_run (n : Nat) :
    (parseAll .boot ((inOrder n).map Prod.fst)).watchlist.addrs = mutated alternating [] n ∧
      (parseAll .boot ((inOrder n).map Prod.fst)).wlSeq = seqOf 0 n := by
  have unambiguous : Unambiguous (seqOf 0) ((inOrder n).map Prod.snd) :=
    fun _ _ _ split _ => inOrder_split split
  have run := (parse_follows alternating_wellFormed).run RaState.boot rfl
    (seqOf_zero 0).symm (inOrder n) (inOrder_carries n) unambiguous
  rw [inOrder_position] at run
  exact run

/-- Delivery of the first `n` edits in order, and then of the first one again. -/
def lateReplay (n : Nat) : List (Mem × Carried) := inOrder n ++ [(alternatingReply 1, some 1)]

/-- The responses in front of the late one. -/
theorem lateReplay_take {n t : Nat} (le : t ≤ n) : (lateReplay n).take t = inOrder t := by
  have inside : t ≤ (inOrder n).length := by simpa [inOrder] using le
  rw [lateReplay, List.take_append_of_le_length inside, inOrder_take le]

/-- The late response is one of the stream as well. -/
theorem lateReplay_carries (n : Nat) :
    ∀ response ∈ lateReplay n, CarriesEdit alternating 0 response.1 response.2 := by
  intro response member
  rcases List.mem_append.mp member with front | last
  · exact inOrder_carries n response front
  · rw [List.mem_singleton.mp last]
    exact ⟨Nat.le_refl 1, alternatingReply_onWire 1⟩

/-- The replayed edit is `n - 1` positions late. -/
theorem lateReplay_inWindow {n : Nat} (some : 2 ≤ n) :
    InWindow n n ((lateReplay n).map Prod.snd) := by
  intro prior k rest split
  rw [lateReplay, List.map_append, List.map_singleton] at split
  have place : k = 1 ∧ position prior = n ∨ k = position prior + 1 ∧ position prior < n := by
    rcases List.append_eq_append_iff.mp split with ⟨gap, front, back⟩ | ⟨gap, front, back⟩
    · cases gap with
      | nil =>
        simp only [List.nil_append, List.cons.injEq, Option.some.injEq] at back
        rw [front, List.append_nil, inOrder_position]
        exact Or.inl ⟨back.1.symm, rfl⟩
      | cons head tail => simp at back
    · cases gap with
      | nil =>
        simp only [List.nil_append, List.cons.injEq, Option.some.injEq] at back
        rw [List.append_nil] at front
        rw [← front, inOrder_position]
        exact Or.inl ⟨back.1, rfl⟩
      | cons head tail =>
        simp only [List.cons_append, List.cons.injEq] at back
        obtain ⟨rfl, _⟩ := back
        have next := inOrder_split front
        have lengths := congrArg List.length front
        have before : position prior ≤ prior.length := position_le prior
        simp only [List.length_map, inOrder, List.length_range, List.length_append,
          List.length_cons] at lengths
        exact Or.inr ⟨next, by omega⟩
  omega

/-- Parsing the replay appends the first edit's address to the empty list. -/
theorem lateReplay_final {n : Nat} (whole : n % 65536 = 0) :
    (parseAll .boot ((lateReplay n).map Prod.fst)).watchlist.addrs = [1] ∧
      (parseAll .boot ((lateReplay n).map Prod.fst)).wlSeq = 1 := by
  obtain ⟨list, number⟩ := inOrder_run n
  have even : n % 2 = 0 := by omega
  rw [alternating_mutated, if_pos even] at list
  have zero : seqOf 0 n = 0 := by
    apply UInt16.toNat_inj.mp
    simpa [seqOf] using whole
  rw [zero] at number
  have again := Mutation.parse_next (parseAll .boot ((inOrder n).map Prod.fst))
    (alternatingReply 1) (alternating 1)
    (by rw [list]; simp [alternating, Mutation.WellFormed, raMaxWatchAddrs])
    (by rw [number]; exact alternatingReply_onWire 1)
  rw [list, number] at again
  have last : parseAll .boot ((lateReplay n).map Prod.fst) =
      (raParseResponse (parseAll .boot ((inOrder n).map Prod.fst)) (alternatingReply 1)).state := by
    simp [lateReplay, parseAll]
  rw [last]
  simpa [alternating, Mutation.apply] using again

/-- One position wider and delivery is no longer exactly-once: after 65536 edits
delivered in order, the first one delivered again bears the number of the 65537th
and is applied in its place. -/
theorem wider_window_reapplies : ¬ DeliveredExactlyOnce 65536 65536 := by
  intro exactlyOnce
  obtain ⟨n, n_eq⟩ : ∃ n, n = 65536 := ⟨_, rfl⟩
  have length : (lateReplay n).length = n + 1 := by simp [lateReplay, inOrder]
  obtain ⟨place, atZero, tracks, moves⟩ :=
    exactlyOnce .boot alternating alternating_wellFormed (lateReplay n) (lateReplay_carries n)
      (n_eq ▸ lateReplay_inWindow (by omega))
  -- The place never runs ahead of the number of responses.
  have slow : ∀ t, t ≤ n + 1 → place t ≤ t := by
    intro t le
    induction t with
    | zero => omega
    | succ t ih =>
      have prior := ih (by omega)
      have move := moves t (by omega)
      by_cases changed : place (t + 1) = place t
      · omega
      · have next := (move.2.1 changed).1
        omega
  -- Up to the replay the numbers pin it to exactly that many.
  have numberAt : ∀ t, t ≤ n → place t % 65536 = t % 65536 := by
    intro t le
    have numbered := (tracks t (by omega)).2
    rw [lateReplay_take le, (inOrder_run t).2] at numbered
    exact (seqOf_periodic 0 _ _ numbered).symm
  have pinned : place n = n := by
    have before := numberAt (n - 1) (by omega)
    have here := numberAt n (Nat.le_refl n)
    have bound := slow n (by omega)
    have grows := (moves (n - 1) (by omega)).1
    rw [show n - 1 + 1 = n by omega] at grows
    omega
  obtain ⟨list, number⟩ := lateReplay_final (n := n) (by omega)
  have final := tracks (n + 1) (by omega)
  rw [List.take_of_length_le (by omega), list, number] at final
  have residue := seqOf_periodic 0 1 (place (n + 1)) final.2
  have grows := (moves n (by omega)).1
  have bound := slow (n + 1) (by omega)
  have reached : place (n + 1) = n + 1 := by omega
  have lists : [1] = mutated alternating [] (n + 1) := reached ▸ final.1
  rw [alternating_mutated, if_neg (by omega), n_eq] at lists
  simp at lists

end Wraparound

end D2xCios.Ra
