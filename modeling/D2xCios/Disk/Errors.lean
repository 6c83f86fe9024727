import D2xCios.Disk.Clients
import D2xCios.Dip.FragErrors

/-!
# Errors across the storage servers

A call of a client is honest if it reports success only when every operation it
has run at the servers has succeeded. The clients and the servers disagree on
three operations: `sdhc_Init` does not look at the result of the startup,
`sdhc_Read` takes only a negative result for an error while the server answers
1, and for the capacity the same 1 is a number of sectors. A run is honest
exactly if none of these three fails in it.
-/

namespace D2xCios.Disk

open D2xCios.Dip D2xCios.Lib

/-! ## Honest calls -/

/-- Success is reported only if every operation has succeeded. -/
def Call.Honest (call : Call) : Prop := call.ret = true → ∀ op ∈ call.ops, op.ok = true

instance (call : Call) : Decidable call.Honest := by unfold Call.Honest; infer_instance

/-- A failed operation whose status the client takes for success. -/
def Operation.Masked (operation : Operation) : Prop :=
  operation.ok = false ∧
    (operation.op = .sdStartup ∨ operation.op = .sdRead ∨ operation.op = .usbCapacity)

/-! ## What a stretch of a run leaves on record -/

section Stretch

variable {ω : Type}

/-- The operations `ops` and the recorded calls `calls` between two states, the
code between them having succeeded if `ok`. -/
structure Stretch (ok : Bool) (a b : Clients ω) (ops : List Operation) (calls : List Call) :
    Prop where
  log : b.servers.log = a.servers.log ++ ops
  recorded : b.calls = a.calls ++ calls
  /-- A call without masked failures is honest. -/
  sound : ∀ call ∈ calls, (∀ op ∈ call.ops, ¬ op.Masked) → call.Honest
  within : ∀ call ∈ calls, ∀ op ∈ call.ops, op ∈ ops
  /-- A masked failure has made some call report success. -/
  exposed : ∀ op ∈ ops, op.Masked → ∃ call ∈ calls, op ∈ call.ops ∧ call.ret = true
  honest : (∀ op ∈ ops, ¬ op.Masked) → ok = true → ∀ op ∈ ops, op.ok = true

/-- Some stretch of a run. -/
def Traced (ok : Bool) (a b : Clients ω) : Prop := ∃ ops calls, Stretch ok a b ops calls

/-- Two stretches, one after the other. -/
theorem Stretch.append {ok ok' : Bool} {a b c : Clients ω} {ops ops' : List Operation}
    {calls calls' : List Call} (first : Stretch ok a b ops calls)
    (second : Stretch ok' b c ops' calls') :
    Stretch (ok && ok') a c (ops ++ ops') (calls ++ calls') where
  log := by rw [second.log, first.log, List.append_assoc]
  recorded := by rw [second.recorded, first.recorded, List.append_assoc]
  sound call mem := (List.mem_append.mp mem).elim (first.sound call) (second.sound call)
  within call mem op ran := by
    rcases List.mem_append.mp mem with here | there
    · exact List.mem_append_left _ (first.within call here op ran)
    · exact List.mem_append_right _ (second.within call there op ran)
  exposed op mem masked := by
    rcases List.mem_append.mp mem with here | there
    · obtain ⟨call, made, ran, reported⟩ := first.exposed op here masked
      exact ⟨call, List.mem_append_left _ made, ran, reported⟩
    · obtain ⟨call, made, ran, reported⟩ := second.exposed op there masked
      exact ⟨call, List.mem_append_right _ made, ran, reported⟩
  honest unmasked succeeded op mem := by
    obtain ⟨left, right⟩ := Bool.and_eq_true_iff.mp succeeded
    rcases List.mem_append.mp mem with here | there
    · exact first.honest (fun op ran => unmasked op (List.mem_append_left _ ran)) left op here
    · exact second.honest (fun op ran => unmasked op (List.mem_append_right _ ran)) right op there

/-- Nothing was run, whatever else has changed. -/
theorem Traced.silent {ok : Bool} {a b : Clients ω} (log : b.servers.log = a.servers.log)
    (calls : b.calls = a.calls) : Traced ok a b :=
  ⟨[], [], by rw [log, List.append_nil], by rw [calls, List.append_nil], by simp, by simp, by simp,
    by simp⟩

/-- Traces follow code that stops at its first failure. -/
theorem traced_graded : Graded (Traced (ω := ω)) where
  refl _ := .silent rfl rfl
  seq := by
    rintro ok a b c ⟨ops, calls, first⟩ ⟨ops', calls', second⟩
    exact ⟨ops ++ ops', calls ++ calls', first.append second⟩
  fail := by
    rintro ok a b ⟨ops, calls, stretch⟩
    exact ⟨ops, calls, { stretch with honest := fun _ succeeded => absurd succeeded (by decide) }⟩

/-- A call made of recorded calls goes on record. -/
theorem Traced.record {ok : Bool} {a b : Clients ω} (traced : Traced ok a b) (client : Client) :
    Traced ok a (b.record a client ok) := by
  obtain ⟨ops, calls, stretch⟩ := traced
  have ran : b.servers.log.drop a.servers.log.length = ops := by
    rw [stretch.log, List.drop_left]
  refine ⟨ops, calls ++ [⟨client, ok, ops⟩], stretch.log, ?_, ?_, ?_, ?_, stretch.honest⟩
  · simp only [Clients.record, ran, stretch.recorded, List.append_assoc]
  · intro call mem unmasked
    rcases List.mem_append.mp mem with inner | outer
    · exact stretch.sound call inner unmasked
    · rw [List.mem_singleton.mp outer] at unmasked ⊢
      exact stretch.honest unmasked
  · intro call mem op member
    rcases List.mem_append.mp mem with inner | outer
    · exact stretch.within call inner op member
    · rwa [List.mem_singleton.mp outer] at member
  · intro op mem masked
    obtain ⟨call, made, member, reported⟩ := stretch.exposed op mem masked
    exact ⟨call, List.mem_append_left _ made, member, reported⟩

/-- What a call that talks to the servers itself does: a masked failure makes it
report success, and it reports no other failure as success. -/
structure Asks (ok : Bool) (a b : Clients ω) (ops : List Operation) : Prop where
  log : b.servers.log = a.servers.log ++ ops
  recorded : b.calls = a.calls
  exposed : ∀ op ∈ ops, op.Masked → ok = true
  honest : (∀ op ∈ ops, ¬ op.Masked) → ok = true → ∀ op ∈ ops, op.ok = true

/-- A call that has asked the servers, with its record. -/
theorem Asks.record {ok : Bool} {a b : Clients ω} {ops : List Operation} (asks : Asks ok a b ops)
    (client : Client) : Traced ok a (b.record a client ok) := by
  have ran : b.servers.log.drop a.servers.log.length = ops := by rw [asks.log, List.drop_left]
  refine ⟨ops, [⟨client, ok, ops⟩], asks.log, ?_, ?_, ?_, ?_, asks.honest⟩
  · simp only [Clients.record, ran, asks.recorded]
  · intro call mem
    rw [List.mem_singleton.mp mem]
    exact asks.honest
  · intro call mem op member
    rwa [List.mem_singleton.mp mem] at member
  · intro op mem masked
    exact ⟨_, List.mem_singleton_self _, mem, asks.exposed op mem masked⟩

/-- A call that has asked nothing. -/
theorem Asks.silent {ok : Bool} {a b : Clients ω} (log : b.servers.log = a.servers.log)
    (calls : b.calls = a.calls) : Asks ok a b [] :=
  ⟨by rw [log, List.append_nil], calls, by simp, by simp⟩

end Stretch

/-! ## The calls one by one -/

section Calls

variable {ω : Type} (drivers : Drivers ω)

/-- The start asks the SDHC server. -/
theorem sdhcInit_asks (c : Clients ω) :
    ∃ ops, Asks (sdhcInit drivers c).1 c (sdhcInit drivers c).2 ops := by
  unfold sdhcInit
  split
  case isTrue already => exact ⟨[], .silent rfl rfl⟩
  case isFalse closed =>
    dsimp only
    split
    case isTrue failed => exact ⟨[], .silent (serveOpen_log drivers .sdhc c.servers) rfl⟩
    case isFalse opened =>
      obtain ⟨ok, log, -⟩ := served_sdhcInit drivers {}
        (serveOpen drivers .sdhc c.servers).2
      refine ⟨[⟨.sdStartup, ok⟩], ?_, rfl, fun _ _ _ => rfl, fun unmasked _ op mem => ?_⟩
      · rw [← serveOpen_log drivers .sdhc c.servers]
        exact log
      · have fine := unmasked op mem
        rw [List.mem_singleton.mp mem] at fine ⊢
        simpa [Operation.Masked] using fine

/-- A read asks the SDHC server. -/
theorem sdhcRead_asks (sector numSectors : Nat) (buffer : Option (List UInt8)) (c : Clients ω) :
    ∃ ops, Asks (sdhcRead drivers sector numSectors buffer c).1 c
      (sdhcRead drivers sector numSectors buffer c).2.2 ops := by
  unfold sdhcRead
  split
  case isTrue closed => exact ⟨[], .silent rfl rfl⟩
  case isFalse opened =>
    obtain ⟨answer, asked⟩ : ∃ answer, answer = serve drivers .sdhc sdhcIoctlRead
      { word0 := sector, word1 := numSectors, buffer := buffer } c.servers := ⟨_, rfl⟩
    obtain ⟨ok, log, failing⟩ : Served .sdRead c.servers answer :=
      asked ▸ served_sdhcRead drivers _ _
    dsimp only
    rw [← asked]
    refine ⟨[⟨.sdRead, ok⟩], ?_⟩
    -- the server has answered 1, which is not negative
    have masked : ok = false → ¬ answer.1.ret < 0 := fun failed => by rw [failing failed]; decide
    split
    case isTrue negative =>
      refine ⟨log, rfl, fun op mem wrong => ?_, fun _ failed => absurd failed (by simp)⟩
      rw [List.mem_singleton.mp mem] at wrong
      exact absurd negative (masked wrong.1)
    case isFalse accepted =>
      refine ⟨log, rfl, fun _ _ _ => rfl, fun unmasked _ op mem => ?_⟩
      have fine := unmasked op mem
      rw [List.mem_singleton.mp mem] at fine ⊢
      simpa [Operation.Masked] using fine

/-- One transfer asks the USB server, and is recorded. -/
theorem usbstorageReadWrite_traced (write : Bool) (sector numSectors : Nat) (buffer : List UInt8)
    (c : Clients ω) : Traced (usbstorageReadWrite drivers write sector numSectors buffer c).1 c
      (usbstorageReadWrite drivers write sector numSectors buffer c).2.2 := by
  unfold usbstorageReadWrite
  split
  case isTrue closed => exact .silent rfl rfl
  case isFalse opened =>
    obtain ⟨answer, asked⟩ : ∃ answer, answer = serve drivers .usb2
      (if write then ioctlUmsWriteSectors else ioctlUmsReadSectors)
      { word0 := sector, word1 := numSectors, buffer := some buffer } c.servers := ⟨_, rfl⟩
    obtain ⟨op, kind, ok, log, failing⟩ :
        ∃ op, (op = .usbRead ∨ op = .usbWrite) ∧ Served op c.servers answer := by
      rw [asked]
      cases write with
      | true => exact ⟨.usbWrite, .inr rfl, served_usbWrite drivers _ _⟩
      | false => exact ⟨.usbRead, .inl rfl, served_usbRead drivers _ _⟩
    have unmasked : ¬ Operation.Masked ⟨op, ok⟩ := by
      rcases kind with rfl | rfl <;> simp [Operation.Masked]
    dsimp only
    rw [← asked]
    refine ⟨[⟨op, ok⟩], [], ?_, ?_, by simp, by simp, fun other mem masked => ?_, ?_⟩
    · split <;> exact log
    · split <;> exact (List.append_nil _).symm
    · rw [List.mem_singleton.mp mem] at masked
      exact absurd masked unmasked
    · intro _ succeeded other mem
      rw [List.mem_singleton.mp mem]
      split at succeeded
      · exact absurd succeeded (by simp)
      case isFalse zero =>
        by_contra failed
        exact zero (by rw [failing (by simpa using failed)]; decide)

/-- The loop of transfers asks the USB server, and is recorded. -/
theorem usbstorageReadWriteLoop_traced (write : Bool) (sector numSectors : Nat)
    (buffer : List UInt8) (cnt : Nat) (bytes : List UInt8) (c : Clients ω) :
    Traced (usbstorageReadWriteLoop drivers write sector numSectors buffer cnt bytes c).1 c
      (usbstorageReadWriteLoop drivers write sector numSectors buffer cnt bytes c).2.2 := by
  fun_induction usbstorageReadWriteLoop drivers write sector numSectors buffer cnt bytes c with
  | case1 cnt bytes c more count offset chunk after bytes' call =>
    have step := usbstorageReadWrite_traced drivers write (u32 (sector + cnt)) count
      (buffer.drop offset) c
    rw [call] at step
    exact step
  | case2 cnt bytes c more count offset ret chunk after call bytes' succeeded ih =>
    have step := usbstorageReadWrite_traced drivers write (u32 (sector + cnt)) count
      (buffer.drop offset) c
    rw [call] at step
    exact traced_graded.after step (by simpa using succeeded) ih
  | case3 cnt bytes c done => exact traced_graded.refl c

/-- A read or a write asks the USB server, and is recorded. -/
theorem usbstorageReadWriteSectors_traced (write : Bool) (sector numSectors : Nat)
    (buffer : List UInt8) (c : Clients ω) :
    Traced (usbstorageReadWriteSectors drivers write sector numSectors buffer c).1 c
      (usbstorageReadWriteSectors drivers write sector numSectors buffer c).2.2 := by
  unfold usbstorageReadWriteSectors
  split
  · exact .silent rfl rfl
  · exact usbstorageReadWriteLoop_traced drivers write sector numSectors buffer 0 [] c

/-- A capacity that could not be read is 1 to the client. -/
theorem usbstorageGetCapacity_served (c : Clients ω) (opened : c.usbFd ≥ 0) :
    ∃ ok, (usbstorageGetCapacity drivers c).2.servers.log = c.servers.log ++ [⟨.usbCapacity, ok⟩] ∧
      (ok = false → (usbstorageGetCapacity drivers c).1 = 1) ∧
      (usbstorageGetCapacity drivers c).2.calls = c.calls := by
  obtain ⟨ok, log, failing⟩ := served_usbCapacity drivers {} c.servers
  unfold usbstorageGetCapacity
  rw [if_pos opened]
  refine ⟨ok, log, fun failed => ?_, rfl⟩
  dsimp only
  rw [failing failed]
  rfl

/-- The check for a device asks the USB server. -/
theorem usbstorageIsInserted_asks (c : Clients ω) :
    ∃ ops, Asks (usbstorageIsInserted drivers c).1 c (usbstorageIsInserted drivers c).2 ops := by
  unfold usbstorageIsInserted
  by_cases opened : c.usbFd ≥ 0
  · obtain ⟨ok, log, failing, calls⟩ := usbstorageGetCapacity_served drivers c opened
    refine ⟨[⟨.usbCapacity, ok⟩], log, calls, fun op mem masked => ?_, fun unmasked _ op mem => ?_⟩
    · rw [List.mem_singleton.mp mem] at masked
      dsimp only
      rw [failing masked.1]
      rfl
    · have fine := unmasked op mem
      rw [List.mem_singleton.mp mem] at fine ⊢
      simpa [Operation.Masked] using fine
  · refine ⟨[], .silent ?_ ?_⟩ <;> simp only [usbstorageGetCapacity, if_neg opened]

/-- The shutdown of the USB client asks nothing. -/
theorem usbstorageShutdown_silent (c : Clients ω) :
    (usbstorageShutdown drivers c).servers.log = c.servers.log ∧
      (usbstorageShutdown drivers c).calls = c.calls := by
  unfold usbstorageShutdown
  split
  · exact ⟨serveClose_log drivers .usb2 c.servers, rfl⟩
  · exact ⟨rfl, rfl⟩

/-- The shutdown of the SDHC client asks nothing. -/
theorem sdhcShutdown_silent (c : Clients ω) :
    (sdhcShutdown drivers c).servers.log = c.servers.log ∧
      (sdhcShutdown drivers c).calls = c.calls := by
  unfold sdhcShutdown
  split
  · exact ⟨serveClose_log drivers .sdhc c.servers, rfl⟩
  · exact ⟨rfl, rfl⟩

/-- The start asks the USB server. -/
theorem usbstorageInit_asks (c : Clients ω) :
    ∃ ops, Asks (usbstorageInit drivers c).1 c (usbstorageInit drivers c).2 ops := by
  obtain ⟨fd, servers, opening⟩ : ∃ fd servers, serveOpen drivers .usb2 c.servers = (fd, servers) :=
    ⟨_, _, rfl⟩
  have start : servers.log = c.servers.log := by
    have kept := serveOpen_log drivers .usb2 c.servers
    rwa [opening] at kept
  obtain ⟨reply, started, request⟩ :
      ∃ reply started, serve drivers .usb2 ioctlUmsInit {} servers = (reply, started) :=
    ⟨_, _, rfl⟩
  obtain ⟨ok, log, failing⟩ : Served .usbStartup servers (reply, started) :=
    request ▸ served_usbInit drivers {} servers
  have log : started.log = c.servers.log ++ [⟨.usbStartup, ok⟩] := by rw [← start]; exact log
  unfold usbstorageInit
  simp only [opening, request]
  split
  case isTrue already => exact ⟨[], .silent rfl rfl⟩
  split
  case isTrue failed => exact ⟨[], .silent start rfl⟩
  case isFalse opened =>
    split
    case isTrue refused =>
      have silent := usbstorageShutdown_silent drivers { c with usbFd := fd, servers := started }
      refine ⟨[⟨.usbStartup, ok⟩], silent.1.trans log, silent.2, fun op mem masked => ?_,
        fun _ succeeded => absurd succeeded (by simp)⟩
      rw [List.mem_singleton.mp mem] at masked
      simp [Operation.Masked] at masked
    case isFalse accepted =>
      have running : ok = true := by
        by_contra failed
        exact accepted (by rw [failing (by simpa using failed)]; decide)
      obtain ⟨measured, capacity, zero, calls⟩ := usbstorageGetCapacity_served drivers
        { c with usbFd := fd, servers := started } (by simpa using opened)
      have both := capacity.trans (by rw [log, List.append_assoc, running])
      -- the status of a failed request reads as one sector
      have masked : ∀ op ∈ [Operation.mk .usbStartup true] ++ [⟨.usbCapacity, measured⟩],
          op.Masked → measured = false := by
        intro op mem wrong
        rcases List.mem_append.mp mem with here | there
        · rw [List.mem_singleton.mp here] at wrong
          simp [Operation.Masked] at wrong
        · rw [List.mem_singleton.mp there] at wrong
          exact wrong.1
      split
      case isTrue empty =>
        have silent := usbstorageShutdown_silent drivers
          (usbstorageGetCapacity drivers { c with usbFd := fd, servers := started }).2
        refine ⟨_, silent.1.trans both, silent.2.trans calls, fun op mem wrong => ?_,
          fun _ succeeded => absurd succeeded (by simp)⟩
        rw [zero (masked op mem wrong)] at empty
        exact absurd empty (by decide)
      case isFalse =>
        refine ⟨_, both, calls, fun _ _ _ => rfl, fun unmasked _ op mem => ?_⟩
        rcases List.mem_append.mp mem with here | there
        · rw [List.mem_singleton.mp here]
        · have fine := unmasked op mem
          rw [List.mem_singleton.mp there] at fine ⊢
          simpa [Operation.Masked] using fine

end Calls

/-! ## Runs -/

section Runs

variable {ω : Type} (drivers : Drivers ω)
  (alloc : Nat → Clients ω → Option Mem × Clients ω)

/-- The reads below `Frag_Read` are recorded calls. -/
theorem clientStorage_traced (dev sector count : Nat) (c : Clients ω) :
    Traced ((clientStorage drivers alloc).read dev sector count c).1 c
      ((clientStorage drivers alloc).read dev sector count c).2.2 := by
  unfold Storage.read
  split
  · exact (usbstorageReadWriteSectors_traced drivers false sector count [] c).record
      .usbstorageReadSectors
  · obtain ⟨ops, asks⟩ := sdhcRead_asks drivers sector count (some []) c
    exact asks.record .sdhcRead

/-- Every request leaves a trace. -/
theorem request_traced (c : Clients ω) (request : Request) :
    ∃ ok, Traced ok c (c.request drivers alloc request) := by
  cases request with
  | sdhcInit =>
    obtain ⟨ops, asks⟩ := sdhcInit_asks drivers c
    exact ⟨_, asks.record .sdhcInit⟩
  | sdhcRead sector numSectors buffer =>
    obtain ⟨ops, asks⟩ := sdhcRead_asks drivers sector numSectors buffer c
    exact ⟨_, asks.record .sdhcRead⟩
  | sdhcShutdown =>
    have silent := sdhcShutdown_silent drivers c
    exact ⟨true, .silent silent.1 silent.2⟩
  | usbstorageInit =>
    obtain ⟨ops, asks⟩ := usbstorageInit_asks drivers c
    exact ⟨_, asks.record .usbstorageInit⟩
  | usbstorageIsInserted =>
    obtain ⟨ops, asks⟩ := usbstorageIsInserted_asks drivers c
    exact ⟨_, asks.record .usbstorageIsInserted⟩
  | usbstorageReadWrite write sector numSectors buffer =>
    exact ⟨_, (usbstorageReadWrite_traced drivers write sector numSectors buffer c).record
      .usbstorageReadWrite⟩
  | usbstorageReadSectors sector numSectors =>
    exact ⟨_, (usbstorageReadWriteSectors_traced drivers false sector numSectors [] c).record
      .usbstorageReadSectors⟩
  | usbstorageWriteSectors sector numSectors buffer =>
    exact ⟨_, (usbstorageReadWriteSectors_traced drivers true sector numSectors buffer c).record
      .usbstorageWriteSectors⟩
  | usbstorageShutdown =>
    have silent := usbstorageShutdown_silent drivers c
    exact ⟨true, .silent silent.1 silent.2⟩
  | fragRead fs ff data len woffset mem sectorBuf =>
    have read := fragRead_ends traced_graded (clientStorage_traced drivers alloc) fs ff data len
      woffset ⟨mem, sectorBuf, c⟩
    exact ⟨_, Traced.record read .fragRead⟩
  | messageMount => exact ⟨true, .silent (usbstorageMount_log drivers c.servers) rfl⟩

/-- A run leaves one trace. -/
theorem run_traced (requests : List Request) (c : Clients ω) :
    Traced false c (c.run drivers alloc requests) := by
  induction requests generalizing c with
  | nil => exact traced_graded.idle false c
  | cons request requests ih =>
    obtain ⟨ok, ops, calls, first⟩ := request_traced drivers alloc c request
    obtain ⟨ops', calls', rest⟩ := ih (c.request drivers alloc request)
    exact traced_graded.fail ⟨ops ++ ops', calls ++ calls', first.append rest⟩

/-- In every run the calls report success only for operations that have
succeeded, `Frag_Read` with the result 0 for one, if and only if no startup of
the SD card, no read of its sectors and no read of the capacity of the USB
device has failed. -/
theorem calls_honest_iff (world : ω) (requests : List Request) :
    (∀ call ∈ ((Clients.boot world).run drivers alloc requests).calls, call.Honest) ↔
      ∀ op ∈ ((Clients.boot world).run drivers alloc requests).servers.log, ¬ op.Masked := by
  obtain ⟨ops, calls, stretch⟩ := run_traced drivers alloc requests (Clients.boot world)
  rw [show ((Clients.boot world).run drivers alloc requests).calls = calls from stretch.recorded,
    show ((Clients.boot world).run drivers alloc requests).servers.log = ops from stretch.log]
  constructor
  · intro honest op mem masked
    obtain ⟨call, made, ran, reported⟩ := stretch.exposed op mem masked
    exact absurd (honest call made reported op ran) (by simp [masked.1])
  · intro unmasked call made
    exact stretch.sound call made fun op ran => unmasked op (stretch.within call made op ran)

end Runs

/-! ## Failures that go unnoticed -/

/-- Devices that start up but fail every transfer. -/
def deafDrivers : Drivers Unit where
  checkRunningTitle w := (false, w)
  resultfd w := (3, w)
  openSlot w := (1, w)
  initio w := (true, w)
  select w := (0, w)
  deselect w := w
  sdhc _ := true
  readMultiblock _ _ w := (-1, [], w)
  writeMultiblock _ _ _ w := (-1, w)
  cardInserted w := (true, w)
  usbInit w := (0, w)
  usbStorageInitialize w := (0, w)
  findDevice w := (true, w)
  usbStorageRead _ _ w := (-1, [], w)
  usbStorageWrite _ _ _ w := (-1, w)
  usbStorageReadCapacity w := (-1, 0, 0, w)
  usbStorageClose w := w
  sdhcWbfs := { openDisc := fun _ w => (2, w), read := fun _ _ w => (1, [], w) }
  usbWbfs := { openDisc := fun _ w => (3, w), read := fun _ _ w => (1, [], w) }

/-- The first sector of a card that answers no read, and a USB device that does
not tell its capacity. -/
def deafRun : Clients Unit :=
  (Clients.boot ()).run deafDrivers (fun _ c => (none, c))
    [.sdhcInit, .sdhcRead 0 1 (some []), .usbstorageInit]

/-- The read and the initialization report success all the same. -/
theorem deafRun_dishonest :
    deafRun.calls =
        [⟨.sdhcInit, true, [⟨.sdStartup, true⟩]⟩, ⟨.sdhcRead, true, [⟨.sdRead, false⟩]⟩,
          ⟨.usbstorageInit, true, [⟨.usbStartup, true⟩, ⟨.usbCapacity, false⟩]⟩] ∧
      ¬ ∀ call ∈ deafRun.calls, call.Honest := by
  decide

end D2xCios.Disk
