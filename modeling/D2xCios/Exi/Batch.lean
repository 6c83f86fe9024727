import D2xCios.Exi.Driver

/-!
# Batched and plain transfers

A chunk costs the same stores whether the driver or MLOAD makes it, and 256 bytes are a
whole number of chunks, so the slices of the batched transfers cannot be told from the
registers. The device receives, or sends, the bytes of the buffer in order.
-/

namespace D2xCios.Exi

open D2xCios.Lib

variable {δ : Type} (slave : Slave δ)

namespace Controller

/-- A transfer on one channel has come to its end, which took the given stores. -/
def transferred (channel : Fin 3) (change : Channel δ → Channel δ)
    (took : List (UInt32 × UInt32)) (exi : Controller δ) : Controller δ where
  channels := Function.update exi.channels channel (change (exi.channels channel))
  stores := exi.stores ++ took
  delays i := exi.delays (i + 1)

/-- A chunk of `n` bytes has gone to the device. -/
def written (channel : Fin 3) (n : Nat) (val : UInt32) : Controller δ → Controller δ :=
  transferred channel
    (fun ch =>
      { device := ((bytes32 val).take n).foldl slave.receive ch.device
        data := val
        cr := buildCr (UInt32.ofNat n) true
        busy := 0 })
    [(regAddr channel .data, val), (regAddr channel .cr, buildCr (UInt32.ofNat n) true)]

/-- A chunk of `n` bytes has come from the device. -/
def received (channel : Fin 3) (n : Nat) : Controller δ → Controller δ :=
  transferred channel
    (fun ch =>
      { device := (slave.transmits n ch.device).2
        data := be32 (bufferOf ((slave.transmits n ch.device).1 ++ slave.rest ch.data)) 0
        cr := buildCr (UInt32.ofNat n) false
        busy := 0 })
    [(regAddr channel .cr, buildCr (UInt32.ofNat n) false)]

end Controller

/-! ## Control words and addresses -/

/-- The control register of a channel. -/
theorem swiBase_cr (channel : Fin 3) :
    swiBase (Int32.ofNat channel).toUInt32 + 0x0c = regAddr channel .cr := by
  revert channel
  decide

/-- The data register of a channel. -/
theorem swiBase_data (channel : Fin 3) :
    swiBase (Int32.ofNat channel).toUInt32 + 0x10 = regAddr channel .data := by
  revert channel
  decide

/-- What the control word of a chunk says, in both spellings. -/
structure ControlWord (n : Nat) (write : Bool) (cr : UInt32) : Prop where
  built : cr = buildCr (UInt32.ofNat n) write
  started : cr &&& 1 ≠ 0
  direction : cr &&& 4 ≠ 0 ↔ write = true
  length : transferLen cr = n

/-- The control word of a write of up to four bytes. -/
theorem controlWord_write {n : Nat} (n_pos : 0 < n) (n_le : n ≤ 4) : ControlWord n true
    ((1 : UInt32) ||| ((1 : UInt32) <<< 2) ||| ((UInt32.ofNat n - 1) <<< 4)) := by
  obtain rfl | rfl | rfl | rfl : n = 1 ∨ n = 2 ∨ n = 3 ∨ n = 4 := by omega
  all_goals exact ⟨by decide, by decide, by decide, by decide⟩

/-- The control word of a read of up to four bytes. -/
theorem controlWord_read {n : Nat} (n_pos : 0 < n) (n_le : n ≤ 4) : ControlWord n false
    ((1 : UInt32) ||| ((UInt32.ofNat n - 1) <<< 4)) := by
  obtain rfl | rfl | rfl | rfl : n = 1 ∨ n = 2 ∨ n = 3 ∨ n = 4 := by omega
  all_goals exact ⟨by decide, by decide, by decide, by decide⟩

/-! ## One chunk -/

section Chunk

variable {slave} {channel : Fin 3} {n : Nat} {cr : UInt32}

/-- The stores of an outgoing chunk start its transfer. -/
theorem store_data_cr (slave : Slave δ) (channel : Fin 3) (word : ControlWord n true cr)
    (val : UInt32) (exi : Controller δ) :
    (((exi.store slave (regAddr channel .data) val).store slave (regAddr channel .cr)
        cr).channels channel).busy = exi.delays 0 ∧
      ((exi.store slave (regAddr channel .data) val).store slave (regAddr channel .cr)
        cr).settled channel = exi.written slave channel n val := by
  have direction := word.direction.mpr rfl
  simp [Controller.store, Controller.update, Controller.settled, Controller.written,
    Controller.transferred, Channel.start, word.started, direction, word.length, ← word.built]

/-- The store of an incoming chunk starts its transfer. -/
theorem store_cr (slave : Slave δ) (channel : Fin 3) (word : ControlWord n false cr)
    (exi : Controller δ) :
    ((exi.store slave (regAddr channel .cr) cr).channels channel).busy = exi.delays 0 ∧
      (exi.store slave (regAddr channel .cr) cr).settled channel =
        exi.received slave channel n := by
  have direction : cr &&& 4 = 0 := Decidable.byContradiction fun set => by
    cases word.direction.mp set
  simp [Controller.store, Controller.update, Controller.settled, Controller.received,
    Controller.transferred, Channel.start, word.started, direction, word.length, ← word.built]

/-- The driver's write chunk. -/
theorem exiImmWriteChunk_done (n_pos : 0 < n) (n_le : n ≤ 4) {exi : Controller δ}
    (inTime : exi.delays 0 < maxYields * spinsBeforeYield) (mem : Mem) (buf : Nat) :
    exiImmWriteChunk slave (Int32.ofNat channel) mem buf n exi =
      (0, exi.written slave channel n (packLoop n fun i => mem (buf + i))) := by
  have word := controlWord_write n_pos n_le
  obtain ⟨busy, settled⟩ := store_data_cr slave channel word
    (packLoop n fun i => mem (buf + i)) exi
  rw [word.built] at busy settled
  rw [exiImmWriteChunk, swiExiDataCr, swiBase_data, swiBase_cr,
    waitCrDone_done slave _ (Nat.zero_lt_succ _) (by rw [busy]; omega), settled]
  rfl

/-- MLOAD's write chunk. -/
theorem swiBatchWriteChunk_done (n_pos : 0 < n) (n_le : n ≤ 4) {exi : Controller δ}
    (inTime : exi.delays 0 < swiTimeout) (mem : Mem) (src : Nat) :
    swiBatchWriteChunk slave (Int32.ofNat channel).toUInt32 mem src n exi =
      (0, exi.written slave channel n (packLoop n fun i => mem (src + i))) := by
  obtain ⟨busy, settled⟩ :=
    store_data_cr slave channel (controlWord_write n_pos n_le)
      (packLoop n fun i => mem (src + i)) exi
  obtain ⟨left, polled⟩ := pollCr_done slave _ (busy ▸ inTime)
  rw [swiBatchWriteChunk, swiBase_data, swiBase_cr, if_neg left, polled, settled]

/-- The word a chunk leaves in the data register unpacks to the bytes the device sent. -/
theorem fill_received (exi : Controller δ) (n_le : n ≤ 4) (mem : Mem) (buf : Nat) :
    mem.fill buf n (unpacked ((exi.received slave channel n).load slave
        (regAddr channel .data)).1) =
      mem.overlay buf (slave.transmits n (exi.channels channel).device).1 := by
  have loaded : ((exi.received slave channel n).load slave (regAddr channel .data)).1 =
      be32 (bufferOf ((slave.transmits n (exi.channels channel).device).1 ++
        slave.rest (exi.channels channel).data)) 0 := by
    simp [Controller.load, Controller.received, Controller.transferred]
  rw [loaded, Cells.fill_eq_overlay]
  congr 1
  apply List.ext_getElem (by simp)
  intro i _ inside
  rw [Slave.transmits_length] at inside
  simp [unpacked_be32 _ (Nat.lt_of_lt_of_le inside n_le), bufferOf,
    List.getD_eq_getElem?_getD, inside, List.getElem?_append_left]

/-- The driver's read chunk. -/
theorem exiImmReadChunk_done (n_pos : 0 < n) (n_le : n ≤ 4) {mem : Mem} {exi : Controller δ}
    (inTime : exi.delays 0 < swiTimeout) (buf : Nat) :
    exiImmReadChunk slave (Int32.ofNat channel) buf n (mem, exi) =
      (0, (mem.overlay buf (slave.transmits n (exi.channels channel).device).1,
        exi.received slave channel n)) := by
  have word := controlWord_read n_pos n_le
  obtain ⟨busy, settled⟩ := store_cr slave channel word exi
  rw [word.built] at busy settled
  obtain ⟨left, polled⟩ := pollCr_done slave _ (busy ▸ inTime)
  rw [exiImmReadChunk, swiExiCrRead, swiBase_data, swiBase_cr, polled, settled,
    fill_received exi n_le]
  simp [Controller.load]

/-- MLOAD's read chunk. -/
theorem swiBatchReadChunk_done (n_pos : 0 < n) (n_le : n ≤ 4) {mem : Mem} {exi : Controller δ}
    (inTime : exi.delays 0 < swiTimeout) (dst : Nat) :
    swiBatchReadChunk slave (Int32.ofNat channel).toUInt32 dst n (mem, exi) =
      (0, (mem.overlay dst (slave.transmits n (exi.channels channel).device).1,
        exi.received slave channel n)) := by
  obtain ⟨busy, settled⟩ := store_cr slave channel (controlWord_read n_pos n_le) exi
  obtain ⟨left, polled⟩ := pollCr_done slave _ (busy ▸ inTime)
  rw [swiBatchReadChunk, swiBase_data, swiBase_cr, if_neg left, polled, settled]
  refine Prod.ext rfl (Prod.ext (fill_received exi n_le mem dst) ?_)
  simp [Controller.load]

end Chunk

/-! ## Whole transfers -/

/-- None of the transfers of the chunks of `len` bytes is found under way as often as
`limit` times. -/
def InTime (limit len : Nat) (delays : Nat → Nat) : Prop := ∀ i, 4 * i < len → delays i < limit

/-- The transfers behind the first one are in time. -/
theorem InTime.next {limit left : Nat} {delays : Nat → Nat} (inTime : InTime limit left delays) :
    InTime limit (left - slice 4 left) fun i => delays (i + 1) := by
  intro i below
  apply inTime
  unfold slice at below
  split at below <;> omega

/-- Transfers that all take the same short time are in time. -/
theorem InTime.const {limit len delay : Nat} (short : delay < limit) :
    InTime limit len fun _ => delay := fun _ _ => short

section Alongside

variable (channel : Fin 3) (last : Nat) (exi : Controller δ) (immLimit : Nat)

/-- Transfers on a channel by the driver and by MLOAD, both up to position `p`. -/
structure Alongside (p : Nat) (imm batch : Controller δ) : Prop where
  channels : batch.channels = imm.channels
  stores : batch.stores = imm.stores
  others : ∀ other, other ≠ channel → imm.channels other = exi.channels other
  immInTime : InTime immLimit (last - p) imm.delays
  batchInTime : InTime swiTimeout (last - p) batch.delays

variable {channel last exi immLimit}

/-- The same transfer on both sides. -/
theorem Alongside.next {p : Nat} {imm batch : Controller δ}
    (along : Alongside channel last exi immLimit p imm batch) (change : Channel δ → Channel δ)
    (took : List (UInt32 × UInt32)) :
    Alongside channel last exi immLimit (p + slice 4 (last - p))
      (imm.transferred channel change took) (batch.transferred channel change took) where
  channels := by
    rw [Controller.transferred, Controller.transferred, along.channels]
  stores := by
    rw [Controller.transferred, Controller.transferred, along.stores]
  others other apart := by
    rw [← along.others other apart]
    exact Function.update_of_ne apart _ _
  immInTime := by
    rw [← Nat.sub_sub]
    exact along.immInTime.next
  batchInTime := by
    rw [← Nat.sub_sub]
    exact along.batchInTime.next

/-- Both ways write the same bytes next. -/
theorem Alongside.written {p : Nat} {imm batch : Controller δ}
    (along : Alongside channel last exi immLimit p imm batch) (val : UInt32) :
    Alongside channel last exi immLimit (p + slice 4 (last - p))
      (imm.written slave channel (slice 4 (last - p)) val)
      (batch.written slave channel (slice 4 (last - p)) val) :=
  along.next _ _

/-- Both ways receive the same bytes next. -/
theorem Alongside.received {p : Nat} {imm batch : Controller δ}
    (along : Alongside channel last exi immLimit p imm batch) :
    Alongside channel last exi immLimit (p + slice 4 (last - p))
      (imm.received slave channel (slice 4 (last - p)))
      (batch.received slave channel (slice 4 (last - p))) :=
  along.next _ _

end Alongside

variable (channel : Fin 3) (mem : Mem) (data last : Nat) (exi : Controller δ)

/-- Outgoing transfers from `data` on. -/
structure Writing (p : Nat) (imm batch : Controller δ) : Prop where
  behind : data ≤ p
  along : Alongside channel last exi (maxYields * spinsBeforeYield) p imm batch
  seen : (imm.channels channel).device =
    (mem.window data (p - data)).foldl slave.receive (exi.channels channel).device

/-- Incoming transfers to `data` on. -/
structure Reading (p : Nat) (imm batch : Mem × Controller δ) : Prop where
  behind : data ≤ p
  along : Alongside channel last exi swiTimeout p imm.2 batch.2
  same : batch.1 = imm.1
  filled : imm.1 = mem.overlay data (slave.transmits (p - data) (exi.channels channel).device).1
  seen : (imm.2.channels channel).device =
    (slave.transmits (p - data) (exi.channels channel).device).2

variable {slave channel mem data last exi}

/-- One more outgoing chunk on both sides. -/
theorem Writing.next {p : Nat} {imm batch : Controller δ} (inside : p < last)
    (writing : Writing slave channel mem data last exi p imm batch) :
    (exiImmWriteChunk slave (Int32.ofNat channel) mem p (slice 4 (last - p)) imm).1 = 0 ∧
      (swiBatchWriteChunk slave (Int32.ofNat channel).toUInt32 mem p (slice 4 (last - p))
        batch).1 = 0 ∧
      Writing slave channel mem data last exi (p + slice 4 (last - p))
        (exiImmWriteChunk slave (Int32.ofNat channel) mem p (slice 4 (last - p)) imm).2
        (swiBatchWriteChunk slave (Int32.ofNat channel).toUInt32 mem p (slice 4 (last - p))
          batch).2 := by
  have n_pos : 0 < slice 4 (last - p) := slice_pos 4 (by omega)
  have n_le := slice_le_size 4 (last - p)
  have behind := writing.behind
  rw [exiImmWriteChunk_done n_pos n_le (writing.along.immInTime 0 (by omega)),
    swiBatchWriteChunk_done n_pos n_le (writing.along.batchInTime 0 (by omega))]
  refine ⟨rfl, rfl, by omega, writing.along.written slave _, ?_⟩
  have bytes : mem.window data (p + slice 4 (last - p) - data) =
      mem.window data (p - data) ++ mem.window p (slice 4 (last - p)) := by
    have joined := mem.window_append data (p - data) (slice 4 (last - p))
    rw [Nat.add_sub_cancel' behind] at joined
    rw [joined, Nat.sub_add_comm behind]
  simp only [Controller.written, Controller.transferred, Function.update_self,
    bytes32_packLoop n_le, bytes, List.foldl_append, writing.seen]
  rfl

/-- One more incoming chunk on both sides. -/
theorem Reading.next {p : Nat} {imm batch : Mem × Controller δ} (inside : p < last)
    (reading : Reading slave channel mem data last exi p imm batch) :
    (exiImmReadChunk slave (Int32.ofNat channel) p (slice 4 (last - p)) imm).1 = 0 ∧
      (swiBatchReadChunk slave (Int32.ofNat channel).toUInt32 p (slice 4 (last - p))
        batch).1 = 0 ∧
      Reading slave channel mem data last exi (p + slice 4 (last - p))
        (exiImmReadChunk slave (Int32.ofNat channel) p (slice 4 (last - p)) imm).2
        (swiBatchReadChunk slave (Int32.ofNat channel).toUInt32 p (slice 4 (last - p))
          batch).2 := by
  have n_pos : 0 < slice 4 (last - p) := slice_pos 4 (by omega)
  have n_le := slice_le_size 4 (last - p)
  have behind := reading.behind
  obtain ⟨immMem, immExi⟩ := imm
  obtain ⟨batchMem, batchExi⟩ := batch
  rw [exiImmReadChunk_done n_pos n_le (reading.along.immInTime 0 (by omega)),
    swiBatchReadChunk_done n_pos n_le (reading.along.batchInTime 0 (by omega))]
  have parts : slave.transmits (p + slice 4 (last - p) - data) (exi.channels channel).device = _ :=
    (congrArg (slave.transmits · _) (Nat.sub_add_comm behind)).trans (slave.transmits_add _ _ _)
  rw [← reading.seen] at parts
  have stored := Cells.overlay_append mem data
    (slave.transmits (p - data) (exi.channels channel).device).1
    (slave.transmits (slice 4 (last - p)) (immExi.channels channel).device).1
  rw [Slave.transmits_length, Nat.add_sub_cancel' behind, ← reading.filled] at stored
  refine ⟨rfl, rfl, by omega, reading.along.received slave, ?_, ?_, ?_⟩
  case refine_1 =>
    have same : batchMem = immMem := reading.same
    have channels : batchExi.channels = immExi.channels := reading.along.channels
    rw [same, channels]
  case refine_2 => rw [parts, ← stored]
  case refine_3 =>
    simp only [Controller.received, Controller.transferred, Function.update_self, parts]

/-! ## Batched transfers -/

/-- The three channels pass the check. -/
theorem channel_inRange (channel : Fin 3) :
    ¬ (Int32.ofNat channel < 0 ∨ Int32.ofNat channel > 2) := by
  revert channel
  decide

/-- Only a success is reported as one. -/
theorem recode_eq_zero (code : Int) : (if code = 0 then (0 : Int) else -2) = 0 ↔ code = 0 := by
  by_cases zero : code = 0
  · simp [zero]
  · simp [zero]

/-- The slices of a batched write are chunks. -/
theorem exiBatchWrite_eq (mem : Mem) (data len : Nat) (exi : Controller δ) :
    exiBatchWrite slave (Int32.ofNat channel) mem data len exi =
      (if (swiExiBatchWrite slave (Int32.ofNat channel).toUInt32 mem data len exi).1 = 0 then 0
          else -2,
        (swiExiBatchWrite slave (Int32.ofNat channel).toUInt32 mem data len exi).2) := by
  rw [exiBatchWrite, if_neg (channel_inRange channel)]
  exact sliced_sliced (by decide) _ recode_eq_zero data len exi

/-- The slices of a batched read are chunks. -/
theorem exiBatchRead_eq (data len : Nat) (state : Mem × Controller δ) :
    exiBatchRead slave (Int32.ofNat channel) data len state =
      (if (swiExiBatchRead slave (Int32.ofNat channel).toUInt32 data len state).1 = 0 then 0
          else -2,
        (swiExiBatchRead slave (Int32.ofNat channel).toUInt32 data len state).2) := by
  rw [exiBatchRead, if_neg (channel_inRange channel)]
  exact sliced_sliced (by decide) _ recode_eq_zero data len state

variable (slave channel mem data exi) (len : Nat)

/-- A plain and a batched write that both succeed: the same stores to the registers in
the same order, to the same effect, and the device has received the buffer. -/
structure WritesAgree (imm batch : Int × Controller δ) : Prop where
  immOk : imm.1 = 0
  batchOk : batch.1 = 0
  stores : batch.2.stores = imm.2.stores
  channels : batch.2.channels = imm.2.channels
  received : (imm.2.channels channel).device =
    (mem.window data len).foldl slave.receive (exi.channels channel).device
  others : ∀ other, other ≠ channel → imm.2.channels other = exi.channels other

/-- A plain and a batched read that both succeed: the same stores to the registers in
the same order, to the same effect, and the buffer holds what the device has sent. -/
structure ReadsAgree (imm batch : Int × (Mem × Controller δ)) : Prop where
  immOk : imm.1 = 0
  batchOk : batch.1 = 0
  stores : batch.2.2.stores = imm.2.2.stores
  channels : batch.2.2.channels = imm.2.2.channels
  memory : batch.2.1 = imm.2.1
  filled : imm.2.1 = mem.overlay data (slave.transmits len (exi.channels channel).device).1
  sent : (imm.2.2.channels channel).device =
    (slave.transmits len (exi.channels channel).device).2
  others : ∀ other, other ≠ channel → imm.2.2.channels other = exi.channels other

variable {slave channel mem data exi len} {immDelays batchDelays : Nat → Nat}

/-- At the start both ways are alongside. -/
theorem Alongside.start {immLimit : Nat} (immInTime : InTime immLimit len immDelays)
    (batchInTime : InTime swiTimeout len batchDelays) :
    Alongside channel (data + len) exi immLimit data (exi.timed immDelays)
      (exi.timed batchDelays) where
  channels := rfl
  stores := rfl
  others _ _ := rfl
  immInTime := by rwa [Nat.add_sub_cancel_left]
  batchInTime := by rwa [Nat.add_sub_cancel_left]

/-- At the start of a write both ways are alongside. -/
theorem Writing.start (immInTime : InTime (maxYields * spinsBeforeYield) len immDelays)
    (batchInTime : InTime swiTimeout len batchDelays) :
    Writing slave channel mem data (data + len) exi data (exi.timed immDelays)
      (exi.timed batchDelays) where
  behind := Nat.le_refl _
  along := .start immInTime batchInTime
  seen := by simp [Controller.timed]

/-- At the start of a read both ways are alongside. -/
theorem Reading.start (immInTime : InTime swiTimeout len immDelays)
    (batchInTime : InTime swiTimeout len batchDelays) :
    Reading slave channel mem data (data + len) exi data (mem, exi.timed immDelays)
      (mem, exi.timed batchDelays) where
  behind := Nat.le_refl _
  along := .start immInTime batchInTime
  same := rfl
  filled := by simp [Slave.transmits]
  seen := by simp [Slave.transmits, Controller.timed]

/-- Both ways of a write do the same to the slave. -/
theorem writes_agree (immInTime : InTime (maxYields * spinsBeforeYield) len immDelays)
    (batchInTime : InTime swiTimeout len batchDelays) :
    WritesAgree slave channel mem data exi len
      (exiImmWrite slave (Int32.ofNat channel) mem data len (exi.timed immDelays))
      (exiBatchWrite slave (Int32.ofNat channel) mem data len (exi.timed batchDelays)) := by
  obtain ⟨immOk, batchOk, done⟩ := sliced_related
    (Writing slave channel mem data (data + len) exi) (fun p imm batch => Writing.next) rfl
    (Writing.start immInTime batchInTime)
  rw [exiBatchWrite_eq]
  exact
    { immOk := immOk
      batchOk := (recode_eq_zero _).mpr batchOk
      stores := done.along.stores
      channels := done.along.channels
      received := by
        have seen := done.seen
        rwa [Nat.add_sub_cancel_left] at seen
      others := done.along.others }

/-- Both ways of a read do the same to the slave and to the memory. -/
theorem reads_agree (immInTime : InTime swiTimeout len immDelays)
    (batchInTime : InTime swiTimeout len batchDelays) :
    ReadsAgree slave channel mem data exi len
      (exiImmRead slave (Int32.ofNat channel) data len (mem, exi.timed immDelays))
      (exiBatchRead slave (Int32.ofNat channel) data len (mem, exi.timed batchDelays)) := by
  obtain ⟨immOk, batchOk, done⟩ := sliced_related
    (Reading slave channel mem data (data + len) exi) (fun p imm batch => Reading.next) rfl
    (Reading.start immInTime batchInTime)
  rw [exiBatchRead_eq]
  exact
    { immOk := immOk
      batchOk := (recode_eq_zero _).mpr batchOk
      stores := done.along.stores
      channels := done.along.channels
      memory := done.same
      filled := by
        have filled := done.filled
        rwa [Nat.add_sub_cancel_left] at filled
      sent := by
        have seen := done.seen
        rwa [Nat.add_sub_cancel_left] at seen
      others := done.along.others }

/-- As long as no chunk times out, the batched transfers cannot be told from the plain
ones, in either direction, and the bytes that cross the bus are those of the buffer. -/
theorem batched_transfers_agree (slave : Slave δ) (channel : Fin 3) (mem : Mem) (data len : Nat)
    (exi : Controller δ) (writeDelays readDelays batchDelays : Nat → Nat)
    (writeInTime : InTime (maxYields * spinsBeforeYield) len writeDelays)
    (readInTime : InTime swiTimeout len readDelays)
    (batchInTime : InTime swiTimeout len batchDelays) :
    WritesAgree slave channel mem data exi len
        (exiImmWrite slave (Int32.ofNat channel) mem data len (exi.timed writeDelays))
        (exiBatchWrite slave (Int32.ofNat channel) mem data len (exi.timed batchDelays)) ∧
      ReadsAgree slave channel mem data exi len
        (exiImmRead slave (Int32.ofNat channel) data len (mem, exi.timed readDelays))
        (exiBatchRead slave (Int32.ofNat channel) data len (mem, exi.timed batchDelays)) :=
  ⟨writes_agree writeInTime batchInTime, reads_agree readInTime batchInTime⟩

/-- A device that keeps what it receives, and sends it back. -/
def echo : Slave (List UInt8) where
  receive device byte := device ++ [byte]
  transmit device := (device.headD 0, device.tail)
  rest _ := []
  unsettled := 0

/-- A controller with such a device on every channel. -/
def echoes (held : List UInt8) : Controller (List UInt8) where
  channels _ := ⟨held, 0, 0, 0⟩
  stores := []
  delays _ := 0

/-- Transfers of 258 bytes on channel 1, every chunk of which is waited for. -/
theorem slow_echoes_agree :
    WritesAgree echo 1 (fun i => UInt8.ofNat i) 8 (echoes [1, 2, 3]) 258
        (exiImmWrite echo 1 (fun i => UInt8.ofNat i) 8 258
          ((echoes [1, 2, 3]).timed fun _ => 51199))
        (exiBatchWrite echo 1 (fun i => UInt8.ofNat i) 8 258
          ((echoes [1, 2, 3]).timed fun _ => 99999)) ∧
      ReadsAgree echo 1 (fun i => UInt8.ofNat i) 8 (echoes [1, 2, 3]) 258
        (exiImmRead echo 1 8 258 (fun i => UInt8.ofNat i, (echoes [1, 2, 3]).timed fun _ => 7))
        (exiBatchRead echo 1 8 258
          (fun i => UInt8.ofNat i, (echoes [1, 2, 3]).timed fun _ => 99999)) :=
  batched_transfers_agree echo 1 (fun i => UInt8.ofNat i) 8 258 (echoes [1, 2, 3])
    (fun _ => 51199) (fun _ => 7) (fun _ => 99999) (.const (by decide)) (.const (by decide))
    (.const (by decide))

end D2xCios.Exi
