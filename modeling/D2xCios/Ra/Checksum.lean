import D2xCios.Lib.ShiftRegister
import D2xCios.Ra.TableFetch
import D2xCios.Ra.WatchlistFetch

/-!
# Checksum of a chunk

`ra_crc32` is a feedback shift register that takes in the message bit by bit, the low
bit of each byte first. Its polynomial has the top bit set, so a message damaged within
32 consecutive bits has another checksum, and a chunk reply damaged in this way is not
accepted.
-/

namespace D2xCios.Ra

open D2xCios.Lib

/-- The bits of a byte, low bit first. -/
def byteBits (byte : UInt8) : List Bool := (List.range 8).map byte.toBitVec.getLsbD

/-- The bits of a message. -/
def messageBits (bytes : List UInt8) : List Bool := bytes.flatMap byteBits

/-- The reflected polynomial. -/
def crcPoly : BitVec 32 := 0xEDB88320#32

/-! ## The checksum as a shift register -/

/-- A round of the inner loop is a shift of the register. -/
theorem crcBit_toBitVec (crc : UInt32) :
    (crcBit crc).toBitVec = ShiftRegister.shift crcPoly crc.toBitVec := by
  have mask :
    0 - (crc.toBitVec &&& 1#32) = if crc.toBitVec.getLsbD 0 then BitVec.allOnes 32 else 0 := by
    rw [BitVec.and_one_eq_setWidth_ofBool_getLsbD]
    cases crc.toBitVec.getLsbD 0 <;> rfl
  have words : (crcBit crc).toBitVec =
      (crc.toBitVec >>> 1) ^^^ (crcPoly &&& (0 - (crc.toBitVec &&& 1#32))) := by
    simp [crcBit, crcPoly]
  rw [words, mask, ShiftRegister.shift, ShiftRegister.feedback]
  split
  · exact congrArg _ BitVec.and_allOnes
  · exact congrArg _ BitVec.and_zero

/-- A round of the outer loop is a run of eight bits. -/
theorem crcByte_toBitVec (crc : UInt32) (byte : UInt8) :
    (crcByte crc byte).toBitVec = ShiftRegister.run crcPoly (byteBits byte) crc.toBitVec := by
  have rounds : ∀ n (start : UInt32), (forRange (fun crc _ => crcBit crc) n start).toBitVec =
      (ShiftRegister.shift crcPoly)^[n] start.toBitVec := by
    intro n start
    induction n with
    | zero => rfl
    | succ n ih =>
      rw [Function.iterate_succ_apply', ← ih, ← crcBit_toBitVec, forRange_succ]
  have word : byte.toUInt32.toBitVec = byte.toBitVec.setWidth 32 := rfl
  have below : ShiftRegister.Below 8 (byte.toBitVec.setWidth 32) := fun i beyond => by
    rw [BitVec.getLsbD_setWidth, BitVec.getLsbD_of_ge _ _ beyond, Bool.and_false]
  have bits : byteBits byte = (List.range 8).map (byte.toBitVec.setWidth 32).getLsbD := by
    refine List.map_congr_left fun i inside => ?_
    have small : i < 32 := Nat.lt_trans (List.mem_range.mp inside) (by decide)
    rw [BitVec.getLsbD_setWidth, decide_eq_true small, Bool.true_and]
  rw [bits, ← ShiftRegister.run_word _ _ _ _ below, crcByte, rounds, UInt32.toBitVec_xor, word]

/-- The loop over the bytes takes in the bits of the message. -/
theorem crcBytes_toBitVec (bytes : List UInt8) (crc : UInt32) :
    (bytes.foldl crcByte crc).toBitVec =
      ShiftRegister.run crcPoly (messageBits bytes) crc.toBitVec := by
  induction bytes generalizing crc with
  | nil => rfl
  | cons byte bytes ih =>
    have bits : messageBits (byte :: bytes) = byteBits byte ++ messageBits bytes :=
      List.flatMap_cons
    rw [List.foldl_cons, ih, crcByte_toBitVec, bits, ShiftRegister.run_append]

/-! ## Damaged messages -/

/-- A byte is its bits. -/
theorem byteBits_injective {a b : UInt8} (same : byteBits a = byteBits b) : a = b := by
  apply UInt8.toBitVec_inj.mp
  apply BitVec.eq_of_getLsbD_eq
  intro i inside
  have bit := congrArg (·[i]?) same
  simpa [byteBits, inside] using bit

/-- The bits of a message determine it. -/
theorem messageBits_injective {a b : List UInt8} (length : a.length = b.length)
    (same : messageBits a = messageBits b) : a = b := by
  induction a generalizing b with
  | nil =>
    cases b with
    | nil => rfl
    | cons => cases length
  | cons x a ih =>
    cases b with
    | nil => cases length
    | cons y b =>
      have parts : byteBits x ++ messageBits a = byteBits y ++ messageBits b := by
        simpa [messageBits] using same
      obtain ⟨first, rest⟩ := List.append_inj parts rfl
      rw [byteBits_injective first, ih (Nat.succ.inj length) rest]

theorem messageBits_length (bytes : List UInt8) :
    (messageBits bytes).length = 8 * bytes.length := by
  induction bytes with
  | nil => rfl
  | cons byte bytes ih =>
    have parts : messageBits (byte :: bytes) = byteBits byte ++ messageBits bytes :=
      List.flatMap_cons
    rw [parts, List.length_append, ih, List.length_cons, byteBits, List.length_map,
      List.length_range]
    omega

/-- Two messages differ only within 32 consecutive bits. -/
def DifferInBurst (a b : List UInt8) : Prop :=
  a ≠ b ∧ ∃ start, ∀ i, (messageBits a)[i]? ≠ (messageBits b)[i]? → start ≤ i ∧ i < start + 32

/-- Messages of the same length that differ in a burst have different checksums. -/
theorem raCrc32_ne_of_burst {a b : List UInt8} (length : a.length = b.length)
    (burst : DifferInBurst a b) : raCrc32 a ≠ raCrc32 b := by
  obtain ⟨differ, start, inside⟩ := burst
  have bitLength : (messageBits a).length = (messageBits b).length := by
    rw [messageBits_length, messageBits_length, length]
  have apart := ShiftRegister.run_ne_of_burst (show crcPoly.msb = true by decide) bitLength
    (fun same => differ (messageBits_injective length same)) inside (0xFFFFFFFF : UInt32).toBitVec
  intro same
  rw [raCrc32, raCrc32] at same
  have sums := congrArg (fun crc => (~~~crc).toBitVec) same
  simp only [UInt32.not_not] at sums
  rw [crcBytes_toBitVec, crcBytes_toBitVec] at sums
  exact apart sums

/-- A reply whose payload is damaged in a burst behind its first `head` bytes; what lies
around the payload, its trailer for one, is intact. -/
structure DamagedReply (head payload : Nat) (rx damaged : Mem) : Prop where
  intact : ∀ i, i < chunkPad + head ∨ chunkPad + payload ≤ i → damaged i = rx i
  burst : DifferInBurst (rx.window chunkPad payload) (damaged.window chunkPad payload)

/-- The trailer does not fit a damaged payload. -/
theorem DamagedReply.crc {head payload : Nat} {rx damaged : Mem}
    (damage : DamagedReply head payload rx damaged)
    (sound : be32 rx (chunkPad + payload) = raCrc32 (rx.window chunkPad payload)) :
    be32 damaged (chunkPad + payload) ≠ raCrc32 (damaged.window chunkPad payload) := by
  have trailer : be32 damaged (chunkPad + payload) = be32 rx (chunkPad + payload) :=
    be32_congr fun i _ => damage.intact _ (Or.inr (by omega))
  rw [trailer, sound]
  exact raCrc32_ne_of_burst (by simp) damage.burst

/-- A field in front of the damage is read as it was. -/
theorem DamagedReply.field {head payload : Nat} {rx damaged : Mem}
    (damage : DamagedReply head payload rx damaged) {offset : Nat}
    (front : offset + 2 ≤ chunkPad + head) : be16 damaged offset = be16 rx offset :=
  be16_congr fun i _ => damage.intact _ (Or.inl (by omega))

/-- A watchlist chunk damaged behind its count is rejected. -/
theorem readWatchlistChunk_damaged (chunkIndex : UInt16) {rx damaged : Mem}
    (damage : DamagedReply (EspHeader.size + 4) (chunkPayload rx) rx damaged)
    (sound : be32 rx (chunkPad + chunkPayload rx) =
      raCrc32 (rx.window chunkPad (chunkPayload rx))) :
    ∃ error, readWatchlistChunk chunkIndex damaged = .error error := by
  have count : be16 damaged (chunkPad + EspHeader.size + 2) =
      be16 rx (chunkPad + EspHeader.size + 2) := damage.field (by omega)
  have broken := damage.crc sound
  simp only [chunkPayload, chunkAddrCount] at broken
  unfold readWatchlistChunk
  simp only [count]
  split_ifs
  all_goals exact ⟨_, rfl⟩

/-- A chain chunk damaged behind its counts is rejected. -/
theorem readChainChunk_damaged (chunkIndex : UInt16) (base : Nat) {rx damaged : Mem}
    (damage : DamagedReply (EspHeader.size + 6) (chainPayload rx) rx damaged)
    (sound : be32 rx (chunkPad + chainPayload rx) =
      raCrc32 (rx.window chunkPad (chainPayload rx))) :
    ∃ error, readChainChunk chunkIndex base damaged = .error error := by
  have count : be16 damaged (chunkPad + EspHeader.size + 2) =
      be16 rx (chunkPad + EspHeader.size + 2) := damage.field (by omega)
  have broken := damage.crc sound
  simp only [chainPayload, chainNodeCount] at broken
  unfold readChainChunk
  simp only [count]
  split_ifs
  all_goals exact ⟨_, rfl⟩

/-- The checksum tells messages of any length apart that differ within 32 consecutive
bits; so a chunk reply damaged in such a burst behind its counts is always rejected. -/
theorem burst_detected :
    (∀ a b : List UInt8, a.length = b.length → DifferInBurst a b → raCrc32 a ≠ raCrc32 b) ∧
      (∀ (chunkIndex : UInt16) (rx damaged : Mem),
        be32 rx (chunkPad + chunkPayload rx) = raCrc32 (rx.window chunkPad (chunkPayload rx)) →
        DamagedReply (EspHeader.size + 4) (chunkPayload rx) rx damaged →
          ∃ error, readWatchlistChunk chunkIndex damaged = .error error) ∧
      ∀ (chunkIndex : UInt16) (base : Nat) (rx damaged : Mem),
        be32 rx (chunkPad + chainPayload rx) = raCrc32 (rx.window chunkPad (chainPayload rx)) →
        DamagedReply (EspHeader.size + 6) (chainPayload rx) rx damaged →
          ∃ error, readChainChunk chunkIndex base damaged = .error error :=
  ⟨fun _ _ length burst => raCrc32_ne_of_burst length burst,
    fun chunkIndex _ _ sound damage => readWatchlistChunk_damaged chunkIndex damage sound,
    fun chunkIndex base _ _ sound damage => readChainChunk_damaged chunkIndex base damage sound⟩

/-- The last bit of one byte and the first of the next are flipped. -/
theorem flipped_bits_detected : raCrc32 [0x80, 0x00] ≠ raCrc32 [0x00, 0x01] :=
  burst_detected.1 _ _ rfl ⟨by decide, 0, fun i apart => by
    refine ⟨Nat.zero_le i, Nat.lt_of_not_le fun beyond => apart ?_⟩
    rw [List.getElem?_eq_none (by rw [messageBits_length]; exact Nat.le_trans (by decide) beyond),
      List.getElem?_eq_none (by rw [messageBits_length]; exact Nat.le_trans (by decide) beyond)]⟩

end D2xCios.Ra
