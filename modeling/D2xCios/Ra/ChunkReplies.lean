import D2xCios.Lib.Chunked
import D2xCios.Ra.Fetch

/-!
# Replies to chunk requests

A chunk is asked for at most three times, and the requests name the chunk. So what
the link delivers during a fetch is a reply for each chunk index and attempt, and
`Port.perChunk` is the link that delivers a given family of them.
-/

namespace D2xCios.Ra

open D2xCios.Lib

/-- A reply, or an error of the link, for each chunk index and attempt. -/
abbrev ChunkReplies := Nat → Nat → Except Int Mem

/-- The chunk index of a request. -/
def requestedChunk (tx : List UInt8) : Nat := (be16 (bufferOf tx) 4).toNat

@[simp] theorem requestedChunk_chunkRequest (command : UInt8) (chunkIndex : UInt16) :
    requestedChunk (chunkRequest command chunkIndex) = chunkIndex.toNat :=
  congrArg UInt16.toNat (be16_of_bytes rfl)

/-- The link that answers the `j`-th request for chunk `k` with `replies k j`; its state
counts the requests. -/
def Port.perChunk (image : PpcImage) (replies : ChunkReplies) : Port (Nat → Nat) where
  ppc asked := (image, asked)
  store _ asked := asked
  send _ _ asked := (.error raUsbEtimeout, asked)
  phaseB tx _ asked :=
    let k := requestedChunk tx
    (replies k (asked k), fun i => if i = k then asked i + 1 else asked i)
  debug _ asked := asked
  post _ asked := (.ok (), asked)
  posted _ := false
  reap asked := (.error raUsbEtimeout, asked)
  inFlight _ := none

section Exchange

variable (image : PpcImage) (replies : ChunkReplies) (command : UInt8) {k : Nat}
  (sys : Sys (Nat → Nat))

/-- One exchange takes the next reply for its chunk. -/
theorem chunkExchange_perChunk (small : k < 65536) :
    let exchanged := chunkExchange (.perChunk image replies) command (UInt16.ofNat k) sys
    exchanged.1 = replies k (sys.io k) ∧ exchanged.2.io k = sys.io k + 1 ∧
      ∀ i, i ≠ k → exchanged.2.io i = sys.io i := by
  have named : requestedChunk (chunkRequest command (UInt16.ofNat k)) = k := by
    rw [requestedChunk_chunkRequest, UInt16.toNat_ofNat_of_lt' small]
  simp only [chunkExchange, Sys.phaseB, Port.perChunk, named, Sys.begins, Sys.store, Sys.note]
  refine ⟨trivial, by simp, fun i other => by simp [other]⟩

end Exchange

end D2xCios.Ra
