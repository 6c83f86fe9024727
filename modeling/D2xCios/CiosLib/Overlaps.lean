import D2xCios.CiosLib.Effects
import D2xCios.Lib.Pieces

/-!
# Runs that overlap

What `memcpy` makes of two runs that overlap. It copies a number of words at once, where both runs
are aligned, and else one byte after the other: a move in pieces.
-/

namespace D2xCios.CiosLib

open D2xCios.Lib

/-- The first byte of what is copied at once with byte `i`. -/
def memcpyPiece (dest src : Word) (size i : Nat) : Nat :=
  if (dest ||| src) &&& 3#32 = 0 then
    if i < size / 32 * 32 then i / 32 * 32
    else if i < size / 16 * 16 then i / 16 * 16
    else if i < size / 4 * 4 then i / 4 * 4
    else i
  else i

/-- A byte is loaded at its turn or before. -/
theorem memcpyPiece_le (dest src : Word) (size i : Nat) : memcpyPiece dest src size i ≤ i := by
  unfold memcpyPiece
  split_ifs <;> omega

section Loops

variable {start : Nat → Nat} {m : Space 32 Byte} {dest src : Word} {total done : Nat}

/-- A loop of `memcpy` has come to `result`, with `done` of `total` bytes copied. -/
structure Reached (start : Nat → Nat) (m : Space 32 Byte) (dest src : Word) (total done : Nat)
    (result : Word × Word × Nat × Bus) : Prop where
  dest_eq : result.1 = ahead dest done
  src_eq : result.2.1 = ahead src done
  left : done + result.2.2.1 = total
  pieces : Pieces start m dest src done result.2.2.2.mem

/-- The loop over blocks. -/
theorem memcpyBlocks_reached (count : Nat) (count_pos : 0 < count) (room : total ≤ 2 ^ 32)
    (aligned : dest.toNat % 4 = 0) {size : Nat} {dest' src' : Word} {bus : Bus}
    (reached : Reached start m dest src total done (dest', src', size, bus))
    (whole : done % (4 * count) = 0)
    (blocks : ∀ k, done ≤ k → k % (4 * count) = 0 → k + 4 * count ≤ total →
      ∀ i, k ≤ i → i < k + 4 * count → start i = k) :
    ∃ done', done ≤ done' ∧ done' % (4 * count) = 0 ∧ total < done' + 4 * count ∧
      Reached start m dest src total done' (memcpyBlocks count size dest' src' bus) := by
  induction size, dest', src', bus using memcpyBlocks.induct count generalizing done with
  | case1 size dest' src' bus enough ih =>
    rw [memcpyBlocks, if_pos enough]
    have left : done + size = total := reached.left
    obtain rfl : dest' = ahead dest done := reached.dest_eq
    obtain rfl : src' = ahead src done := reached.src_eq
    have words : 4 * count % 4 = 0 := Nat.mul_mod_right 4 count
    have four : done % 4 = 0 := by
      rw [← Nat.mod_mul_right_mod done 4 count, whole]
    have length : (loadWords bus (ahead src done) count).length = count := by
      rw [loadWords, List.length_map, List.length_range]
    have stored := @storeWords_writes True (loadWords bus (ahead src done) count)
      (ahead dest done) bus (by rw [length]; omega) (aligned_later aligned four)
    rw [loadWords_bytes] at stored
    have pieces := reached.pieces.add (n := 4 * count) (by omega)
      fun i i_ge i_lt => blocks done (Nat.le_refl _) whole (by omega) i i_ge i_lt
    rw [Space.move, ← stored.mem] at pieces
    obtain ⟨done', further, whole', last, reached'⟩ := ih
      ⟨ahead_ahead dest done _, ahead_ahead src done _, by dsimp only; omega, pieces⟩
      (by rw [Nat.add_mod_right, whole])
      fun k k_ge k_whole k_le => blocks k (by omega) k_whole k_le
    exact ⟨done', by omega, whole', last, reached'⟩
  | case2 size dest' src' bus short =>
    rw [memcpyBlocks, if_neg short]
    have left : done + size = total := reached.left
    exact ⟨done, Nat.le_refl _, whole, by omega, reached⟩

/-- The loops over bytes. -/
theorem memcpyBytes_pieces (inMem1 : Bool) {size : Nat} {bus : Bus} (room : done + size ≤ 2 ^ 32)
    (pieces : Pieces start m dest src done bus.mem)
    (single : ∀ i, done ≤ i → i < done + size → start i = i) :
    Pieces start m dest src (done + size)
      (memcpyBytes inMem1 size (ahead dest done) (ahead src done) bus).mem := by
  induction size generalizing done bus with
  | zero => exact pieces
  | succ size ih =>
    have stored : (bus.storeByte inMem1 (ahead dest done) (bus.load8 (ahead src done))).mem =
        bus.mem.move (ahead dest done) (ahead src done) 1 :=
      (@storeByte_writes False inMem1 _ 0 nofun _ bus).mem.trans
        (congrArg (bus.mem.put _) (Space.get_succ bus.mem _ 0).symm)
    have next := pieces.add (n := 1) (by omega) fun i i_ge i_lt => by
      rw [single i i_ge (by omega)]
      omega
    rw [← stored] at next
    have rest := ih (by omega) next fun i i_ge i_lt => single i (by omega) (by omega)
    rw [← ahead_ahead, ← ahead_ahead, Nat.add_right_comm] at rest
    exact rest

end Loops

/-- `memcpy` copies a run as it was if and only if no byte of it has been stored over with another
one before it is loaded. -/
theorem memcpy_move_iff (dest src : Word) {size : Nat} (bus : Bus) (room : size ≤ 2 ^ 32) :
    (memcpy dest src size bus).2.mem = bus.mem.move dest src size ↔
      ∀ i < size, Kept bus.mem dest src (memcpyPiece dest src size i) i := by
  refine @Pieces.eq_move_iff _ _ (memcpyPiece dest src size) _ _ dest src size ?_ room
  have none := Pieces.nil (memcpyPiece dest src size) bus.mem dest src
  unfold memcpy
  by_cases empty : size = 0
  · subst empty
    exact none
  simp only [if_neg empty]
  by_cases words : (dest ||| src) &&& 3#32 = 0
  · simp only [if_pos words]
    have aligned := aligned_of_or words
    have begun : Reached (memcpyPiece dest src size) bus.mem dest src size 0
        (dest, src, size, bus) :=
      ⟨(ahead_zero dest).symm, (ahead_zero src).symm, Nat.zero_add size, none⟩
    obtain ⟨done8, -, whole8, last8, reached8⟩ := memcpyBlocks_reached 8 (by decide) room
      aligned begun rfl fun k _ k_whole k_le i i_ge i_lt => by
        rw [memcpyPiece, if_pos words, if_pos (by omega)]
        omega
    obtain ⟨done4, later4, whole4, last4, reached4⟩ := memcpyBlocks_reached 4 (by decide)
      room aligned reached8 (by omega) fun k k_ge k_whole k_le i i_ge i_lt => by
        rw [memcpyPiece, if_pos words, if_neg (by omega), if_pos (by omega)]
        omega
    obtain ⟨done1, later1, whole1, last1, reached1⟩ := memcpyBlocks_reached 1 (by decide)
      room aligned reached4 (by omega) fun k k_ge k_whole k_le i i_ge i_lt => by
        rw [memcpyPiece, if_pos words, if_neg (by omega), if_neg (by omega), if_pos (by omega)]
        omega
    have left := reached1.left
    have bytes := memcpyBytes_pieces (decide (ahead dest done1 < mem1Size))
      (left.symm ▸ room) reached1.pieces fun i i_ge i_lt => by
        rw [memcpyPiece, if_pos words, if_neg (by omega), if_neg (by omega), if_neg (by omega)]
    rw [left] at bytes
    rw [reached1.dest_eq, reached1.src_eq]
    exact bytes
  · simp only [if_neg words]
    have bytes := memcpyBytes_pieces (decide (dest < mem1Size))
      ((Nat.zero_add size).symm ▸ room) none fun i _ _ => by rw [memcpyPiece, if_neg words]
    rwa [ahead_zero, ahead_zero, Nat.zero_add] at bytes

end D2xCios.CiosLib
