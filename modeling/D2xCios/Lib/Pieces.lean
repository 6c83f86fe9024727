import D2xCios.Lib.AddressSpace

/-!
# A move in pieces

A run is copied piece by piece, from its first cell on: each piece is read as a whole and then
stored. Where the two runs overlap a cell may have been stored over before its piece is read. The
run arrives as it was if and only if every such cell was stored over with what it had.
-/

namespace D2xCios.Lib

universe u

variable {w : Nat} {β : Type u}

/-- Cell `i` is as it was when the cells before `start` have been copied: none of them goes where it
is, or one that is equal to it. -/
def Kept (m : Space w β) (dest src : BitVec w) (start i : Nat) : Prop :=
  distance dest (ahead src i) < start →
    m (ahead src (distance dest (ahead src i))) = m (ahead src i)

/-- What the memory is once the first `done` cells have been copied, where the piece of cell `i` is
the one that begins with cell `start i`. -/
structure Pieces (start : Nat → Nat) (m : Space w β) (dest src : BitVec w) (done : Nat)
    (m' : Space w β) : Prop where
  outside : ∀ x, done ≤ distance dest x → m' x = m x
  exact : (∀ i < done, m' (ahead dest i) = m (ahead src i)) ↔
    ∀ i < done, Kept m dest src (start i) i

namespace Pieces

variable {start : Nat → Nat} {m m' : Space w β} {dest src : BitVec w} {done : Nat}

theorem nil (start : Nat → Nat) (m : Space w β) (dest src : BitVec w) :
    Pieces start m dest src 0 m where
  outside _ _ := rfl
  exact := iff_of_true (fun i i_lt => absurd i_lt i.not_lt_zero)
    fun i i_lt => absurd i_lt i.not_lt_zero

/-- What a cell of the next piece is when it is read. -/
theorem next (pieces : Pieces start m dest src done m')
    (right : ∀ i < done, m' (ahead dest i) = m (ahead src i)) (i : Nat) :
    m' (ahead src i) = m (ahead src i) ↔ Kept m dest src done i := by
  by_cases before : distance dest (ahead src i) < done
  · have stored := right _ before
    rw [ahead_distance] at stored
    rw [stored, Kept, imp_iff_right before]
  · exact iff_of_true (pieces.outside _ (Nat.le_of_not_lt before)) fun near => absurd near before

/-- Another piece. -/
theorem add (pieces : Pieces start m dest src done m') {n : Nat} (room : done + n ≤ 2 ^ w)
    (piece : ∀ i, done ≤ i → i < done + n → start i = done) :
    Pieces start m dest src (done + n) (m'.move (ahead dest done) (ahead src done) n) where
  outside x far := by
    have behind := distance_behind (Nat.le_trans (Nat.le_add_right done n) far)
    rw [Space.move, Space.put_outside m' _ (by rw [Space.get_length]; omega),
      pieces.outside x (by omega)]
  exact := by
    -- the cells of the pieces before stay, those of this one are what is read for them
    have before : ∀ i < done,
        m'.move (ahead dest done) (ahead src done) n (ahead dest i) = m' (ahead dest i) := by
      intro i i_lt
      have near := distance_ahead dest (show i < 2 ^ w by omega)
      have far := distance_before (a := dest) (x := ahead dest i) (n := done) (by omega) (by omega)
      exact Space.put_outside m' _ (by rw [Space.get_length]; omega)
    have here : ∀ i, done ≤ i → i < done + n →
        m'.move (ahead dest done) (ahead src done) n (ahead dest i) = m' (ahead src i) := by
      intro i i_ge i_lt
      obtain ⟨k, rfl⟩ := Nat.exists_eq_add_of_le i_ge
      have near := distance_ahead (ahead dest done) (show k < 2 ^ w by omega)
      rw [← ahead_ahead dest, ← ahead_ahead src, Space.move, Space.put,
        List.getD_eq_getElem?_getD, near, Space.get_getElem? m' _ (by omega), Option.getD_some]
    constructor
    · intro right
      have sofar : ∀ i < done, m' (ahead dest i) = m (ahead src i) := fun i i_lt =>
        (before i i_lt).symm.trans (right i (by omega))
      intro i i_lt
      by_cases early : i < done
      · exact pieces.exact.1 sofar i early
      · have late := Nat.le_of_not_lt early
        rw [piece i late i_lt]
        exact (pieces.next sofar i).1 ((here i late i_lt).symm.trans (right i i_lt))
    · intro kept
      have sofar := pieces.exact.2 fun i i_lt => kept i (by omega)
      intro i i_lt
      by_cases early : i < done
      · exact (before i early).trans (sofar i early)
      · have late := Nat.le_of_not_lt early
        have this := kept i i_lt
        rw [piece i late i_lt] at this
        exact (here i late i_lt).trans ((pieces.next sofar i).2 this)

/-- When all of the run has been copied. -/
theorem eq_move_iff (pieces : Pieces start m dest src done m') (room : done ≤ 2 ^ w) :
    m' = m.move dest src done ↔ ∀ i < done, Kept m dest src (start i) i := by
  rw [← pieces.exact]
  constructor
  · rintro rfl i i_lt
    rw [Space.move, Space.put, List.getD_eq_getElem?_getD, distance_ahead dest (by omega),
      Space.get_getElem? m _ i_lt, Option.getD_some]
  · intro right
    funext x
    by_cases inside : distance dest x < done
    · have stored := right _ inside
      rw [ahead_distance] at stored
      rw [stored, Space.move, Space.put, List.getD_eq_getElem?_getD, Space.get_getElem? m _ inside,
        Option.getD_some]
    · rw [pieces.outside x (Nat.le_of_not_lt inside), Space.move,
        Space.put_outside m dest (by rw [Space.get_length]; omega)]

end Pieces

/-- Nothing is stored over in a move forward. -/
theorem Forward.kept {dest src : BitVec w} {n : Nat} (forward : Forward dest src n)
    (m : Space w β) {start i : Nat} (i_lt : i < n) (start_le : start ≤ i) :
    Kept m dest src start i := by
  intro near
  exact absurd (ahead_distance dest _) (forward _ i (by omega) i_lt)

end D2xCios.Lib
