import Mathlib.Algebra.Group.Nat.Defs
import Mathlib.Data.List.Basic

/-!
# A cyclic address space

A memory addressed by words of a fixed width, in which the address behind the last one is the first
one again. `put` stores a run of cells and `get` reads one back; two runs are `Apart` if no address
belongs to both. A run can be moved from its first cell on if no cell goes where a later one is
still to be read: then it is a move `Forward`.
-/

namespace D2xCios.Lib

universe u

variable {w : Nat} {β : Type u}

/-- A memory with one cell at every address. -/
abbrev Space (w : Nat) (β : Type u) := BitVec w → β

/-- The address `n` cells behind `a`. -/
abbrev ahead (a : BitVec w) (n : Nat) : BitVec w := a + BitVec.ofNat w n

/-- How far `x` is behind `a`. -/
def distance (a x : BitVec w) : Nat := (x - a).toNat

theorem distance_lt (a x : BitVec w) : distance a x < 2 ^ w := (x - a).isLt

@[simp] theorem ahead_zero (a : BitVec w) : ahead a 0 = a := BitVec.add_zero a

/-- Two steps are one. -/
theorem ahead_ahead (a : BitVec w) (n k : Nat) : ahead (ahead a n) k = ahead a (n + k) := by
  rw [ahead, ahead, ahead, BitVec.add_assoc, BitVec.ofNat_add]

@[simp] theorem ahead_distance (a x : BitVec w) : ahead a (distance a x) = x := by
  rw [ahead, distance, BitVec.ofNat_toNat, BitVec.setWidth_eq, BitVec.add_comm,
    BitVec.sub_add_cancel]

/-- A step is as long as the distance. -/
theorem distance_ahead (a : BitVec w) {n : Nat} (small : n < 2 ^ w) :
    distance a (ahead a n) = n := by
  rw [distance, ahead, BitVec.add_comm, BitVec.add_sub_cancel, BitVec.toNat_ofNat,
    Nat.mod_eq_of_lt small]

/-- Different steps lead to different addresses. -/
theorem ahead_injective (a : BitVec w) {n k : Nat} (n_lt : n < 2 ^ w) (k_lt : k < 2 ^ w)
    (same : ahead a n = ahead a k) : n = k := by
  rw [← distance_ahead a n_lt, same, distance_ahead a k_lt]

/-- An address behind the first `n` cells, seen from there. -/
theorem distance_behind {a x : BitVec w} {n : Nat} (behind : n ≤ distance a x) :
    distance (ahead a n) x = distance a x - n := by
  have bound := distance_lt a x
  have same : ahead (ahead a n) (distance a x - n) = x := by
    rw [ahead_ahead, Nat.add_sub_cancel' behind, ahead_distance]
  have dist := distance_ahead (ahead a n) (n := distance a x - n) (by omega)
  rwa [same] at dist

/-- An address among the first `n` cells, seen from behind them. -/
theorem distance_before {a x : BitVec w} {n : Nat} (le : n ≤ 2 ^ w) (before : distance a x < n) :
    distance (ahead a n) x = 2 ^ w - n + distance a x := by
  have same : ahead (ahead a n) (2 ^ w - n + distance a x) = x := by
    rw [ahead_ahead, ← Nat.add_assoc, Nat.add_sub_cancel' le, ← ahead_ahead]
    have round : ahead a (2 ^ w) = a := by
      have none : BitVec.ofNat w (2 ^ w) = 0#w := BitVec.eq_of_toNat_eq <| by
        rw [BitVec.toNat_ofNat, Nat.mod_self, BitVec.toNat_zero]
      rw [ahead, none, BitVec.add_zero]
    rw [round, ahead_distance]
  have dist := distance_ahead (ahead a n) (n := 2 ^ w - n + distance a x) (by omega)
  rwa [same] at dist

/-- `x` is among the `n` cells from `a` on. -/
def Within (a : BitVec w) (n : Nat) (x : BitVec w) : Prop := distance a x < n

instance (a : BitVec w) (n : Nat) (x : BitVec w) : Decidable (Within a n x) :=
  inferInstanceAs (Decidable (_ < _))

/-- The `n` cells from `a` on and the `k` cells from `b` on have no address in common. -/
def Apart (a : BitVec w) (n : Nat) (b : BitVec w) (k : Nat) : Prop :=
  ∀ i < n, ∀ j < k, ahead a i ≠ ahead b j

namespace Apart

variable {a b : BitVec w} {n k : Nat}

theorem symm (apart : Apart a n b k) : Apart b k a n :=
  fun j j_lt i i_lt same => apart i i_lt j j_lt same.symm

/-- Shorter runs. -/
theorem shorter (apart : Apart a n b k) {n' k' : Nat} (n_le : n' ≤ n) (k_le : k' ≤ k) :
    Apart a n' b k' :=
  fun i i_lt j j_lt => apart i (Nat.lt_of_lt_of_le i_lt n_le) j (Nat.lt_of_lt_of_le j_lt k_le)

theorem later (apart : Apart a n b k) (i j n' k' : Nat) (n_le : i + n' ≤ n)
    (k_le : j + k' ≤ k) : Apart (ahead a i) n' (ahead b j) k' := by
  intro i' i'_lt j' j'_lt same
  rw [ahead_ahead, ahead_ahead] at same
  exact apart (i + i') (by omega) (j + j') (by omega) same

/-- The other run begins behind the first. -/
theorem le_distance (apart : Apart a n b k) {j : Nat} (j_lt : j < k) :
    n ≤ distance a (ahead b j) := by
  by_contra near
  exact apart _ (Nat.lt_of_not_le near) j j_lt (ahead_distance a _)

/-- Runs that do not go round and follow one another. -/
theorem of_le (first : a.toNat + n ≤ b.toNat) (last : b.toNat + k ≤ 2 ^ w) : Apart a n b k := by
  intro i i_lt j j_lt same
  have equal := congrArg BitVec.toNat same
  rw [BitVec.toNat_add, BitVec.toNat_add, BitVec.toNat_ofNat, BitVec.toNat_ofNat,
    Nat.mod_eq_of_lt (show i < 2 ^ w by omega), Nat.mod_eq_of_lt (show j < 2 ^ w by omega),
    Nat.mod_eq_of_lt (show a.toNat + i < 2 ^ w by omega),
    Nat.mod_eq_of_lt (show b.toNat + j < 2 ^ w by omega)] at equal
  omega

/-- What follows a run is apart from it. -/
theorem behind (a : BitVec w) {n k : Nat} (room : n + k ≤ 2 ^ w) : Apart a n (ahead a n) k := by
  intro i i_lt j j_lt same
  rw [ahead_ahead] at same
  have equal := ahead_injective a (by omega) (by omega) same
  omega

end Apart

/-- None of the `n` cells from `src` on goes, on its way to `dest`, where a later one is. -/
def Forward (dest src : BitVec w) (n : Nat) : Prop :=
  ∀ i j, i < j → j < n → ahead dest i ≠ ahead src j

/-- Runs that are apart may be copied forward. -/
theorem Apart.forward {dest src : BitVec w} {n : Nat} (apart : Apart dest n src n) :
    Forward dest src n :=
  fun i j later j_lt => apart i (Nat.lt_trans later j_lt) j j_lt

namespace Forward

variable {dest src : BitVec w} {n k : Nat}

theorem shorter (forward : Forward dest src n) (le : k ≤ n) : Forward dest src k :=
  fun i j later j_lt => forward i j later (Nat.lt_of_lt_of_le j_lt le)

theorem later (forward : Forward dest src n) {i : Nat} (le : i + k ≤ n) :
    Forward (ahead dest i) (ahead src i) k := by
  intro i' j' later j'_lt same
  rw [ahead_ahead, ahead_ahead] at same
  exact forward (i + i') (i + j') (by omega) (by omega) same

/-- A move in place. -/
theorem refl {a : BitVec w} (room : n ≤ 2 ^ w) : Forward a a n := by
  intro i j before j_lt same
  have distances := congrArg (distance a) same
  rw [distance_ahead a (by omega), distance_ahead a (by omega)] at distances
  omega

/-- Where the first cells go, the others are not. -/
theorem apart (forward : Forward dest src (n + k)) : Apart dest n (ahead src n) k := by
  intro i i_lt j j_lt same
  rw [ahead_ahead] at same
  exact forward i (n + j) (by omega) (by omega) same

end Forward

namespace Space

/-- The memory once `values` has been stored from `a` on. -/
def put (m : Space w β) (a : BitVec w) (values : List β) : Space w β :=
  fun x => values.getD (distance a x) (m x)

/-- The `n` cells from `a` on. -/
def get (m : Space w β) (a : BitVec w) (n : Nat) : List β :=
  (List.range n).map fun i => m (ahead a i)

/-- The memory once the `n` cells from `src` on have been stored from `dest` on. -/
def move (m : Space w β) (dest src : BitVec w) (n : Nat) : Space w β := m.put dest (m.get src n)

@[simp] theorem get_length (m : Space w β) (a : BitVec w) (n : Nat) : (m.get a n).length = n := by
  rw [get, List.length_map, List.length_range]

/-- An element of a run. -/
theorem get_getElem? (m : Space w β) (a : BitVec w) {n i : Nat} (i_lt : i < n) :
    (m.get a n)[i]? = some (m (ahead a i)) := by
  rw [get, List.getElem?_map, List.getElem?_range i_lt, Option.map_some]

/-- A run in two parts. -/
theorem get_add (m : Space w β) (a : BitVec w) (n k : Nat) :
    m.get a (n + k) = m.get a n ++ m.get (ahead a n) k := by
  rw [get, List.range_add, List.map_append, List.map_map]
  refine congrArg (m.get a n ++ ·) (List.map_congr_left fun i _ => ?_)
  rw [Function.comp, ahead_ahead]

theorem get_succ (m : Space w β) (a : BitVec w) (n : Nat) :
    m.get a (n + 1) = m a :: m.get (ahead a 1) n := by
  rw [Nat.add_comm, get_add]
  exact congrArg (· :: _) (congrArg m (ahead_zero a))

theorem get_congr {m m' : Space w β} {a : BitVec w} {n : Nat}
    (same : ∀ i < n, m (ahead a i) = m' (ahead a i)) : m.get a n = m'.get a n :=
  List.map_congr_left fun i inside => same i (List.mem_range.1 inside)

/-- What was put is there. -/
theorem put_inside (m : Space w β) (a : BitVec w) {values : List β} {x : BitVec w}
    (inside : distance a x < values.length) : m.put a values x = values[distance a x] := by
  rw [put, List.getD_eq_getElem?_getD, List.getElem?_eq_getElem inside, Option.getD_some]

/-- Anything else is as before. -/
theorem put_outside (m : Space w β) (a : BitVec w) {values : List β} {x : BitVec w}
    (outside : values.length ≤ distance a x) : m.put a values x = m x := by
  rw [put, List.getD_eq_getElem?_getD, List.getElem?_eq_none outside, Option.getD_none]

/-- Two runs that meet are one run. -/
theorem put_append (m : Space w β) (a : BitVec w) (values more : List β)
    (room : values.length + more.length ≤ 2 ^ w) :
    (m.put a values).put (ahead a values.length) more = m.put a (values ++ more) := by
  funext x
  have bound := distance_lt a x
  by_cases before : distance a x < values.length
  · have far := distance_before (by omega) before
    rw [put_outside _ _ (by omega), put_inside m a before, put_inside m a (by simp; omega),
      List.getElem_append_left before]
  · have near := distance_behind (Nat.le_of_not_lt before)
    by_cases inside : distance a x < values.length + more.length
    · rw [put_inside _ _ (show distance (ahead a values.length) x < more.length by omega),
        put_inside m a (by simpa using inside), List.getElem_append_right (by omega)]
      simp only [near]
    · rw [put_outside _ _ (by omega), put_outside m a (by omega),
        put_outside m a (by simp; omega)]

/-- What lies apart from a run is not changed by it. -/
theorem get_put_apart (m : Space w β) {a b : BitVec w} {values : List β} {n : Nat}
    (apart : Apart a values.length b n) : (m.put a values).get b n = m.get b n :=
  get_congr fun _ i_lt => put_outside m a (apart.le_distance i_lt)

/-- A run that was put is read back. -/
theorem get_put_same (m : Space w β) (a : BitVec w) (values : List β)
    (room : values.length ≤ 2 ^ w) : (m.put a values).get a values.length = values := by
  refine List.ext_getElem? fun i => ?_
  by_cases i_lt : i < values.length
  · have near := distance_ahead a (Nat.lt_of_lt_of_le i_lt room)
    rw [get_getElem? _ _ i_lt, List.getElem?_eq_getElem i_lt,
      put_inside m a (show distance a (ahead a i) < values.length by omega)]
    simp only [near]
  · rw [List.getElem?_eq_none (by simpa using i_lt), List.getElem?_eq_none (by simpa using i_lt)]

/-- What is stored where it is changes nothing. -/
@[simp] theorem put_get (m : Space w β) (a : BitVec w) (n : Nat) : m.put a (m.get a n) = m := by
  funext x
  by_cases inside : distance a x < n
  · rw [put, List.getD_eq_getElem?_getD, get_getElem? m a inside, Option.getD_some, ahead_distance]
  · exact put_outside m a (by simpa using inside)

/-- Storing a run with some of its cells changed is storing those cells. -/
theorem put_patch (m : Space w β) (a : BitVec w) (i k : Nat) (values : List β)
    (room : i + values.length + k ≤ 2 ^ w) :
    m.put a (m.get a i ++ values ++ m.get (ahead a (i + values.length)) k) =
      m.put (ahead a i) values := by
  have first := put_append m a (m.get a i) (values ++ m.get (ahead a (i + values.length)) k)
    (by simp; omega)
  have second := put_append m (ahead a i) values (m.get (ahead a (i + values.length)) k)
    (by simp; omega)
  have kept : (m.put (ahead a i) values).get (ahead a (i + values.length)) k =
      m.get (ahead a (i + values.length)) k := by
    refine get_put_apart m ?_
    rw [← ahead_ahead]
    exact .behind _ (by omega)
  rw [put_get, get_length] at first
  rw [List.append_assoc, ← first, ← second, ahead_ahead, ← kept, put_get]

end Space

end D2xCios.Lib
