import Mathlib.Data.List.TakeWhile

/-!
# Terminated strings in memory

A string in memory ends in front of the first terminator. A buffer of a given
size is seen with the memory behind it, as a copy that runs on to the terminator
does not look at the size. A string is moved unchanged through a copy of a fixed
number of cells if it is shorter than that number, and loses its end otherwise.
-/

namespace D2xCios.Lib

universe u

variable {α : Type u}

/-- A buffer of `size` cells, as the memory from its start on. -/
structure Region (α : Type u) (size : Nat) where
  cells : List α
  room : size ≤ cells.length

namespace Region

variable {size : Nat}

/-- The memory once `values` has been written from the start of the buffer on. -/
def store (values : List α) (buffer : Region α size) : Region α size where
  cells := values ++ buffer.cells.drop values.length
  room := by
    have room := buffer.room
    rw [List.length_append, List.length_drop]
    omega

/-- A copy of a fixed number of cells. -/
def copy (count : Nat) (source : List α) (buffer : Region α size) : Region α size :=
  buffer.store (source.take count)

@[simp] theorem store_cells (values : List α) (buffer : Region α size) :
    (buffer.store values).cells = values ++ buffer.cells.drop values.length := rfl

end Region

variable [DecidableEq α] (terminator : α)

/-- The string at the start of memory. -/
def stringAt (cells : List α) : List α := cells.takeWhile fun c => decide (c ≠ terminator)

/-- A copy of the string at `source`, with a terminator behind it. -/
def Region.copyString {size : Nat} (source : List α) (buffer : Region α size) : Region α size :=
  buffer.store (stringAt terminator source ++ [terminator])

variable {terminator}

/-- A string has no terminator in it. -/
theorem terminator_not_mem_stringAt (cells : List α) :
    terminator ∉ stringAt terminator cells := fun mem => by
  have kept : decide (terminator ≠ terminator) = true :=
    List.mem_takeWhile_imp (p := fun c => decide (c ≠ terminator)) mem
  exact of_decide_eq_true kept rfl

variable {string : List α} (inside : terminator ∉ string)

include inside

/-- A string without terminators ends at the first one behind it. -/
theorem stringAt_terminated (rest : List α) :
    stringAt terminator (string ++ terminator :: rest) = string := by
  have all : ∀ c ∈ string, decide (c ≠ terminator) = true := fun c mem =>
    decide_eq_true fun eq => inside (eq ▸ mem)
  rw [stringAt, List.takeWhile_append_of_pos all, List.takeWhile_cons_of_neg (by simp),
    List.append_nil]

/-- The string goes on at least over what holds no terminator. -/
theorem length_le_stringAt (rest : List α) :
    string.length ≤ (stringAt terminator (string ++ rest)).length := by
  have all : ∀ c ∈ string, decide (c ≠ terminator) = true := fun c mem =>
    decide_eq_true fun eq => inside (eq ▸ mem)
  rw [stringAt, List.takeWhile_append_of_pos all, List.length_append]
  exact Nat.le_add_right _ _

/-- A string that is shorter than a copy arrives with its terminator. -/
theorem stringAt_take {count : Nat} (fits : string.length < count) (rest tail : List α) :
    stringAt terminator ((string ++ terminator :: rest).take count ++ tail) = string := by
  obtain ⟨more, rfl⟩ := Nat.exists_eq_add_of_lt fits
  have cut : (string ++ terminator :: rest).take (string.length + more + 1) =
      string ++ terminator :: rest.take more := by
    rw [Nat.add_assoc, List.take_length_add_append, List.take_succ_cons]
  rw [cut, List.append_assoc, List.cons_append]
  exact stringAt_terminated inside _

/-- Any other string runs on behind the copy. -/
theorem le_length_stringAt_take {count : Nat} (long : count ≤ string.length) (rest tail : List α) :
    count ≤ (stringAt terminator ((string ++ rest).take count ++ tail)).length := by
  have cut : (string ++ rest).take count = string.take count :=
    List.take_append_of_le_length long
  have inside' : terminator ∉ string.take count := fun mem => inside (List.mem_of_mem_take mem)
  have runs := length_le_stringAt inside' tail
  rw [List.length_take, Nat.min_eq_left long] at runs
  rwa [cut]

omit inside

/-- A string that was copied is there, with its terminator. -/
theorem Region.copyString_cells {size : Nat} (source : List α) (buffer : Region α size) :
    ∃ rest, (buffer.copyString terminator source).cells =
      stringAt terminator source ++ terminator :: rest := by
  refine ⟨buffer.cells.drop (stringAt terminator source ++ [terminator]).length, ?_⟩
  rw [Region.copyString, Region.store_cells, List.append_assoc, List.singleton_append]

/-- The copy of a string is that string. -/
theorem stringAt_copyString {size : Nat} (source : List α) (buffer : Region α size) :
    stringAt terminator (buffer.copyString terminator source).cells =
      stringAt terminator source := by
  obtain ⟨rest, cells⟩ := @Region.copyString_cells _ _ terminator _ source buffer
  rw [cells]
  exact stringAt_terminated (terminator_not_mem_stringAt source) rest

end D2xCios.Lib
