import Mathlib.Algebra.Ring.Nat
import Mathlib.Data.List.Basic

/-!
# Cells: arrays as functions of an index

A statically allocated array is a total function from indices to cells. Bounds
are not part of the type: a development that needs them records the indices it
touches. `window` reads a contiguous run back as a list, `overlay` is the
contents after such a run has been stored, and `fill` is the counting loop that
stores it one cell at a time.
-/

namespace D2xCios.Lib

universe u

/-- An array of unbounded extent. -/
abbrev Cells (α : Type u) := Nat → α

namespace Cells

variable {α : Type u}

/-- Store one cell. -/
def write (cells : Cells α) (index : Nat) (value : α) : Cells α :=
  fun i => if i = index then value else cells i

@[simp] theorem write_same (cells : Cells α) (index : Nat) (value : α) :
    cells.write index value index = value := by
  simp [write]

/-- A write leaves the other cells. -/
theorem write_other (cells : Cells α) {index i : Nat} (value : α) (other : i ≠ index) :
    cells.write index value i = cells i := by
  simp [write, other]

/-- The `count` cells from `offset` on, as a list. -/
def window (cells : Cells α) (offset count : Nat) : List α :=
  (List.range count).map fun i => cells (offset + i)

@[simp] theorem window_length (cells : Cells α) (offset count : Nat) :
    (cells.window offset count).length = count := by
  simp [window]

@[simp] theorem window_zero (cells : Cells α) (offset : Nat) : cells.window offset 0 = [] := rfl

@[simp] theorem window_getElem (cells : Cells α) (offset count i : Nat)
    (h : i < (cells.window offset count).length) :
    (cells.window offset count)[i] = cells (offset + i) := by
  simp [window]

theorem window_succ (cells : Cells α) (offset count : Nat) :
    cells.window offset (count + 1) = cells.window offset count ++ [cells (offset + count)] := by
  simp [window, List.range_succ]

/-- Windows that meet are one window. -/
theorem window_append (cells : Cells α) (offset first second : Nat) :
    cells.window offset first ++ cells.window (offset + first) second =
      cells.window offset (first + second) := by
  simp only [window, List.range_add, List.map_append, List.map_map]
  congr 1
  exact List.map_congr_left fun i _ => by simp [Nat.add_assoc]

/-- A shorter window is the beginning of a longer one. -/
theorem window_prefix (cells : Cells α) (offset : Nat) {short long : Nat} (le : short ≤ long) :
    cells.window offset short <+: cells.window offset long := by
  refine ⟨cells.window (offset + short) (long - short), ?_⟩
  rw [window_append, Nat.add_sub_cancel' le]

/-- A part of a window is a window. -/
theorem window_part (cells : Cells α) (offset count skip width : Nat) :
    ((cells.window offset count).drop skip).take width =
      cells.window (offset + skip) (min (count - skip) width) := by
  apply List.ext_getElem
  · simp [Nat.min_comm]
  · intro i _ _
    simp [Nat.add_assoc]

/-- A window depends on its own cells only. -/
theorem window_congr {left right : Cells α} {offset count : Nat}
    (same : ∀ i, i < count → left (offset + i) = right (offset + i)) :
    left.window offset count = right.window offset count :=
  List.map_congr_left fun i member => same i (List.mem_range.mp member)

/-- A window is compared cell by cell. -/
theorem window_eq_of_getElem {cells : Cells α} {offset : Nat} {values : List α}
    (same : ∀ i (h : i < values.length), cells (offset + i) = values[i]) :
    cells.window offset values.length = values := by
  apply List.ext_getElem (by simp)
  intro i _ h
  simpa using same i h

/-- The contents once `values` has been stored from `offset` on. -/
def overlay (cells : Cells α) (offset : Nat) (values : List α) : Cells α :=
  fun i => if h : offset ≤ i ∧ i - offset < values.length then values[i - offset] else cells i

/-- The values that were laid over are there. -/
theorem overlay_inside (cells : Cells α) (offset : Nat) (values : List α) {i : Nat}
    (h : i < values.length) : cells.overlay offset values (offset + i) = values[i] := by
  have inside : offset ≤ offset + i ∧ offset + i - offset < values.length := by omega
  simp [overlay, h]

/-- Cells outside the values are left alone. -/
theorem overlay_outside (cells : Cells α) (offset : Nat) (values : List α) {i : Nat}
    (h : i < offset ∨ offset + values.length ≤ i) : cells.overlay offset values i = cells i := by
  have outside : ¬ (offset ≤ i ∧ i - offset < values.length) := by omega
  simp [overlay, outside]

@[simp] theorem overlay_nil (cells : Cells α) (offset : Nat) : cells.overlay offset [] = cells := by
  funext i
  simp [overlay]

theorem overlay_snoc (cells : Cells α) (offset : Nat) (values : List α) (value : α) :
    (cells.overlay offset values).write (offset + values.length) value =
      cells.overlay offset (values ++ [value]) := by
  funext i
  by_cases last : i = offset + values.length
  · subst last
    rw [write_same, overlay_inside _ _ _ (by simp)]
    simp
  · rw [write_other _ _ last]
    by_cases inside : offset ≤ i ∧ i - offset < values.length
    · have longer : i - offset < values.length + 1 := by omega
      simp [overlay, inside, longer]
    · rw [overlay_outside _ _ _ (by omega), overlay_outside _ _ _ (by simp; omega)]

/-- Two runs stored one behind the other are one run. -/
theorem overlay_append (cells : Cells α) (offset : Nat) (first second : List α) :
    (cells.overlay offset first).overlay (offset + first.length) second =
      cells.overlay offset (first ++ second) := by
  funext i
  simp only [overlay, List.length_append]
  by_cases second_run : offset + first.length ≤ i ∧ i - (offset + first.length) < second.length
  · have whole : offset ≤ i ∧ i - offset < first.length + second.length := by omega
    have behind : first.length ≤ i - offset := by omega
    simp [second_run, whole, List.getElem_append_right behind, Nat.sub_sub]
  · by_cases first_run : offset ≤ i ∧ i - offset < first.length
    · have whole : offset ≤ i ∧ i - offset < first.length + second.length := by omega
      simp [second_run, first_run, whole, List.getElem_append_left first_run.2]
    · have outside : ¬ (offset ≤ i ∧ i - offset < first.length + second.length) := by omega
      simp [second_run, first_run, outside]

/-- A run stored over one of the same length replaces it. -/
theorem overlay_overlay (cells : Cells α) (offset : Nat) {first second : List α}
    (same : first.length = second.length) :
    (cells.overlay offset first).overlay offset second = cells.overlay offset second := by
  funext i
  simp only [overlay, same]
  split <;> rfl

/-- A window over exactly the stored run is the stored run. -/
theorem window_overlay (cells : Cells α) (offset : Nat) (values : List α) :
    (cells.overlay offset values).window offset values.length = values :=
  window_eq_of_getElem fun _ h => overlay_inside cells offset values h

/-- A window inside a run copied from elsewhere is a window of the run's source. -/
theorem window_overlay_window (cells source : Cells α) {offset start count skip width : Nat}
    (inside : skip + width ≤ count) :
    (cells.overlay offset (source.window start count)).window (offset + skip) width =
      source.window (start + skip) width := by
  refine List.map_congr_left fun i member => ?_
  have i_lt := List.mem_range.mp member
  have within : skip + i < (source.window start count).length := by
    rw [window_length]
    omega
  rw [Nat.add_assoc, overlay_inside _ _ _ within, window_getElem, Nat.add_assoc]

/-- A window that misses the stored run is unchanged. -/
theorem window_overlay_disjoint (cells : Cells α) {offset start count : Nat} {values : List α}
    (apart : start + count ≤ offset ∨ offset + values.length ≤ start) :
    (cells.overlay offset values).window start count = cells.window start count :=
  window_congr fun i h => overlay_outside cells offset values (by omega)

/-- The parts of a window are the windows of its parts. -/
theorem window_split {cells : Cells α} {offset : Nat} {left right : List α} (first second : Nat)
    (whole : cells.window offset (first + second) = left ++ right)
    (length : left.length = first) :
    cells.window offset first = left ∧ cells.window (offset + first) second = right := by
  rw [← window_append] at whole
  exact List.append_inj whole (by simp [length])

/-- The counting loop `for (j = 0; j < count; j++) cells[offset + j] = source(j)`. -/
def fill (cells : Cells α) (offset count : Nat) (source : Nat → α) : Cells α :=
  (List.range count).foldl (fun acc j => acc.write (offset + j) (source j)) cells

theorem fill_succ (cells : Cells α) (offset count : Nat) (source : Nat → α) :
    cells.fill offset (count + 1) source =
      (cells.fill offset count source).write (offset + count) (source count) := by
  simp [fill, List.range_succ]

/-- The loop leaves exactly its source's run behind. -/
theorem fill_eq_overlay (cells : Cells α) (offset count : Nat) (source : Nat → α) :
    cells.fill offset count source = cells.overlay offset ((List.range count).map source) := by
  induction count with
  | zero => simp [fill]
  | succ count ih =>
    have step := overlay_snoc cells offset ((List.range count).map source) (source count)
    simp only [List.length_map, List.length_range] at step
    rw [fill_succ, ih, step, List.range_succ, List.map_append, List.map_singleton]

/-- Appending by a counting loop extends the window by the source's run. -/
theorem window_fill (cells : Cells α) (length count : Nat) (source : Nat → α) :
    (cells.fill length count source).window 0 (length + count) =
      cells.window 0 length ++ (List.range count).map source := by
  rw [fill_eq_overlay, ← window_append, Nat.zero_add]
  congr 1
  · exact window_overlay_disjoint cells (Or.inl (by omega))
  · have whole := window_overlay cells length ((List.range count).map source)
    simpa using whole

end Cells

end D2xCios.Lib
