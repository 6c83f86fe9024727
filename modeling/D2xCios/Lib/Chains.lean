import Mathlib.Data.List.Nodup
import Mathlib.Logic.Function.Basic

/-!
# Chains of linked cells

Each cell has one link, to another cell or to a mark that ends the chain. A chain is thus
determined by its first cell, has no cell twice, and is changed by a store in one of its own links
only. Cells are taken into a chain behind its last one.
-/

namespace D2xCios.Lib

universe u

/-- What a link may be: a cell, or the mark of an end, which is none. -/
structure Links (α : Type u) where
  Inside : α → Prop
  Ends : α → Prop
  apart : ∀ c, Inside c → ¬ Ends c

variable {α : Type u} (links : Links α) (next : α → α)

/-- The cells that are reached from a link, the last of which has the mark of an end. -/
def IsChain : α → List α → Prop
  | c, [] => links.Ends c
  | c, d :: cells => c = d ∧ links.Inside c ∧ IsChain (next c) cells

/-- The cells that are passed on the way from one link to another. -/
def IsPath : α → List α → α → Prop
  | c, [], stop => c = stop
  | c, d :: cells, stop => c = d ∧ links.Inside c ∧ IsPath (next c) cells stop

variable {links next}

/-! ## The cells of a chain -/

/-- A path to an end is a chain. -/
theorem isChain_of_path {c stop : α} {cells : List α} (path : IsPath links next c cells stop)
    (ends : links.Ends stop) : IsChain links next c cells := by
  induction cells generalizing c with
  | nil =>
    rw [IsPath] at path
    exact path ▸ ends
  | cons d cells ih => exact ⟨path.1, path.2.1, ih path.2.2⟩

/-- The cells of a path are inside. -/
theorem IsPath.inside {c stop : α} {cells : List α} (path : IsPath links next c cells stop) {d : α}
    (member : d ∈ cells) : links.Inside d := by
  induction cells generalizing c with
  | nil => cases member
  | cons e cells ih =>
    obtain ⟨rfl, inside, rest⟩ := path
    rcases List.mem_cons.1 member with rfl | later
    · exact inside
    · exact ih rest later

/-- A path goes on. -/
theorem IsPath.snoc {c stop : α} {cells : List α} (path : IsPath links next c cells stop)
    (inside : links.Inside stop) : IsPath links next c (cells ++ [stop]) (next stop) := by
  induction cells generalizing c with
  | nil =>
    rw [IsPath] at path
    subst path
    exact ⟨rfl, inside, rfl⟩
  | cons d cells ih => exact ⟨path.1, path.2.1, ih path.2.2⟩

theorem IsPath.congr {next' : α → α} {c stop : α} {cells : List α}
    (path : IsPath links next c cells stop) (same : ∀ d ∈ cells, next' d = next d) :
    IsPath links next' c cells stop := by
  induction cells generalizing c with
  | nil => exact path
  | cons d cells ih =>
    obtain ⟨rfl, inside, rest⟩ := path
    refine ⟨rfl, inside, ?_⟩
    rw [same c List.mem_cons_self]
    exact ih rest fun e member => same e (List.mem_cons_of_mem c member)

/-- A chain is a path to an end. -/
theorem IsChain.path {c : α} {cells : List α} (chain : IsChain links next c cells) :
    ∃ stop, links.Ends stop ∧ IsPath links next c cells stop := by
  induction cells generalizing c with
  | nil => exact ⟨c, chain, rfl⟩
  | cons d cells ih =>
    obtain ⟨stop, ends, path⟩ := ih chain.2.2
    exact ⟨stop, ends, chain.1, chain.2.1, path⟩

/-- The cells of a chain are inside. -/
theorem IsChain.inside {c : α} {cells : List α} (chain : IsChain links next c cells) {d : α}
    (member : d ∈ cells) : links.Inside d := by
  obtain ⟨stop, -, path⟩ := chain.path
  exact path.inside member

/-- A chain is determined by its first cell. -/
theorem IsChain.unique {c : α} {cells cells' : List α} (chain : IsChain links next c cells)
    (chain' : IsChain links next c cells') : cells = cells' := by
  induction cells generalizing c cells' with
  | nil =>
    cases cells' with
    | nil => rfl
    | cons => exact absurd chain (links.apart c chain'.2.1)
  | cons d cells ih =>
    cases cells' with
    | nil => exact absurd chain' (links.apart c chain.2.1)
    | cons d' cells' => rw [← chain.1, ← chain'.1, ih chain.2.2 chain'.2.2]

/-- The rest of a chain is the chain of the cell that it starts with. -/
theorem IsChain.drop {c : α} {cells : List α} (chain : IsChain links next c cells) {i : Nat}
    (i_lt : i < cells.length) : IsChain links next cells[i] (cells.drop i) := by
  induction cells generalizing c i with
  | nil => cases i_lt
  | cons d cells ih =>
    cases i with
    | zero =>
      obtain ⟨rfl, inside, rest⟩ := chain
      exact ⟨rfl, inside, rest⟩
    | succ i => exact ih chain.2.2 (Nat.lt_of_succ_lt_succ i_lt)

/-- A chain begins with its first cell. -/
theorem IsChain.head {c : α} {cells : List α} (chain : IsChain links next c cells)
    (some : 0 < cells.length) : cells[0] = c := by
  cases cells with
  | nil => cases some
  | cons d cells => exact chain.1.symm

/-- The link of a cell behind which there is another one. -/
theorem IsChain.next_eq {c : α} {cells : List α} (chain : IsChain links next c cells) {i : Nat}
    (i_lt : i + 1 < cells.length) : next cells[i] = cells[i + 1] := by
  have rest := chain.drop (show i < cells.length by omega)
  rw [List.drop_eq_getElem_cons (by omega), List.drop_eq_getElem_cons i_lt] at rest
  exact rest.2.2.1

/-- The link of the last cell. -/
theorem IsChain.next_last {c : α} {cells : List α} (chain : IsChain links next c cells) {i : Nat}
    (last : i + 1 = cells.length) : links.Ends (next (cells.get ⟨i, by omega⟩)) := by
  have rest := chain.drop (show i < cells.length by omega)
  rw [List.drop_eq_getElem_cons (by omega), List.drop_eq_nil_of_le (by omega)] at rest
  exact rest.2.2

/-- A cell in a chain is linked. -/
theorem IsChain.linked {c : α} {cells : List α} (chain : IsChain links next c cells) {d : α}
    (member : d ∈ cells) : links.Inside (next d) ∨ links.Ends (next d) := by
  obtain ⟨i, i_lt, rfl⟩ := List.getElem_of_mem member
  by_cases last : i + 1 = cells.length
  · exact .inr (chain.next_last last)
  · have i_lt' : i + 1 < cells.length := by omega
    rw [chain.next_eq i_lt']
    exact .inl (chain.inside (List.getElem_mem i_lt'))

/-- No cell is twice in a chain. -/
theorem IsChain.nodup {c : α} {cells : List α} (chain : IsChain links next c cells) :
    cells.Nodup := by
  rw [List.nodup_iff_injective_getElem]
  rintro ⟨i, i_lt⟩ ⟨j, j_lt⟩ same
  have first := chain.drop i_lt
  rw [show cells[i] = cells[j] from same] at first
  have rest := first.unique (chain.drop j_lt)
  have lengths := congrArg List.length rest
  rw [List.length_drop, List.length_drop] at lengths
  exact Fin.ext (show i = j by omega)

/-- Stores in other links leave a chain as it is. -/
theorem IsChain.congr {next' : α → α} {c : α} {cells : List α}
    (chain : IsChain links next c cells) (same : ∀ d ∈ cells, next' d = next d) :
    IsChain links next' c cells := by
  obtain ⟨stop, ends, path⟩ := chain.path
  exact isChain_of_path (path.congr same) ends

/-- A path from the first cell of a chain leads to the rest of it. -/
theorem IsPath.rest {c stop : α} {cells cells' : List α} (path : IsPath links next c cells stop)
    (chain : IsChain links next c cells') :
    ∃ rest, cells' = cells ++ rest ∧ IsChain links next stop rest := by
  induction cells generalizing c cells' with
  | nil =>
    rw [IsPath] at path
    exact ⟨cells', rfl, path ▸ chain⟩
  | cons d cells ih =>
    obtain ⟨rfl, inside, path⟩ := path
    cases cells' with
    | nil => exact absurd chain (links.apart c inside)
    | cons d' cells' =>
      obtain ⟨rfl, -, chain⟩ := chain
      obtain ⟨rest, rfl, chain'⟩ := ih path chain
      exact ⟨rest, rfl, chain'⟩

/-! ## More cells, and fewer -/

/-- A cell with the mark of an end is a chain. -/
theorem isChain_single {c : α} (inside : links.Inside c) (ends : links.Ends (next c)) :
    IsChain links next c [c] := ⟨rfl, inside, ends⟩

/-- A cell is put behind the last one of a chain. -/
theorem IsChain.stretch {next' : α → α} {c last new : α} {cells : List α}
    (chain : IsChain links next c (cells ++ [last])) (inside : links.Inside new)
    (same : ∀ d ∈ cells, next' d = next d) (linked : next' last = new)
    (ends : links.Ends (next' new)) : IsChain links next' c (cells ++ [last] ++ [new]) := by
  induction cells generalizing c with
  | nil =>
    obtain ⟨rfl, inside', -⟩ := chain
    exact ⟨rfl, inside', linked, linked ▸ inside, linked ▸ ends⟩
  | cons d cells ih =>
    obtain ⟨rfl, inside', rest⟩ := chain
    refine ⟨rfl, inside', ?_⟩
    rw [same c List.mem_cons_self]
    exact ih rest fun e member => same e (List.mem_cons_of_mem c member)

/-- The links once some cells have been given back. -/
def freed [DecidableEq α] (next : α → α) (free : α) (cells : List α) (c : α) : α :=
  if c ∈ cells then free else next c

theorem freed_nil [DecidableEq α] (free : α) : freed next free [] = next := by
  funext c
  exact if_neg List.not_mem_nil

/-- The cells are given back one after the other. -/
theorem freed_cons [DecidableEq α] (free : α) (c : α) (cells : List α) :
    freed (Function.update next c free) free cells = freed next free (c :: cells) := by
  funext d
  unfold freed
  by_cases same : d = c
  · subst same
    simp
  · simp [same]

end D2xCios.Lib
