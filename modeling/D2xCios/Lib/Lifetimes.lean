/-!
# Lifetimes of handles

An interface that hands out handles of two kinds: parents, and children that are opened on
a parent. A successful open makes a new handle, and a close ends it. `Use.Allowed` is what
such an interface asks of its callers: only handles that are open may be passed to it, and a
parent may be closed only without open children.
-/

namespace D2xCios.Lib

/-- The handles that are open, and the one that is made next. -/
structure Lifetimes where
  next : Nat
  parents : List Nat
  /-- The children, each with its parent. -/
  children : List (Nat × Nat)

namespace Lifetimes

/-- Nothing is open. -/
def none : Lifetimes where
  next := 0
  parents := []
  children := []

/-- A call of the interface; opens may fail. -/
inductive Use where
  | openParent (ok : Bool)
  | openChild (parent : Nat) (ok : Bool)
  | useChild (child : Nat)
  | closeChild (child : Nat)
  | closeParent (parent : Nat)
  deriving DecidableEq

/-- The child is open. -/
def Live (l : Lifetimes) (child : Nat) : Prop := ∃ entry ∈ l.children, entry.1 = child

instance (l : Lifetimes) (child : Nat) : Decidable (l.Live child) :=
  inferInstanceAs (Decidable (∃ entry ∈ l.children, entry.1 = child))

/-- The call gets handles that it may get. -/
def Use.Allowed (l : Lifetimes) : Use → Prop
  | .openParent _ => True
  | .openChild parent _ => parent ∈ l.parents
  | .useChild child => l.Live child
  | .closeChild child => l.Live child
  | .closeParent parent => parent ∈ l.parents ∧ ∀ entry ∈ l.children, entry.2 ≠ parent

instance (l : Lifetimes) (use : Use) : Decidable (use.Allowed l) :=
  match use with
  | .openParent _ => .isTrue trivial
  | .openChild parent _ => inferInstanceAs (Decidable (parent ∈ l.parents))
  | .useChild child => inferInstanceAs (Decidable (l.Live child))
  | .closeChild child => inferInstanceAs (Decidable (l.Live child))
  | .closeParent parent =>
    inferInstanceAs (Decidable (parent ∈ l.parents ∧ ∀ entry ∈ l.children, entry.2 ≠ parent))

/-- What is open after a call. -/
def after (l : Lifetimes) : Use → Lifetimes
  | .openParent ok =>
    if ok then { l with next := l.next + 1, parents := l.next :: l.parents } else l
  | .openChild parent ok =>
    if ok then { l with next := l.next + 1, children := (l.next, parent) :: l.children } else l
  | .useChild _ => l
  | .closeChild child => { l with children := l.children.filter fun entry => entry.1 ≠ child }
  | .closeParent parent => { l with parents := l.parents.filter fun other => other ≠ parent }

/-- The calls are allowed one after the other. -/
def Allowed : Lifetimes → List Use → Prop
  | _, [] => True
  | l, use :: uses => use.Allowed l ∧ Allowed (l.after use) uses

/-- What is open after some calls. -/
def afterAll (l : Lifetimes) (uses : List Use) : Lifetimes := uses.foldl after l

@[simp] theorem allowed_nil (l : Lifetimes) : l.Allowed [] := trivial

theorem allowed_append {l : Lifetimes} {first second : List Use} :
    l.Allowed (first ++ second) ↔ l.Allowed first ∧ (l.afterAll first).Allowed second := by
  induction first generalizing l with
  | nil => exact (and_iff_right trivial).symm
  | cons use uses ih =>
    rw [List.cons_append, Allowed, Allowed, ih, and_assoc]
    rfl

/-- At most one parent is open, and at most one child, on it. -/
def Holds (l : Lifetimes) (parent child : Option Nat) : Prop :=
  l.parents = parent.toList ∧ l.children = child.toList.zip parent.toList

/-- The handle that is held is live as long as its parent is there. -/
theorem Holds.live_iff {l : Lifetimes} {parent child : Option Nat} (holds : l.Holds parent child)
    {handle : Nat} : l.Live handle ↔ child = some handle ∧ parent ≠ Option.none := by
  rw [Live, holds.2]
  cases child with
  | none => simp
  | some c => cases parent <;> simp

end Lifetimes

end D2xCios.Lib
