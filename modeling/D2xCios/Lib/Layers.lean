import Mathlib.Data.List.Induction

/-!
# Layers

Items that are laid over one another in order, each of which covers some places with values. Two
readings of the items, one of which covers more than the other, leave the same if at every place
the last item that covers it does so in both readings, or covers it with what is there anyway.
-/

namespace D2xCios.Lib

universe u v w

variable {ι : Type u} {α : Type v} {β : Type w}

/-- What is left once the items have been laid over `m`. -/
def overlaid (layer : ι → α → Option β) (m : α → β) (items : List ι) : α → β :=
  items.foldl (fun m i x => (layer i x).getD (m x)) m

/-- At `x`, the last item that covers it in the wide reading covers it in the narrow one too, or
with the value that is there. The items are given from the last to the first. -/
def Harmless (wide narrow : ι → α → Option β) (m : α → β) (x : α) : List ι → Prop
  | [] => True
  | i :: earlier =>
    match wide i x with
    | none => Harmless wide narrow m x earlier
    | some value => narrow i x = none → value = overlaid narrow m earlier.reverse x

end D2xCios.Lib
