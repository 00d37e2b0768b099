/-
# `Shelf` — things held under names

A shelf holds things under names.  A name under which nothing was put holds the default thing, so
looking at a shelf always gives something, and putting something under one name changes nothing
under any other.
-/
import Std.Data.ExtTreeMap

namespace Stencil

/-- Things held under names. -/
structure Shelf (α : Type) where
  things : Std.ExtTreeMap String α

namespace Shelf

def empty {α : Type} : Shelf α :=
  ⟨∅⟩

def get {α : Type} [Inhabited α] (shelf : Shelf α) (name : String) : α :=
  shelf.things.getD name default

/-- Puts a thing under a name, in place of what was there. -/
def put {α : Type} (shelf : Shelf α) (name : String) (thing : α) : Shelf α :=
  ⟨shelf.things.insert name thing⟩

@[simp] theorem get_empty {α : Type} [Inhabited α] (name : String) :
    (empty : Shelf α).get name = default := by
  simp [get, empty]

theorem get_put {α : Type} [Inhabited α] (shelf : Shelf α) (name other : String) (thing : α) :
    (shelf.put name thing).get other = if name = other then thing else shelf.get other := by
  simp only [get, put, Std.ExtTreeMap.getD_insert, Std.LawfulEqOrd.compare_eq_iff_eq]

end Shelf

end Stencil
