/-!
# Nesting

A written form is put together from pieces, and how deeply it is nested is counted while it is read.
The count follows what is written, whatever the pieces amount to.
-/

namespace GeneralParser.Pattern

/-- What a piece of a written form means, and how deeply it is nested. -/
structure Nested (α : Type) where
  value : α
  depth : Nat

namespace Nested

/-- A piece that does not consist of others. -/
def leaf {α : Type} (a : α) : Nested α := ⟨a, 0⟩

/-- A piece around one other. -/
def wrap {α β : Type} (f : α → β) (p : Nested α) : Nested β := ⟨f p.value, p.depth + 1⟩

/-- The greatest depth of the pieces. -/
def deepest {α : Type} (ps : List (Nested α)) : Nat := ps.foldl (fun d p => max d p.depth) 0

/-- A piece made of several others. A single piece is not nested any deeper by this. -/
def join {α : Type} (f : List α → α) : List (Nested α) → Nested α
  | [] => leaf (f [])
  | [p] => p
  | ps => ⟨f (ps.map (·.value)), deepest ps + 1⟩

end Nested

end GeneralParser.Pattern
