import GeneralParser.Failure

/-!
# One terminal of lookahead

A slot whose first set is known can be ruled out before it is tried: if it is not nullable and none
of its first terminals matches, nothing can be parsed from there.
-/

namespace GeneralParser.Graph

variable [PatternEngine]

/-- How many characters terminal `id` takes at offset `i`, if it matches there. -/
def matchAt (g : Graph) (t : Text) (id : SlotId) (i : Nat) : Except Failure (Option Nat) := do
  let s ← Failure.ofGraph (g.terminalSlot id)
  Failure.ofText (s.terminal.matchAt t i)

/-- Whether one of the terminals `ids` matches at offset `i`. They are tried in order, up to the
first that matches. -/
def anyMatch (g : Graph) (t : Text) (i : Nat) : List SlotId → Except Failure Bool
  | [] => .ok false
  | id :: ids => do
    match ← g.matchAt t id i with
    | some _ => return true
    | none => g.anyMatch t i ids

/-- Whether parsing from slot `id` could succeed at offset `i`, as far as one terminal of lookahead
can tell: the slot is nullable, or one of its first terminals matches. -/
def admits (g : Graph) (t : Text) (id : SlotId) (i : Nat) : Except Failure Bool := do
  match ← Failure.ofGraph (g.slot id) with
  | .nonterminal s => if s.nullable then return true else g.anyMatch t i s.first.ids
  | .body s => if s.nullable then return true else g.anyMatch t i s.first.ids
  | .terminal s =>
    if s.terminal.isNullable then return true
    else return (← Failure.ofText (s.terminal.matchAt t i)).isSome
  | .done _ => return true

end GeneralParser.Graph
