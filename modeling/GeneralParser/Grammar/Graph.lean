import GeneralParser.Grammar.Slot

/-!
# Slot graphs

A parser runs on the graph of a grammar's slots. A graph can be put together from any slots, so
every look-up can fail; `validate` finds the first reference that leads nowhere or to a slot of the
wrong kind.
-/

namespace GeneralParser

variable [PatternEngine]

/-- The slots of a grammar, and its nonterminals by name, in order of declaration. -/
structure Graph where
  slots : Array Slot
  registry : List (String × SlotId)
  deriving DecidableEq

namespace Graph

/-- What can be wrong with a reference to a slot. -/
inductive Error where
  /-- There is no slot with this number. -/
  | missing (id : SlotId)
  /-- The slot is not of the expected kind. -/
  | wrongKind (id : SlotId) (expected : SlotKind)
  deriving DecidableEq, Repr

/-- The wording of an error. -/
def Error.message : Error → String
  | .missing id => s!"grammar graph refers to missing slot {id.anonymous}"
  | .wrongKind id expected =>
    s!"slot {id.anonymous} was expected to be a {expected.name} slot"

/-- The graph without slots. -/
def empty : Graph := ⟨#[], []⟩

instance : Inhabited Graph := ⟨empty⟩

/-- The number of slots. -/
def size (g : Graph) : Nat := g.slots.size

/-- Gives the slot `id` the name `name`. A name that is known already keeps its place in the order
of declaration. -/
def register (g : Graph) (name : String) (id : SlotId) : Graph :=
  if g.registry.any (·.1 = name) then
    { g with registry := g.registry.map fun e => if e.1 = name then (name, id) else e }
  else { g with registry := g.registry ++ [(name, id)] }

/-! ### Look-ups -/

/-- The slot with number `id`. -/
def slot (g : Graph) (id : SlotId) : Except Error Slot :=
  match g.slots[id]? with
  | some s => .ok s
  | none => .error (.missing id)

/-- The nonterminal with number `id`. -/
def nonterminalSlot (g : Graph) (id : SlotId) : Except Error NonterminalSlot := do
  match ← g.slot id with
  | .nonterminal s => return s
  | _ => throw (.wrongKind id .nonterminal)

/-- The position with number `id`. -/
def bodySlot (g : Graph) (id : SlotId) : Except Error BodySlot := do
  match ← g.slot id with
  | .body s => return s
  | _ => throw (.wrongKind id .body)

/-- The terminal with number `id`. -/
def terminalSlot (g : Graph) (id : SlotId) : Except Error TerminalSlot := do
  match ← g.slot id with
  | .terminal s => return s
  | _ => throw (.wrongKind id .terminal)

/-- The end with number `id`. -/
def endSlot (g : Graph) (id : SlotId) : Except Error EndSlot := do
  match ← g.slot id with
  | .done s => return s
  | _ => throw (.wrongKind id .done)

/-- The nonterminal called `name`. -/
def nonterminal? (g : Graph) (name : String) : Option SlotId := g.registry.lookup name

/-- How slot `id` is shown; a slot that is missing is shown by its number. -/
def label (g : Graph) (id : SlotId) : String :=
  match g.slots[id]? with
  | some s => s.label
  | none => id.anonymous

/-- The terminal at position `b`, if the only way to go on is over one terminal. -/
def expectedTerminal? (g : Graph) (b : BodySlot) : Option SlotId :=
  match b.transitions with
  | [t] =>
    match g.slots[t.symbol]? with
    | some (.terminal _) => some t.symbol
    | _ => none
  | _ => none

/-! ### Validation -/

/-- Checks that parsing can go on at slot `id`: it is a position or an end. -/
def checkContinuation (g : Graph) (id : SlotId) : Except Error Unit := do
  match ← g.slot id with
  | .body _ | .done _ => return
  | _ => throw (.wrongKind id .body)

/-- Checks that slot `id` can be gone over: it is a terminal or a nonterminal. -/
def checkSymbol (g : Graph) (id : SlotId) : Except Error Unit := do
  match ← g.slot id with
  | .terminal _ | .nonterminal _ => return
  | _ => throw (.wrongKind id .terminal)

/-- Checks that all members of a first set are terminals. -/
def checkFirst (g : Graph) (first : SlotSet) : Except Error Unit :=
  first.ids.forM fun id => discard (g.terminalSlot id)

/-- Checks the references that a slot makes. -/
def checkSlot (g : Graph) : Slot → Except Error Unit
  | .nonterminal s => do
    s.firstSlots.forM g.checkContinuation
    g.checkFirst s.first
  | .body s => do
    discard (g.nonterminalSlot s.head)
    s.transitions.forM fun t => do
      g.checkSymbol t.symbol
      g.checkContinuation t.dest
    g.checkFirst s.first
  | .done s => discard (g.nonterminalSlot s.head)
  | .terminal _ => return

/-- Checks every reference in the graph; the first bad one is the error. -/
def validate (g : Graph) : Except Error Unit := do
  g.registry.forM fun (_, id) => discard (g.nonterminalSlot id)
  g.slots.toList.forM g.checkSlot

end Graph

end GeneralParser
