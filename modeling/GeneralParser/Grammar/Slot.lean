import GeneralParser.Grammar.SlotSet
import GeneralParser.Terminal

/-!
# Slots

A slot is a place in a grammar: a nonterminal as a whole, a position inside the body of a rule, a
terminal, or the completed end of a rule. Slots refer to each other by number.
-/

namespace GeneralParser

variable [PatternEngine]

/-- Going on from a position: over `symbol`, a terminal or a nonterminal, to `dest`. -/
structure Transition where
  symbol : SlotId
  dest : SlotId
  deriving DecidableEq, Repr

/-- A nonterminal as a whole. -/
structure NonterminalSlot where
  name : String
  /-- Where its alternatives start. -/
  firstSlots : List SlotId
  /-- Whether it derives the empty string. -/
  nullable : Bool
  /-- The terminals it can start with. -/
  first : SlotSet
  deriving DecidableEq

/-- A position inside the body of a rule, or of several that share their beginning. -/
structure BodySlot where
  /-- The nonterminal the rule is for. -/
  head : SlotId
  /-- The number of symbols before the position. -/
  position : Nat
  transitions : List Transition
  /-- Whether what comes after derives the empty string. -/
  nullable : Bool
  /-- The terminals with which what comes after can start. -/
  first : SlotSet
  label : String
  deriving DecidableEq

/-- A terminal. -/
structure TerminalSlot where
  terminal : Terminal
  label : String
  deriving DecidableEq

/-- The completed end of a rule. -/
structure EndSlot where
  /-- The nonterminal the rule is for. -/
  head : SlotId
  /-- The place of the rule among those for the same nonterminal. -/
  alternative : Nat
  label : String
  deriving DecidableEq

/-- A place in a grammar. -/
inductive Slot where
  | nonterminal (s : NonterminalSlot)
  | body (s : BodySlot)
  | terminal (s : TerminalSlot)
  | done (s : EndSlot)
  deriving DecidableEq

/-- The kinds of slots. -/
inductive SlotKind where
  | nonterminal
  | body
  | terminal
  | done
  deriving DecidableEq, Repr

/-- The name of a kind. -/
def SlotKind.name : SlotKind → String
  | .nonterminal => "nonterminal"
  | .body => "body"
  | .terminal => "terminal"
  | .done => "end"

namespace Slot

/-- The kind of a slot. -/
def kind : Slot → SlotKind
  | .nonterminal _ => .nonterminal
  | .body _ => .body
  | .terminal _ => .terminal
  | .done _ => .done

/-- Whether parsing could go on from the slot without taking a character. -/
def isNullable : Slot → Bool
  | .nonterminal s => s.nullable
  | .body s => s.nullable
  | .terminal s => s.terminal.isNullable
  | .done _ => true

/-- How a slot is shown. -/
def label : Slot → String
  | .nonterminal s => s.name
  | .body s => s.label
  | .terminal s => s.label
  | .done s => s.label

end Slot

/-- The slot of a terminal, labelled with the terminal. -/
def TerminalSlot.ofTerminal (t : Terminal) : TerminalSlot := ⟨t, t.label⟩

/-- The label of a slot that is only known by its number. -/
def SlotId.anonymous (id : SlotId) : String := s!"#{id}"

end GeneralParser
