import GeneralParser.Terminal

/-!
# Rules

A grammar is written as rules: each gives one alternative for a nonterminal, as a list of symbols.
The alternatives of a nonterminal are kept together, in the order in which they were added, and the
nonterminals in the order of their first rules.
-/

namespace GeneralParser

variable [PatternEngine]

/-- A symbol in the body of a rule. -/
inductive Symbol where
  /-- A terminal, matched directly. -/
  | terminal (t : Terminal)
  /-- A nonterminal, by its name. -/
  | nonterminal (name : String)
  deriving DecidableEq

/-- How a symbol is shown. -/
def Symbol.label : Symbol → String
  | .terminal t => t.label
  | .nonterminal name => name

/-- The alternatives of one nonterminal. -/
structure Production where
  head : String
  bodies : List (List Symbol)
  deriving DecidableEq

/-- The rules of a grammar. -/
structure Rules where
  productions : List Production
  /-- Whether alternatives that start alike share the slots of what they have in common. -/
  sharePrefixes : Bool
  deriving DecidableEq

namespace Rules

/-- A grammar without rules. -/
def empty : Rules := ⟨[], false⟩

instance : Inhabited Rules := ⟨empty⟩

/-- Adds a body to the alternatives of `head`. -/
def addBody (head : String) (body : List Symbol) : List Production → List Production
  | [] => [⟨head, [body]⟩]
  | p :: ps =>
    if p.head = head then { p with bodies := p.bodies ++ [body] } :: ps
    else p :: addBody head body ps

/-- Adds the rule `head ::= body`. -/
def add (r : Rules) (head : String) (body : List Symbol) : Rules :=
  { r with productions := addBody head body r.productions }

/-- The nonterminals that have rules. -/
def heads (r : Rules) : List String := r.productions.map Production.head

end Rules

/-! ### Labels of positions -/

/-- The rule `head ::= names` with a dot after the first `n` symbols. -/
def dottedRule (head : String) (names : List String) (n : Nat) : String :=
  head ++ " ::= " ++ " ".intercalate (names.take n ++ "•" :: names.drop n)

/-- The rules that begin with `head ::= names`, up to the symbol `n`, with a dot after that. -/
def sharedRule (head : String) (names : List String) (n : Nat) : String :=
  head ++ " ::= " ++ " ".intercalate (names.take n ++ ["•", "…"])

end GeneralParser
