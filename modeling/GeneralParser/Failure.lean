import GeneralParser.CallGraph
import GeneralParser.Fault

/-!
# Failures

What can come out of a parse instead of a forest.
-/

namespace GeneralParser

/-- A point at which parsing could not go on. -/
structure Obstacle where
  /-- The slot that could not be passed; for a terminal that did not match, the terminal. -/
  slot : SlotId
  index : Nat
  /-- The call in which it happened. -/
  context : CallSite
  deriving DecidableEq, Repr

/-- Why a parse ended without a forest. -/
inductive Failure where
  /-- The text is not in the language; the obstacle is the furthest point reached. -/
  | rejected (furthest : Obstacle)
  /-- No nonterminal has the name of the start symbol. -/
  | unknownStart (name : String)
  /-- The slot graph is malformed. -/
  | malformed (e : Graph.Error)
  /-- More than `limit` descriptors were seen. -/
  | overLimit (limit : Nat)
  /-- A node without a stretch of text was used where one is needed. -/
  | spanless (node : NodeId)
  /-- An internal assumption does not hold. -/
  | broken (fault : Fault)
  deriving DecidableEq, Repr

/-- The wording of an obstacle. -/
def Obstacle.message (o : Obstacle) : String :=
  s!"Unable to continue at slot {o.slot.anonymous} at offset {o.index} " ++
    s!"(in call of {o.context.slot.anonymous} at {o.context.index})"

/-- The wording of a failure. -/
def Failure.message : Failure → String
  | .rejected o => o.message
  | .unknownStart name => s!"Unknown start symbol `{name}`"
  | .malformed e => e.message
  | .overLimit limit => s!"Parse aborted after scheduling more than {limit} descriptors"
  | .spanless node => s!"SPPF node NodeIndex({node}) has no extent"
  | .broken fault => fault.message

/-- A look-up in a graph, as a step of a parse. -/
def Failure.ofGraph {α : Type} : Except Graph.Error α → Except Failure α
  | .ok a => .ok a
  | .error e => .error (.malformed e)

/-- A reading of a text, as a step of a parse. -/
def Failure.ofText {α : Type} : Except Fault α → Except Failure α
  | .ok a => .ok a
  | .error fault => .error (.broken fault)

end GeneralParser
