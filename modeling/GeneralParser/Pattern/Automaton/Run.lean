import GeneralParser.DepthFirst
import GeneralParser.Pattern.Automaton

/-!
# Running an automaton

At every place in the text the live nodes are kept in order of preference and without repetition, so
the first that accepts cuts off all later ones, and the time is bounded by the product of the sizes
of automaton and text.
-/

namespace GeneralParser.Automaton

/-- The nodes that follow node `i` without taking a character, at a place between `before` and
`after`. -/
def follow (a : Automaton) (before after : Option Char) (i : Nat) : List Nat :=
  match a.nodes[i]? with
  | some (.fork first second) => [first, second]
  | some (.look assertion next) => if assertion.holds before after then [next] else []
  | _ => []

/-- The nodes that can be reached from `starts` at a place between `before` and `after`, in order
of preference. -/
def live (a : Automaton) (before after : Option Char) (starts : List Nat) : List Node :=
  (DepthFirst.order (a.follow before after) a.nodes.size starts).filterMap (a.nodes[·]?)

/-- The node after `node` once the character `c` is taken. -/
def Node.step? (c : Char) : Node → Option Nat
  | .take s next => if s.contains c then some next else none
  | _ => none

/-- Runs the automaton over `rest` from the nodes `starts`. The place is `byte`, after the character
`before`, and `found` is the end of the best match so far. The result is the end of the preferred
match. -/
def run (a : Automaton) (starts : List Nat) (before : Option Char) (byte : Nat)
    (found : Option Nat) : List Char → Option Nat
  | [] => if (a.live before none starts).contains .accept then some byte else found
  | c :: rest =>
    let nodes := a.live before (some c) starts
    let found := if nodes.contains .accept then some byte else found
    match (nodes.takeWhile (· ≠ .accept)).filterMap (Node.step? c) with
    | [] => found
    | starts => a.run starts (some c) (byte + c.utf8Size) found rest

end GeneralParser.Automaton
