import GeneralParser.Pattern.Expr

/-!
# Automata with preferences

A regular expression is run as an automaton whose forks are ordered: the branch that comes first is
preferred. The nodes are made from the end of a match to its start, since a node refers to those
after it.
-/

namespace GeneralParser

/-- The nodes of an automaton. Nodes refer to each other by number. -/
inductive Automaton.Node where
  /-- The end of a match. -/
  | accept
  /-- Takes a character of the class. -/
  | take (s : CharClass) (next : Nat)
  /-- Goes on where the assertion holds. -/
  | look (a : Assertion) (next : Nat)
  /-- Goes on at either node, preferring the first. -/
  | fork (first second : Nat)
  deriving DecidableEq, Repr

/-- An automaton: its nodes, and where it starts. -/
structure Automaton where
  nodes : Array Automaton.Node
  start : Nat
  deriving Repr

namespace Automaton

/-- A fork between going on with `more` and leaving for `exit`. -/
def Node.choice (greedy : Bool) (more exit : Nat) : Node :=
  if greedy then .fork more exit else .fork exit more

/-- Adds a node and returns its number. -/
def add (nodes : Array Node) (node : Node) : Nat × Array Node := (nodes.size, nodes.push node)

/-! ### Pieces -/

/-- A piece of an automaton under construction: given the node to go on at, it adds its own nodes
and returns the one to start from. -/
abbrev Piece := Nat → Array Node → Nat × Array Node

namespace Piece

/-- Takes the characters of a string, given from the last to the first. -/
def backward : List Char → Piece
  | [], next, nodes => (next, nodes)
  | c :: cs, next, nodes =>
    let (last, nodes) := add nodes (.take (.one c) next)
    backward cs last nodes

/-- `n` copies of a piece, one after the other. -/
def times (p : Piece) : Nat → Piece
  | 0, next, nodes => (next, nodes)
  | n + 1, next, nodes =>
    let (last, nodes) := p next nodes
    times p n last nodes

/-- Up to `n` copies of a piece before the node `rest`; before each of them the match may go on at
`exit`. -/
def upTo (p : Piece) (greedy : Bool) (exit : Nat) : Nat → Piece
  | 0, rest, nodes => (rest, nodes)
  | n + 1, rest, nodes =>
    let (first, nodes) := p rest nodes
    let (fork, nodes) := add nodes (.choice greedy first exit)
    upTo p greedy exit n fork nodes

/-- A piece that goes on at a fork, which starts the piece over or leaves. The result is the start
of the piece, the fork, and all nodes. -/
def loop (p : Piece) (greedy : Bool) (exit : Nat) (nodes : Array Node) :
    Nat × Nat × Array Node :=
  let (fork, nodes) := add nodes .accept
  let (first, nodes) := p fork nodes
  (first, fork, nodes.setIfInBounds fork (.choice greedy first exit))

/-- One or more copies of a piece. -/
def oneOrMore (p : Piece) (greedy : Bool) : Piece := fun next nodes =>
  let (first, _, nodes) := p.loop greedy next nodes
  (first, nodes)

/-- Any number of copies of a piece that always takes a character. -/
def zeroOrMore (p : Piece) (greedy : Bool) : Piece := fun next nodes =>
  let (_, fork, nodes) := p.loop greedy next nodes
  (fork, nodes)

/-- A piece or nothing. -/
def optional (p : Piece) (greedy : Bool) : Piece := fun next nodes =>
  p.upTo greedy next 1 next nodes

end Piece

/-! ### Construction -/

/-- The piece that matches a regular expression. A loop whose rounds may take no character is left
out by a fork of its own, because the order of preference would suffer if it were entered by the
fork at its end. -/
def piece : Expr → Piece
  | .empty, next, nodes => (next, nodes)
  | .literal cs, next, nodes => Piece.backward cs.reverse next nodes
  | .one s, next, nodes => add nodes (.take s next)
  | .look a, next, nodes => add nodes (.look a next)
  | .capture _ e, next, nodes => piece e next nodes
  | .seq e f, next, nodes =>
    let (second, nodes) := piece f next nodes
    piece e second nodes
  | .alt e f, next, nodes =>
    let (first, nodes) := piece e next nodes
    let (second, nodes) := piece f next nodes
    add nodes (.fork first second)
  | .repeated e least (some most) greedy, next, nodes =>
    let (rest, nodes) := Piece.upTo (piece e) greedy next (most - least) next nodes
    Piece.times (piece e) least rest nodes
  | .repeated e 0 none greedy, next, nodes =>
    if e.isProgressing then Piece.zeroOrMore (piece e) greedy next nodes
    else Piece.optional (Piece.oneOrMore (piece e) greedy) greedy next nodes
  | .repeated e (least + 1) none greedy, next, nodes =>
    let (first, nodes) := Piece.oneOrMore (piece e) greedy next nodes
    Piece.times (piece e) least first nodes

/-- The automaton of a regular expression. -/
def ofExpr (e : Expr) : Automaton :=
  let (start, nodes) := piece e 0 #[.accept]
  ⟨nodes, start⟩

end Automaton

end GeneralParser
