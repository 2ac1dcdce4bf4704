import GeneralParser.Grammar.Graph
import Std.Data.ExtTreeMap

/-!
# Nodes of a parse forest

A symbol node stands for all derivations of a terminal, of the empty string or of a nonterminal
over one stretch of the text, and an intermediate node for those of the beginning of a rule. A
packed node is one way to derive the node it belongs to.
-/

namespace GeneralParser

variable [PatternEngine]

/-- The number of a node in its forest. -/
abbrev NodeId := Nat

/-- The nodes of a parse forest. -/
inductive Node where
  /-- A terminal that matched from `left` to `right`. -/
  | terminal (slot : SlotId) (left right : Nat)
  /-- The empty string. -/
  | epsilon (position : Nat)
  /-- A nonterminal from `left` to `right`. -/
  | nonterminal (slot : SlotId) (left right : Nat)
  /-- The beginning of a rule up to the position `slot`. -/
  | intermediate (slot : SlotId) (left right : Nat)
  /-- One derivation that reaches `slot`, and whose last part starts at `pivot`. -/
  | packed (slot : SlotId) (pivot : Nat)
  deriving DecidableEq, Repr

namespace Node

/-! ### Order -/

/-- The place of the kind of a node among the kinds, in the order of their declaration. -/
def rank : Node → Nat
  | .terminal .. => 0
  | .epsilon .. => 1
  | .nonterminal .. => 2
  | .intermediate .. => 3
  | .packed .. => 4

/-- The first field of a node. -/
def first : Node → Nat
  | .terminal slot _ _ | .nonterminal slot _ _ | .intermediate slot _ _ | .packed slot _ => slot
  | .epsilon position => position

/-- The second field of a node, if it has two. -/
def second : Node → Nat
  | .terminal _ left _ | .nonterminal _ left _ | .intermediate _ left _ => left
  | .packed _ pivot => pivot
  | .epsilon _ => 0

/-- The third field of a node, if it has three. -/
def third : Node → Nat
  | .terminal _ _ right | .nonterminal _ _ right | .intermediate _ _ right => right
  | .epsilon _ | .packed _ _ => 0

/-- Compares nodes by kind, then field by field. -/
abbrev cmp : Node → Node → Ordering :=
  compareLex (compareOn rank)
    (compareLex (compareOn first) (compareLex (compareOn second) (compareOn third)))

instance : Ord Node := ⟨cmp⟩

instance : Std.TransOrd Node := inferInstanceAs (Std.TransCmp cmp)

instance : Std.LawfulEqOrd Node where
  eq_of_compare {m n} h := by
    have h : cmp m n = .eq := h
    simp only [cmp, compareLex_eq_eq, compareOn, Nat.compare_eq_eq] at h
    cases m <;> cases n <;> simp_all [rank, first, second, third]

/-- Whether `m` may stand before `n` in a sorted list. -/
def le (m n : Node) : Bool := (compare m n).isLE

/-! ### Properties -/

/-- The stretch of the text under a node. Packed nodes have that of the node they belong to, and
none of their own. -/
def span? : Node → Option (Nat × Nat)
  | .terminal _ left right | .nonterminal _ left right | .intermediate _ left right =>
    some (left, right)
  | .epsilon position => some (position, position)
  | .packed _ _ => none

/-- Where the stretch under a node starts. -/
def left? (n : Node) : Option Nat := n.span?.map Prod.fst

/-- Where the stretch under a node ends. -/
def right? (n : Node) : Option Nat := n.span?.map Prod.snd

/-- Whether the node is packed. -/
def isPacked : Node → Bool
  | .packed _ _ => true
  | _ => false

/-- The slot a node refers to. -/
def slot? : Node → Option SlotId
  | .terminal slot _ _ | .nonterminal slot _ _ | .intermediate slot _ _ | .packed slot _ =>
    some slot
  | .epsilon _ => none

/-- How a node is shown, with the labels of the slots in `g`. -/
def label (g : Graph) : Node → String
  | .terminal slot left right | .nonterminal slot left right | .intermediate slot left right =>
    s!"({g.label slot},{left},{right})"
  | .epsilon position => s!"(ε,{position},{position})"
  | .packed slot pivot => s!"({g.label slot}, {pivot})"

end Node

end GeneralParser
