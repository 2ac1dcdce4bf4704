import GeneralParser.Grammar.Graph
import GeneralParser.Grammar.Rules
import GeneralParser.Grammar.Summary

/-!
# From rules to a slot graph

Every nonterminal gets a slot first, so that rules can refer to each other in any order. Then the
alternatives are laid out one after the other: a slot for every position, and one for the end.
Terminals get a slot where they are first met. If prefixes are shared, an alternative follows the
slots of earlier ones as long as they have the same symbols.
-/

namespace GeneralParser

variable [PatternEngine]

/-- A nonterminal that is used in a rule but has none itself. -/
structure UndefinedNonterminal where
  name : String
  /-- The nonterminal in whose rule it is used. -/
  head : String
  deriving DecidableEq, Repr

/-- The wording of the error. -/
def UndefinedNonterminal.message (e : UndefinedNonterminal) : String :=
  s!"nonterminal `{e.name}` is used in a rule for `{e.head}` but never defined"

/-- A slot graph under construction. -/
structure Layout where
  slots : Array Slot
  registry : List (String × SlotId)

namespace Layout

/-! ### Slots -/

/-- Adds a slot at the end. -/
def push (l : Layout) (s : Slot) : SlotId × Layout :=
  (l.slots.size, { l with slots := l.slots.push s })

/-- Adds a nonterminal without alternatives. -/
def declare (l : Layout) (name : String) : Layout :=
  let (id, l) := l.push (.nonterminal ⟨name, [], false, ∅⟩)
  { l with registry := l.registry ++ [(name, id)] }

/-- The slot of a terminal that was met before. -/
def terminal? (l : Layout) (t : Terminal) : Option SlotId :=
  l.slots.findIdx? fun
    | .terminal s => s.terminal = t
    | _ => false

/-- The slot of a symbol in a rule for `head`. -/
def resolve (l : Layout) (head : String) : Symbol → Except UndefinedNonterminal (SlotId × Layout)
  | .nonterminal name =>
    match l.registry.lookup name with
    | some id => .ok (id, l)
    | none => .error ⟨name, head⟩
  | .terminal t =>
    match l.terminal? t with
    | some id => .ok (id, l)
    | none => .ok (l.push (.terminal (.ofTerminal t)))

/-- Changes the position with number `id`. -/
def modifyBody (l : Layout) (id : SlotId) (f : BodySlot → BodySlot) : Layout :=
  { l with slots := l.slots.modify id fun
      | .body b => .body (f b)
      | s => s }

/-- Adds a transition to a position. -/
def addTransition (l : Layout) (source : SlotId) (t : Transition) : Layout :=
  l.modifyBody source fun b => { b with transitions := b.transitions ++ [t] }

/-- Sets where the alternatives of a nonterminal start. -/
def setFirstSlots (l : Layout) (id : SlotId) (firstSlots : List SlotId) : Layout :=
  { l with slots := l.slots.modify id fun
      | .nonterminal n => .nonterminal { n with firstSlots }
      | s => s }

/-- Whether slot `id` is a position. -/
def isBody (l : Layout) (id : SlotId) : Bool :=
  match l.slots[id]? with
  | some (.body _) => true
  | _ => false

/-- The position after `symbol` that an earlier alternative has laid out behind `source`. -/
def sharedDest? (l : Layout) (source symbol : SlotId) : Option SlotId :=
  match l.slots[source]? with
  | some (.body b) =>
    ((b.transitions.filter (·.symbol = symbol)).map Transition.dest).find? l.isBody
  | _ => none

/-! ### Alternatives -/

/-- The alternative that is being laid out. -/
structure Alternative where
  head : String
  headId : SlotId
  /-- Its place among the alternatives of the same nonterminal. -/
  number : Nat
  /-- Its symbols, as they are shown. -/
  names : List String
  /-- Whether it follows the slots of earlier alternatives. -/
  share : Bool

namespace Alternative

/-- The slot for position `n`. -/
def bodySlot (a : Alternative) (n : Nat) : Slot :=
  .body ⟨a.headId, n, [], false, ∅, dottedRule a.head a.names n⟩

/-- The slot for the end, which is position `n`. -/
def endSlot (a : Alternative) (n : Nat) : Slot :=
  .done ⟨a.headId, a.number, dottedRule a.head a.names n⟩

end Alternative

/-- Labels a position as shared from symbol `n` on. -/
def markShared (l : Layout) (a : Alternative) (id : SlotId) (n : Nat) : Layout :=
  l.modifyBody id fun b => { b with label := sharedRule a.head a.names n }

/-- The position after `symbol`, `n` symbols into the alternative: one that an earlier alternative
has laid out, or a new one. -/
def advance (l : Layout) (a : Alternative) (current symbol : SlotId) (n : Nat) :
    SlotId × Layout :=
  match if a.share then l.sharedDest? current symbol else none with
  | some dest => (dest, l.markShared a dest n)
  | none =>
    let (dest, l) := l.push (a.bodySlot n)
    (dest, l.addTransition current ⟨symbol, dest⟩)

/-- Lays out the symbols that come after position `current`, the `n`-th of the alternative. -/
def addSymbols (a : Alternative) :
    Layout → SlotId → Nat → List Symbol → Except UndefinedNonterminal Layout
  | l, _, _, [] => .ok l
  | l, current, n, [symbol] => do
    let (symbol, l) ← l.resolve a.head symbol
    let (dest, l) := l.push (a.endSlot (n + 1))
    return l.addTransition current ⟨symbol, dest⟩
  | l, current, n, symbol :: symbols => do
    let (symbol, l) ← l.resolve a.head symbol
    let (dest, l) := l.advance a current symbol (n + 1)
    addSymbols a l dest (n + 1) symbols

/-- The slots in which the alternatives laid out so far start, and the one that those with a symbol
have in common if prefixes are shared. -/
structure Starts where
  firstSlots : List SlotId
  root : Option SlotId

/-- Lays out an alternative. -/
def addAlternative (l : Layout) (starts : Starts) (a : Alternative) (body : List Symbol) :
    Except UndefinedNonterminal (Starts × Layout) :=
  match body with
  | [] =>
    let (id, l) := l.push (a.endSlot 0)
    .ok ({ starts with firstSlots := starts.firstSlots ++ [id] }, l)
  | body =>
    match starts.root with
    | some root => do
      let l ← addSymbols a (l.markShared a root 0) root 0 body
      return (starts, l)
    | none => do
      let (root, l) := l.push (a.bodySlot 0)
      let l ← addSymbols a l root 0 body
      return (⟨starts.firstSlots ++ [root], if a.share then some root else none⟩, l)

/-- Lays out the alternatives of `head` from the `n`-th on. -/
def addAlternatives (share : Bool) (head : String) (headId : SlotId) :
    Layout → Starts → Nat → List (List Symbol) → Except UndefinedNonterminal (Starts × Layout)
  | l, starts, _, [] => .ok (starts, l)
  | l, starts, n, body :: bodies => do
    let a : Alternative := ⟨head, headId, n, body.map Symbol.label, share⟩
    let (starts, l) ← l.addAlternative starts a body
    addAlternatives share head headId l starts (n + 1) bodies

/-- Lays out all alternatives of a nonterminal. -/
def addProduction (share : Bool) (l : Layout) (p : Production) :
    Except UndefinedNonterminal Layout := do
  let (headId, l) ← l.resolve p.head (.nonterminal p.head)
  let (starts, l) ← addAlternatives share p.head headId l ⟨[], none⟩ 0 p.bodies
  return l.setFirstSlots headId starts.firstSlots

end Layout

namespace Rules

/-- The slots of a grammar, without their summaries. -/
def layout (r : Rules) : Except UndefinedNonterminal Layout :=
  r.productions.foldlM (Layout.addProduction r.sharePrefixes)
    (r.heads.foldl Layout.declare ⟨#[], []⟩)

/-- The slot graph of a grammar. It fails with the first nonterminal that has no rules. -/
def build (r : Rules) : Except UndefinedNonterminal Graph := do
  let l ← r.layout
  return ⟨Summary.fillIn l.slots, l.registry⟩

end Rules

end GeneralParser
