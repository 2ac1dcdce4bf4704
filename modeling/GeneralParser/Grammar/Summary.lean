import GeneralParser.Grammar.Slot

/-!
# Nullable slots and first sets

Which slots derive the empty string, and with which terminals what they derive can start. Both are
computed together, from below: the slots are summarised one after the other, each from what is
known so far, until a round changes nothing.
-/

namespace GeneralParser

variable [PatternEngine]

/-- What is known about what a slot derives. -/
structure Summary where
  /-- Whether it derives the empty string. -/
  nullable : Bool
  /-- The terminals it can start with. -/
  first : SlotSet
  deriving DecidableEq

namespace Summary

/-- The summary of a slot about which nothing is known. -/
def bottom : Summary := ⟨false, ∅⟩

instance : Inhabited Summary := ⟨bottom⟩

/-- What slot `id` says by itself, without looking at other slots. -/
def initial (id : SlotId) : Slot → Summary
  | .terminal s => ⟨s.terminal.isNullable, SlotSet.ofList [id]⟩
  | .done _ => ⟨true, ∅⟩
  | .nonterminal _ | .body _ => bottom

/-- What is known about slot `id`. -/
def known (table : Array Summary) (id : SlotId) : Summary := table[id]?.getD bottom

/-- One or the other. -/
def either (s t : Summary) : Summary := ⟨s.nullable || t.nullable, s.first.union t.first⟩

/-- One after the other. -/
def andThen (s t : Summary) : Summary :=
  if s.nullable then ⟨t.nullable, s.first.union t.first⟩ else s

/-- What follows for a slot from what is known about the slots it refers to. -/
def derived (table : Array Summary) : Slot → Option Summary
  | .nonterminal s => some ((s.firstSlots.map (known table)).foldl either bottom)
  | .body s =>
    let through (t : Transition) := (known table t.symbol).andThen (known table t.dest)
    some ((s.transitions.map through).foldl either bottom)
  | .terminal _ | .done _ => none

/-- Whether two summaries differ in being nullable or in the number of their terminals. -/
def differs (s t : Summary) : Bool := s.nullable != t.nullable || s.first.size != t.first.size

/-- Summarises slot `id` once more, and says whether that changed anything. -/
def improve (slots : Array Slot) (table : Array Summary) (id : SlotId) : Bool × Array Summary :=
  match slots[id]?.bind (derived table) with
  | some s =>
    if s.differs (known table id) then (true, table.setIfInBounds id s) else (false, table)
  | none => (false, table)

/-- Summarises the slots `ids` once more, one after the other, and says whether that changed
anything. -/
def round (slots : Array Slot) (table : Array Summary) : List SlotId → Bool × Array Summary
  | [] => (false, table)
  | id :: ids =>
    let (here, table) := improve slots table id
    let (later, table) := round slots table ids
    (here || later, table)

/-- Rounds until nothing changes, at most `fuel` of them. -/
def rounds (slots : Array Slot) : Nat → Array Summary → Array Summary
  | 0, table => table
  | fuel + 1, table =>
    match round slots table (List.range slots.size) with
    | (true, table) => rounds slots fuel table
    | (false, table) => table

/-- The summaries of all slots. Every round but the last makes a slot nullable or adds a terminal to
a first set, which bounds their number. -/
def table (slots : Array Slot) : Array Summary :=
  rounds slots (slots.size * (slots.size + 1) + 1) (slots.mapIdx initial)

end Summary

/-- The slot with its summary filled in. -/
def Slot.withSummary (s : Summary) : Slot → Slot
  | .nonterminal n => .nonterminal { n with nullable := s.nullable, first := s.first }
  | .body b => .body { b with nullable := s.nullable, first := s.first }
  | .terminal t => .terminal t
  | .done e => .done e

/-- All slots with their summaries filled in. -/
def Summary.fillIn (slots : Array Slot) : Array Slot :=
  let table := Summary.table slots
  slots.mapIdx fun id s => s.withSummary (Summary.known table id)

end GeneralParser
