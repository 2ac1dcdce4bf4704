import GeneralParser.Pattern.Token

/-!
# From tokens to regular expressions

Groups that are still open are kept on a stack while the tokens are read from left to right.
-/

namespace GeneralParser.Pattern

/-- An item of an alternative. -/
inductive Item where
  /-- Only changes what a dot matches. Nothing can repeat it. -/
  | directive
  /-- A part of the expression. -/
  | part (p : Nested Expr)

/-- What an item adds to the expression. -/
def Item.nested : Item → Nested Expr
  | .directive => .leaf .empty
  | .part p => p

/-! ### Groups -/

/-- What has been read of a group so far. -/
structure Group where
  /-- The number of the group, if it has one. -/
  index : Option Nat
  /-- The finished alternatives, the last one first. -/
  branches : List (Nested Expr)
  /-- The items of the unfinished alternative, the last one first. -/
  items : List Item
  /-- Whether a dot matches line feeds. -/
  dotAll : Bool

namespace Group

/-- A group of which nothing has been read. -/
def start (index : Option Nat) (dotAll : Bool) : Group := ⟨index, [], [], dotAll⟩

/-- Adds a part at the end. -/
def push (g : Group) (p : Nested Expr) : Group := { g with items := .part p :: g.items }

/-- Changes what a dot matches from here on. -/
def direct (g : Group) (dotAll : Bool) : Group :=
  { g with items := .directive :: g.items, dotAll := dotAll }

/-- The class of a dot. -/
def dot (g : Group) : CharClass := if g.dotAll then .all else .allButNewline

/-- The unfinished alternative as it stands. -/
def branch (g : Group) : Nested Expr := .join .concat (g.items.reverse.map Item.nested)

/-- Finishes the present alternative and starts the next. -/
def nextBranch (g : Group) : Group := { g with branches := g.branch :: g.branches, items := [] }

/-- All alternatives together. -/
def contents (g : Group) : Nested Expr := .join .choose (g.branch :: g.branches).reverse

/-- The expression for the closed group. -/
def close (g : Group) : Nested Expr :=
  g.contents.wrap fun e =>
    match g.index with
    | some i => .capture i e
    | none => e

/-- Repeats the last item, if there is one that can be repeated. -/
def repeatLast? (g : Group) (least : Nat) (most : Option Nat) (greedy : Bool) : Option Group :=
  match g.items with
  | .part p :: items =>
    some { g with items := .part (p.wrap fun e => e.repeatBetween least most greedy) :: items }
  | _ => none

end Group

/-- The numbers and names that were given to groups. -/
structure Numbering where
  /-- How many groups have a number. -/
  count : Nat
  /-- The names in use. -/
  names : List (List Char)

/-- The number of the next group, if its kind has one. No two groups have the same name. -/
def Numbering.next? (n : Numbering) : GroupKind → Option (Option Nat × Numbering)
  | .plain => some (none, n)
  | .numbered => some (some n.count, { n with count := n.count + 1 })
  | .named name =>
    if name ∈ n.names then none else some (some n.count, ⟨n.count + 1, name :: n.names⟩)

/-! ### Reading -/

/-- Reads the rest of a regular expression inside the group `g`, whose enclosing groups are
`outer`, the innermost first. -/
def read? (numbering : Numbering) (g : Group) (outer : List Group) :
    List Token → Option (Nested Expr)
  | [] => if outer.isEmpty then some g.contents else none
  | .one s :: ts => read? numbering (g.push ⟨.ofClass s.value, s.depth⟩) outer ts
  | .any :: ts => read? numbering (g.push (.leaf (.ofClass g.dot))) outer ts
  | .look a :: ts => read? numbering (g.push (.leaf (.look a))) outer ts
  | .group kind dotAll :: ts =>
    (numbering.next? kind).bind fun (index, numbering) =>
      read? numbering (.start index (dotAll.getD g.dotAll)) (g :: outer) ts
  | .close :: ts =>
    match outer with
    | [] => none
    | around :: outer => read? numbering (around.push g.close) outer ts
  | .bar :: ts => read? numbering g.nextBranch outer ts
  | .repeated least most greedy :: ts =>
    (g.repeatLast? least most greedy).bind fun g => read? numbering g outer ts
  | .dotAll on :: ts => read? numbering (g.direct on) outer ts

/-- The regular expression written as `s` with its depth, if `s` is well formed. -/
def nested? (s : String) : Option (Nested Expr) :=
  (Token.ofString? s).bind (read? ⟨0, []⟩ (.start none false) [])

end GeneralParser.Pattern
