import GeneralParser.Pattern.Escape
import GeneralParser.Pattern.Nested

/-!
# Bracketed classes

Brackets hold single characters, ranges, named classes and further brackets, and operators between
them. Brackets that are still open are kept on a stack while the characters are read from left to
right.
-/

namespace GeneralParser.Pattern

/-! ### Items -/

/-- Reads one character of a class: an escaped character, or any other as it stands. -/
def classChar? : List Char → Option (Char × List Char)
  | [] => none
  | '\\' :: cs =>
    match escape? cs with
    | some (.char c, cs) => some (c, cs)
    | _ => none
  | c :: cs => some (c, cs)

/-- Reads one character or one range of a class. A hyphen is no range before a closing bracket or
another hyphen. -/
def classItem? (cs : List Char) : Option (CharClass × List Char) :=
  (classChar? cs).bind fun (lo, cs) =>
    match cs with
    | '-' :: ']' :: _ | '-' :: '-' :: _ => some (.one lo, cs)
    | '-' :: cs =>
      (classChar? cs).bind fun (hi, cs) => if lo ≤ hi then some (⟨[(lo, hi)]⟩, cs) else none
    | _ => some (.one lo, cs)

/-- The class with a name, which holds ASCII characters only. -/
def classNamed? (name : String) : Option CharClass :=
  match name with
  | "alnum" => some (.ofRanges [('0', '9'), ('A', 'Z'), ('a', 'z')])
  | "alpha" => some (.ofRanges [('A', 'Z'), ('a', 'z')])
  | "ascii" => some (.ofRanges [('\x00', '\x7f')])
  | "blank" => some (.ofRanges [('\t', '\t'), (' ', ' ')])
  | "cntrl" => some (.ofRanges [('\x00', '\x1f'), ('\x7f', '\x7f')])
  | "digit" => some (.ofRanges [('0', '9')])
  | "graph" => some (.ofRanges [('!', '~')])
  | "lower" => some (.ofRanges [('a', 'z')])
  | "print" => some (.ofRanges [(' ', '~')])
  | "punct" => some (.ofRanges [('!', '/'), (':', '@'), ('[', '\x60'), ('\x7b', '~')])
  | "space" => some (.ofRanges [('\t', '\r'), (' ', ' ')])
  | "upper" => some (.ofRanges [('A', 'Z')])
  | "word" => some (.ofRanges [('0', '9'), ('A', 'Z'), ('_', '_'), ('a', 'z')])
  | "xdigit" => some (.ofRanges [('0', '9'), ('A', 'F'), ('a', 'f')])
  | _ => none

/-- Reads the name of a class, or of its complement, after the opening bracket of the name. -/
def namedClass? : List Char → Option (CharClass × List Char)
  | ':' :: cs =>
    let (negated, cs) := match cs with
      | '^' :: cs => (true, cs)
      | cs => (false, cs)
    match cs.dropWhile (· ≠ ':') with
    | ':' :: ']' :: rest =>
      (classNamed? (String.ofList (cs.takeWhile (· ≠ ':')))).map fun s =>
        (if negated then s.compl else s, rest)
    | _ => none
  | _ => none

/-! ### Brackets -/

/-- The operators between the contents of brackets. All bind alike, from left to right. -/
inductive SetOperator where
  | inter
  | diff
  | symmDiff
  deriving DecidableEq, Repr

/-- The class that an operator makes of two. -/
def SetOperator.apply : SetOperator → CharClass → CharClass → CharClass
  | .inter => .inter
  | .diff => .diff
  | .symmDiff => .symmDiff

/-- What has been read of brackets so far. -/
structure Bracket where
  /-- Whether the complement is meant. -/
  negated : Bool
  /-- The last operator, and what stands before it. -/
  left : Option (SetOperator × Nested CharClass)
  /-- The items after the last operator, the last one first. -/
  items : List (Nested CharClass)

namespace Bracket

/-- Adds an item at the end. -/
def push (b : Bracket) (s : Nested CharClass) : Bracket := { b with items := s :: b.items }

/-- The contents so far. -/
def contents (b : Bracket) : Nested CharClass :=
  let right := Nested.join .unionAll b.items.reverse
  match b.left with
  | none => right
  | some (op, left) => ⟨op.apply left.value right.value, max left.depth right.depth + 1⟩

/-- Goes on behind an operator. -/
def operate (b : Bracket) (op : SetOperator) : Bracket :=
  { b with left := some (op, b.contents), items := [] }

/-- The class of closed brackets. -/
def close (b : Bracket) : Nested CharClass :=
  b.contents.wrap fun s => if b.negated then s.compl else s

/-- Reads what is special after an opening bracket. Hyphens stand for themselves there, and so does
a closing bracket if no hyphen precedes it; brackets are therefore never empty. -/
def start (cs : List Char) : Bracket × List Char :=
  let (negated, cs) := match cs with
    | '^' :: cs => (true, cs)
    | cs => (false, cs)
  let hyphens := (cs.takeWhile (· = '-')).map fun c => Nested.leaf (CharClass.one c)
  match hyphens, cs.dropWhile (· = '-') with
  | [], ']' :: cs => (⟨negated, none, [.leaf (.one ']')]⟩, cs)
  | hyphens, cs => (⟨negated, none, hyphens⟩, cs)

/-- Reads the rest of the brackets `b`, which stand inside those of `outer`, the innermost first.
Each step takes a character, so their number is a bound. -/
def read? (b : Bracket) (outer : List Bracket) : Nat → List Char →
    Option (Nested CharClass × List Char)
  | 0, _ => none
  | steps + 1, cs =>
    match cs with
    | ']' :: cs =>
      match outer with
      | [] => some (b.close, cs)
      | around :: outer => read? (around.push b.close) outer steps cs
    | '&' :: '&' :: cs => read? (b.operate .inter) outer steps cs
    | '-' :: '-' :: cs => read? (b.operate .diff) outer steps cs
    | '~' :: '~' :: cs => read? (b.operate .symmDiff) outer steps cs
    | '[' :: cs =>
      match namedClass? cs with
      | some (s, cs) => read? (b.push (.leaf s)) outer steps cs
      | none =>
        let (inner, cs) := start cs
        read? inner (b :: outer) steps cs
    | cs => (classItem? cs).bind fun (s, cs) => read? (b.push (.leaf s)) outer steps cs

end Bracket

/-- Reads a class after its opening bracket. -/
def class? (cs : List Char) : Option (Nested CharClass × List Char) :=
  let (b, cs) := Bracket.start cs
  b.read? [] (cs.length + 1) cs

end GeneralParser.Pattern
