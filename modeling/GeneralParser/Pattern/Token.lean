import GeneralParser.Pattern.Bracket

/-!
# Tokens of a regular expression

The written form of a regular expression is first cut into tokens. What a token means does not
depend on its neighbours, except that the class of a dot depends on the group it stands in.
-/

namespace GeneralParser.Pattern

/-- How a group is kept apart from others. -/
inductive GroupKind where
  /-- It only holds its contents together. -/
  | plain
  /-- It has a number. -/
  | numbered
  /-- It has a number and a name. -/
  | named (name : List Char)
  deriving DecidableEq, Repr

/-- The tokens of a regular expression. -/
inductive Token where
  /-- One character of a class. -/
  | one (s : Nested CharClass)
  /-- A dot. -/
  | any
  /-- An assertion. -/
  | look (a : Assertion)
  /-- The start of a group; `dotAll` is set if the group decides what a dot matches. -/
  | group (kind : GroupKind) (dotAll : Option Bool)
  /-- The end of a group. -/
  | close
  /-- The bar between two alternatives. -/
  | bar
  /-- A repetition of what stands before it. -/
  | repeated (least : Nat) (most : Option Nat) (greedy : Bool)
  /-- From here to the end of the group, dots match line feeds or not. -/
  | dotAll (on : Bool)

/-! ### Groups and repetitions -/

/-- Whether `c` may start the name of a group. Names are made of ASCII characters. -/
def isNameStart (c : Char) : Bool := c.isAlpha || c = '_'

/-- Whether `c` may stand in the name of a group, but for its start. -/
def isNamePart (c : Char) : Bool := c.isAlphanum || c = '_' || c = '.' || c = '[' || c = ']'

/-- Reads the name of a group up to the closing angle bracket. -/
def groupNamed? : List Char → Option (Token × List Char)
  | [] => none
  | c :: cs =>
    if isNameStart c then
      match cs.dropWhile isNamePart with
      | '>' :: rest => some (.group (.named (c :: cs.takeWhile isNamePart)) none, rest)
      | _ => none
    else none

/-- Reads what follows an opening parenthesis. -/
def group? : List Char → Option (Token × List Char)
  | '?' :: ':' :: cs => some (.group .plain none, cs)
  | '?' :: 's' :: ')' :: cs => some (.dotAll true, cs)
  | '?' :: '-' :: 's' :: ')' :: cs => some (.dotAll false, cs)
  | '?' :: 's' :: ':' :: cs => some (.group .plain (some true), cs)
  | '?' :: '-' :: 's' :: ':' :: cs => some (.group .plain (some false), cs)
  | '?' :: 'P' :: '<' :: cs => groupNamed? cs
  | '?' :: '<' :: cs => groupNamed? cs
  | '?' :: _ => none
  | cs => some (.group .numbered none, cs)

/-- A repetition, lazy if a question mark follows. -/
def lazily (least : Nat) (most : Option Nat) : List Char → Token × List Char
  | '?' :: cs => (.repeated least most false, cs)
  | cs => (.repeated least most true, cs)

/-- Reads a counted repetition after its opening brace. -/
def counted? (cs : List Char) : Option (Token × List Char) :=
  (count? cs).bind fun (least, cs) =>
    match cs with
    | '\x7d' :: cs => some (lazily least (some least) cs)
    | ',' :: '\x7d' :: cs => some (lazily least none cs)
    | ',' :: cs => (count? cs).bind fun (most, cs) =>
      match cs with
      | '\x7d' :: cs => if least ≤ most then some (lazily least (some most) cs) else none
      | _ => none
    | _ => none

/-! ### The whole -/

/-- Reads the token that starts with `c` and goes on with `cs`. -/
def token? (c : Char) (cs : List Char) : Option (Token × List Char) :=
  match c with
  | '\\' => (escape? cs).map fun
    | (.char c, cs) => (.one (.leaf (.one c)), cs)
    | (.look a, cs) => (.look a, cs)
  | '.' => some (.any, cs)
  | '^' => some (.look .textStart, cs)
  | '$' => some (.look .textEnd, cs)
  | '|' => some (.bar, cs)
  | '(' => group? cs
  | ')' => some (.close, cs)
  | '[' => (class? cs).map fun (s, cs) => (.one s, cs)
  | '*' => some (lazily 0 none cs)
  | '+' => some (lazily 1 none cs)
  | '?' => some (lazily 0 (some 1) cs)
  | '\x7b' => counted? cs
  | c => some (.one (.leaf (.one c)), cs)

/-- The tokens of `cs`. Every token takes at least one character, so their number is a bound. -/
def tokens? : Nat → List Char → Option (List Token)
  | _, [] => some []
  | 0, _ :: _ => none
  | fuel + 1, c :: cs => do
    let (token, rest) ← token? c cs
    return token :: (← tokens? fuel rest)

/-- The tokens of a written regular expression, if it is well formed token by token. -/
def Token.ofString? (s : String) : Option (List Token) := tokens? s.length s.toList

end GeneralParser.Pattern
