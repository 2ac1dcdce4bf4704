import GeneralParser.Pattern.Expr
import GeneralParser.Text.WhiteSpace

/-!
# Numbers and escapes

The smallest pieces of a written regular expression: counts, code points, and what a backslash
stands for.
-/

namespace GeneralParser.Pattern

/-! ### Numbers -/

/-- The value of a hexadecimal digit. -/
def hexDigit? (c : Char) : Option Nat :=
  if '0' ≤ c && c ≤ '9' then some (c.toNat - '0'.toNat)
  else if 'a' ≤ c && c ≤ 'f' then some (c.toNat - 'a'.toNat + 10)
  else if 'A' ≤ c && c ≤ 'F' then some (c.toNat - 'A'.toNat + 10)
  else none

/-- The character with code point `n`, if there is one. -/
def charOfCode? (n : Nat) : Option Char :=
  if h : n.isValidChar then some (Char.ofNatAux n h) else none

/-- Reads exactly `count` hexadecimal digits after the value `n`. -/
def fixedHex? (n : Nat) : Nat → List Char → Option (Nat × List Char)
  | 0, cs => some (n, cs)
  | _ + 1, [] => none
  | count + 1, c :: cs => (hexDigit? c).bind fun d => fixedHex? (16 * n + d) count cs

/-- Reads hexadecimal digits up to a closing brace; `n` is the value so far, if any digit was
read. -/
def bracedHex? (n : Option Nat) : List Char → Option (Nat × List Char)
  | [] => none
  | '\x7d' :: cs => n.map fun n => (n, cs)
  | c :: cs => (hexDigit? c).bind fun d => bracedHex? (some (16 * n.getD 0 + d)) cs

/-- Reads the code point of a character: in braces, or as exactly `count` digits. -/
def charCode? (count : Nat) : List Char → Option (Char × List Char)
  | '\x7b' :: cs => (bracedHex? none cs).bind fun (n, cs) => (charOfCode? n).map fun c => (c, cs)
  | cs => (fixedHex? 0 count cs).bind fun (n, cs) => (charOfCode? n).map fun c => (c, cs)

/-- Reads decimal digits; `n` is the value so far, if any digit was read. -/
def decimal (n : Option Nat) : List Char → Option Nat × List Char
  | [] => (n, [])
  | c :: cs =>
    if c.isDigit then decimal (some (10 * n.getD 0 + (c.toNat - '0'.toNat))) cs else (n, c :: cs)

/-- Reads a decimal number with white space around it. Counts have to fit into 32 bits. -/
def count? (cs : List Char) : Option (Nat × List Char) :=
  match decimal none (cs.dropWhile isWhiteSpace) with
  | (some n, cs) => if n < UInt32.size then some (n, cs.dropWhile isWhiteSpace) else none
  | (none, _) => none

/-! ### Escapes -/

/-- What a backslash with what follows it stands for. -/
inductive Escape where
  /-- A character. -/
  | char (c : Char)
  /-- An assertion. -/
  | look (a : Assertion)
  deriving DecidableEq, Repr

/-- Whether a backslash before `c` makes it an ordinary character: so it is with every ASCII
character but letters, digits and angle brackets. -/
def isEscapable (c : Char) : Bool := c.toNat < 128 && !c.isAlphanum && c != '<' && c != '>'

/-- Reads what follows a backslash. -/
def escape? : List Char → Option (Escape × List Char)
  | [] => none
  | c :: cs =>
    let code (count : Nat) := (charCode? count cs).map fun (c, cs) => (Escape.char c, cs)
    if isEscapable c then some (.char c, cs) else
    match c with
    | 'x' => code 2
    | 'u' => code 4
    | 'U' => code 8
    | 'a' => some (.char '\x07', cs)
    | 'f' => some (.char '\x0c', cs)
    | 'n' => some (.char '\n', cs)
    | 'r' => some (.char '\r', cs)
    | 't' => some (.char '\t', cs)
    | 'v' => some (.char '\x0b', cs)
    | 'b' => some (.look .wordBoundary, cs)
    | 'B' => some (.look .noWordBoundary, cs)
    | 'A' => some (.look .textStart, cs)
    | 'z' => some (.look .textEnd, cs)
    | _ => none

end GeneralParser.Pattern
