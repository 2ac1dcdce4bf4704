import GeneralParser.Text.CodePoints

/-!
# Escaped characters

Terminals are shown with their characters escaped, so that a label is one visible line.
-/

namespace GeneralParser.Escaped

/-- Whether `c` is seen when it is printed. -/
def isVisible (c : Char) : Bool :=
  if c.toNat < 127 then 32 ≤ c.toNat else !CodePoints.blank.contain c

/-- Whether `c` attaches to the character before it. -/
def isExtending (c : Char) : Bool := 128 ≤ c.toNat && CodePoints.extending.contain c

/-- The code point of `c` in braces. -/
def byCode (c : Char) : String :=
  "\\u\x7b" ++ String.ofList (Nat.toDigits 16 c.toNat) ++ "\x7d"

/-- A character after another one: quotes, backslashes and the common controls have escapes of
their own, and what is not visible is given by its code. -/
def inner (c : Char) : String :=
  match c with
  | '\x00' => "\\0"
  | '\t' => "\\t"
  | '\r' => "\\r"
  | '\n' => "\\n"
  | '\'' => "\\'"
  | '"' => "\\\""
  | '\\' => "\\\\"
  | c => if isVisible c then c.toString else byCode c

/-- A character that stands first or alone: one that would attach to the text before it is given by
its code, too. -/
def leading (c : Char) : String := if isExtending c then byCode c else inner c

/-- A string. -/
def string (s : String) : String :=
  match s.toList with
  | [] => ""
  | c :: cs => leading c ++ String.join (cs.map inner)

end GeneralParser.Escaped
