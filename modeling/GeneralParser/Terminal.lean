import GeneralParser.Pattern
import GeneralParser.Text
import GeneralParser.Text.Escaped

/-!
# Terminals

A terminal is matched directly against the text. Every kind answers the same question: starting at
a character offset, how many characters does it take, if it matches there at all?
-/

namespace GeneralParser

variable [PatternEngine]

/-- What can be matched directly against the text. -/
inductive Terminal where
  /-- A single character. -/
  | char (c : Char)
  /-- A string. The empty one matches everywhere and takes nothing. -/
  | literal (s : String)
  /-- Any character in one of the inclusive ranges. -/
  | ranges (rs : List (Char × Char))
  /-- A regular expression. -/
  | pattern (p : Pattern)
  deriving DecidableEq

namespace Terminal

/-- Why a terminal cannot be made. -/
inductive Error where
  /-- A regular expression is not well formed. -/
  | malformedPattern (source : String)
  /-- A character class has no ranges. -/
  | emptyClass
  deriving DecidableEq, Repr

/-- The wording of an error. -/
def Error.message : Error → String
  | .malformedPattern source => s!"invalid regex /{source}/"
  | .emptyClass => "character class without any ranges"

/-! ### Construction -/

/-- The class of the characters from `lo` to `hi`. -/
def range (lo hi : Char) : Terminal := .ranges [(lo, hi)]

/-- The class of the characters in any of the ranges, of which there has to be one. -/
def ofRanges (rs : List (Char × Char)) : Except Error Terminal :=
  if rs.isEmpty then .error .emptyClass else .ok (.ranges rs)

/-- The terminal for a written regular expression. -/
def ofPattern (source : String) : Except Error Terminal :=
  match Pattern.ofString? source with
  | some p => .ok (.pattern p)
  | none => .error (.malformedPattern source)

/-! ### Matching -/

/-- How many characters of `t` the terminal takes at offset `i`, if it matches there. -/
def matchAt (t : Text) (i : Nat) : Terminal → Except Fault (Option Nat)
  | .char c => .ok (if t.char? i = some c then some 1 else none)
  | .literal s => do return if ← t.continuesWith i s then some s.length else none
  | .ranges rs =>
    .ok <| (t.char? i).bind fun c =>
      if rs.any fun (lo, hi) => lo ≤ c && c ≤ hi then some 1 else none
  | .pattern p => .ok do
    let first ← t.byteOffset? i
    let last ← p.matchEnd? t.string first
    let stop ← t.charOffset? last
    return stop - i

/-- Whether the terminal can match without taking a character. -/
def isNullable : Terminal → Bool
  | .char _ | .ranges _ => false
  | .literal s => s.isEmpty
  | .pattern p => p.matchesEmpty

/-! ### Labels -/

/-- A range as it is shown; one with equal ends is a single character. -/
def rangeLabel (lo hi : Char) : String :=
  if lo = hi then Escaped.leading lo else Escaped.leading lo ++ "-" ++ Escaped.leading hi

/-- How a terminal is shown. -/
def label : Terminal → String
  | .char c => "'" ++ Escaped.leading c ++ "'"
  | .literal s => if s.isEmpty then "ε" else "\"" ++ Escaped.string s ++ "\""
  | .ranges rs => "[" ++ String.join (rs.map fun (lo, hi) => rangeLabel lo hi) ++ "]"
  | .pattern p => "/" ++ p.source ++ "/"

end Terminal

end GeneralParser
