import GeneralParser.Pattern.Tree

/-!
# Limits on regular expressions

A regular expression has to stay within two bounds. Its written form may only be nested so deeply,
and the automata over the bytes of UTF-8 that it amounts to, one for either reading direction, may
only take so much storage. Repetitions count as often as they are repeated, so the second bound
keeps short expressions from growing beyond measure.
-/

namespace GeneralParser

/-! ### Weights -/

/-- The direction in which an automaton reads a text. -/
inductive Direction where
  | forward
  | backward
  deriving DecidableEq, Repr

/-- What a class adds for the characters from `lo` to `hi`. A range of ASCII characters takes one
step. All other characters together take ten steps forward, where their last bytes are shared, and
every step of their eight shapes backward; a part of them is taken to be of one shape. -/
def Direction.rangeWeight (d : Direction) (lo hi : Char) : Nat :=
  let ascii := if lo.toNat < 128 then 1 else 0
  let others := if 128 ≤ hi.toNat then 1 else 0
  let whole := lo.toNat ≤ 128 && hi = CharClass.last
  match d with
  | .forward => 8 * ascii + others * (if whole then 344 else 40 * hi.utf8Size - 32)
  | .backward => 36 * ascii + others * (if whole then 864 else 32 * hi.utf8Size + 4)

/-- The storage for a class, in bytes. ASCII characters need only one node. -/
def Direction.classWeight (d : Direction) (s : CharClass) : Nat :=
  if s.ranges.all fun (_, hi) => hi.toNat < 128 then 64 + 8 * s.ranges.length
  else s.ranges.foldl (fun weight (lo, hi) => weight + d.rangeWeight lo hi) 64

/-- The storage for the ends of a group with a number, which only matter forward. -/
def Direction.captureWeight : Direction → Nat
  | .forward => 64
  | .backward => 0

/-- The storage for what every automaton has. -/
def Direction.fixedWeight : Direction → Nat
  | .forward => 208
  | .backward => 144

namespace Expr

/-- The storage for an expression, in bytes: 32 for a node, 4 more for each branch of a choice. -/
def weight (d : Direction) : Expr → Nat
  | .empty | .look _ => 32
  | .literal cs => 32 * (String.ofList cs).utf8ByteSize
  | .one s => d.classWeight s
  | .capture _ e => e.weight d + d.captureWeight
  | .seq e f => e.weight d + f.weight d
  | .alt e f =>
    match f with
    | .alt .. => e.weight d + 4 + f.weight d
    | _ => e.weight d + 4 + (f.weight d + 4) + 64
  | .repeated e 0 (some 1) _ => e.weight d + 72
  | .repeated e least (some most) _ =>
    (if least = 0 then 32 else least * e.weight d) +
      if least = most then 0 else (most - least) * (e.weight d + 40) + 32
  | .repeated e 0 none _ => e.weight d + if e.isProgressing then 40 else 112
  | .repeated e (least + 1) none _ => (least + 1) * e.weight d + 40

/-- The greatest depth of the written form. -/
def depthLimit : Nat := 250

/-- The most storage that an automaton may take, in bytes. -/
def weightLimit : Nat := 10 * 1024 * 1024

/-- Whether the expression stays within the bound on storage in both directions. -/
def isLight (e : Expr) : Bool :=
  [Direction.forward, .backward].all fun d => d.fixedWeight + e.weight d ≤ weightLimit

/-- The regular expression written as `s`, if `s` is well formed and within the limits. -/
def ofString? (s : String) : Option Expr :=
  (Pattern.nested? s).bind fun p =>
    if p.depth ≤ depthLimit && p.value.isLight then some p.value else none

end Expr

end GeneralParser
