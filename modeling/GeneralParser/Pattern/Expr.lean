import GeneralParser.Pattern.CharClass
import GeneralParser.Text.WordChar

/-!
# Regular expressions

The abstract form of a regular expression. Alternatives and repetitions are ordered: the earlier
branch of a choice, and for a greedy repetition the longer one, is preferred. Expressions are built
by functions that simplify where the simpler form is evident: concatenations and choices are flat,
neighbouring characters form one string, single characters to choose from form a class, and what all
branches of a choice start with stands before it.
-/

namespace GeneralParser

/-- A condition on a place in a text. -/
inductive Assertion where
  /-- Nothing comes before. -/
  | textStart
  /-- Nothing comes after. -/
  | textEnd
  /-- Exactly one of the neighbours is a word character. -/
  | wordBoundary
  /-- Both neighbours or neither are word characters. -/
  | noWordBoundary
  deriving DecidableEq, Repr

/-- Whether the assertion holds between `before` and `after`. -/
def Assertion.holds (before after : Option Char) : Assertion → Bool
  | .textStart => before.isNone
  | .textEnd => after.isNone
  | .wordBoundary => before.any isWordChar != after.any isWordChar
  | .noWordBoundary => before.any isWordChar == after.any isWordChar

/-- Regular expressions. Concatenations and choices of more than two associate to the right. -/
inductive Expr where
  /-- Matches the empty string. -/
  | empty
  /-- Matches a string, which is not empty. -/
  | literal (cs : List Char)
  /-- Matches one character of a class. -/
  | one (s : CharClass)
  /-- Matches the empty string where the assertion holds. -/
  | look (a : Assertion)
  /-- A group with a number of its own, so that no two groups are equal. -/
  | capture (index : Nat) (e : Expr)
  /-- At least `least` times and, if `most` is given, at most `most` times. -/
  | repeated (e : Expr) (least : Nat) (most : Option Nat) (greedy : Bool)
  /-- One after the other. -/
  | seq (e f : Expr)
  /-- Either, preferring the first. -/
  | alt (e f : Expr)
  deriving DecidableEq, Repr

namespace Expr

/-! ### Lengths -/

/-- The least number of characters in a match. An expression with an empty class has none. -/
def minLength? : Expr → Option Nat
  | .empty | .look _ => some 0
  | .literal cs => some cs.length
  | .one s => if s.isNone then none else some 1
  | .capture _ e => e.minLength?
  | .repeated e least _ _ => e.minLength?.map (least * ·)
  | .seq e f => return (← e.minLength?) + (← f.minLength?)
  | .alt e f => return min (← e.minLength?) (← f.minLength?)

/-- The greatest number of characters in a match, if there is one. -/
def maxLength? : Expr → Option Nat
  | .empty | .look _ => some 0
  | .literal cs => some cs.length
  | .one s => if s.isNone then none else some 1
  | .capture _ e => e.maxLength?
  | .repeated e _ most _ => return (← most) * (← e.maxLength?)
  | .seq e f => return (← e.maxLength?) + (← f.maxLength?)
  | .alt e f => return max (← e.maxLength?) (← f.maxLength?)

/-- Whether every match takes a character. -/
def isProgressing (e : Expr) : Bool := e.minLength?.any (0 < ·)

/-! ### Construction -/

/-- One character of the class `s`. -/
def ofClass (s : CharClass) : Expr :=
  match s.single? with
  | some c => .literal [c]
  | none => .one s

/-- The repetition of `e`. What takes no character needs no more than one round. -/
def repeatBetween (e : Expr) (least : Nat) (most : Option Nat) (greedy : Bool) : Expr :=
  let (least, most) := if e.maxLength? = some 0 then (min least 1, some (min (most.getD 1) 1))
    else (least, most)
  if most = some 0 then .empty
  else if least = 1 && most = some 1 then e
  else .repeated e least most greedy

/-- The parts of a concatenation; any other expression is its only part. -/
def factors : Expr → List Expr
  | .empty => []
  | .seq e f => e :: f.factors
  | e => [e]

/-- Puts a part before a list of parts; a string joins with a string after it. -/
def consFactor : Expr → List Expr → List Expr
  | .literal cs, .literal ds :: es => .literal (cs ++ ds) :: es
  | e, es => e :: es

/-- The concatenation of parts. -/
def ofFactors : List Expr → Expr
  | [] => .empty
  | [e] => e
  | e :: es => .seq e (ofFactors es)

/-- The concatenation of expressions. -/
def concat (es : List Expr) : Expr := ofFactors ((es.flatMap factors).foldr consFactor [])

/-- The branches of a choice; any other expression is its only branch. -/
def branches : Expr → List Expr
  | .alt e f => e :: f.branches
  | e => [e]

/-- The choice between branches. -/
def ofBranches : List Expr → Expr
  | [] => .one .none
  | [e] => e
  | e :: es => .alt e (ofBranches es)

/-- The only character that can be matched. -/
def char? : Expr → Option Char
  | .literal [c] => some c
  | _ => none

/-- The class of an expression that is one. -/
def class? : Expr → Option CharClass
  | .one s => some s
  | _ => none

/-- The class that is chosen from, if all branches are single characters or all are classes. -/
def commonClass? (es : List Expr) : Option CharClass :=
  match es.mapM char? with
  | some cs => some (.ofRanges (cs.map fun c => (c, c)))
  | none => (es.mapM class?).map .unionAll

/-- What both lists start with. -/
def commonStart : List Expr → List Expr → List Expr
  | e :: es, f :: fs => if e = f then e :: commonStart es fs else []
  | _, _ => []

/-- The parts that all branches start with, if all are concatenations. -/
def commonFactors : List Expr → List Expr
  | [] => []
  | e :: es =>
    if (e :: es).all fun e => 2 ≤ e.factors.length then (es.map factors).foldl commonStart e.factors
    else []

/-- The number of expressions in `e`. -/
def size : Expr → Nat
  | .empty | .literal _ | .one _ | .look _ => 1
  | .capture _ e | .repeated e .. => e.size + 1
  | .seq e f | .alt e f => e.size + f.size + 1

/-- The choice between expressions. Each time that common parts are set before a choice its branches
get smaller, so their size bounds the number of rounds. -/
def chooseWithin : Nat → List Expr → Expr
  | 0, es => ofBranches es
  | rounds + 1, es =>
    match es.flatMap branches with
    | [e] => e
    | es =>
      match commonClass? es with
      | some s => ofClass s
      | none =>
        match commonFactors es with
        | [] => ofBranches es
        | common =>
          let rest := es.map fun e => concat (e.factors.drop common.length)
          concat (common ++ [chooseWithin rounds rest])

/-- The choice between expressions, which prefers the earlier ones. -/
def choose (es : List Expr) : Expr := chooseWithin (ofBranches es).size es

end Expr

end GeneralParser
