/-!
# Character classes

A class is a set of characters, kept as inclusive ranges. They are in ascending order and no two of
them overlap or touch, so that classes with the same characters are equal.
-/

namespace GeneralParser

/-- A set of characters, as ascending ranges with gaps between them. -/
structure CharClass where
  ranges : List (Char × Char)
  deriving DecidableEq, Repr

namespace CharClass

/-- Whether `c` is in the class. -/
def contains (s : CharClass) (c : Char) : Bool := s.ranges.any fun (lo, hi) => lo ≤ c && c ≤ hi

/-! ### Construction -/

/-- No character. -/
def none : CharClass := ⟨[]⟩

/-- Just the character `c`. -/
def one (c : Char) : CharClass := ⟨[(c, c)]⟩

/-- Adds the characters from `lo` to `hi` to ascending ranges. Ranges that overlap or touch become
one. -/
def insertRange (lo hi : Char) : List (Char × Char) → List (Char × Char)
  | [] => [(lo, hi)]
  | (a, b) :: rest =>
    if hi.toNat + 1 < a.toNat then (lo, hi) :: (a, b) :: rest
    else if b.toNat + 1 < lo.toNat then (a, b) :: insertRange lo hi rest
    else insertRange (if a < lo then a else lo) (if hi < b then b else hi) rest

/-- The characters in any of the ranges, which may come in any order. -/
def ofRanges (rs : List (Char × Char)) : CharClass :=
  ⟨rs.foldr (fun (lo, hi) ranges => insertRange lo hi ranges) []⟩

/-! ### Operations -/

/-- The characters in either class. -/
def union (s t : CharClass) : CharClass := ofRanges (s.ranges ++ t.ranges)

/-- The characters in any of the classes. -/
def unionAll (ss : List CharClass) : CharClass := ofRanges (ss.flatMap ranges)

/-- The last character. -/
def last : Char := .ofNat 0x10ffff

/-- The character before `c`, which is not the first one. -/
def before (c : Char) : Char := if c = '\ue000' then '\ud7ff' else .ofNat (c.toNat - 1)

/-- The gaps of ascending ranges from the character `lo` on, if there is such a character. -/
def gaps : Option Char → List (Char × Char) → List (Char × Char)
  | .none, _ => []
  | some lo, [] => [(lo, last)]
  | some lo, (a, b) :: rest =>
    if lo < a then (lo, before a) :: gaps b.succ? rest else gaps b.succ? rest

/-- The characters that are not in the class. -/
def compl (s : CharClass) : CharClass := ⟨gaps (some '\x00') s.ranges⟩

/-- Every character. -/
def all : CharClass := none.compl

/-- Every character but a line feed. -/
def allButNewline : CharClass := (one '\n').compl

/-- The characters in both classes. -/
def inter (s t : CharClass) : CharClass := (s.compl.union t.compl).compl

/-- The characters in `s` but not in `t`. -/
def diff (s t : CharClass) : CharClass := s.inter t.compl

/-- The characters in exactly one of the classes. -/
def symmDiff (s t : CharClass) : CharClass := (s.diff t).union (t.diff s)

/-! ### Small classes -/

/-- Whether the class has no character. -/
def isNone (s : CharClass) : Bool := s.ranges.isEmpty

/-- The character of a class that has only one. -/
def single? (s : CharClass) : Option Char :=
  match s.ranges with
  | [(lo, hi)] => if lo = hi then some lo else .none
  | _ => .none

end CharClass

end GeneralParser
