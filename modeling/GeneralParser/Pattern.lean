/-!
# Patterns

A pattern is a regular expression that is well formed, together with the way it was written, which
is its identity. What regular expressions are well formed, and what they match, is left to the
engine that runs them.
-/

namespace GeneralParser

/-- An engine that compiles regular expressions and looks for their matches. Nothing is known of it
but where a match can end. -/
class PatternEngine where
  /-- Regular expressions in the form in which they are run. -/
  Compiled : Type
  /-- Compiles a written regular expression, if it is well formed. -/
  compile? : String → Option Compiled
  /-- The end, as a byte offset, of the match that starts at the given byte of a text. The match is
  anchored there, and the whole text is its context. -/
  matchEnd? : Compiled → String → Nat → Option Nat
  /-- No match ends before it started, or inside a character. -/
  bounded {e : Compiled} {text : String} {first last : Nat} :
    matchEnd? e text first = some last → first ≤ last ∧ (⟨last⟩ : String.Pos.Raw).IsValid text

variable [PatternEngine]

/-- A well-formed written regular expression. -/
structure Pattern where
  /-- How it is written. -/
  source : String
  /-- What it is run as. -/
  compiled : PatternEngine.Compiled
  compile_eq : PatternEngine.compile? source = some compiled

namespace Pattern

/-- The pattern written as `source`, if that is well formed. -/
def ofString? (source : String) : Option Pattern :=
  match h : PatternEngine.compile? source with
  | some compiled => some ⟨source, compiled, h⟩
  | none => none

theorem ext {p q : Pattern} (h : p.source = q.source) : p = q := by
  obtain ⟨s, e, hp⟩ := p
  obtain ⟨_, f, hq⟩ := q
  subst h
  obtain rfl : e = f := Option.some.inj (hp.symm.trans hq)
  rfl

/-- Patterns are equal if they are written alike. -/
instance : DecidableEq Pattern := fun p q =>
  if h : p.source = q.source then .isTrue (ext h) else .isFalse fun e => h (congrArg source e)

/-- The end, as a byte offset, of the match that starts at byte `byte` of `text`. -/
def matchEnd? (p : Pattern) (text : String) (byte : Nat) : Option Nat :=
  PatternEngine.matchEnd? p.compiled text byte

/-- Whether the pattern matches the empty text. -/
def matchesEmpty (p : Pattern) : Bool := (p.matchEnd? "" 0).isSome

end Pattern

end GeneralParser
