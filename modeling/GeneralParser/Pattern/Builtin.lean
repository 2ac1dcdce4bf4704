import GeneralParser.Pattern
import GeneralParser.Pattern.Automaton.Run
import GeneralParser.Pattern.Limits
import GeneralParser.Text

/-!
# The engine of the library

Regular expressions are run as automata with preferences. Only a part of the usual notation is
understood: letters, dots, classes that list their characters, groups, choices, repetitions and
assertions, but neither properties of characters nor matching without regard to case. Nothing that
is proved of parsing depends on which expressions are understood, or on the limits they have to keep
to.
-/

namespace GeneralParser

open Text (byteSize)

namespace Automaton

/-- The end of the match that starts at byte `byte` of `text`, if a character starts there or the
text ends. -/
def matchEnd? (a : Automaton) (text : String) (byte : Nat) : Option Nat :=
  match Text.splitBytes? byte text.toList with
  | none => none
  | some (front, back) => a.run [a.start] front.getLast? byte none back

/-- A run ends with what was found before, or after some of the characters that it runs over. -/
theorem run_eq_some {a : Automaton} {starts : List Nat} {before : Option Char} {byte last : Nat}
    {found : Option Nat} {rest : List Char} (h : a.run starts before byte found rest = some last) :
    found = some last ∨ ∃ k, last = byte + byteSize (rest.take k) := by
  induction rest generalizing starts before byte found with
  | nil =>
    rw [run] at h
    split at h
    · exact Or.inr ⟨0, by simpa using h.symm⟩
    · exact Or.inl h
  | cons c rest ih =>
    rw [run] at h
    have hfound {nodes : List Node}
        (h : (if nodes.contains .accept then some byte else found) = some last) :
        found = some last ∨ ∃ k, last = byte + byteSize ((c :: rest).take k) := by
      split at h
      · exact Or.inr ⟨0, by simpa using h.symm⟩
      · exact Or.inl h
    split at h
    · exact hfound h
    · rcases ih h with h | ⟨k, h⟩
      · exact hfound h
      · refine Or.inr ⟨k + 1, ?_⟩
        rw [h, List.take_succ_cons, Text.byteSize_cons, Nat.add_assoc]

/-- The matches of automata are bounded. -/
theorem bounded_matchEnd? {a : Automaton} {text : String} {first last : Nat}
    (h : a.matchEnd? text first = some last) :
    first ≤ last ∧ (⟨last⟩ : String.Pos.Raw).IsValid text := by
  rw [matchEnd?] at h
  split at h
  · cases h
  next front back hsplit =>
    obtain ⟨hs, hfront⟩ := Text.eq_of_splitBytes? hsplit
    rcases run_eq_some h with h | ⟨k, h⟩
    · cases h
    · refine ⟨by omega, String.Pos.Raw.isValid_iff_exists_take_toList.mpr ⟨front.length + k, ?_⟩⟩
      rw [h, hs, ← hfront, ← Text.byteSize_append, List.take_length_add_append]
      rfl

end Automaton

instance PatternEngine.builtin : PatternEngine where
  Compiled := Automaton
  compile? source := (Expr.ofString? source).map .ofExpr
  matchEnd? := Automaton.matchEnd?
  bounded := Automaton.bounded_matchEnd?

end GeneralParser
