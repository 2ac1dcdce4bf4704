import GeneralParser.Engine.Run
import GeneralParser.Pattern.Builtin

/-!
# Parsing

The entry point: from a slot graph, a text and the name of a start symbol to the forest of all
derivations of the text.
-/

namespace GeneralParser

variable [PatternEngine]

/-- The result of a parse, with what happened on the way. -/
structure Report where
  result : Except Failure Success
  /-- The events, the oldest first. -/
  log : List Event

/-- Parses a text as the nonterminal called `start`. The graph is validated first, so malformed
graphs fail before anything else happens. -/
def parseReport (g : Graph) (t : Text) (start : String) (config : Config) : Report :=
  match g.validate with
  | .error e => ⟨.error (.malformed e), []⟩
  | .ok () =>
    match g.nonterminal? start with
    | none => ⟨.error (.unknownStart start), []⟩
    | some id =>
      let (s, result) := Problem.solve ⟨g, t, id, config⟩
      ⟨result, .parsing t.length :: s.log.reverse⟩

/-- Parses a text as the nonterminal called `start`. -/
def parse (g : Graph) (t : Text) (start : String) (config : Config) : Except Failure Success :=
  (parseReport g t start config).result

end GeneralParser
