import GeneralParser.Duration

/-!
# Statistics of a parse
-/

namespace GeneralParser

/-- How much work a parse was and how large its forest became. -/
structure Statistics where
  descriptors : Nat
  calls : Nat
  edges : Nat
  terminalNodes : Nat
  epsilonNodes : Nat
  nonterminalNodes : Nat
  intermediateNodes : Nat
  packedNodes : Nat
  ambiguousNodes : Nat
  deriving DecidableEq, Repr

namespace Statistics

/-- The counts, one to a line. -/
def lines (s : Statistics) : List String :=
  [s!"Descriptors:         {s.descriptors}",
   s!"GSS nodes:           {s.calls}",
   s!"GSS edges:           {s.edges}",
   s!"Terminal nodes:      {s.terminalNodes}",
   s!"Epsilon nodes:       {s.epsilonNodes}",
   s!"Nonterminal nodes:   {s.nonterminalNodes}",
   s!"Intermediate nodes:  {s.intermediateNodes}",
   s!"Packed nodes:        {s.packedNodes}",
   s!"Ambiguous nodes:     {s.ambiguousNodes}"]

/-- The counts as one text. -/
def render (s : Statistics) : String := "\n".intercalate s.lines

/-- The counts of a parse that took the time `d`, as one text. -/
def renderTimed (s : Statistics) (d : Duration) : String :=
  s!"Parse time:          {d.render}" ++ "\n" ++ s.render

end Statistics

end GeneralParser
