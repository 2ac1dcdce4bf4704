import GeneralParser.Failure
import GeneralParser.Statistics

/-!
# The log of a parse

What happens during a parse is recorded as a list of events, which can be shown line by line.
-/

namespace GeneralParser

variable [PatternEngine]

/-- A call as the log names it: by where it was made, or by its number if no such call existed. -/
inductive CallName where
  | made (site : CallSite)
  | unknown (id : CallId)
  deriving DecidableEq, Repr

/-- The things worth recording. -/
inductive Event where
  /-- A slot graph was built from rules. -/
  | built (slots nonterminals : Nat)
  /-- Parsing starts on a text of the given length. -/
  | parsing (length : Nat)
  /-- A descriptor was put on the agenda. -/
  | scheduled (slot : SlotId) (index : Nat)
  /-- A descriptor was handed out by the agenda. -/
  | processing (slot : SlotId) (index : Nat) (call : CallName)
  /-- A call was made. -/
  | called (call : CallName)
  /-- A call got a caller. -/
  | linked (callee caller : CallName)
  /-- An obstacle lies further on than all before. -/
  | obstructed (slot : SlotId) (index : Nat) (call : CallName)
  /-- The text was parsed. -/
  | parsed (length : Nat)
  /-- The statistics of a successful parse. -/
  | measured (s : Statistics)
  /-- The text was rejected. -/
  | rejected (o : Obstacle)
  deriving DecidableEq, Repr

/-- How important an event is. -/
inductive Event.Level where
  | trace
  | debug
  | info
  deriving DecidableEq, Repr

/-- The name of a level. -/
def Event.Level.name : Event.Level → String
  | .trace => "TRACE"
  | .debug => "DEBUG"
  | .info => "INFO"

/-- How a call is shown, with the labels of the slots in `g`. -/
def CallSite.label (g : Graph) (c : CallSite) : String := s!"[{g.label c.slot},{c.index}]"

/-- How the name of a call is shown. -/
def CallName.label (g : Graph) : CallName → String
  | .made site => site.label g
  | .unknown id => s!"NodeIndex({id})"

/-- The name of call `i`. -/
def CallGraph.name (g : CallGraph) (i : CallId) : CallName :=
  match g.site? i with
  | some site => .made site
  | none => .unknown i

namespace Event

/-- The level of an event. -/
def level : Event → Level
  | .scheduled .. | .processing .. | .called .. | .linked .. => .trace
  | .built .. | .obstructed .. | .measured .. => .debug
  | .parsing .. | .parsed .. | .rejected .. => .info

/-- The wording of an event, with the labels of the slots in `g`. -/
def message (g : Graph) : Event → String
  | .built slots nonterminals =>
    s!"Built grammar graph with {slots} slots for {nonterminals} nonterminals"
  | .parsing length => s!"Parsing {length} characters"
  | .scheduled slot index => s!"Scheduled {g.label slot} at {index}"
  | .processing slot index call =>
    s!"Processing {g.label slot} at {index} in {call.label g}"
  | .called call => s!"Created GSS node {call.label g}"
  | .linked callee caller => s!"Added GSS edge {callee.label g} -> {caller.label g}"
  | .obstructed slot index call =>
    s!"New furthest error: {g.label slot} at {index} ({call.label g})"
  | .parsed length => s!"Parsed {length} characters"
  | .measured s => "Statistics:\n" ++ s.render
  | .rejected o => "Parse failed: " ++ o.message

/-- The line for an event in a log. -/
def line (g : Graph) (e : Event) : String := e.level.name ++ " " ++ e.message g

end Event

end GeneralParser
