import GeneralParser.Agenda
import GeneralParser.Event
import GeneralParser.Forest

/-!
# The state of a parse

A parse works on a call graph, a forest and an agenda, and remembers the furthest obstacle and the
log. The operations below are the single changes it makes to them. An operation that fails keeps
the changes it made before.
-/

namespace GeneralParser

variable [PatternEngine]

/-- The choices one can make about a parse. None of them changes which texts are parsed. -/
structure Config where
  /-- Whether alternatives are ruled out by one terminal of lookahead. -/
  lookahead : Bool := true
  /-- The order in which descriptors at one offset are handed out. -/
  order : DrainOrder := .newestFirst
  /-- The number of descriptors after which the parse is given up. -/
  maxDescriptors : Option Nat := none
  /-- Whether the only way to go on is taken at once instead of being put on the agenda. -/
  chaining : Bool := true
  deriving DecidableEq, Repr

instance : Inhabited Config := ⟨{}⟩

/-- What is to be parsed, and how. -/
structure Problem where
  graph : Graph
  text : Text
  /-- The nonterminal to parse the text as. -/
  start : SlotId
  config : Config

/-- The state of a parse. -/
structure State where
  calls : CallGraph
  forest : Forest
  agenda : Agenda
  /-- The obstacle with the largest offset; the first of several. -/
  furthest : Option Obstacle
  /-- The events so far, the newest first. -/
  log : List Event
  deriving DecidableEq

/-- The call with which a parse starts. -/
def rootCall : CallId := 0

/-- Where a parse starts. -/
def Problem.rootSite (p : Problem) : CallSite := ⟨p.start, 0⟩

/-! ### The forest -/

namespace Forest

/-- The stretch of the text under node `i`, which has to have one. -/
def span (f : Forest) (i : NodeId) : Except Failure (Nat × Nat) :=
  match f.span? i with
  | some s => .ok s
  | none => .error (.spanless i)

/-- The node that is made for arriving at `slot` after `right`, with `left` before it in the same
rule, and where its last part starts. At the end of a rule it is a nonterminal node, and after a
later symbol than the first an intermediate node. After the first symbol none is made. -/
def junction (f : Forest) (g : Graph) (slot : SlotId) (left : Option NodeId) (right : NodeId) :
    Except Failure (Option (Node × Nat)) := do
  let (pivot, stop) ← f.span right
  match ← Failure.ofGraph (g.slot slot), left with
  | .done e, none => return some (.nonterminal e.head pivot stop, pivot)
  | .done e, some l =>
    let (start, _) ← f.span l
    return some (.nonterminal e.head start stop, pivot)
  | .body _, none => return none
  | .body _, some l =>
    let (start, _) ← f.span l
    return some (.intermediate slot start stop, pivot)
  | _, _ => throw (.malformed (.wrongKind slot .body))

/-- The node for arriving at `slot` after `right`, with `left` before it in the same rule. After the
first symbol of a rule it is `right` itself. -/
def combine (f : Forest) (g : Graph) (slot : SlotId) (left : Option NodeId) (right : NodeId) :
    Except Failure NodeId × Forest :=
  match f.junction g slot left right with
  | .error e => (.error e, f)
  | .ok none => (.ok right, f)
  | .ok (some (node, pivot)) =>
    let (i, f) := f.internPacked node slot pivot left right
    (.ok i, f)

end Forest

namespace State

/-- The state before anything happened. -/
def empty (order : DrainOrder) : State := ⟨.empty, .empty, .empty order, none, []⟩

instance : Inhabited State := ⟨empty default⟩

/-- Lets the call graph change, and passes on what comes of it. -/
def onCalls {α : Type} (s : State) (change : CallGraph → α × CallGraph) : α × State :=
  match s with
  | ⟨calls, forest, agenda, furthest, log⟩ =>
    let (a, calls) := change calls
    (a, ⟨calls, forest, agenda, furthest, log⟩)

/-- Lets the forest change, and passes on what comes of it. -/
def onForest {α : Type} (s : State) (change : Forest → α × Forest) : α × State :=
  match s with
  | ⟨calls, forest, agenda, furthest, log⟩ =>
    let (a, forest) := change forest
    (a, ⟨calls, forest, agenda, furthest, log⟩)

/-- Adds an event to the log. -/
def record (s : State) (e : Event) : State := { s with log := e :: s.log }

/-! ### Descriptors -/

/-- Fails if more descriptors were seen than are allowed. -/
def checkLimit (s : State) (p : Problem) : Except Failure Unit :=
  match p.config.maxDescriptors with
  | some limit => if limit < s.agenda.size then .error (.overLimit limit) else .ok ()
  | none => .ok ()

/-- Claims a descriptor, which is then to be executed by whoever found it, and says whether it is
new. -/
def claim (s : State) (p : Problem) (d : Descriptor) : State × Except Failure Bool :=
  match s.agenda.claim d with
  | .error fault => (s, .error (.broken fault))
  | .ok (false, _) => (s, .ok false)
  | .ok (true, agenda) =>
    let s := { s with agenda }
    (s, (s.checkLimit p).map fun _ => true)

/-- Schedules a descriptor. -/
def schedule (s : State) (p : Problem) (d : Descriptor) : State × Except Failure Unit :=
  match s.agenda.schedule d with
  | .error fault => (s, .error (.broken fault))
  | .ok (false, _) => (s, .ok ())
  | .ok (true, agenda) =>
    let s := { s with agenda }.record (.scheduled d.slot d.index)
    (s, s.checkLimit p)

/-! ### Obstacles -/

/-- Takes note of an obstacle, if it lies further on than all before. -/
def obstruct (s : State) (p : Problem) (slot : SlotId) (index : Nat) (call : CallId) : State :=
  if s.furthest.any fun o => index ≤ o.index then s
  else
    let context := (s.calls.site? call).getD p.rootSite
    { s with furthest := some ⟨slot, index, context⟩ }.record
      (.obstructed slot index (s.calls.name call))

/-! ### Calls -/

/-- The call of `callee` at `index`, which is made if it is new, and whether it is. -/
def openCall (s : State) (callee : SlotId) (index : Nat) : (CallId × Bool) × State :=
  let ((call, new), s) := s.onCalls (·.call ⟨callee, index⟩)
  ((call, new), if new then s.record (.called (s.calls.name call)) else s)

/-- Adds a caller to a call, and says whether it is new. -/
def link (s : State) (call : CallId) (e : Edge) : Bool × State :=
  let (new, s) := s.onCalls (·.addEdge call e)
  (new, if new then s.record (.linked (s.calls.name call) (s.calls.name e.caller)) else s)

/-- Records that a call was completed with `node`, and says whether that is new. -/
def complete (s : State) (call : CallId) (node : NodeId) : Bool × State :=
  s.onCalls (·.addCompletion call node)

/-! ### Results -/

/-- The statistics of a parse that is in state `s`. -/
def statistics (s : State) : Statistics :=
  let c := s.forest.counts
  { descriptors := s.agenda.size
    calls := s.calls.size
    edges := s.calls.edgeCount
    terminalNodes := c.terminal
    epsilonNodes := c.epsilon
    nonterminalNodes := c.nonterminal
    intermediateNodes := c.intermediate
    packedNodes := c.packed
    ambiguousNodes := c.ambiguous }

end State

end GeneralParser
