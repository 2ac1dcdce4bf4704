import GeneralParser.Engine.State
import GeneralParser.Grammar.Lookahead

/-!
# The steps of a parse

Executing a descriptor falls into tasks, each of which makes at most one node or offers at most one
descriptor, and may leave further tasks. They are kept on a stack, so that what a task leaves is
done before what was to be done after it.
-/

namespace GeneralParser

variable [PatternEngine]

/-- The small steps in which a descriptor is executed. -/
inductive Task where
  /-- Go on at a descriptor. -/
  | execute (d : Descriptor)
  /-- Try an alternative of the nonterminal called in `call`, which starts in slot `first`. -/
  | enter (first : SlotId) (call : CallId) (index : Nat)
  /-- Go over a transition. It is `direct` if the descriptor behind it is to be executed at once. -/
  | cross (d : Descriptor) (t : Transition) (direct : Bool)
  /-- Arrive at `dest` after `node`, which ends at `index`. -/
  | arrive (dest : SlotId) (call : CallId) (index : Nat) (soFar : Option NodeId) (node : NodeId)
      (direct : Bool)
  deriving DecidableEq, Repr

/-- What became of a task: the state after it, and the tasks it leaves or why it failed. -/
abbrev Outcome := State × Except Failure (List Task)

namespace State

/-- Calls `callee` at `index`, to go on at `returnSlot` in `caller`. Completions that the call
already has are passed on to the new caller, and a new call is executed. -/
def call (s : State) (returnSlot callee : SlotId) (caller : CallId) (index : Nat)
    (soFar : Option NodeId) : CallId × State × List Task :=
  let ((call, newCall), s) := s.openCall callee index
  let (newEdge, s) := s.link call ⟨returnSlot, soFar, caller⟩
  let replay := (s.calls.completions call).map fun node =>
    .arrive returnSlot caller ((s.forest.span? node).elim 0 Prod.snd) soFar node false
  let entry := .execute ⟨⟨callee, call, index⟩, none⟩
  (call, s, (if newEdge then replay else []) ++ if newCall then [entry] else [])

/-- Returns from `call`, which was completed with `node` at `index`, to all its callers. -/
def returnFrom (s : State) (call : CallId) (index : Nat) (node : NodeId) : State × List Task :=
  let (new, s) := s.complete call node
  let back := (s.calls.edges call).map fun e =>
    .arrive e.returnSlot e.caller index e.soFar node false
  (s, if new then back else [])

end State

namespace Task

/-- Executes the end `id` of a rule. The node is that of the whole rule; an empty rule gets its node
here. If the parse could be complete but for the rest of the text, that is an obstacle. -/
def executeEnd (p : Problem) (s : State) (d : Descriptor) (e : EndSlot) : Outcome :=
  let (node, s) := match d.soFar with
    | some node => (node, s)
    | none => s.onForest (·.internEmpty e.head d.slot d.index)
  let s := if d.call = rootCall && !p.text.isEnd d.index then s.obstruct p d.slot d.index d.call
    else s
  let (s, tasks) := s.returnFrom d.call d.index node
  (s, .ok tasks)

/-- Executes a descriptor: what is to be done depends on its slot. -/
def runExecute (p : Problem) (s : State) (d : Descriptor) : Outcome :=
  match p.graph.slot d.slot with
  | .error e => (s, .error (.malformed e))
  | .ok (.nonterminal n) => (s, .ok (n.firstSlots.map fun first => .enter first d.call d.index))
  | .ok (.body b) =>
    let direct := p.config.chaining && b.transitions.length = 1
    (s, .ok (b.transitions.map fun t => .cross d t direct))
  | .ok (.terminal _) => (s, .error (.malformed (.wrongKind d.slot .body)))
  | .ok (.done e) => executeEnd p s d e

/-- Tries an alternative: it is scheduled unless lookahead rules it out, which is an obstacle. -/
def runEnter (p : Problem) (s : State) (first : SlotId) (call : CallId) (index : Nat) : Outcome :=
  match if p.config.lookahead then p.graph.admits p.text first index else .ok true with
  | .error e => (s, .error e)
  | .ok true =>
    let (s, result) := s.schedule p ⟨⟨first, call, index⟩, none⟩
    (s, result.map fun _ => [])
  | .ok false =>
    match p.graph.bodySlot first with
    | .error e => (s, .error (.malformed e))
    | .ok b => (s.obstruct p ((p.graph.expectedTerminal? b).getD first) index call, .ok [])

/-- Goes over a transition: a terminal has to match, a nonterminal is called. -/
def runCross (p : Problem) (s : State) (d : Descriptor) (t : Transition) (direct : Bool) :
    Outcome :=
  match p.graph.slot t.symbol with
  | .error e => (s, .error (.malformed e))
  | .ok (.terminal τ) =>
    match τ.terminal.matchAt p.text d.index with
    | .error fault => (s, .error (.broken fault))
    | .ok none => (s.obstruct p t.symbol d.index d.call, .ok [])
    | .ok (some n) =>
      let (node, s) := s.onForest (·.intern (.terminal t.symbol d.index (d.index + n)))
      (s, .ok [.arrive t.dest d.call (d.index + n) d.soFar node direct])
  | .ok (.nonterminal _) =>
    let (_, s, tasks) := s.call t.dest t.symbol d.call d.index d.soFar
    (s, .ok tasks)
  | .ok _ => (s, .error (.malformed (.wrongKind t.symbol .terminal)))

/-- Arrives at a slot: the node for it is made, and the descriptor claimed or scheduled. -/
def runArrive (p : Problem) (s : State) (dest : SlotId) (call : CallId) (index : Nat)
    (soFar : Option NodeId) (node : NodeId) (direct : Bool) : Outcome :=
  match s.onForest (·.combine p.graph dest soFar node) with
  | (.error e, s) => (s, .error e)
  | (.ok next, s) =>
    let d : Descriptor := ⟨⟨dest, call, index⟩, some next⟩
    if direct then
      let (s, result) := s.claim p d
      (s, result.map fun new => if new then [.execute d] else [])
    else
      let (s, result) := s.schedule p d
      (s, result.map fun _ => [])

/-- Does a task. -/
def run (p : Problem) (s : State) : Task → Outcome
  | .execute d => runExecute p s d
  | .enter first call index => runEnter p s first call index
  | .cross d t direct => runCross p s d t direct
  | .arrive dest call index soFar node direct => runArrive p s dest call index soFar node direct

end Task

end GeneralParser
