import GeneralParser.Engine.Step

/-!
# Running a parse

A parse does the tasks on its stack, and when there are none, it takes the next descriptor from the
agenda. It ends when the agenda is empty, or with the first failure.
-/

namespace GeneralParser

variable [PatternEngine]

/-- What a parse does next. -/
inductive Move where
  /-- It goes on with these tasks. -/
  | goOn (s : State) (tasks : List Task)
  /-- Nothing is left to do. -/
  | finish (s : State)
  /-- It cannot go on. -/
  | fail (s : State) (e : Failure)

namespace State

/-- Takes the next descriptor from the agenda. -/
def handOut (s : State) : Move :=
  match s.agenda.next? with
  | none => .finish s
  | some (d, agenda) =>
    let s := { s with agenda }.record (.processing d.slot d.index (s.calls.name d.call))
    .goOn s [.execute d]

/-- One move: the first task, or, if there is none, the next descriptor. -/
def move (s : State) (p : Problem) : List Task → Move
  | [] => s.handOut
  | task :: tasks =>
    match task.run p s with
    | (s, .ok new) => .goOn s (new ++ tasks)
    | (s, .error e) => .fail s e

/-- Moves until nothing is left to do, at most `fuel` times. -/
def drainFor (p : Problem) : Nat → State → List Task → State × Except Failure Unit
  | 0, s, _ => (s, .error (.broken .outOfSteps))
  | fuel + 1, s, tasks =>
    match s.move p tasks with
    | .goOn s tasks => drainFor p fuel s tasks
    | .finish s => (s, .ok ())
    | .fail s e => (s, .error e)

/-- Does the given tasks and all they leave, at most `fuel` of them. Descriptors that are scheduled
meanwhile stay on the agenda. -/
def settleFor (p : Problem) : Nat → State → List Task → State × Except Failure Unit
  | _, s, [] => (s, .ok ())
  | 0, s, _ => (s, .error (.broken .outOfSteps))
  | fuel + 1, s, task :: tasks =>
    match task.run p s with
    | (s, .ok new) => settleFor p fuel s (new ++ tasks)
    | (s, .error e) => (s, .error e)

end State

/-- The number of references that a slot makes. -/
def Slot.width : Slot → Nat
  | .nonterminal s => s.firstSlots.length
  | .body s => s.transitions.length
  | _ => 0

/-- A bound for the numbers of slots, references and offsets that a run can meet. -/
def Problem.extent (p : Problem) (s : State) : Nat :=
  p.graph.size + p.graph.slots.foldl (fun n s => n + s.width) 0 + p.text.length + s.agenda.size +
    s.calls.size + s.calls.edgeCount + s.forest.size

/-- How many moves a run can take from state `s`. Calls, nodes, edges and descriptors are each
determined by a fixed number of slots and offsets, no two are made alike, and every move belongs to
one of them or to a pair of an edge and a completion; so a power of the extent is enough. -/
def Problem.moves (p : Problem) (s : State) (tasks : List Task) : Nat :=
  Nat.pow (p.extent s + tasks.length + 4) 24

namespace State

/-- Takes descriptors from the agenda until it is empty. -/
def drain (s : State) (p : Problem) : State × Except Failure Unit :=
  drainFor p (p.moves s []) s []

/-- Does the given tasks and all they leave. -/
def settle (s : State) (p : Problem) (tasks : List Task) : State × Except Failure Unit :=
  settleFor p (p.moves s tasks) s tasks

/-- The state in which a parse starts: one call, and one descriptor to enter it. -/
def start (p : Problem) : State × Except Failure Unit :=
  let (_, calls) := CallGraph.empty.call p.rootSite
  { empty p.config.order with calls }.schedule p ⟨⟨p.start, rootCall, 0⟩, none⟩

end State

/-- What comes out of a parse. -/
structure Success where
  /-- The node of the start symbol over the whole text. -/
  root : NodeId
  /-- All nodes made during the parse, also those that do not belong to a derivation of the whole
  text. -/
  forest : Forest
  statistics : Statistics
  deriving DecidableEq

namespace State

/-- The obstacle that a failed parse reports. -/
def obstacle (s : State) (p : Problem) : Obstacle := s.furthest.getD ⟨p.start, 0, p.rootSite⟩

/-- The result of a parse that has ended in state `s`, with its last events. -/
def finish (s : State) (p : Problem) : State × Except Failure Success :=
  if s.agenda.hasNext then (s, .error (.broken .unfinishedAgenda))
  else
    match s.forest.find? (.nonterminal p.start 0 p.text.length) with
    | some root =>
      let statistics := s.statistics
      ((s.record (.parsed p.text.length)).record (.measured statistics),
        .ok ⟨root, s.forest, statistics⟩)
    | none => (s.record (.rejected (s.obstacle p)), .error (.rejected (s.obstacle p)))

end State

/-- Carries out a parse from beginning to end. -/
def Problem.solve (p : Problem) : State × Except Failure Success :=
  match State.start p with
  | (s, .error e) => (s, .error e)
  | (s, .ok ()) =>
    match s.drain p with
    | (s, .error e) => (s, .error e)
    | (s, .ok ()) => s.finish p

end GeneralParser
