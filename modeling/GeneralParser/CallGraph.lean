import GeneralParser.Forest.Node

/-!
# Call graphs

A nonterminal that is called at an offset is one vertex, however many callers it has. An edge leads
from the called vertex back to a caller and says where that one goes on. The ends at which a call
has been completed are kept with it, so that a caller that comes late does not miss them.
-/

namespace GeneralParser

/-- The number of a call in its call graph. -/
abbrev CallId := Nat

/-- A nonterminal and the offset at which it is called. -/
structure CallSite where
  slot : SlotId
  index : Nat
  deriving DecidableEq, Repr

/-- Where a caller goes on once the call is complete. -/
structure Edge where
  /-- The slot after the call. -/
  returnSlot : SlotId
  /-- What the caller had parsed of its rule before the call. -/
  soFar : Option NodeId
  caller : CallId
  deriving DecidableEq, Repr

/-- A call with its callers and completions. -/
structure Call where
  site : CallSite
  /-- The edges to its callers, the newest first. -/
  edges : List Edge
  /-- The nodes it has been completed with, the oldest first. -/
  completions : List NodeId
  deriving DecidableEq, Repr

/-- The calls made so far. They are numbered in the order in which they were made. -/
structure CallGraph where
  calls : Array Call
  deriving DecidableEq, Repr

namespace CallGraph

/-- The call graph without calls. -/
def empty : CallGraph := ⟨#[]⟩

instance : Inhabited CallGraph := ⟨empty⟩

/-- The number of calls. -/
def size (g : CallGraph) : Nat := g.calls.size

/-- The number of edges. -/
def edgeCount (g : CallGraph) : Nat := (g.calls.toList.flatMap Call.edges).length

/-- Where call `i` was made. -/
def site? (g : CallGraph) (i : CallId) : Option CallSite := g.calls[i]?.map Call.site

/-- The edges of call `i`, the newest first. -/
def edges (g : CallGraph) (i : CallId) : List Edge :=
  match g.calls[i]? with
  | some c => c.edges
  | none => []

/-- The completions of call `i`, the oldest first. -/
def completions (g : CallGraph) (i : CallId) : List NodeId :=
  match g.calls[i]? with
  | some c => c.completions
  | none => []

/-- The call at `site`. -/
def find? (g : CallGraph) (site : CallSite) : Option CallId :=
  g.calls.findIdx? fun c => c.site = site

/-- The call at `site`, which is made if it is new, and whether it is. -/
def call (g : CallGraph) (site : CallSite) : (CallId × Bool) × CallGraph :=
  match g.find? site with
  | some i => ((i, false), g)
  | none => ((g.size, true), ⟨g.calls.push ⟨site, [], []⟩⟩)

/-- Adds an edge to call `i` unless it is there already, and says whether it was added. -/
def addEdge (g : CallGraph) (i : CallId) (e : Edge) : Bool × CallGraph :=
  if e ∈ g.edges i then (false, g)
  else (true, ⟨g.calls.modify i fun c => { c with edges := e :: c.edges }⟩)

/-- Records that call `i` was completed with `node`, and says whether that is new. Calls that were
never made are not completed. -/
def addCompletion (g : CallGraph) (i : CallId) (node : NodeId) : Bool × CallGraph :=
  if i < g.size ∧ node ∉ g.completions i then
    (true, ⟨g.calls.modify i fun c => { c with completions := c.completions ++ [node] }⟩)
  else (false, g)

end CallGraph

end GeneralParser
