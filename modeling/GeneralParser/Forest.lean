import GeneralParser.DepthFirst
import GeneralParser.Forest.Node

/-!
# Shared packed parse forests

A forest only grows. A node that is not packed is its own identity: making it twice gives the same
number. A packed node is identified by the node it belongs to, its slot and its pivot.
-/

namespace GeneralParser

/-- A node with what hangs below it. -/
structure Forest.Entry where
  node : Node
  /-- The one or two parts of a packed node. -/
  parts : List NodeId
  /-- The packed nodes that belong to the node, the oldest first. -/
  packed : List NodeId
  deriving DecidableEq, Repr

/-- A parse forest. Nodes are numbered in the order in which they were made. -/
structure Forest where
  entries : Array Forest.Entry
  /-- The numbers of the nodes that are not packed. -/
  index : Std.ExtTreeMap Node NodeId
  /-- The index agrees with the entries. -/
  getElem?_index (n : Node) :
    index[n]? = if n.isPacked then none else entries.findIdx? fun e => e.node = n

namespace Forest

/-- The forest without nodes. -/
def empty : Forest := ⟨#[], ∅, by simp⟩

instance : Inhabited Forest := ⟨empty⟩

/-- The entries of a forest determine it. -/
@[ext]
theorem ext_entries {f g : Forest} (h : f.entries = g.entries) : f = g := by
  cases f with | mk entries index hf
  cases g with | mk entries' index' hg
  obtain rfl : entries = entries' := h
  obtain rfl : index = index' := Std.ExtTreeMap.ext_getElem? fun n => by rw [hf, hg]
  rfl

instance : DecidableEq Forest := fun f g =>
  decidable_of_iff (f.entries = g.entries) ⟨ext_entries, congrArg entries⟩

/-- The number of nodes. -/
def size (f : Forest) : Nat := f.entries.size

/-! ### Views -/

/-- The node with number `i`. -/
def node? (f : Forest) (i : NodeId) : Option Node := f.entries[i]?.map Entry.node

/-- All nodes, in the order in which they were made. -/
def nodes (f : Forest) : List Node := f.entries.toList.map Entry.node

/-- The number of a node. Packed nodes are not found this way. -/
def find? (f : Forest) (n : Node) : Option NodeId := f.index[n]?

/-- Looking a node up finds its place among the entries. -/
theorem find?_eq (f : Forest) (n : Node) :
    f.find? n = if n.isPacked then none else f.entries.findIdx? fun e => e.node = n :=
  f.getElem?_index n

/-- Packed nodes are not found. -/
@[simp]
theorem find?_packed (f : Forest) (slot : SlotId) (pivot : Nat) :
    f.find? (.packed slot pivot) = none := by
  simp [find?_eq, Node.isPacked]

/-- The stretch of the text under node `i`. -/
def span? (f : Forest) (i : NodeId) : Option (Nat × Nat) := (f.node? i).bind Node.span?

/-- What hangs below node `i`: its parts, if it is packed, then the packed nodes that belong to
it. -/
def children (f : Forest) (i : NodeId) : List NodeId :=
  match f.entries[i]? with
  | some e => e.parts ++ e.packed
  | none => []

/-- The packed nodes that belong to node `i`. -/
def packedUnder (f : Forest) (i : NodeId) : List NodeId :=
  match f.entries[i]? with
  | some e => e.packed
  | none => []

/-- Whether node `i` has more than one derivation. -/
def isAmbiguous (f : Forest) (i : NodeId) : Bool :=
  match f.node? i with
  | some n => !n.isPacked && 2 ≤ (f.children i).length
  | none => false

/-- The nodes with more than one derivation. -/
def ambiguousNodes (f : Forest) : List NodeId := (List.range f.size).filter f.isAmbiguous

/-- The nodes below `root` and `root` itself, depth first. -/
def reachable (f : Forest) (root : NodeId) : List NodeId :=
  DepthFirst.order f.children f.size [root]

/-! ### Growth -/

/-- A change of entries that keeps their nodes does not move any node. -/
theorem findIdx?_modify (entries : Array Entry) (i : Nat) {change : Entry → Entry}
    (keeps : ∀ e, (change e).node = e.node) (n : Node) :
    (entries.modify i change).findIdx? (fun e => e.node = n) =
      entries.findIdx? fun e => e.node = n := by
  have h : (entries.modify i change).map Entry.node = entries.map Entry.node := by
    refine Array.ext (by simp) fun j _ _ => ?_
    simp only [Array.getElem_map, Array.getElem_modify]
    split <;> simp [keeps]
  simpa only [Array.findIdx?_map, Function.comp_def] using
    congrArg (Array.findIdx? fun m => m = n) h

/-- Adds an entry for a node that is not found. -/
def push (f : Forest) (e : Entry) (new : f.find? e.node = none) : Forest :=
  match f, new with
  | ⟨entries, index, agrees⟩, new =>
    let i := entries.size
    { entries := entries.push e
      index := if e.node.isPacked then index else index.insert e.node i
      getElem?_index n := by
        rw [find?_eq] at new
        rw [Array.findIdx?_push]
        by_cases hp : e.node.isPacked
        · rw [if_pos hp, agrees]
          by_cases hn : n.isPacked
          · rw [if_pos hn, if_pos hn]
          · have : e.node ≠ n := fun h => hn (h ▸ hp)
            simp [this]
        · rw [if_neg hp, Std.ExtTreeMap.getElem?_insert]
          rw [if_neg hp] at new
          by_cases hn : e.node = n
          · subst hn
            simp [new, hp, i]
          · simp [hn, agrees] }

/-- Adds `i` to the packed nodes of `parent`. -/
def attach (f : Forest) (parent i : NodeId) : Forest :=
  match f with
  | ⟨entries, index, agrees⟩ =>
    { entries := entries.modify parent fun e => { e with packed := e.packed ++ [i] }
      index
      getElem?_index n := by
        rw [agrees, findIdx?_modify]
        exact fun _ => rfl }

@[simp]
theorem entries_push (f : Forest) (e : Entry) (new : f.find? e.node = none) :
    (f.push e new).entries = f.entries.push e := rfl

@[simp]
theorem entries_attach (f : Forest) (parent i : NodeId) :
    (f.attach parent i).entries =
      f.entries.modify parent fun e => { e with packed := e.packed ++ [i] } := rfl

/-- The number of the node `n`, which is made if it is new. -/
def intern (f : Forest) (n : Node) : NodeId × Forest :=
  match new : f.find? n with
  | some i => (i, f)
  | none => (f.size, f.push ⟨n, [], []⟩ new)

/-- Whether `parent` has a packed node for `slot` and `pivot`. -/
def hasPacked (f : Forest) (parent : NodeId) (slot : SlotId) (pivot : Nat) : Bool :=
  (f.packedUnder parent).any fun i => f.node? i = some (.packed slot pivot)

/-- Makes the packed node of `parent` for `slot` and `pivot`, and says whether it is new. Its parts
are only looked at if it is. -/
def pack (f : Forest) (parent : NodeId) (slot : SlotId) (pivot : Nat) (left : Option NodeId)
    (right : NodeId) : Bool × Forest :=
  if f.hasPacked parent slot pivot then (false, f)
  else
    let i := f.size
    let f := f.push ⟨.packed slot pivot, left.toList ++ [right], []⟩ (f.find?_packed slot pivot)
    (true, f.attach parent i)

/-- The node `n` with a packed node below it. -/
def internPacked (f : Forest) (n : Node) (slot : SlotId) (pivot : Nat) (left : Option NodeId)
    (right : NodeId) : NodeId × Forest :=
  let (i, f) := f.intern n
  (i, (f.pack i slot pivot left right).2)

/-- The node for an empty rule of the nonterminal `head` that ends in `slot`. -/
def internEmpty (f : Forest) (head slot : SlotId) (position : Nat) : NodeId × Forest :=
  let (i, f) := f.intern (.nonterminal head position position)
  let (e, f) := f.intern (.epsilon position)
  (i, (f.pack i slot position none e).2)

/-! ### Counts -/

/-- The number of nodes by kind, and of those with more than one derivation. -/
structure Counts where
  terminal : Nat
  epsilon : Nat
  nonterminal : Nat
  intermediate : Nat
  packed : Nat
  ambiguous : Nat
  deriving DecidableEq, Repr

/-- The counts of a forest. -/
def counts (f : Forest) : Counts where
  terminal := f.nodes.countP fun | .terminal .. => true | _ => false
  epsilon := f.nodes.countP fun | .epsilon .. => true | _ => false
  nonterminal := f.nodes.countP fun | .nonterminal .. => true | _ => false
  intermediate := f.nodes.countP fun | .intermediate .. => true | _ => false
  packed := f.nodes.countP Node.isPacked
  ambiguous := f.ambiguousNodes.length

end Forest

end GeneralParser
