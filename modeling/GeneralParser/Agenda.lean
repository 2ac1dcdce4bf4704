import GeneralParser.CallGraph
import GeneralParser.Fault
import Std.Data.ExtTreeMap

/-!
# The agenda

A descriptor says where parsing can go on: at a slot, in a call, at an offset. Every descriptor is
taken up once. It is either claimed by whoever found it, or scheduled and handed out later, at the
smallest offset first.
-/

namespace GeneralParser

/-- The identity of a descriptor. -/
structure Item where
  slot : SlotId
  call : CallId
  index : Nat
  deriving DecidableEq, Repr

namespace Item

/-- Compares items by offset, then by slot and call. -/
abbrev cmp : Item → Item → Ordering :=
  compareLex (compareOn index) (compareLex (compareOn slot) (compareOn call))

instance : Ord Item := ⟨cmp⟩

instance : Std.TransOrd Item := inferInstanceAs (Std.TransCmp cmp)

instance : Std.LawfulEqOrd Item where
  eq_of_compare {i j} h := by
    have h : cmp i j = .eq := h
    simp only [cmp, compareLex_eq_eq, compareOn, Nat.compare_eq_eq] at h
    cases i
    cases j
    simp_all

end Item

/-- A place to go on parsing from. What has been parsed of the present rule is determined by the
rest and takes no part in the identity. -/
structure Descriptor extends Item where
  soFar : Option NodeId
  deriving DecidableEq, Repr

/-- Which of the descriptors at one offset is handed out first. -/
inductive DrainOrder where
  | newestFirst
  | oldestFirst
  deriving DecidableEq, Repr

instance : Inhabited DrainOrder := ⟨.newestFirst⟩

/-- The descriptors that wait at one offset: at least one, the newest first. -/
structure Agenda.Bucket where
  newest : Descriptor
  older : List Descriptor
  deriving DecidableEq, Repr

/-- All descriptors seen so far, and those that still wait to be handed out. -/
structure Agenda where
  order : DrainOrder
  /-- Every descriptor that was claimed or scheduled: its item, with its partial result. -/
  seen : Std.ExtTreeMap Item (Option NodeId)
  /-- The descriptors that wait, by increasing offset. -/
  pending : List Agenda.Bucket
  /-- The offset of the descriptor handed out last. -/
  drained : Nat
  deriving DecidableEq

namespace Agenda

/-- The offset at which the descriptors of a bucket wait. -/
def Bucket.index (b : Bucket) : Nat := b.newest.index

/-- The descriptors of a bucket, the newest first. -/
def Bucket.toList (b : Bucket) : List Descriptor := b.newest :: b.older

/-- The bucket with the given descriptors, if there are any. -/
def Bucket.ofList? : List Descriptor → Option Bucket
  | [] => none
  | d :: ds => some ⟨d, ds⟩

/-- Takes out the descriptor that is handed out first, and leaves the others. -/
def Bucket.take (order : DrainOrder) (b : Bucket) : Descriptor × List Descriptor :=
  match order with
  | .newestFirst => (b.newest, b.older)
  | .oldestFirst => (b.older.getLastD b.newest, b.toList.dropLast)

/-- The agenda that has seen nothing. -/
def empty (order : DrainOrder) : Agenda := ⟨order, ∅, [], 0⟩

instance : Inhabited Agenda := ⟨empty default⟩

/-- The number of descriptors seen. -/
def size (a : Agenda) : Nat := a.seen.size

/-- Whether a descriptor waits. -/
def hasNext (a : Agenda) : Bool := !a.pending.isEmpty

/-- The descriptor seen for an item. -/
def find? (a : Agenda) (i : Item) : Option Descriptor := a.seen[i]?.map (Descriptor.mk i)

/-- Marks a descriptor as seen, and says whether it is new. One that is known has to bring the same
partial result, and a new one must not lie before the offset handed out last. -/
def claim (a : Agenda) (d : Descriptor) : Except Fault (Bool × Agenda) :=
  match a.find? d.toItem with
  | some known =>
    if known.soFar = d.soFar then .ok (false, a) else .error .conflictingResults
  | none =>
    if d.index < a.drained then .error .behindAgenda
    else .ok (true, { a with seen := a.seen.insert d.toItem d.soFar })

/-- Adds a descriptor to the bucket for its offset. -/
def enqueue (d : Descriptor) : List Bucket → List Bucket
  | [] => [⟨d, []⟩]
  | b :: bs =>
    if d.index < b.index then ⟨d, []⟩ :: b :: bs
    else if d.index = b.index then ⟨d, b.toList⟩ :: bs
    else b :: enqueue d bs

/-- Marks a descriptor as seen and, if it is new, lets it wait. Says whether it is new. -/
def schedule (a : Agenda) (d : Descriptor) : Except Fault (Bool × Agenda) :=
  match a.claim d with
  | .ok (true, a) => .ok (true, { a with pending := enqueue d a.pending })
  | unchanged => unchanged

/-- Hands out the next descriptor: from the smallest offset, in the drain order. -/
def next? (a : Agenda) : Option (Descriptor × Agenda) :=
  match a.pending with
  | [] => none
  | b :: bs =>
    let (d, rest) := b.take a.order
    some (d, { a with pending := (Bucket.ofList? rest).toList ++ bs, drained := d.index })

end Agenda

end GeneralParser
