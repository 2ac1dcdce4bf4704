/-!
# Faults

A fault is a broken internal assumption, as opposed to a failure that the caller can cause with a
well-formed grammar and text. Each is kept apart by its cause.
-/

namespace GeneralParser

/-- The broken assumptions an operation can run into. -/
inductive Fault where
  /-- A text was read at a character offset that its offset table does not list. -/
  | unlistedOffset (offset : Nat)
  /-- A text was cut at a byte where none of the characters starts that it is cut from. -/
  | splitCharacter (byte : Nat)
  /-- One descriptor key was offered with two different partial results. -/
  | conflictingResults
  /-- A descriptor was offered for an offset the agenda has already moved past. -/
  | behindAgenda
  /-- A run was evaluated while descriptors were still waiting. -/
  | unfinishedAgenda
  /-- A run used up the steps computed for it. -/
  | outOfSteps
  deriving DecidableEq, Repr

/-- The wording of a fault. -/
def Fault.message : Fault → String
  | .unlistedOffset offset => s!"offset {offset} is not in the offset table"
  | .splitCharacter byte => s!"byte {byte} is inside a character"
  | .conflictingResults => "Descriptor seen twice with different SPPF nodes"
  | .behindAgenda => "Descriptor scheduled behind the worklist"
  | .unfinishedAgenda => "Finished with pending descriptors"
  | .outOfSteps => "step bound exceeded"

end GeneralParser
