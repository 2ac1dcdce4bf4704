/-!
# Sets of slots

Slots are numbered, and a finite set of them is an increasing list of numbers. Equal sets are
therefore equal as values, and are always listed in the same order.
-/

namespace GeneralParser

/-- The number of a slot in its graph. -/
abbrev SlotId := Nat

/-- A finite set of slots. -/
structure SlotSet where
  ids : List SlotId
  increasing : ids.Pairwise (· < ·)
  deriving DecidableEq

namespace SlotSet

/-- Inserts `x` into an increasing list, unless it is there already. -/
def insertInto (x : SlotId) : List SlotId → List SlotId
  | [] => [x]
  | y :: ys => if x < y then x :: y :: ys else if x = y then y :: ys else y :: insertInto x ys

@[simp] theorem mem_insertInto {x y : SlotId} {ys : List SlotId} :
    y ∈ insertInto x ys ↔ y = x ∨ y ∈ ys := by
  induction ys with
  | nil => simp [insertInto]
  | cons z zs ih =>
    simp only [insertInto]
    split
    · simp
    · split
      · simp_all
      · simp only [List.mem_cons, ih]
        constructor
        · rintro (h | h | h) <;> simp [h]
        · rintro (h | h | h) <;> simp [h]

theorem increasing_insertInto {x : SlotId} {ys : List SlotId} (h : ys.Pairwise (· < ·)) :
    (insertInto x ys).Pairwise (· < ·) := by
  induction h with
  | nil => simp [insertInto]
  | @cons z zs hz hzs ih =>
    simp only [insertInto]
    split
    next hx =>
      refine .cons (fun w hw => ?_) (.cons hz hzs)
      rcases List.mem_cons.mp hw with rfl | hw
      · exact hx
      · exact Nat.lt_trans hx (hz w hw)
    next hx =>
      split
      next => exact .cons hz hzs
      next hne =>
        refine .cons (fun w hw => ?_) ih
        rcases mem_insertInto.mp hw with rfl | hw
        · exact Nat.lt_of_le_of_ne (Nat.le_of_not_lt hx) (Ne.symm hne)
        · exact hz w hw

/-- The set without members. -/
def empty : SlotSet := ⟨[], .nil⟩

instance : EmptyCollection SlotSet := ⟨empty⟩

instance : Inhabited SlotSet := ⟨empty⟩

instance : Membership SlotId SlotSet := ⟨fun s x => x ∈ s.ids⟩

instance (x : SlotId) (s : SlotSet) : Decidable (x ∈ s) :=
  inferInstanceAs (Decidable (x ∈ s.ids))

/-- The number of members. -/
def size (s : SlotSet) : Nat := s.ids.length

/-- Adds a member. -/
def insert (s : SlotSet) (x : SlotId) : SlotSet :=
  ⟨insertInto x s.ids, increasing_insertInto s.increasing⟩

/-- The members of either set. -/
def union (s t : SlotSet) : SlotSet := t.ids.foldl insert s

/-- The set with the members of a list. -/
def ofList (xs : List SlotId) : SlotSet := xs.foldl insert ∅

theorem mem_def {x : SlotId} {s : SlotSet} : x ∈ s ↔ x ∈ s.ids := .rfl

@[simp] theorem not_mem_empty {x : SlotId} : ¬ x ∈ (∅ : SlotSet) := List.not_mem_nil

@[simp] theorem mem_insert {x y : SlotId} {s : SlotSet} : y ∈ s.insert x ↔ y = x ∨ y ∈ s :=
  mem_insertInto

theorem mem_foldl_insert {x : SlotId} {xs : List SlotId} {s : SlotSet} :
    x ∈ xs.foldl insert s ↔ x ∈ s ∨ x ∈ xs := by
  induction xs generalizing s with
  | nil => simp
  | cons y ys ih =>
    simp only [List.foldl_cons, ih, mem_insert, List.mem_cons]
    constructor
    · rintro ((h | h) | h) <;> simp [h]
    · rintro (h | h | h) <;> simp [h]

@[simp] theorem mem_union {x : SlotId} {s t : SlotSet} : x ∈ s.union t ↔ x ∈ s ∨ x ∈ t :=
  mem_foldl_insert

@[simp] theorem mem_ofList {x : SlotId} {xs : List SlotId} : x ∈ ofList xs ↔ x ∈ xs := by
  simp [ofList, mem_foldl_insert]

end SlotSet

end GeneralParser
