import GeneralParser.Grammar.Graph
import Mathlib.Data.List.Basic
import Mathlib.Data.List.Induction

/-!
# Paths between slots

What a slot is for is fixed when it is made: its role. The transitions between positions, and the
slots in which the alternatives of a nonterminal start, are relations on slots. A path follows
transitions and spells the symbols it goes over; a route also says by which transitions.

In a wired graph no slot is entered in two ways, so a route is determined by its end, and a path is.
-/

namespace GeneralParser

variable [PatternEngine]

/-- What a slot is for, without what is filled in later. -/
inductive Slot.Role where
  | nonterminal (name : String)
  | body (head : SlotId) (position : Nat)
  | terminal (t : Terminal)
  | done (head : SlotId) (alternative : Nat)
  deriving DecidableEq

namespace Slot

def role : Slot → Role
  | .nonterminal s => .nonterminal s.name
  | .body s => .body s.head s.position
  | .terminal s => .terminal s.terminal
  | .done s => .done s.head s.alternative

/-- The nonterminal whose alternatives pass through a slot with the given role. -/
def Role.head? : Role → Option SlotId
  | .body head _ | .done head _ => some head
  | .nonterminal _ | .terminal _ => none

end Slot

namespace Slots

variable {slots : Array Slot}

def role? (slots : Array Slot) (id : SlotId) : Option Slot.Role := slots[id]?.map Slot.role

/-- The nonterminal to which the position or end `id` belongs. -/
def head? (slots : Array Slot) (id : SlotId) : Option SlotId :=
  (role? slots id).bind Slot.Role.head?

/-- Position `b` is followed by `d`, over the symbol `x`. -/
def Leads (slots : Array Slot) (b x d : SlotId) : Prop :=
  ∃ s, slots[b]? = some (.body s) ∧ ⟨x, d⟩ ∈ s.transitions

/-- An alternative of nonterminal `a` starts in slot `f`. -/
def Starts (slots : Array Slot) (a f : SlotId) : Prop :=
  ∃ s, slots[a]? = some (.nonterminal s) ∧ f ∈ s.firstSlots

/-- Transitions lead from `b` over the symbols `xs` to `d`. -/
inductive Path (slots : Array Slot) : SlotId → List SlotId → SlotId → Prop
  | nil (b : SlotId) : Path slots b [] b
  | cons {b x m d : SlotId} {xs : List SlotId} :
    Leads slots b x m → Path slots m xs d → Path slots b (x :: xs) d

/-! ### Roles -/

lemma role?_eq_some {id : SlotId} {r : Slot.Role} :
    role? slots id = some r ↔ ∃ s, slots[id]? = some s ∧ s.role = r := by
  simp [role?]

lemma role?_terminal {id : SlotId} {t : Terminal} :
    role? slots id = some (.terminal t) ↔
      ∃ s, slots[id]? = some (.terminal s) ∧ s.terminal = t := by
  rw [role?_eq_some]
  constructor
  · rintro ⟨s, hs, hr⟩
    cases s with
    | terminal s => exact ⟨s, hs, by simpa [Slot.role] using hr⟩
    | nonterminal _ | body _ | done _ => simp [Slot.role] at hr
  · rintro ⟨s, hs, rfl⟩
    exact ⟨_, hs, rfl⟩

lemma role?_nonterminal {id : SlotId} {name : String} :
    role? slots id = some (.nonterminal name) ↔
      ∃ s, slots[id]? = some (.nonterminal s) ∧ s.name = name := by
  rw [role?_eq_some]
  constructor
  · rintro ⟨s, hs, hr⟩
    cases s with
    | nonterminal s => exact ⟨s, hs, by simpa [Slot.role] using hr⟩
    | terminal _ | body _ | done _ => simp [Slot.role] at hr
  · rintro ⟨s, hs, rfl⟩
    exact ⟨_, hs, rfl⟩

lemma role?_body {id head : SlotId} {position : Nat} :
    role? slots id = some (.body head position) ↔
      ∃ s, slots[id]? = some (.body s) ∧ s.head = head ∧ s.position = position := by
  rw [role?_eq_some]
  constructor
  · rintro ⟨s, hs, hr⟩
    cases s with
    | body s => exact ⟨s, hs, by simpa [Slot.role] using hr⟩
    | terminal _ | nonterminal _ | done _ => simp [Slot.role] at hr
  · rintro ⟨s, hs, rfl, rfl⟩
    exact ⟨_, hs, rfl⟩

lemma role?_done {id head : SlotId} {alternative : Nat} :
    role? slots id = some (.done head alternative) ↔
      ∃ s, slots[id]? = some (.done s) ∧ s.head = head ∧ s.alternative = alternative := by
  rw [role?_eq_some]
  constructor
  · rintro ⟨s, hs, hr⟩
    cases s with
    | done s => exact ⟨s, hs, by simpa [Slot.role] using hr⟩
    | terminal _ | body _ | nonterminal _ => simp [Slot.role] at hr
  · rintro ⟨s, hs, rfl, rfl⟩
    exact ⟨_, hs, rfl⟩

/-- Only positions and ends belong to a nonterminal. -/
lemma head?_eq_some {id a : SlotId} :
    head? slots id = some a ↔
      (∃ s, slots[id]? = some (.body s) ∧ s.head = a) ∨
        ∃ s, slots[id]? = some (.done s) ∧ s.head = a := by
  rw [head?, Option.bind_eq_some_iff]
  constructor
  · rintro ⟨r, hr, ha⟩
    obtain ⟨s, hs, rfl⟩ := role?_eq_some.mp hr
    cases s with
    | body s => exact Or.inl ⟨s, hs, by simpa [Slot.role, Slot.Role.head?] using ha⟩
    | done s => exact Or.inr ⟨s, hs, by simpa [Slot.role, Slot.Role.head?] using ha⟩
    | nonterminal _ | terminal _ => simp [Slot.role, Slot.Role.head?] at ha
  · rintro (⟨s, hs, rfl⟩ | ⟨s, hs, rfl⟩) <;>
      exact ⟨_, role?_eq_some.mpr ⟨_, hs, rfl⟩, rfl⟩

lemma head?_body {id : SlotId} {s : BodySlot} (h : slots[id]? = some (.body s)) :
    head? slots id = some s.head :=
  head?_eq_some.mpr (Or.inl ⟨s, h, rfl⟩)

lemma head?_done {id : SlotId} {s : EndSlot} (h : slots[id]? = some (.done s)) :
    head? slots id = some s.head :=
  head?_eq_some.mpr (Or.inr ⟨s, h, rfl⟩)

lemma head?_of_role_body {b a : SlotId} {n : Nat} (h : role? slots b = some (.body a n)) :
    head? slots b = some a := by
  rw [head?, h]
  rfl

lemma head?_of_role_done {e a : SlotId} {k : Nat} (h : role? slots e = some (.done a k)) :
    head? slots e = some a := by
  rw [head?, h]
  rfl

/-- Symbols belong to no nonterminal. -/
lemma head?_eq_none {x : SlotId} (h : (∃ τ, role? slots x = some (.terminal τ)) ∨
    ∃ A, role? slots x = some (.nonterminal A)) : head? slots x = none := by
  rcases h with ⟨τ, hx⟩ | ⟨A, hx⟩ <;> simp [head?, hx, Slot.Role.head?]

lemma lt_size_of_role? {id : SlotId} {r : Slot.Role} (h : role? slots id = some r) :
    id < slots.size := by
  obtain ⟨s, hs, -⟩ := role?_eq_some.mp h
  exact (Array.getElem?_eq_some_iff.mp hs).1

lemma lt_size_of_head? {id a : SlotId} (h : head? slots id = some a) : id < slots.size := by
  obtain ⟨r, hr, -⟩ := Option.bind_eq_some_iff.mp h
  exact lt_size_of_role? hr

/-! ### Transitions and paths -/

lemma leads_iff_of_body {b x d : SlotId} {s : BodySlot} (h : slots[b]? = some (.body s)) :
    Leads slots b x d ↔ ⟨x, d⟩ ∈ s.transitions := by
  constructor
  · rintro ⟨s', h', hmem⟩
    obtain rfl : s = s' := by simpa using h.symm.trans h'
    exact hmem
  · exact fun hmem => ⟨s, h, hmem⟩

lemma starts_iff_of_nonterminal {a f : SlotId} {s : NonterminalSlot}
    (h : slots[a]? = some (.nonterminal s)) : Starts slots a f ↔ f ∈ s.firstSlots := by
  constructor
  · rintro ⟨s', h', hmem⟩
    obtain rfl : s = s' := by simpa using h.symm.trans h'
    exact hmem
  · exact fun hmem => ⟨s, h, hmem⟩

@[simp] lemma path_nil_iff {b d : SlotId} : Path slots b [] d ↔ b = d := by
  constructor
  · intro h
    cases h
    rfl
  · rintro rfl
    exact .nil b

lemma path_cons_iff {b x d : SlotId} {xs : List SlotId} :
    Path slots b (x :: xs) d ↔ ∃ m, Leads slots b x m ∧ Path slots m xs d := by
  constructor
  · intro h
    cases h with
    | cons hl hp => exact ⟨_, hl, hp⟩
  · rintro ⟨m, hl, hp⟩
    exact .cons hl hp

lemma path_append_iff {b d : SlotId} {xs ys : List SlotId} :
    Path slots b (xs ++ ys) d ↔ ∃ m, Path slots b xs m ∧ Path slots m ys d := by
  induction xs generalizing b with
  | nil => simp
  | cons x xs ih =>
    simp only [List.cons_append, path_cons_iff, ih]
    constructor
    · rintro ⟨m, hl, n, hp, hq⟩
      exact ⟨n, ⟨m, hl, hp⟩, hq⟩
    · rintro ⟨n, ⟨m, hl, hp⟩, hq⟩
      exact ⟨m, hl, n, hp, hq⟩

lemma path_singleton_iff {b x d : SlotId} : Path slots b [x] d ↔ Leads slots b x d := by
  simp [path_cons_iff]

/-- A path is taken apart at its last transition. -/
lemma path_concat_iff {b x d : SlotId} {xs : List SlotId} :
    Path slots b (xs ++ [x]) d ↔ ∃ m, Path slots b xs m ∧ Leads slots m x d := by
  simp only [path_append_iff, path_singleton_iff]

lemma Path.append {b m d : SlotId} {xs ys : List SlotId} (h : Path slots b xs m)
    (h' : Path slots m ys d) : Path slots b (xs ++ ys) d :=
  path_append_iff.mpr ⟨m, h, h'⟩

lemma Path.concat {b m x d : SlotId} {xs : List SlotId} (h : Path slots b xs m)
    (h' : Leads slots m x d) : Path slots b (xs ++ [x]) d :=
  path_concat_iff.mpr ⟨m, h, h'⟩

/-! ### Routes -/

/-- The transitions lead from `b` to `d`, one after the other. -/
inductive Route (slots : Array Slot) : SlotId → List Transition → SlotId → Prop
  | nil (b : SlotId) : Route slots b [] b
  | cons {b d : SlotId} {t : Transition} {ts : List Transition} :
    Leads slots b t.symbol t.dest → Route slots t.dest ts d → Route slots b (t :: ts) d

lemma Route.path {b d : SlotId} {ts : List Transition} (h : Route slots b ts d) :
    Path slots b (ts.map Transition.symbol) d := by
  induction h with
  | nil b => exact .nil b
  | cons hl _ ih => exact .cons hl ih

lemma Path.exists_route {b d : SlotId} {xs : List SlotId} (h : Path slots b xs d) :
    ∃ ts, Route slots b ts d ∧ ts.map Transition.symbol = xs := by
  induction h with
  | nil b => exact ⟨[], .nil b, rfl⟩
  | @cons b x m d xs hl _ ih =>
    obtain ⟨ts, hr, rfl⟩ := ih
    exact ⟨⟨x, m⟩ :: ts, .cons hl hr, rfl⟩

@[simp] lemma route_nil_iff {b d : SlotId} : Route slots b [] d ↔ b = d := by
  constructor
  · intro h
    cases h
    rfl
  · rintro rfl
    exact .nil b

/-- A route is taken apart at its last transition. -/
lemma Route.last {b d : SlotId} {t : Transition} {ts : List Transition}
    (h : Route slots b (ts ++ [t]) d) :
    ∃ m, Route slots b ts m ∧ Leads slots m t.symbol d ∧ t.dest = d := by
  induction ts generalizing b with
  | nil =>
    cases h with
    | cons hl hr =>
      obtain rfl := route_nil_iff.mp hr
      exact ⟨b, .nil b, hl, rfl⟩
  | cons u ts ih =>
    cases h with
    | cons hl hr =>
      obtain ⟨m, hm, hlast⟩ := ih hr
      exact ⟨m, .cons hl hm, hlast⟩

/-- A route is taken apart at any of the slots it passes. -/
lemma Route.split {b c d : SlotId} {ts : List Transition} {n : Nat} (h : Route slots b ts d)
    (hc : (b :: ts.map Transition.dest)[n]? = some c) :
    Route slots b (ts.take n) c ∧ Route slots c (ts.drop n) d := by
  induction h generalizing n with
  | nil b =>
    obtain ⟨hn, rfl⟩ := List.getElem?_eq_some_iff.mp hc
    obtain rfl : n = 0 := by simpa using hn
    exact ⟨.nil b, .nil b⟩
  | cons hl hr ih =>
    cases n with
    | zero =>
      obtain rfl := Option.some.inj hc
      exact ⟨.nil _, .cons hl hr⟩
    | succ n => exact (ih (n := n) hc).imp (.cons hl) id

lemma Route.append {b m d : SlotId} {ts us : List Transition} (h : Route slots b ts m)
    (h' : Route slots m us d) : Route slots b (ts ++ us) d := by
  induction h with
  | nil => exact h'
  | cons hl _ ih => exact .cons hl (ih h')

/-- The last slot that a route passes is where it leads. -/
lemma Route.exists_passed_eq {b d : SlotId} {ts : List Transition} (h : Route slots b ts d) :
    ∃ front, b :: ts.map Transition.dest = front ++ [d] := by
  induction h with
  | nil => exact ⟨[], rfl⟩
  | @cons b d t ts _ _ ih =>
    obtain ⟨front, hfront⟩ := ih
    exact ⟨b :: front, congrArg (b :: ·) hfront⟩

/-! ### Wiring -/

/-- The slots are connected as those of alternatives that at most share their beginnings. -/
structure Wired (slots : Array Slot) : Prop where
  /-- A transition goes over a terminal or a nonterminal. -/
  leads_symbol {b x d : SlotId} : Leads slots b x d →
    (∃ t, role? slots x = some (.terminal t)) ∨ ∃ name, role? slots x = some (.nonterminal name)
  /-- A transition stays within the alternatives of one nonterminal. -/
  leads_head {b x d : SlotId} : Leads slots b x d → head? slots d = head? slots b
  starts_head {a f : SlotId} : Starts slots a f → head? slots f = some a
  head_nonterminal {d a : SlotId} : head? slots d = some a →
    ∃ name, role? slots a = some (.nonterminal name)
  /-- No slot is entered over two transitions. -/
  leads_unique {b b' x x' d : SlotId} : Leads slots b x d → Leads slots b' x' d →
    b = b' ∧ x = x'
  /-- No transition leads back to where an alternative starts. -/
  not_leads_start {a b x f : SlotId} : Starts slots a f → ¬ Leads slots b x f

namespace Wired

variable (hw : Wired slots)
include hw

lemma path_head {b d : SlotId} {xs : List SlotId} (h : Path slots b xs d) :
    head? slots d = head? slots b := by
  induction h with
  | nil => rfl
  | cons hl _ ih => rw [ih, hw.leads_head hl]

/-- A route from the start of an alternative is determined by its end. -/
theorem route_unique {a a' f f' d : SlotId} {ts ts' : List Transition} (hf : Starts slots a f)
    (hf' : Starts slots a' f') (h : Route slots f ts d) (h' : Route slots f' ts' d) :
    f = f' ∧ ts = ts' := by
  -- the last transition of both is the only one into their common end
  induction ts using List.reverseRecOn generalizing d ts' with
  | nil =>
    obtain rfl := route_nil_iff.mp h
    rcases List.eq_nil_or_concat' ts' with rfl | ⟨us, u, rfl⟩
    · exact ⟨(route_nil_iff.mp h').symm, rfl⟩
    · obtain ⟨m, -, hl, -⟩ := h'.last
      exact absurd hl (hw.not_leads_start hf)
  | append_singleton ts t ih =>
    obtain ⟨m, hr, hl, ht⟩ := h.last
    rcases List.eq_nil_or_concat' ts' with rfl | ⟨us, u, rfl⟩
    · obtain rfl := route_nil_iff.mp h'
      exact absurd hl (hw.not_leads_start hf')
    · obtain ⟨m', hr', hl', hu⟩ := h'.last
      obtain ⟨rfl, hsymbol⟩ := hw.leads_unique hl hl'
      obtain ⟨rfl, rfl⟩ := ih hr hr'
      obtain ⟨x, c⟩ := t
      obtain rfl : x = u.symbol := hsymbol
      obtain rfl : c = u.dest := ht.trans hu.symm
      exact ⟨rfl, rfl⟩

/-- A path from the start of an alternative is determined by its end. -/
theorem path_unique {a a' f f' d : SlotId} {xs xs' : List SlotId} (hf : Starts slots a f)
    (hf' : Starts slots a' f') (h : Path slots f xs d) (h' : Path slots f' xs' d) :
    f = f' ∧ xs = xs' := by
  obtain ⟨ts, hr, rfl⟩ := h.exists_route
  obtain ⟨ts', hr', rfl⟩ := h'.exists_route
  exact (hw.route_unique hf hf' hr hr').imp id (congrArg _)

end Wired

end Slots

end GeneralParser
