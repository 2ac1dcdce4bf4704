import GeneralParser.Proofs.Grammar.Rules

/-!
# Nullable slots and first sets as a least fixpoint

The loop that summarises slots only stops when a round changes nothing, and nothing but its own
results bounds the number of rounds. It always stops, since every change adds something. What it
ends with is the least table that is closed under the rules; so whatever the order in which slots
are visited, it ends with the same.
-/

namespace GeneralParser

/-- Sets with the same members are equal, since both list them in increasing order. -/
lemma SlotSet.ext {s t : SlotSet} (h : ∀ y, y ∈ s ↔ y ∈ t) : s = t := by
  have hst := List.subperm_of_subset (s.increasing.imp Nat.ne_of_lt) fun y => (h y).mp
  have hts := List.subperm_of_subset (t.increasing.imp Nat.ne_of_lt) fun y => (h y).mpr
  have hids : s.ids = t.ids := (hst.antisymm hts).eq_of_pairwise
    (fun _ _ _ _ hab hba => absurd hab (Nat.lt_asymm hba)) s.increasing t.increasing
  cases s
  cases t
  simpa using hids

section

variable [PatternEngine]

namespace Summary

variable {slots : Array Slot} {T T' : Array Summary}

/-! ### Tables from which nothing new follows -/

omit [PatternEngine] in
lemma eq_of_known_eq (hsize : T.size = T'.size) (h : ∀ id, known T id = known T' id) :
    T = T' := by
  apply Array.ext hsize
  intro id hT hT'
  have hid := h id
  simpa only [known, Array.getElem?_eq_getElem hT, Array.getElem?_eq_getElem hT',
    Option.getD_some] using hid

omit [PatternEngine] in
lemma eq_of_iff {s t : Summary} (hnullable : s.nullable = true ↔ t.nullable = true)
    (hfirst : ∀ y, y ∈ s.first ↔ y ∈ t.first) : s = t := by
  obtain ⟨n, f⟩ := s
  obtain ⟨n', f'⟩ := t
  obtain rfl : n = n' := Bool.eq_iff_iff.mpr hnullable
  obtain rfl : f = f' := SlotSet.ext hfirst
  rfl

/-- There is only one table that says no more than the rules give, and from which nothing new
follows. -/
theorem Growing.eq_table (h : Growing slots T) (hsettled : ∀ id, Settled slots T id) :
    T = table slots := by
  obtain ⟨ht, htable⟩ := table_ok slots
  apply eq_of_known_eq (h.size.trans ht.size.symm)
  intro id
  apply eq_of_iff
  · exact (h.nullable_iff hsettled).trans nullable_table_iff.symm
  · intro y
    exact (h.mem_first_iff hsettled).trans mem_first_table_iff.symm

lemma settled_of_mem {ids : List SlotId} (hids : ∀ id, id < slots.size → id ∈ ids)
    (h : ∀ id ∈ ids, Settled slots T id) (id : SlotId) : Settled slots T id := by
  intro s a hs ha
  exact h id (hids id (Array.getElem?_eq_some_iff.mp hs).1) s a hs ha

/-! ### The loop -/

/-- The loop from a table on: it makes rounds, over the slots in the orders given, until one of them
changes nothing. -/
inductive Iterates (slots : Array Slot) :
    (Nat → List SlotId) → Array Summary → Array Summary → Prop
  | stop {orders : Nat → List SlotId} {T T' : Array Summary} :
    round slots T (orders 0) = (false, T') → Iterates slots orders T T'
  | again {orders : Nat → List SlotId} {T T₁ T' : Array Summary} :
    round slots T (orders 0) = (true, T₁) → Iterates slots (fun n => orders (n + 1)) T₁ T' →
    Iterates slots orders T T'

/-- The loop stops: what the table says is bounded, and grows with every round. -/
lemma Growing.exists_iterates (h : Growing slots T) (orders : Nat → List SlotId) :
    ∃ T', Iterates slots orders T T' := by
  obtain ⟨k, hk⟩ : ∃ k, slots.size * (slots.size + 1) < total T + k :=
    ⟨slots.size * (slots.size + 1) + 1, by omega⟩
  induction k generalizing T orders with
  | zero => exact absurd hk (Nat.not_lt.mpr h.total_le)
  | succ k ih =>
    obtain ⟨changed, T₁, hround⟩ : ∃ changed T₁, round slots T (orders 0) = (changed, T₁) :=
      ⟨_, _, rfl⟩
    obtain ⟨h₁, htotal, -⟩ := round_ok h hround
    cases changed with
    | false => exact ⟨T₁, .stop hround⟩
    | true =>
      rw [Bool.toNat_true] at htotal
      obtain ⟨T', hT'⟩ := ih h₁ (fun n => orders (n + 1)) (by omega)
      exact ⟨T', .again hround hT'⟩

/-- When the loop stops, nothing new follows for any slot that is visited in all rounds. -/
lemma Iterates.settled {orders : Nat → List SlotId}
    (horders : ∀ n id, id < slots.size → id ∈ orders n) (h : Growing slots T)
    (hT : Iterates slots orders T T') : Growing slots T' ∧ ∀ id, Settled slots T' id := by
  induction hT with
  | stop hround =>
    obtain ⟨-, -, hsame⟩ := round_ok h hround
    obtain ⟨rfl, hsettled⟩ := hsame rfl
    exact ⟨h, settled_of_mem (horders 0) hsettled⟩
  | again hround _ ih =>
    exact ih (fun n => horders (n + 1)) (round_ok h hround).1

/-- Summarising the slots comes to the same end, whatever the order in which they are visited. -/
structure Confluent (slots : Array Slot) : Prop where
  /-- If every round visits all slots, the loop stops, with the table. -/
  iterates_iff {orders : Nat → List SlotId} {T : Array Summary} :
    (∀ n id, id < slots.size → id ∈ orders n) →
    (Iterates slots orders (slots.mapIdx initial) T ↔ T = table slots)
  /-- Also without rounds, once no slot changes any more, the table is reached. -/
  stable {visits : List SlotId} {T : Array Summary} {changed : Bool} :
    round slots (slots.mapIdx initial) visits = (changed, T) →
    (∀ id, id < slots.size → (improve slots T id).1 = false) → T = table slots

theorem confluent (slots : Array Slot) : Confluent slots := by
  refine ⟨?_, ?_⟩
  · intro orders T horders
    have heq {T : Array Summary} (h : Iterates slots orders (slots.mapIdx initial) T) :
        T = table slots := by
      obtain ⟨hT, hsettled⟩ := h.settled horders growing_initial
      exact hT.eq_table hsettled
    constructor
    · exact heq
    · rintro rfl
      have hinitial : Growing slots (slots.mapIdx initial) := growing_initial
      obtain ⟨T, hT⟩ := hinitial.exists_iterates orders
      exact heq hT ▸ hT
  · intro visits T changed hround hstable
    obtain ⟨hT, -, -⟩ := round_ok growing_initial hround
    apply hT.eq_table
    intro id s a hs ha
    have hid := hstable id (Array.getElem?_eq_some_iff.mp hs).1
    exact ((improve_ok hT (Prod.ext hid rfl)).2.2 rfl).2 s a hs ha

end Summary

/-- In every graph that is built from rules, what is stored for a slot is what the rules for nullable
slots and first sets give in finitely many steps. It is filled in from the layout by a loop that
stops, and whose result does not depend on the order in which it visits the slots. -/
theorem Graph.fixpoint_of_build {share : Bool} {rules : List (String × List Symbol)} {g : Graph}
    (h : (Rules.ofList share rules).build = .ok g) :
    g.Summarised ∧ ∃ l, (Rules.ofList share rules).layout = .ok l ∧
      g = ⟨Summary.fillIn l.slots, l.registry⟩ ∧
      Summary.Iterates l.slots (fun _ => List.range l.slots.size)
        (l.slots.mapIdx Summary.initial) (Summary.table l.slots) ∧
      Summary.Confluent l.slots := by
  refine ⟨(spells_of_build h).summarised, ?_⟩
  obtain ⟨l, hl, hg⟩ := bind_eq_ok_iff.mp h
  obtain rfl : ⟨Summary.fillIn l.slots, l.registry⟩ = g := by simpa [pure, Except.pure] using hg
  have hconfluent := Summary.confluent l.slots
  refine ⟨l, hl, rfl, (hconfluent.iterates_iff ?_).mpr rfl, hconfluent⟩
  intro n id hid
  exact List.mem_range.mpr hid

end

/-- It is so for the small grammar, in which every nonterminal is nullable. -/
theorem Graph.fixpoint_letters :
    (Rules.ofList true Rules.letters).build = .ok letters ∧ letters.Summarised ∧
    ∃ l, (Rules.ofList true Rules.letters).layout = .ok l ∧
      letters = ⟨Summary.fillIn l.slots, l.registry⟩ ∧
      Summary.Iterates l.slots (fun _ => List.range l.slots.size)
        (l.slots.mapIdx Summary.initial) (Summary.table l.slots) ∧
      Summary.Confluent l.slots :=
  ⟨build_letters, fixpoint_of_build build_letters⟩

end GeneralParser
