import GeneralParser.Grammar.Summary
import GeneralParser.Proofs.Grammar.Path
import Mathlib.Algebra.Order.BigOperators.Group.Finset
import Mathlib.Data.List.Perm.Subperm

/-!
# Nullable slots and first sets

What the summaries of slots say is given here by rules. The rounds that compute them stay below
what the rules give, and each of them but the last adds something, so the computation ends in a
table that is closed under the rules.
-/

namespace GeneralParser

variable [PatternEngine]

open Slots (role? Leads)

namespace Slots

variable {slots slots' : Array Slot}

/-- What comes after slot `id` may be taken as empty. -/
inductive Nullable (slots : Array Slot) : SlotId → Prop
  | terminal {x : SlotId} {t : Terminal} : role? slots x = some (.terminal t) → t.isNullable →
    Nullable slots x
  | done {e a : SlotId} {k : Nat} : role? slots e = some (.done a k) → Nullable slots e
  | nonterminal {a f : SlotId} : Starts slots a f → Nullable slots f → Nullable slots a
  | body {b x d : SlotId} : Leads slots b x d → Nullable slots x → Nullable slots d →
    Nullable slots b

/-- What comes after slot `id` can start with the terminal `t`. -/
inductive First (slots : Array Slot) : SlotId → SlotId → Prop
  | terminal {x : SlotId} {t : Terminal} : role? slots x = some (.terminal t) → First slots x x
  | nonterminal {a f y : SlotId} : Starts slots a f → First slots f y → First slots a y
  | symbol {b x d y : SlotId} : Leads slots b x d → First slots x y → First slots b y
  | dest {b x d y : SlotId} : Leads slots b x d → Nullable slots x → First slots d y →
    First slots b y

lemma First.isTerminal {id y : SlotId} (h : First slots id y) :
    ∃ t, role? slots y = some (.terminal t) := by
  induction h with
  | terminal h => exact ⟨_, h⟩
  | nonterminal _ _ ih | symbol _ _ ih | dest _ _ _ ih => exact ih

lemma Nullable.mono (hrole : ∀ {id r}, role? slots id = some r → role? slots' id = some r)
    (hleads : ∀ {b x d}, Leads slots b x d → Leads slots' b x d)
    (hstarts : ∀ {a f}, Starts slots a f → Starts slots' a f) {id : SlotId}
    (h : Nullable slots id) : Nullable slots' id := by
  induction h with
  | terminal h ht => exact .terminal (hrole h) ht
  | done h => exact .done (hrole h)
  | nonterminal h _ ih => exact .nonterminal (hstarts h) ih
  | body h _ _ ih ih' => exact .body (hleads h) ih ih'

lemma First.mono (hrole : ∀ {id r}, role? slots id = some r → role? slots' id = some r)
    (hleads : ∀ {b x d}, Leads slots b x d → Leads slots' b x d)
    (hstarts : ∀ {a f}, Starts slots a f → Starts slots' a f) {id y : SlotId}
    (h : First slots id y) : First slots' id y := by
  induction h with
  | terminal h => exact .terminal (hrole h)
  | nonterminal h _ ih => exact .nonterminal (hstarts h) ih
  | symbol h _ ih => exact .symbol (hleads h) ih
  | dest h hn _ ih => exact .dest (hleads h) (hn.mono hrole hleads hstarts) ih

end Slots

namespace Summary

open Slots (Nullable First)

variable {slots : Array Slot} {T T' : Array Summary}

/-! ### The order of summaries -/

section

omit [PatternEngine]

/-- `t` says all that `s` says. -/
structure Le (s t : Summary) : Prop where
  nullable : s.nullable = true → t.nullable = true
  first {y : SlotId} : y ∈ s.first → y ∈ t.first

lemma Le.refl (s : Summary) : Le s s := ⟨id, id⟩

lemma bottom_le (s : Summary) : Le bottom s := by
  constructor
  · intro h
    cases h
  · intro y hy
    exact absurd hy SlotSet.not_mem_empty

/-- How much a summary says. -/
def weight (s : Summary) : Nat := s.nullable.toNat + s.first.size

lemma size_le_of_subset {s t : SlotSet} (h : ∀ {y}, y ∈ s → y ∈ t) : s.size ≤ t.size :=
  (List.subperm_of_subset (s.increasing.imp Nat.ne_of_lt) fun _ => h).length_le

/-- Of two sets of one size, neither has a member that the other lacks. -/
lemma subset_of_size_le {s t : SlotSet} (h : ∀ {y}, y ∈ s → y ∈ t) (hsize : t.size ≤ s.size)
    {y : SlotId} (hy : y ∈ t) : y ∈ s := by
  have hsub := List.subperm_of_subset (s.increasing.imp Nat.ne_of_lt) fun _ => h
  exact (hsub.perm_of_length_le hsize).mem_iff.mpr hy

lemma Le.weight_le {s t : Summary} (h : Le s t) : s.weight ≤ t.weight := by
  have := size_le_of_subset h.first
  have : s.nullable.toNat ≤ t.nullable.toNat := Bool.toNat_le_toNat fun hs => h.nullable hs
  simp only [weight]
  omega

/-- Summaries that differ at all, the one below the other, differ in weight. -/
lemma Le.weight_lt {s t : Summary} (h : Le s t) (hd : t.differs s = true) :
    s.weight < t.weight := by
  have hfirst := size_le_of_subset h.first
  have hnull := h.nullable
  rw [differs] at hd
  simp only [weight]
  cases hs : s.nullable <;> cases ht : t.nullable <;> simp_all <;> omega

lemma Le.of_not_differs {s t : Summary} (h : Le s t) (hd : t.differs s = false) : Le t s := by
  simp only [differs, Bool.or_eq_false_iff, bne_eq_false_iff_eq] at hd
  refine ⟨fun ht => by rw [← hd.1, ht], ?_⟩
  exact subset_of_size_le h.first (Nat.le_of_eq hd.2)

end

/-! ### What follows from a table -/

section

omit [PatternEngine]

lemma nullable_foldl_either {l : List Summary} {s : Summary} :
    (l.foldl either s).nullable = true ↔ s.nullable = true ∨ ∃ a ∈ l, a.nullable = true := by
  induction l generalizing s with
  | nil => simp
  | cons a l ih => simp [ih, either, or_assoc]

lemma mem_first_foldl_either {l : List Summary} {s : Summary} {y : SlotId} :
    y ∈ (l.foldl either s).first ↔ y ∈ s.first ∨ ∃ a ∈ l, y ∈ a.first := by
  induction l generalizing s with
  | nil => simp
  | cons a l ih => simp [ih, either, or_assoc]

lemma nullable_andThen {s t : Summary} :
    (s.andThen t).nullable = true ↔ s.nullable = true ∧ t.nullable = true := by
  rw [andThen]
  split <;> simp_all

lemma mem_first_andThen {s t : Summary} {y : SlotId} :
    y ∈ (s.andThen t).first ↔ y ∈ s.first ∨ (s.nullable = true ∧ y ∈ t.first) := by
  rw [andThen]
  split <;> simp_all

end

/-- A slot is derived to be nullable from the slots that it refers to. -/
lemma nullable_derived {id : SlotId} {s : Slot} {a : Summary} (hs : slots[id]? = some s)
    (ha : derived T s = some a) :
    a.nullable = true ↔
      (∃ f, Slots.Starts slots id f ∧ (known T f).nullable = true) ∨
        ∃ x d, Leads slots id x d ∧ (known T x).nullable = true ∧
          (known T d).nullable = true := by
  cases s with
  | nonterminal s =>
    obtain rfl := Option.some.inj ha
    have hno (x d : SlotId) : ¬ Leads slots id x d := by
      rintro ⟨b, hb, -⟩
      simp [hs] at hb
    simp [nullable_foldl_either, bottom, Slots.starts_iff_of_nonterminal hs, hno]
  | body s =>
    obtain rfl := Option.some.inj ha
    have hno (f : SlotId) : ¬ Slots.Starts slots id f := by
      rintro ⟨n, hn, -⟩
      simp [hs] at hn
    simp only [nullable_foldl_either, bottom, Slots.leads_iff_of_body hs, hno, List.mem_map,
      Bool.false_eq_true, false_and, exists_false, false_or]
    constructor
    · rintro ⟨-, ⟨t, ht, rfl⟩, hn⟩
      exact ⟨t.symbol, t.dest, ht, nullable_andThen.mp hn⟩
    · rintro ⟨x, d, ht, hn⟩
      exact ⟨_, ⟨⟨x, d⟩, ht, rfl⟩, nullable_andThen.mpr hn⟩
  | terminal _ | done _ => cases ha

lemma mem_first_derived {id y : SlotId} {s : Slot} {a : Summary} (hs : slots[id]? = some s)
    (ha : derived T s = some a) :
    y ∈ a.first ↔
      (∃ f, Slots.Starts slots id f ∧ y ∈ (known T f).first) ∨
        ∃ x d, Leads slots id x d ∧ (y ∈ (known T x).first ∨
          ((known T x).nullable = true ∧ y ∈ (known T d).first)) := by
  cases s with
  | nonterminal s =>
    obtain rfl := Option.some.inj ha
    have hno (x d : SlotId) : ¬ Leads slots id x d := by
      rintro ⟨b, hb, -⟩
      simp [hs] at hb
    simp [mem_first_foldl_either, bottom, Slots.starts_iff_of_nonterminal hs, hno]
  | body s =>
    obtain rfl := Option.some.inj ha
    have hno (f : SlotId) : ¬ Slots.Starts slots id f := by
      rintro ⟨n, hn, -⟩
      simp [hs] at hn
    simp only [mem_first_foldl_either, bottom, Slots.leads_iff_of_body hs, hno, List.mem_map,
      SlotSet.not_mem_empty, false_and, exists_false, false_or]
    constructor
    · rintro ⟨-, ⟨t, ht, rfl⟩, hy⟩
      exact ⟨t.symbol, t.dest, ht, mem_first_andThen.mp hy⟩
    · rintro ⟨x, d, ht, hy⟩
      exact ⟨_, ⟨⟨x, d⟩, ht, rfl⟩, mem_first_andThen.mpr hy⟩
  | terminal _ | done _ => cases ha

/-- More follows from a table that knows more. -/
lemma derived_mono (h : ∀ id, Le (known T id) (known T' id)) {id : SlotId} {s : Slot}
    {a a' : Summary} (hs : slots[id]? = some s) (ha : derived T s = some a)
    (ha' : derived T' s = some a') : Le a a' := by
  constructor
  · rw [nullable_derived hs ha, nullable_derived hs ha']
    rintro (⟨f, hf, hn⟩ | ⟨x, d, hl, hx, hd⟩)
    · exact Or.inl ⟨f, hf, (h f).nullable hn⟩
    · exact Or.inr ⟨x, d, hl, (h x).nullable hx, (h d).nullable hd⟩
  · intro y
    rw [mem_first_derived hs ha, mem_first_derived hs ha']
    rintro (⟨f, hf, hy⟩ | ⟨x, d, hl, hy | ⟨hx, hy⟩⟩)
    · exact Or.inl ⟨f, hf, (h f).first hy⟩
    · exact Or.inr ⟨x, d, hl, Or.inl ((h x).first hy)⟩
    · exact Or.inr ⟨x, d, hl, Or.inr ⟨(h x).nullable hx, (h d).first hy⟩⟩

/-- Whether anything can follow for a slot does not depend on the table. -/
lemma derived_eq_none_iff {s : Slot} : derived T s = none ↔ derived T' s = none := by
  cases s <;> simp [derived]

/-! ### What holds in every round -/

/-- The table says nothing that the rules do not give, all that the terminals and ends say by
themselves, and of every other slot at most what follows for it. -/
structure Growing (slots : Array Slot) (T : Array Summary) : Prop where
  size : T.size = slots.size
  nullable {id : SlotId} : (known T id).nullable = true → Nullable slots id
  first {id y : SlotId} : y ∈ (known T id).first → First slots id y
  base {id : SlotId} {s : Slot} : slots[id]? = some s → derived T s = none →
    known T id = initial id s
  supported {id : SlotId} {s : Slot} {a : Summary} : slots[id]? = some s →
    derived T s = some a → Le (known T id) a

/-- Nothing new follows for slot `id`. -/
def Settled (slots : Array Slot) (T : Array Summary) (id : SlotId) : Prop :=
  ∀ s a, slots[id]? = some s → derived T s = some a → Le a (known T id)

/-- How much a table says. -/
def total (T : Array Summary) : Nat := ∑ id ∈ Finset.range T.size, (known T id).weight

lemma growing_initial : Growing slots (slots.mapIdx initial) := by
  have hknown {id : SlotId} : known (slots.mapIdx initial) id =
      (slots[id]?.map (initial id)).getD bottom := by simp [known, Array.getElem?_mapIdx]
  refine ⟨by simp, ?_, ?_, ?_, ?_⟩
  · intro id h
    rw [hknown] at h
    cases hs : slots[id]? with
    | none => simp [hs, bottom] at h
    | some s =>
      cases s with
      | nonterminal _ | body _ => simp [hs, initial, bottom] at h
      | terminal s =>
        exact .terminal (Slots.role?_terminal.mpr ⟨s, hs, rfl⟩) (by simpa [hs, initial] using h)
      | done s => exact .done (Slots.role?_done.mpr ⟨s, hs, rfl, rfl⟩)
  · intro id y h
    rw [hknown] at h
    cases hs : slots[id]? with
    | none => simp [hs, bottom] at h
    | some s =>
      cases s with
      | nonterminal _ | body _ | done _ => simp [hs, initial, bottom] at h
      | terminal s =>
        obtain rfl : y = id := by simpa [hs, initial] using h
        exact .terminal (Slots.role?_terminal.mpr ⟨s, hs, rfl⟩)
  · intro id s hs _
    simp [hknown, hs]
  · intro id s a hs ha
    cases s with
    | nonterminal _ | body _ =>
      rw [show known (slots.mapIdx initial) id = bottom by simp [hknown, hs, initial]]
      exact bottom_le a
    | terminal _ | done _ => cases ha

omit [PatternEngine] in
lemma known_set {id j : SlotId} {a : Summary} (hid : id < T.size) :
    known (T.setIfInBounds id a) j = if j = id then a else known T j := by
  simp only [known]
  rw [Array.getElem?_setIfInBounds]
  by_cases h : id = j
  · subst h
    simp [hid]
  · simp [h, Ne.symm h]

/-- Setting a slot to what follows for it keeps what holds in every round. -/
lemma Growing.set (h : Growing slots T) {id : SlotId} {s : Slot} {a : Summary}
    (hs : slots[id]? = some s) (ha : derived T s = some a) :
    Growing slots (T.setIfInBounds id a) ∧
      ∀ j, Le (known T j) (known (T.setIfInBounds id a) j) := by
  have hid : id < T.size := by
    rw [h.size]
    exact (Array.getElem?_eq_some_iff.mp hs).1
  have hle (j : SlotId) : Le (known T j) (known (T.setIfInBounds id a) j) := by
    rw [known_set hid]
    split
    next hj =>
      subst hj
      exact h.supported hs ha
    next => exact .refl _
  refine ⟨⟨by simpa using h.size, ?_, ?_, ?_, ?_⟩, hle⟩
  · intro j hj
    rw [known_set hid] at hj
    split at hj
    next heq =>
      subst heq
      rcases (nullable_derived hs ha).mp hj with ⟨f, hf, hn⟩ | ⟨x, d, hl, hx, hd⟩
      · exact .nonterminal hf (h.nullable hn)
      · exact .body hl (h.nullable hx) (h.nullable hd)
    next => exact h.nullable hj
  · intro j y hj
    rw [known_set hid] at hj
    split at hj
    next heq =>
      subst heq
      rcases (mem_first_derived hs ha).mp hj with ⟨f, hf, hy⟩ | ⟨x, d, hl, hy | ⟨hx, hy⟩⟩
      · exact .nonterminal hf (h.first hy)
      · exact .symbol hl (h.first hy)
      · exact .dest hl (h.nullable hx) (h.first hy)
    next => exact h.first hj
  · intro j s' hs' hnone
    have hnone' : derived T s' = none := derived_eq_none_iff.mp hnone
    rw [known_set hid, if_neg, h.base hs' hnone']
    rintro rfl
    rw [hs] at hs'
    cases hs'
    rw [ha] at hnone'
    cases hnone'
  · intro j s' a' hs' ha'
    obtain ⟨b, hb⟩ : ∃ b, derived T s' = some b := by
      rw [← Option.ne_none_iff_exists']
      intro hnone
      rw [derived_eq_none_iff.mp hnone] at ha'
      cases ha'
    have hba := derived_mono hle hs' hb ha'
    rw [known_set hid]
    split
    next heq =>
      subst heq
      rw [hs] at hs'
      cases hs'
      rw [ha] at hb
      cases hb
      exact hba
    next =>
      have hj := h.supported hs' hb
      exact ⟨fun hn => hba.nullable (hj.nullable hn), fun hy => hba.first (hj.first hy)⟩

lemma improve_ok (h : Growing slots T) {id : SlotId} {changed : Bool}
    (hi : improve slots T id = (changed, T')) :
    Growing slots T' ∧ total T + changed.toNat ≤ total T' ∧
      (changed = false → T' = T ∧ Settled slots T id) := by
  rw [improve] at hi
  split at hi
  next a hbind =>
    obtain ⟨s, hs, ha⟩ := Option.bind_eq_some_iff.mp hbind
    split at hi
    next hd =>
      obtain ⟨rfl, rfl⟩ : true = changed ∧ T.setIfInBounds id a = T' := by simpa using hi
      obtain ⟨hT', hle⟩ := h.set hs ha
      refine ⟨hT', ?_, by simp⟩
      have hid : id < T.size := by
        rw [h.size]
        exact (Array.getElem?_eq_some_iff.mp hs).1
      have hlt : total T < total (T.setIfInBounds id a) := by
        simp only [total]
        rw [Array.size_setIfInBounds]
        refine Finset.sum_lt_sum (fun j _ => (hle j).weight_le)
          ⟨id, Finset.mem_range.mpr hid, ?_⟩
        rw [known_set hid, if_pos rfl]
        exact (h.supported hs ha).weight_lt hd
      exact hlt
    next hd =>
      obtain ⟨rfl, rfl⟩ : false = changed ∧ T = T' := by simpa using hi
      refine ⟨h, Nat.le_refl _, fun _ => ⟨rfl, ?_⟩⟩
      intro s' a' hs' ha'
      rw [hs] at hs'
      cases hs'
      rw [ha] at ha'
      cases ha'
      exact (h.supported hs ha).of_not_differs (by simpa using hd)
  next hbind =>
    obtain ⟨rfl, rfl⟩ : false = changed ∧ T = T' := by simpa using hi
    refine ⟨h, Nat.le_refl _, fun _ => ⟨rfl, ?_⟩⟩
    intro s a hs ha
    simp [hs, ha] at hbind

lemma round_ok (h : Growing slots T) {ids : List SlotId} {changed : Bool}
    (hr : round slots T ids = (changed, T')) :
    Growing slots T' ∧ total T + changed.toNat ≤ total T' ∧
      (changed = false → T' = T ∧ ∀ id ∈ ids, Settled slots T id) := by
  induction ids generalizing T changed with
  | nil =>
    obtain ⟨rfl, rfl⟩ : false = changed ∧ T = T' := by simpa [round] using hr
    exact ⟨h, Nat.le_refl _, fun _ => ⟨rfl, by simp⟩⟩
  | cons id ids ih =>
    obtain ⟨here, T₁, hi⟩ : ∃ here T₁, improve slots T id = (here, T₁) := ⟨_, _, rfl⟩
    obtain ⟨later, T₂, hr'⟩ : ∃ later T₂, round slots T₁ ids = (later, T₂) := ⟨_, _, rfl⟩
    obtain ⟨rfl, rfl⟩ : (here || later) = changed ∧ T₂ = T' := by simpa [round, hi, hr'] using hr
    obtain ⟨h₁, htotal₁, hsame₁⟩ := improve_ok h hi
    obtain ⟨h₂, htotal₂, hsame₂⟩ := ih h₁ hr'
    refine ⟨h₂, ?_, ?_⟩
    · have : (here || later).toNat ≤ here.toNat + later.toNat := by
        cases here <;> cases later <;> decide
      omega
    · intro hno
      obtain ⟨rfl, rfl⟩ := Bool.or_eq_false_iff.mp hno
      obtain ⟨rfl, hid⟩ := hsame₁ rfl
      obtain ⟨rfl, hids⟩ := hsame₂ rfl
      refine ⟨rfl, ?_⟩
      intro j hj
      rcases List.mem_cons.mp hj with rfl | hj
      · exact hid
      · exact hids j hj

/-- No table says more than that all slots are nullable and start with all slots. -/
lemma Growing.total_le (h : Growing slots T) : total T ≤ slots.size * (slots.size + 1) := by
  have hweight (id : SlotId) : (known T id).weight ≤ slots.size + 1 := by
    have hsub : (known T id).first.ids ⊆ List.range slots.size := by
      intro y hy
      obtain ⟨t, ht⟩ := (h.first hy).isTerminal
      exact List.mem_range.mpr (Slots.lt_size_of_role? ht)
    have hlen := (List.subperm_of_subset
      ((known T id).first.increasing.imp Nat.ne_of_lt) hsub).length_le
    rw [List.length_range] at hlen
    have := Bool.toNat_le (known T id).nullable
    rw [weight, SlotSet.size]
    omega
  apply (Finset.sum_le_sum fun id _ => hweight id).trans
  simp [h.size]

lemma rounds_ok {fuel : Nat} (h : Growing slots T)
    (hfuel : slots.size * (slots.size + 1) < total T + fuel) :
    Growing slots (rounds slots fuel T) ∧ ∀ id, Settled slots (rounds slots fuel T) id := by
  induction fuel generalizing T with
  | zero => exact absurd hfuel (Nat.not_lt.mpr h.total_le)
  | succ fuel ih =>
    rw [rounds]
    split
    next T' hr =>
      obtain ⟨h', htotal, -⟩ := round_ok h hr
      refine ih h' (hfuel.trans_le ?_)
      simp only [Bool.toNat_true] at htotal
      omega
    next T' hr =>
      obtain ⟨-, -, hsame⟩ := round_ok h hr
      obtain ⟨rfl, hsettled⟩ := hsame rfl
      refine ⟨h, ?_⟩
      intro id s a hs ha
      exact hsettled id (List.mem_range.mpr (Array.getElem?_eq_some_iff.mp hs).1) s a hs ha

/-! ### The table -/

/-- What a slot refers to has an entry that follows from the table. -/
lemma exists_derived_of_starts {a f : SlotId} (h : Slots.Starts slots a f) :
    ∃ s b, slots[a]? = some s ∧ derived T s = some b := by
  obtain ⟨s, hs, -⟩ := h
  exact ⟨_, _, hs, rfl⟩

lemma exists_derived_of_leads {b x d : SlotId} (h : Leads slots b x d) :
    ∃ s a, slots[b]? = some s ∧ derived T s = some a := by
  obtain ⟨s, hs, -⟩ := h
  exact ⟨_, _, hs, rfl⟩

section settled

variable (hg : Growing slots T) (hsettled : ∀ id, Settled slots T id)
include hg hsettled

/-- If nothing new follows from a table, it marks as nullable what the rules make nullable. -/
theorem Growing.nullable_iff {id : SlotId} :
    (known T id).nullable = true ↔ Nullable slots id := by
  refine ⟨hg.nullable, ?_⟩
  intro h
  induction h with
  | terminal h ht =>
    obtain ⟨s, hs, rfl⟩ := Slots.role?_terminal.mp h
    rw [hg.base hs rfl]
    exact ht
  | done h =>
    obtain ⟨s, hs, -, -⟩ := Slots.role?_done.mp h
    rw [hg.base hs rfl]
    rfl
  | nonterminal h _ ih =>
    obtain ⟨s, b, hs, hb⟩ := exists_derived_of_starts (T := T) h
    exact (hsettled _ s b hs hb).nullable ((nullable_derived hs hb).mpr (Or.inl ⟨_, h, ih⟩))
  | body h _ _ ih ih' =>
    obtain ⟨s, b, hs, hb⟩ := exists_derived_of_leads (T := T) h
    exact (hsettled _ s b hs hb).nullable
      ((nullable_derived hs hb).mpr (Or.inr ⟨_, _, h, ih, ih'⟩))

/-- If nothing new follows from a table, it lists as first the terminals with which the rules let a
slot start. -/
theorem Growing.mem_first_iff {id y : SlotId} :
    y ∈ (known T id).first ↔ First slots id y := by
  refine ⟨hg.first, ?_⟩
  intro h
  induction h with
  | terminal h =>
    obtain ⟨s, hs, rfl⟩ := Slots.role?_terminal.mp h
    rw [hg.base hs rfl]
    simp [initial]
  | nonterminal h _ ih =>
    obtain ⟨s, b, hs, hb⟩ := exists_derived_of_starts (T := T) h
    exact (hsettled _ s b hs hb).first ((mem_first_derived hs hb).mpr (Or.inl ⟨_, h, ih⟩))
  | symbol h _ ih =>
    obtain ⟨s, b, hs, hb⟩ := exists_derived_of_leads (T := T) h
    exact (hsettled _ s b hs hb).first
      ((mem_first_derived hs hb).mpr (Or.inr ⟨_, _, h, Or.inl ih⟩))
  | dest h hn _ ih =>
    obtain ⟨s, b, hs, hb⟩ := exists_derived_of_leads (T := T) h
    exact (hsettled _ s b hs hb).first ((mem_first_derived hs hb).mpr
      (Or.inr ⟨_, _, h, Or.inr ⟨(hg.nullable_iff hsettled).mpr hn, ih⟩⟩))

end settled

lemma table_ok (slots : Array Slot) :
    Growing slots (table slots) ∧ ∀ id, Settled slots (table slots) id :=
  rounds_ok growing_initial (by omega)

/-- The table marks as nullable what the rules make nullable. -/
theorem nullable_table_iff {id : SlotId} :
    (known (table slots) id).nullable = true ↔ Nullable slots id :=
  (table_ok slots).1.nullable_iff (table_ok slots).2

/-- The table lists as first the terminals with which the rules let a slot start. -/
theorem mem_first_table_iff {id y : SlotId} :
    y ∈ (known (table slots) id).first ↔ First slots id y :=
  (table_ok slots).1.mem_first_iff (table_ok slots).2

end Summary

end GeneralParser
