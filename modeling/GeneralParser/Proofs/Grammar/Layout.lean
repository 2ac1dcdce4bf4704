import GeneralParser.Grammar.Build
import GeneralParser.Proofs.Grammar.Path

/-!
# Layouts under construction

Each step of laying out a grammar adds one slot, enters it over at most one transition, or only
changes labels. What holds of a layout through all of this is collected in `Laid`: the slots are
wired, the alternatives laid out so far are spelled by paths, and no end belongs to another.
-/

namespace GeneralParser

variable [PatternEngine]

open Slots (role? head? Leads Path)

/-- The role of the slot for a symbol. -/
def Symbol.role : Symbol → Slot.Role
  | .terminal t => .terminal t
  | .nonterminal name => .nonterminal name

namespace Slots

variable {slots slots' : Array Slot}

/-- The slots `xs` stand for the symbols `body`. -/
def Spelled (slots : Array Slot) (xs : List SlotId) (body : List Symbol) : Prop :=
  xs.map (role? slots) = body.map fun X => some X.role

lemma Spelled.mono (h : ∀ {id r}, role? slots id = some r → role? slots' id = some r)
    {xs : List SlotId} {body : List Symbol} (hs : Spelled slots xs body) :
    Spelled slots' xs body := by
  induction xs generalizing body with
  | nil => exact hs
  | cons x xs ih =>
    cases body with
    | nil => simp [Spelled] at hs
    | cons X body =>
      obtain ⟨hx, hxs⟩ : role? slots x = some X.role ∧ Spelled slots xs body := by
        simpa [Spelled] using hs
      simpa [Spelled, h hx] using ih hxs

lemma Spelled.concat {xs : List SlotId} {body : List Symbol} {x : SlotId} {X : Symbol}
    (hs : Spelled slots xs body) (hx : role? slots x = some X.role) :
    Spelled slots (xs ++ [x]) (body ++ [X]) := by
  simp only [Spelled, List.map_append, List.map_cons, List.map_nil, hx]
  rw [hs]

lemma Path.mono (h : ∀ {b x d}, Leads slots b x d → Leads slots' b x d) {b d : SlotId}
    {xs : List SlotId} (hp : Path slots b xs d) : Path slots' b xs d := by
  induction hp with
  | nil b => exact .nil b
  | cons hl _ ih => exact .cons (h hl) ih

/-! ### Single changes -/

lemma role?_push {s : Slot} {id : SlotId} :
    role? (slots.push s) id = if id = slots.size then some s.role else role? slots id := by
  simp only [role?, Array.getElem?_push]
  split <;> simp

lemma leads_push {s : Slot} (hs : ∀ b, s = .body b → b.transitions = []) {b x d : SlotId} :
    Leads (slots.push s) b x d ↔ Leads slots b x d := by
  rw [Leads]
  simp only [Array.getElem?_push]
  constructor
  · rintro ⟨s', hs', ht⟩
    split at hs'
    · cases hs'
      simp [hs s' rfl] at ht
    · exact ⟨s', hs', ht⟩
  · rintro ⟨s', hs', ht⟩
    refine ⟨s', ?_, ht⟩
    rw [if_neg, hs']
    rintro rfl
    simp at hs'

lemma starts_push {s : Slot} (hs : ∀ n, s = .nonterminal n → n.firstSlots = []) {a f : SlotId} :
    Slots.Starts (slots.push s) a f ↔ Slots.Starts slots a f := by
  rw [Slots.Starts]
  simp only [Array.getElem?_push]
  constructor
  · rintro ⟨s', hs', ht⟩
    split at hs'
    · cases hs'
      simp [hs s' rfl] at ht
    · exact ⟨s', hs', ht⟩
  · rintro ⟨s', hs', ht⟩
    refine ⟨s', ?_, ht⟩
    rw [if_neg, hs']
    rintro rfl
    simp at hs'

end Slots

namespace Layout

variable {l l' : Layout}

lemma role?_modifyBody {id j : SlotId} {f : BodySlot → BodySlot}
    (hf : ∀ b, (f b).head = b.head ∧ (f b).position = b.position) :
    role? (l.modifyBody id f).slots j = role? l.slots j := by
  simp only [role?, modifyBody, Array.getElem?_modify]
  split
  · cases l.slots[j]? with
    | none => rfl
    | some s => cases s <;> simp [Slot.role, hf]
  · rfl

lemma starts_modifyBody {id a x : SlotId} {f : BodySlot → BodySlot} :
    Slots.Starts (l.modifyBody id f).slots a x ↔ Slots.Starts l.slots a x := by
  simp only [Slots.Starts, modifyBody, Array.getElem?_modify]
  split
  · cases l.slots[a]? with
    | none => simp
    | some s => cases s <;> simp
  · rfl

lemma leads_modifyBody {id b x d : SlotId} {f : BodySlot → BodySlot} :
    Leads (l.modifyBody id f).slots b x d ↔
      ∃ s, l.slots[b]? = some (.body s) ∧ ⟨x, d⟩ ∈ (if id = b then f s else s).transitions := by
  simp only [Leads, modifyBody, Array.getElem?_modify]
  split
  · cases l.slots[b]? with
    | none => simp
    | some s => cases s <;> simp
  · simp

lemma role?_addTransition {source j : SlotId} {t : Transition} :
    role? (l.addTransition source t).slots j = role? l.slots j :=
  role?_modifyBody fun _ => ⟨rfl, rfl⟩

lemma leads_addTransition {source b x d : SlotId} {t : Transition} {s : BodySlot}
    (hs : l.slots[source]? = some (.body s)) :
    Leads (l.addTransition source t).slots b x d ↔
      Leads l.slots b x d ∨ (b = source ∧ ⟨x, d⟩ = t) := by
  rw [addTransition, leads_modifyBody]
  by_cases hb : source = b
  · subst hb
    simp [Leads, hs]
  · simp only [if_neg hb, Leads]
    constructor
    · exact Or.inl
    · rintro (h | ⟨rfl, -⟩)
      · exact h
      · exact absurd rfl hb

lemma role?_markShared {a : Alternative} {id j : SlotId} {n : Nat} :
    role? (l.markShared a id n).slots j = role? l.slots j :=
  role?_modifyBody fun _ => ⟨rfl, rfl⟩

lemma leads_markShared {a : Alternative} {id b x d : SlotId} {n : Nat} :
    Leads (l.markShared a id n).slots b x d ↔ Leads l.slots b x d := by
  rw [markShared, leads_modifyBody, Leads]
  refine exists_congr fun s => and_congr_right ?_
  intro _
  split <;> rfl

lemma role?_setFirstSlots {id j : SlotId} {fs : List SlotId} :
    role? (l.setFirstSlots id fs).slots j = role? l.slots j := by
  simp only [role?, setFirstSlots, Array.getElem?_modify]
  split
  · cases l.slots[j]? with
    | none => rfl
    | some s => cases s <;> simp [Slot.role]
  · rfl

lemma leads_setFirstSlots {id b x d : SlotId} {fs : List SlotId} :
    Leads (l.setFirstSlots id fs).slots b x d ↔ Leads l.slots b x d := by
  simp only [Leads, setFirstSlots, Array.getElem?_modify]
  split
  · cases l.slots[b]? with
    | none => simp
    | some s => cases s <;> simp
  · rfl

lemma starts_setFirstSlots {id a f : SlotId} {fs : List SlotId} {name : String}
    (hid : role? l.slots id = some (.nonterminal name)) :
    Slots.Starts (l.setFirstSlots id fs).slots a f ↔
      if a = id then f ∈ fs else Slots.Starts l.slots a f := by
  simp only [Slots.Starts, setFirstSlots, Array.getElem?_modify]
  by_cases ha : a = id
  · subst ha
    obtain ⟨s, hs, -⟩ := Slots.role?_nonterminal.mp hid
    simp [hs]
  · rw [if_neg ha, if_neg (Ne.symm ha)]

/-! ### What holds throughout -/

/-- The layout holds the alternatives `laid`: alternative `k` of nonterminal `a` with its body.
Those of `a` start in the slots `root a`, which its slot need not list yet. -/
structure Laid (laid : SlotId → Nat → List Symbol → Prop) (root : SlotId → SlotId → Prop)
    (l : Layout) : Prop where
  leads_symbol {b x d : SlotId} : Leads l.slots b x d → ∃ X : Symbol, role? l.slots x = some X.role
  leads_head {b x d : SlotId} : Leads l.slots b x d → head? l.slots d = head? l.slots b
  root_head {a f : SlotId} : root a f → head? l.slots f = some a
  head_nonterminal {d a : SlotId} : head? l.slots d = some a →
    ∃ name, role? l.slots a = some (.nonterminal name)
  leads_unique {b b' x x' d : SlotId} : Leads l.slots b x d → Leads l.slots b' x' d →
    b = b' ∧ x = x'
  not_leads_root {a b x f : SlotId} : root a f → ¬ Leads l.slots b x f
  lookup_iff {name : String} {a : SlotId} :
    l.registry.lookup name = some a ↔ role? l.slots a = some (.nonterminal name)
  terminal_unique {t : Terminal} {x y : SlotId} : role? l.slots x = some (.terminal t) →
    role? l.slots y = some (.terminal t) → x = y
  /-- Every end is that of an alternative, and reached by what spells it. -/
  ended {e a : SlotId} {k : Nat} : role? l.slots e = some (.done a k) →
    ∃ f xs body, laid a k body ∧ root a f ∧ Path l.slots f xs e ∧ Slots.Spelled l.slots xs body
  ended_unique {e e' a : SlotId} {k : Nat} : role? l.slots e = some (.done a k) →
    role? l.slots e' = some (.done a k) → e = e'
  reached {a : SlotId} {k : Nat} {body : List Symbol} : laid a k body →
    ∃ e, role? l.slots e = some (.done a k)

/-- Nothing of `l` is lost in `l'`. -/
structure Extends (l l' : Layout) : Prop where
  registry : l'.registry = l.registry
  role {id : SlotId} {r : Slot.Role} : role? l.slots id = some r → role? l'.slots id = some r
  leads {b x d : SlotId} : Leads l.slots b x d → Leads l'.slots b x d
  starts {a f : SlotId} : Slots.Starts l'.slots a f ↔ Slots.Starts l.slots a f

lemma Extends.refl (l : Layout) : Extends l l := ⟨rfl, id, id, .rfl⟩

lemma Extends.trans {l₁ l₂ l₃ : Layout} (h : Extends l₁ l₂) (h' : Extends l₂ l₃) :
    Extends l₁ l₃ :=
  ⟨h'.registry.trans h.registry, fun hr => h'.role (h.role hr), fun hl => h'.leads (h.leads hl),
    h'.starts.trans h.starts⟩

lemma Extends.path {l l' : Layout} (h : Extends l l') {b d : SlotId} {xs : List SlotId}
    (hp : Path l.slots b xs d) : Path l'.slots b xs d := hp.mono h.leads

lemma Extends.spelled {l l' : Layout} (h : Extends l l') {xs : List SlotId} {body : List Symbol}
    (hs : Slots.Spelled l.slots xs body) : Slots.Spelled l'.slots xs body := hs.mono h.role

/-- One slot has been added, at the end, with the role `r`. It is entered in one way only, if at
all. -/
structure Grown (l : Layout) (r : Slot.Role) (entry : Option (SlotId × SlotId)) (l' : Layout) :
    Prop where
  registry : l'.registry = l.registry
  role {id : SlotId} :
    role? l'.slots id = if id = l.slots.size then some r else role? l.slots id
  leads {b x d : SlotId} : Leads l'.slots b x d ↔
    Leads l.slots b x d ∨ (entry = some (b, x) ∧ d = l.slots.size)

namespace Grown

variable {r : Slot.Role} {entry : Option (SlotId × SlotId)} (h : Grown l r entry l')
include h

lemma self : role? l'.slots l.slots.size = some r := by rw [h.role, if_pos rfl]

lemma old {id : SlotId} {r' : Slot.Role} (hr : role? l.slots id = some r') :
    role? l'.slots id = some r' := by
  rw [h.role, if_neg (Nat.ne_of_lt (Slots.lt_size_of_role? hr)), hr]

lemma back {id : SlotId} {r' : Slot.Role} (hr : role? l'.slots id = some r') :
    role? l.slots id = some r' ∨ (id = l.slots.size ∧ r' = r) := by
  rw [h.role] at hr
  split at hr
  next hid => exact Or.inr ⟨hid, by simpa using hr.symm⟩
  next => exact Or.inl hr

lemma head_self : head? l'.slots l.slots.size = r.head? := by
  rw [head?, h.self]
  rfl

lemma head_old {d a : SlotId} (ha : head? l.slots d = some a) : head? l'.slots d = some a := by
  obtain ⟨r', hr', ha⟩ := Option.bind_eq_some_iff.mp ha
  exact Option.bind_eq_some_iff.mpr ⟨r', h.old hr', ha⟩

end Grown

namespace Laid

variable {laid laid' : SlotId → Nat → List Symbol → Prop} {root root' : SlotId → SlotId → Prop}

lemma dest_lt (hl : Laid laid root l) {b x d : SlotId} (h : Leads l.slots b x d) :
    d < l.slots.size := by
  obtain ⟨s, hs, -⟩ := id h
  have hd : head? l.slots d = some s.head := by rw [hl.leads_head h, Slots.head?_body hs]
  exact Slots.lt_size_of_head? hd

/-- Labels do not matter, and neither does when roots are listed. -/
lemma congr (hl : Laid laid root l) (hreg : l'.registry = l.registry)
    (hrole : ∀ id, role? l'.slots id = role? l.slots id)
    (hleads : ∀ {b x d}, Leads l'.slots b x d ↔ Leads l.slots b x d)
    (hroot : ∀ a f, root' a f ↔ root a f) (hlaid : ∀ a k body, laid' a k body ↔ laid a k body) :
    Laid laid' root' l' where
  leads_symbol h := by simpa only [hrole] using hl.leads_symbol (hleads.mp h)
  leads_head h := by simpa only [head?, hrole] using hl.leads_head (hleads.mp h)
  root_head h := by simpa only [head?, hrole] using hl.root_head ((hroot _ _).mp h)
  head_nonterminal h := by
    simp only [head?, hrole] at h
    simpa only [hrole] using hl.head_nonterminal h
  leads_unique h h' := hl.leads_unique (hleads.mp h) (hleads.mp h')
  not_leads_root h h' := hl.not_leads_root ((hroot _ _).mp h) (hleads.mp h')
  lookup_iff := by
    intro name a
    rw [hreg, hrole]
    exact hl.lookup_iff
  terminal_unique h h' := by
    rw [hrole] at h h'
    exact hl.terminal_unique h h'
  ended h := by
    rw [hrole] at h
    obtain ⟨f, xs, body, hb, hf, hp, hs⟩ := hl.ended h
    exact ⟨f, xs, body, (hlaid _ _ _).mpr hb, (hroot _ _).mpr hf, hp.mono hleads.mpr,
      hs.mono fun hr => by rwa [hrole]⟩
  ended_unique h h' := by
    rw [hrole] at h h'
    exact hl.ended_unique h h'
  reached h := by
    simp only [hrole]
    exact hl.reached ((hlaid _ _ _).mp h)

/-- A slot added with its role `r` and its entry keeps the layout right, if both fit to what is
there. -/
lemma grow {r : Slot.Role} {entry : Option (SlotId × SlotId)} (hl : Laid laid root l)
    (hg : Grown l r entry l')
    (hroot : ∀ a f, root' a f ↔ root a f ∨ (r.head? = some a ∧ entry = none ∧ f = l.slots.size))
    (hentry : ∀ {b x}, entry = some (b, x) → (∃ a, r.head? = some a) ∧
      head? l.slots b = r.head? ∧ ∃ X : Symbol, role? l.slots x = some X.role)
    (hname : ∀ name, r ≠ .nonterminal name)
    (hterminal : ∀ t, r = .terminal t → ∀ x, role? l.slots x ≠ some (.terminal t))
    (hhead : ∀ a, r.head? = some a → ∃ name, role? l.slots a = some (.nonterminal name))
    (hmono : ∀ {a k body}, laid a k body → laid' a k body)
    (hlaid : ∀ {a k body}, laid' a k body → laid a k body ∨ r = .done a k)
    (hdone : ∀ {a k}, r = .done a k → (∀ e, role? l.slots e ≠ some (.done a k)) ∧
      ∃ f xs body, laid' a k body ∧ root' a f ∧ Path l'.slots f xs l.slots.size ∧
        Slots.Spelled l'.slots xs body) :
    Laid laid' root' l' := by
  refine ⟨?_, ?_, ?_, ?_, ?_, ?_, ?_, ?_, ?_, ?_, ?_⟩
  · intro b x d h
    rcases hg.leads.mp h with h | ⟨h, -⟩
    · obtain ⟨X, hX⟩ := hl.leads_symbol h
      exact ⟨X, hg.old hX⟩
    · obtain ⟨-, -, X, hX⟩ := hentry h
      exact ⟨X, hg.old hX⟩
  · intro b x d h
    rcases hg.leads.mp h with h | ⟨hi, rfl⟩
    · obtain ⟨s, hs, -⟩ := id h
      have hb := Slots.head?_body hs
      rw [hg.head_old hb, hg.head_old ((hl.leads_head h).trans hb)]
    · obtain ⟨⟨a, ha⟩, hb, -⟩ := hentry hi
      rw [hg.head_self, ha, hg.head_old (hb.trans ha)]
  · intro a f h
    rcases (hroot a f).mp h with h | ⟨ha, -, rfl⟩
    · exact hg.head_old (hl.root_head h)
    · rw [hg.head_self, ha]
  · intro d a h
    obtain ⟨r', hr', ha⟩ := Option.bind_eq_some_iff.mp h
    obtain ⟨name, hname⟩ : ∃ name, role? l.slots a = some (.nonterminal name) := by
      rcases hg.back hr' with hr' | ⟨-, rfl⟩
      · exact hl.head_nonterminal (Option.bind_eq_some_iff.mpr ⟨r', hr', ha⟩)
      · exact hhead a ha
    exact ⟨name, hg.old hname⟩
  · intro b b' x x' d h h'
    rcases hg.leads.mp h with h | ⟨hi, rfl⟩
    · rcases hg.leads.mp h' with h' | ⟨-, rfl⟩
      · exact hl.leads_unique h h'
      · exact absurd (hl.dest_lt h) (Nat.lt_irrefl _)
    · rcases hg.leads.mp h' with h' | ⟨hi', -⟩
      · exact absurd (hl.dest_lt h') (Nat.lt_irrefl _)
      · rw [hi] at hi'
        simpa using hi'
  · intro a b x f h h'
    rcases (hroot a f).mp h with h | ⟨-, hi, rfl⟩
    · rcases hg.leads.mp h' with h' | ⟨-, rfl⟩
      · exact hl.not_leads_root h h'
      · exact absurd (Slots.lt_size_of_head? (hl.root_head h)) (Nat.lt_irrefl _)
    · rcases hg.leads.mp h' with h' | ⟨h', -⟩
      · exact absurd (hl.dest_lt h') (Nat.lt_irrefl _)
      · rw [hi] at h'
        cases h'
  · intro name a
    rw [hg.registry, hl.lookup_iff]
    constructor
    · exact hg.old
    · intro h
      rcases hg.back h with h | ⟨-, h⟩
      · exact h
      · exact absurd h.symm (hname name)
  · intro t x y hx hy
    rcases hg.back hx with hx | ⟨rfl, hr⟩ <;> rcases hg.back hy with hy | ⟨rfl, hr'⟩
    · exact hl.terminal_unique hx hy
    · exact absurd hx (hterminal t hr'.symm x)
    · exact absurd hy (hterminal t hr.symm y)
    · rfl
  · intro e a k h
    rcases hg.back h with h | ⟨rfl, hr⟩
    · obtain ⟨f, xs, body, hb, hf, hp, hs⟩ := hl.ended h
      exact ⟨f, xs, body, hmono hb, (hroot a f).mpr (Or.inl hf),
        hp.mono fun hl => hg.leads.mpr (Or.inl hl), hs.mono hg.old⟩
    · exact (hdone hr.symm).2
  · intro e e' a k h h'
    rcases hg.back h with h | ⟨rfl, hr⟩ <;> rcases hg.back h' with h' | ⟨rfl, hr'⟩
    · exact hl.ended_unique h h'
    · exact absurd h ((hdone hr'.symm).1 e)
    · exact absurd h' ((hdone hr.symm).1 e')
    · rfl
  · intro a k body h
    rcases hlaid h with h | rfl
    · obtain ⟨e, he⟩ := hl.reached h
      exact ⟨e, hg.old he⟩
    · exact ⟨l.slots.size, hg.self⟩

end Laid

end Layout

end GeneralParser
