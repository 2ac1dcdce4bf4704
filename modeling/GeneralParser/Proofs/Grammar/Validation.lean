import GeneralParser.Grammar.Lookahead
import GeneralParser.Proofs.Grammar.Path

/-!
# Validated graphs

Validation accepts exactly the graphs in which every reference leads to a slot of a kind that can
stand there. All look-ups during a parse follow such references.
-/

namespace GeneralParser

open Slots

/-- A check of all members of a list succeeds if it succeeds for each of them. -/
lemma forM_eq_ok_iff {α ε : Type} {l : List α} {check : α → Except ε Unit} :
    l.forM check = .ok () ↔ ∀ a ∈ l, check a = .ok () := by
  induction l with
  | nil => simp [pure, Except.pure]
  | cons a l ih =>
    change (check a >>= fun _ => l.forM check) = .ok () ↔ _
    cases h : check a with
    | error e => simp [bind, Except.bind, h]
    | ok u => simpa [bind, Except.bind, h] using ih

/-- Of two checks in a row both have to succeed. -/
lemma bind_eq_ok_unit_iff {ε : Type} {a b : Except ε Unit} :
    (a >>= fun _ => b) = .ok () ↔ a = .ok () ∧ b = .ok () := by
  cases a <;> simp [bind, Except.bind]

variable [PatternEngine]

namespace Graph

variable {g : Graph}

/-! ### Look-ups -/

lemma slot_eq_ok_iff {id : SlotId} {s : Slot} : g.slot id = .ok s ↔ g.slots[id]? = some s := by
  rw [slot]
  cases g.slots[id]? <;> simp

lemma slot_eq_ok {id : SlotId} {s : Slot} (h : g.slots[id]? = some s) : g.slot id = .ok s :=
  slot_eq_ok_iff.mpr h

lemma bodySlot_eq_ok {id : SlotId} {s : BodySlot} (h : g.slots[id]? = some (.body s)) :
    g.bodySlot id = .ok s := by
  simp [bodySlot, slot_eq_ok h, bind, Except.bind, pure, Except.pure]

lemma terminalSlot_eq_ok {id : SlotId} {s : TerminalSlot} (h : g.slots[id]? = some (.terminal s)) :
    g.terminalSlot id = .ok s := by
  simp [terminalSlot, slot_eq_ok h, bind, Except.bind, pure, Except.pure]

lemma slot_of_terminalSlot {id : SlotId} {s : TerminalSlot} (h : g.terminalSlot id = .ok s) :
    g.slot id = .ok (.terminal s) := by
  rw [terminalSlot] at h
  cases hid : g.slot id with
  | error e => simp [hid, bind, Except.bind] at h
  | ok slot =>
    cases slot <;> simp_all [bind, Except.bind, pure, Except.pure, throw, throwThe,
      MonadExceptOf.throw]

/-! ### Checks -/

lemma nonterminalSlot_check {id : SlotId} :
    discard (g.nonterminalSlot id) = .ok () ↔
      ∃ name, role? g.slots id = some (.nonterminal name) := by
  simp only [role?_nonterminal]
  rw [nonterminalSlot, slot]
  cases g.slots[id]? with
  | none => simp [discard, Functor.mapConst, bind, Except.bind, Except.map]
  | some s =>
    cases s <;> simp [discard, Functor.mapConst, bind, Except.bind, Except.map, pure,
      Except.pure, throw, throwThe, MonadExceptOf.throw]

lemma terminalSlot_check {id : SlotId} :
    discard (g.terminalSlot id) = .ok () ↔ ∃ t, role? g.slots id = some (.terminal t) := by
  simp only [role?_terminal]
  rw [terminalSlot, slot]
  cases g.slots[id]? with
  | none => simp [discard, Functor.mapConst, bind, Except.bind, Except.map]
  | some s =>
    cases s <;> simp [discard, Functor.mapConst, bind, Except.bind, Except.map, pure,
      Except.pure, throw, throwThe, MonadExceptOf.throw]

lemma checkContinuation_eq_ok_iff {id : SlotId} :
    g.checkContinuation id = .ok () ↔ ∃ a, head? g.slots id = some a := by
  simp only [head?_eq_some]
  rw [checkContinuation, slot]
  cases g.slots[id]? with
  | none => simp [bind, Except.bind]
  | some s =>
    cases s <;> simp [bind, Except.bind, pure, Except.pure, throw, throwThe, MonadExceptOf.throw]

lemma checkSymbol_eq_ok_iff {id : SlotId} :
    g.checkSymbol id = .ok () ↔
      (∃ t, role? g.slots id = some (.terminal t)) ∨
        ∃ name, role? g.slots id = some (.nonterminal name) := by
  simp only [role?_terminal, role?_nonterminal]
  rw [checkSymbol, slot]
  cases g.slots[id]? with
  | none => simp [bind, Except.bind]
  | some s =>
    cases s <;> simp [bind, Except.bind, pure, Except.pure, throw, throwThe, MonadExceptOf.throw]

lemma checkFirst_eq_ok_iff {first : SlotSet} :
    g.checkFirst first = .ok () ↔ ∀ x ∈ first, ∃ t, role? g.slots x = some (.terminal t) := by
  rw [checkFirst, forM_eq_ok_iff]
  exact forall₂_congr fun x _ => terminalSlot_check

/-- The terminals with which what comes after slot `id` can start, as far as they are filled in. -/
def HasFirst (g : Graph) (id x : SlotId) : Prop :=
  (∃ s, g.slots[id]? = some (.nonterminal s) ∧ x ∈ s.first) ∨
    ∃ s, g.slots[id]? = some (.body s) ∧ x ∈ s.first

/-- Every reference in the graph leads to a slot of a kind that can stand there. -/
structure Valid (g : Graph) : Prop where
  registry {name : String} {id : SlotId} : (name, id) ∈ g.registry →
    ∃ name, role? g.slots id = some (.nonterminal name)
  starts {a f : SlotId} : Starts g.slots a f → ∃ h, head? g.slots f = some h
  leads_symbol {b x d : SlotId} : Leads g.slots b x d →
    (∃ t, role? g.slots x = some (.terminal t)) ∨
      ∃ name, role? g.slots x = some (.nonterminal name)
  leads_dest {b x d : SlotId} : Leads g.slots b x d → ∃ h, head? g.slots d = some h
  head {d h : SlotId} : head? g.slots d = some h →
    ∃ name, role? g.slots h = some (.nonterminal name)
  first {id x : SlotId} : g.HasFirst id x → ∃ t, role? g.slots x = some (.terminal t)

lemma checkSlot_nonterminal {s : NonterminalSlot} :
    g.checkSlot (.nonterminal s) = .ok () ↔
      (∀ f ∈ s.firstSlots, ∃ h, head? g.slots f = some h) ∧
        ∀ x ∈ s.first, ∃ t, role? g.slots x = some (.terminal t) := by
  change (s.firstSlots.forM g.checkContinuation >>= fun _ => g.checkFirst s.first) = .ok () ↔ _
  rw [bind_eq_ok_unit_iff, forM_eq_ok_iff, checkFirst_eq_ok_iff]
  simp only [checkContinuation_eq_ok_iff]

lemma checkSlot_body {s : BodySlot} :
    g.checkSlot (.body s) = .ok () ↔
      (∃ name, role? g.slots s.head = some (.nonterminal name)) ∧
        (∀ t ∈ s.transitions, ((∃ τ, role? g.slots t.symbol = some (.terminal τ)) ∨
          ∃ name, role? g.slots t.symbol = some (.nonterminal name)) ∧
            ∃ h, head? g.slots t.dest = some h) ∧
          ∀ x ∈ s.first, ∃ t, role? g.slots x = some (.terminal t) := by
  change (discard (g.nonterminalSlot s.head) >>= fun _ =>
    (s.transitions.forM fun t => g.checkSymbol t.symbol >>= fun _ =>
      g.checkContinuation t.dest) >>= fun _ => g.checkFirst s.first) = .ok () ↔ _
  rw [bind_eq_ok_unit_iff, bind_eq_ok_unit_iff, forM_eq_ok_iff, checkFirst_eq_ok_iff,
    nonterminalSlot_check]
  simp only [bind_eq_ok_unit_iff, checkSymbol_eq_ok_iff, checkContinuation_eq_ok_iff]

lemma checkSlot_done {s : EndSlot} :
    g.checkSlot (.done s) = .ok () ↔ ∃ name, role? g.slots s.head = some (.nonterminal name) :=
  nonterminalSlot_check

/-- Validation looks at every reference. -/
theorem validate_eq_ok_iff : g.validate = .ok () ↔ g.Valid := by
  change ((g.registry.forM fun e => discard (g.nonterminalSlot e.2)) >>= fun _ =>
    g.slots.toList.forM g.checkSlot) = .ok () ↔ _
  rw [bind_eq_ok_unit_iff, forM_eq_ok_iff, forM_eq_ok_iff]
  simp only [nonterminalSlot_check, Array.mem_toList_iff]
  constructor
  · rintro ⟨hreg, hslots⟩
    have hmem {id : SlotId} {s : Slot} (h : g.slots[id]? = some s) : g.checkSlot s = .ok () :=
      hslots s (Array.mem_of_getElem? h)
    refine ⟨fun {name id} h => hreg (name, id) h, ?_, ?_, ?_, ?_, ?_⟩
    · rintro a f ⟨s, hs, hf⟩
      exact (checkSlot_nonterminal.mp (hmem hs)).1 f hf
    · rintro b x d ⟨s, hs, ht⟩
      exact ((checkSlot_body.mp (hmem hs)).2.1 _ ht).1
    · rintro b x d ⟨s, hs, ht⟩
      exact ((checkSlot_body.mp (hmem hs)).2.1 _ ht).2
    · intro d h hd
      rcases head?_eq_some.mp hd with ⟨s, hs, rfl⟩ | ⟨s, hs, rfl⟩
      · exact (checkSlot_body.mp (hmem hs)).1
      · exact checkSlot_done.mp (hmem hs)
    · rintro id x (⟨s, hs, hx⟩ | ⟨s, hs, hx⟩)
      · exact (checkSlot_nonterminal.mp (hmem hs)).2 x hx
      · exact (checkSlot_body.mp (hmem hs)).2.2 x hx
  · intro h
    refine ⟨fun ⟨name, id⟩ he => h.registry he, ?_⟩
    intro s hs
    obtain ⟨id, hid⟩ := Array.mem_iff_getElem?.mp hs
    cases s with
    | nonterminal s =>
      exact checkSlot_nonterminal.mpr
        ⟨fun f hf => h.starts ⟨s, hid, hf⟩, fun x hx => h.first (Or.inl ⟨s, hid, hx⟩)⟩
    | body s =>
      refine checkSlot_body.mpr ⟨h.head (head?_body hid), fun t ht => ⟨?_, ?_⟩, fun x hx => ?_⟩
      · exact h.leads_symbol ⟨s, hid, ht⟩
      · exact h.leads_dest ⟨s, hid, ht⟩
      · exact h.first (Or.inr ⟨s, hid, hx⟩)
    | terminal s => rfl
    | done s => exact checkSlot_done.mpr (h.head (head?_done hid))

end Graph

end GeneralParser
