import GeneralParser.Proofs.Engine.Outcome

/-!
# What stands in the way

Where parsing goes on, it either gets over the next symbol or takes note of an obstacle there. The
steps are given here one by one: trying a terminal, entering an alternative, and returning from a
call. At the end of a run the furthest obstacle is as far as any.
-/

namespace GeneralParser

variable [PatternEngine]

open Slots (role? head? Leads Path Starts)

namespace Graph

variable {g : Graph} {t : Text}

/-- A terminal that takes no stretch from an offset on does not match there. -/
lemma matchAt_eq_none (ht : t.Readable) {x : SlotId} {τ : Terminal} {i : Nat}
    (hτ : role? g.slots x = some (.terminal τ)) (h : ∀ j, ¬ (g.spans t).scan x i j) :
    τ.matchAt t i = .ok none := by
  obtain ⟨r, hr, -⟩ := ht τ i
  cases r with
  | none => exact hr
  | some n => exact absurd ⟨τ, n, hτ, hr, rfl⟩ (h (i + n))

/-- A terminal that does not match takes no stretch. -/
lemma not_scan_of_matchAt {x : SlotId} {i j : Nat} (h : g.matchAt t x i = .ok none) :
    ¬ (g.spans t).scan x i j := by
  rintro ⟨τ, n, hτ, hm, -⟩
  rw [matchAt_eq_ofText i hτ, hm] at h
  cases h

lemma matchAt_of_anyMatch {ids : List SlotId} {i : Nat} (h : g.anyMatch t i ids = .ok false) :
    ∀ y ∈ ids, g.matchAt t y i = .ok none := by
  induction ids with
  | nil => simp
  | cons x ids ih =>
    rw [anyMatch] at h
    cases hm : g.matchAt t x i with
    | error e => simp [hm, bind, Except.bind] at h
    | ok r =>
      cases r with
      | some n => simp [hm, bind, Except.bind, pure, Except.pure] at h
      | none =>
        simp only [hm, bind, Except.bind] at h
        simpa [hm] using ih h

/-- A position is only ruled out if it is not nullable and none of its first terminals matches. -/
lemma matchAt_of_admits {f i : Nat} {b : BodySlot} (hb : g.slots[f]? = some (.body b))
    (h : g.admits t f i = .ok false) :
    b.nullable = false ∧ ∀ y ∈ b.first, g.matchAt t y i = .ok none := by
  by_cases hn : b.nullable = true
  · simp [admits, slot_eq_ok hb, Failure.ofGraph, bind, Except.bind, hn, pure, Except.pure] at h
  · refine ⟨by simpa using hn, matchAt_of_anyMatch ?_⟩
    simpa [admits, slot_eq_ok hb, Failure.ofGraph, bind, Except.bind, hn] using h

/-- Only positions are ever ruled out. -/
lemma exists_body_of_admits_eq_false {f h i : Nat} (hf : head? g.slots f = some h)
    (hadm : g.admits t f i = .ok false) : ∃ b, g.slots[f]? = some (.body b) := by
  rcases Slots.head?_eq_some.mp hf with ⟨b, hb, -⟩ | ⟨e, he, -⟩
  · exact ⟨b, hb⟩
  · rw [admits_done he] at hadm
    cases hadm

/-- The terminal that is expected is the only symbol to go over. -/
lemma expectedTerminal?_eq_some {b : BodySlot} {x : SlotId} (h : g.expectedTerminal? b = some x) :
    (∃ d, b.transitions = [⟨x, d⟩]) ∧ ∃ τ, role? g.slots x = some (.terminal τ) := by
  rw [expectedTerminal?] at h
  split at h
  next t ht =>
    split at h
    next τ hτ =>
      obtain rfl := Option.some.inj h
      exact ⟨⟨t.dest, ht⟩, _, Slots.role?_terminal.mpr ⟨τ, hτ, rfl⟩⟩
    next => cases h
  next => cases h

end Graph

namespace Setting

variable {S : Setting}

/-- There is an obstacle at offset `i` or beyond. -/
def Blocked (S : Setting) (i : Nat) : Prop := ∃ o, S.Derivable (.obstacle o) ∧ i ≤ o.index

/-! ### Single steps -/

/-- An alternative is admitted, or lookahead rules it out. -/
lemma admits_or_ruledOut (hS : S.WellBuilt) {a f : SlotId} {i : Nat}
    (hf : Starts S.graph.slots a f) :
    S.Admits f i ∨ S.lookahead = true ∧ S.graph.admits S.text f i = .ok false := by
  obtain ⟨h, hh⟩ := hS.graph.starts hf
  obtain ⟨r, hr⟩ := Graph.admits_ok (i := i) hS.graph hS.readable hh
  cases r with
  | true => exact Or.inl fun _ => hr
  | false =>
    cases hl : S.lookahead with
    | true => exact Or.inr ⟨rfl, hr⟩
    | false => exact Or.inl fun h => absurd h (by simp [hl])

/-- An alternative of a call is entered, or ruled out. -/
lemma Derivable.enter_or_blocked (hS : S.WellBuilt) {site : CallSite} {f : SlotId}
    (hcall : S.Derivable (.call site)) (hf : Starts S.graph.slots site.slot f) :
    S.Derivable (.item f site site.index none) ∨ S.Blocked site.index := by
  rcases admits_or_ruledOut (i := site.index) hS hf with hadm | ⟨hlook, hadm⟩
  · exact Or.inl (.enter hcall hf hadm)
  · obtain ⟨h, hh⟩ := hS.graph.starts hf
    obtain ⟨b, hb⟩ := Graph.exists_body_of_admits_eq_false hh hadm
    exact Or.inr ⟨_, .refuse hcall hf hlook hadm hb, Nat.le_refl _⟩

/-- A terminal takes a stretch, behind which parsing goes on, or it does not match. -/
lemma Derivable.scan_or_blocked (hS : S.WellBuilt) {b x d : SlotId} {site : CallSite} {i : Nat}
    {o : Option Node} {τ : Terminal} (hitem : S.Derivable (.item b site i o))
    (hl : Leads S.graph.slots b x d) (hτ : role? S.graph.slots x = some (.terminal τ)) :
    (∃ j, (S.graph.spans S.text).scan x i j ∧ ∃ o', S.Derivable (.item d site j o')) ∨
      S.Blocked i := by
  by_cases hscan : ∃ j, (S.graph.spans S.text).scan x i j
  · obtain ⟨j, hj⟩ := hscan
    exact Or.inl ⟨j, hj, _, .arrive (.scan hitem hl hj)⟩
  · have hnone := Graph.matchAt_eq_none hS.readable hτ (not_exists.mp hscan)
    exact Or.inr ⟨_, .mismatch hitem hl hτ hnone, Nat.le_refl _⟩

/-- A call that comes to an end returns to its callers. -/
lemma Derivable.returned {b x d e a : SlotId} {site : CallSite} {i j k : Nat}
    {o o' : Option Node} {name : String} (hitem : S.Derivable (.item b site i o))
    (hl : Leads S.graph.slots b x d) (hx : role? S.graph.slots x = some (.nonterminal name))
    (hend : S.Derivable (.item e ⟨x, i⟩ j o')) (he : role? S.graph.slots e = some (.done a k)) :
    ∃ o'', S.Derivable (.item d site j o'') :=
  ⟨_, .arrive (.resume (.edge hitem hl hx) (.complete hend he))⟩

end Setting

/-! ### Final states -/

namespace State.Final

variable {p : Problem} {s : State} (hS : p.setting.Wired) (h : s.Final p)
include hS h

/-- The reported obstacle is as far as any. -/
lemma covered_of_blocked {i : Nat} (hi : p.setting.Blocked i) : s.Covered i := by
  obtain ⟨o, ho, hle⟩ := hi
  have hs := (h.reachable.running hS.toValid).sound
  obtain ⟨o', ho', hle'⟩ := h.saturated.knows hs hS.toValid hS.functional ho
  exact ⟨o', ho', Nat.le_trans hle hle'⟩

/-- If nothing is reported, nothing was ever taken note of. -/
lemma furthest_eq_none (hnone : s.furthest = none) {s' : State} {tasks : List Task}
    (hreach : State.Reachable p s' tasks) : s'.furthest = none := by
  cases ho : s'.furthest with
  | none => rfl
  | some o =>
    have hd := (hreach.running hS.toValid).sound.furthest ho
    obtain ⟨o', ho', -⟩ := h.covered_of_blocked hS ⟨o, hd, Nat.le_refl _⟩
    rw [hnone] at ho'
    cases ho'

end State.Final

end GeneralParser
