import GeneralParser.Proofs.Engine.Offer

/-!
# What tasks make

A task makes its nodes before it offers a descriptor, and it may fail halfway. Whatever becomes of
it, the state stays sound, and every node for a nonterminal or for the beginning of a rule has
packed nodes below it.
-/

namespace GeneralParser

/-! ### Nodes with something below them -/

/-- Whether the node is for a nonterminal or for the beginning of a rule. -/
def Node.isInner : Node → Bool
  | .nonterminal .. | .intermediate .. => true
  | _ => false

lemma Node.isPacked_of_isInner {n : Node} (h : n.isInner = true) : n.isPacked = false := by
  cases n with
  | packed => cases h
  | terminal | epsilon | nonterminal | intermediate => rfl

variable [PatternEngine]

namespace Forest

variable {f f' : Forest} {g : Graph}

/-- Nodes for nonterminals and for the beginnings of rules have packed nodes. -/
def Founded (f : Forest) : Prop :=
  ∀ (v : NodeId) (n : Node), f.node? v = some n → n.isInner = true → f.packedUnder v ≠ []

omit [PatternEngine] in
lemma founded_empty : Founded empty := by
  intro v n hv
  simp [node?, empty] at hv

/-- The ways in which a parse makes nodes. -/
inductive Made (g : Graph) (f : Forest) : Forest → Prop
  | same : Made g f f
  | terminal (x : SlotId) (i j : Nat) : Made g f (f.intern (.terminal x i j)).2
  | empty (a e : SlotId) (i : Nat) : Made g f (f.internEmpty a e i).2
  | arrived (slot : SlotId) (l : Option NodeId) (r : NodeId) : Made g f (f.combine g slot l r).2

omit [PatternEngine] in
/-- Packing founds the parent, so it is enough that all other nodes are founded. -/
lemma Founded.pack (hf : f.WellFormed) {parent right : NodeId} {m : Node} {slot : SlotId}
    {k : Nat} {left : Option NodeId} (hp : f.node? parent = some m) (hm : m.isPacked = false)
    (h : ∀ {v n}, f.node? v = some n → n.isInner = true → v = parent ∨ f.packedUnder v ≠ []) :
    (f.pack parent slot k left right).2.Founded := by
  have hpack := pack_ok hf slot k left right hp hm
  intro v n hv hn
  rcases hpack.back hv with hv | rfl
  · rcases h hv hn with rfl | hne
    · obtain ⟨q, hq, -⟩ := mem_hasPacked.mp hpack.hasPacked
      exact List.ne_nil_of_mem hq
    · obtain ⟨q, hq⟩ := List.exists_mem_of_ne_nil _ hne
      exact List.ne_nil_of_mem (hpack.le.packed hq)
  · cases hn

omit [PatternEngine] in
lemma Interned.founded {n : Node} {i : NodeId} (h : Interned f n i f') (hf : f.Founded)
    {v : NodeId} {m : Node} (hv : f'.node? v = some m) (hm : m.isInner = true) :
    (v = i ∧ m = n) ∨ f'.packedUnder v ≠ [] := by
  rw [h.packedUnder]
  rcases h.back hv with hv | hv
  · exact Or.inr (hf v m hv hm)
  · exact Or.inl hv

/-- Whatever is made on arriving at a slot, is not packed. -/
lemma isPacked_of_junction {slot : SlotId} {left : Option NodeId} {right : NodeId} {n : Node}
    {k : Nat} (h : f.junction g slot left right = .ok (some (n, k))) : n.isPacked = false := by
  obtain ⟨⟨pivot, stop⟩, -, h⟩ := bind_eq_ok_iff.mp h
  obtain ⟨s, -, h⟩ := bind_eq_ok_iff.mp h
  cases left with
  | none =>
    cases s with
    | done =>
      cases h
      rfl
    | body | nonterminal | terminal => cases h
  | some l =>
    cases s with
    | done | body =>
      obtain ⟨span, -, h⟩ := bind_eq_ok_iff.mp h
      cases h
      rfl
    | nonterminal | terminal => cases h

lemma eq_of_combine_error {slot : SlotId} {left : Option NodeId} {right : NodeId} {e : Failure}
    (h : f.combine g slot left right = (.error e, f')) : f' = f := by
  rw [combine] at h
  split at h
  · cases h
    rfl
  · cases h
  · cases h

/-- Nodes are made together with what is packed below them. -/
theorem Founded.made (hf : f.WellFormed) (h : f.Founded) (hmade : f.Made g f') :
    f'.Founded := by
  cases hmade with
  | same => exact h
  | terminal x i j =>
    intro v n hv hn
    rcases (intern_ok hf rfl rfl).founded h hv hn with ⟨-, rfl⟩ | hne
    · cases hn
    · exact hne
  | empty a e i =>
    have h₁ : Interned f (.nonterminal a i i) (f.intern (.nonterminal a i i)).1 _ :=
      intern_ok hf rfl rfl
    have h₂ : Interned _ (.epsilon i) ((f.intern (.nonterminal a i i)).2.intern (.epsilon i)).1 _ :=
      intern_ok h₁.wellFormed rfl rfl
    apply Founded.pack h₂.wellFormed (h₂.le.node h₁.node) rfl
    intro v n hv hn
    rw [h₂.packedUnder]
    rcases h₂.back hv with hv | ⟨-, rfl⟩
    · exact (h₁.founded h hv hn).imp And.left id
    · cases hn
  | arrived slot l r =>
    rw [combine]
    split
    next => exact h
    next => exact h
    next n k hjunction =>
      have hn := isPacked_of_junction hjunction
      have h₁ : Interned f n (f.intern n).1 _ := intern_ok hf hn rfl
      apply Founded.pack h₁.wellFormed h₁.node hn
      intro v m hv hm
      exact (h₁.founded h hv hm).imp And.left id

end Forest

/-! ### What single tasks make -/

section task

variable {p : Problem} {s s₁ : State} {task : Task} {d : Descriptor}

@[simp] lemma State.claim_forest : (s.claim p d).1.forest = s.forest := by
  rw [claim]
  split <;> rfl

@[simp] lemma State.schedule_forest : (s.schedule p d).1.forest = s.forest := by
  rw [schedule]
  split <;> rfl

lemma Task.forest_executeEnd {e : EndSlot} : (executeEnd p s d e).1.forest =
    if d.soFar = none then (s.forest.internEmpty e.head d.slot d.index).2 else s.forest := by
  rw [executeEnd]
  simp only [State.returnFrom, State.complete, State.onCalls_eq]
  cases d.soFar <;> split <;> simp [State.onForest_eq]

lemma Task.forest_runCross {t : Transition} {direct : Bool} :
    s.forest.Made p.graph (runCross p s d t direct).1.forest := by
  rw [runCross]
  split
  · exact .same
  · split
    · exact .same
    · rw [State.obstruct_forest]
      exact .same
    · exact .terminal _ _ _
  · obtain ⟨log, hopen⟩ := s.openCall_eq t.symbol d.index
    obtain ⟨log', hlink⟩ := State.link_eq
      (s := { s with calls := (s.calls.call ⟨t.symbol, d.index⟩).2, log := log })
      (s.calls.call ⟨t.symbol, d.index⟩).1.1 ⟨t.dest, d.soFar, d.call⟩
    simp only [State.call, hopen, hlink]
    exact .same
  · exact .same

/-- A task makes nodes in at most one of the ways there are. -/
theorem Task.made : s.forest.Made p.graph (task.run p s).1.forest := by
  cases task with
  | execute d =>
    simp only [run, runExecute]
    split
    · exact .same
    · exact .same
    · exact .same
    · exact .same
    · rw [forest_executeEnd]
      split
      · exact .empty _ _ _
      · exact .same
  | enter f c i =>
    simp only [run, runEnter]
    split
    · exact .same
    · rw [State.schedule_forest]
      exact .same
    · split
      · exact .same
      · rw [State.obstruct_forest]
        exact .same
  | cross d t direct => exact forest_runCross
  | arrive dest c j l r direct =>
    have hmade := Forest.Made.arrived (g := p.graph) (f := s.forest) dest l r
    simp only [run, runArrive, State.onForest_eq]
    cases (s.forest.combine p.graph dest l r).1 with
    | error e => exact hmade
    | ok next => cases direct <;> simpa using hmade

lemma Task.made_of_offer? (h : task.offer? p s = some (s₁, d)) :
    s.forest.Made p.graph s₁.forest := by
  have hmade : s.forest.Made p.graph (task.run p s).1.forest := made
  rcases run_of_offer? h with ⟨tasks, hrun⟩ | ⟨tasks, hrun⟩ <;> simpa [hrun] using hmade

lemma Task.state_runCross_of_error {t : Transition} {direct : Bool} {e : Failure}
    (h : (runCross p s d t direct).2 = .error e) : (runCross p s d t direct).1 = s := by
  rw [runCross] at h ⊢
  split
  next hslot => rfl
  next τ hslot =>
    simp only [hslot] at h
    split
    next hmatch => rfl
    next hmatch => simp [hmatch] at h
    next n hmatch => simp [hmatch] at h
  next hslot => simp [hslot] at h
  next => rfl

/-- A task that fails without having made an offer has changed nothing. -/
lemma Task.state_of_error {e : Failure} (hoffer : task.offer? p s = none)
    (herror : (task.run p s).2 = .error e) : (task.run p s).1 = s := by
  cases task with
  | execute d =>
    simp only [run, runExecute] at herror ⊢
    split
    next => rfl
    next hslot => simp [hslot] at herror
    next hslot => simp [hslot] at herror
    next => rfl
    next e' hslot =>
      obtain ⟨tasks, hok⟩ : ∃ tasks, (executeEnd p s d e').2 = .ok tasks := ⟨_, rfl⟩
      simp [hslot, hok] at herror
  | enter f c i =>
    simp only [run, runEnter] at herror ⊢
    split
    next => rfl
    next hadm => simp [offer?, hadm] at hoffer
    next hadm =>
      simp only [hadm] at herror
      split
      next => rfl
      next hbody => simp [hbody] at herror
  | cross d t direct => exact state_runCross_of_error herror
  | arrive dest c j l r direct =>
    obtain ⟨result, f', hcombine⟩ :
        ∃ result f', s.forest.combine p.graph dest l r = (result, f') := ⟨_, _, rfl⟩
    simp only [run, runArrive, offer?, State.onForest_eq, hcombine] at hoffer ⊢
    cases result with
    | error e' =>
      obtain rfl := Forest.eq_of_combine_error hcombine
      rfl
    | ok next => cases hoffer

end task

/-! ### Soundness, whatever becomes of an offer -/

namespace State

variable {p : Problem} {s : State} {d : Descriptor} {tasks : List Task}

lemma Sound.record {S : Setting} (hs : s.Sound S) (e : Event) : (s.record e).Sound S :=
  ⟨hs.calls, hs.forest, hs.agenda, hs.root, hs.call, hs.edge, hs.completion, hs.item, hs.furthest⟩

lemma Sound.seen {S : Setting} (hs : s.Sound S) (hd : s.ItemFact S d) {new : Bool} {a : Agenda}
    (h : s.agenda.Claimed d new a) (ha : a.WellFormed) : ({ s with agenda := a }).Sound S := by
  refine hs.grow ⟨.refl _, .refl _, h.mono, fun ho => ⟨_, ho, Nat.le_refl _⟩⟩ hs.calls hs.forest ha
    Or.inl Or.inl Or.inl ?_ Or.inl
  intro i l hi
  apply (h.back hi).imp id
  rintro ⟨-, rfl, rfl⟩
  exact hd

lemma Sound.claim (hs : s.Sound p.setting) (hd : s.ItemFact p.setting d) :
    (s.claim p d).1.Sound p.setting := by
  rw [State.claim]
  rcases Agenda.claim_ok (a := s.agenda) d with ⟨new, a, hclaim, h, hpending⟩ | ⟨hclaim, -⟩ |
    ⟨hclaim, -⟩ <;> rw [hclaim]
  · cases new with
    | true => exact hs.seen hd h (h.wellFormed hs.agenda hpending)
    | false => exact hs
  · exact hs
  · exact hs

lemma Sound.schedule (hs : s.Sound p.setting) (hd : s.ItemFact p.setting d) :
    (s.schedule p d).1.Sound p.setting := by
  rw [State.schedule]
  rcases Agenda.schedule_ok hs.agenda d with ⟨new, a, hschedule, h⟩ | ⟨hschedule, -⟩ |
    ⟨hschedule, -⟩ <;> rw [hschedule]
  · cases new with
    | true => exact (hs.seen hd h.claimed h.wellFormed).record _
    | false => exact hs
  · exact hs
  · exact hs

lemma Sound.finish (hs : s.Sound p.setting) : (s.finish p).1.Sound p.setting := by
  rw [State.finish]
  split
  · exact hs
  · split
    · exact (hs.record _).record _
    · exact hs.record _

lemma finish_forest : (s.finish p).1.forest = s.forest := by
  rw [finish]
  split
  · rfl
  · split <;> rfl

/-- A task keeps a state sound even if it fails. -/
theorem Sound.run (hS : p.setting.Valid) (hs : s.Sound p.setting) {task : Task}
    (ht : task.Sound p.setting s) : (task.run p s).1.Sound p.setting := by
  cases hoffer : task.offer? p s with
  | some offer =>
    obtain ⟨s₁, d⟩ := offer
    obtain ⟨hs₁, hd, -⟩ := Task.Sound.offered hS hs ht hoffer
    rcases Task.run_of_offer? hoffer with ⟨left, hrun⟩ | ⟨left, hrun⟩
    · rw [hrun]
      exact hs₁.claim hd
    · rw [hrun]
      exact hs₁.schedule hd
  | none =>
    cases hr : (task.run p s).2 with
    | error e =>
      rw [Task.state_of_error hoffer hr]
      exact hs
    | ok tasks => exact (Task.step_of_run hS hs ht (Prod.ext rfl hr)).sound hS hs ht

end State

end GeneralParser
