import GeneralParser.Proofs.Agenda
import GeneralParser.Proofs.CallGraph
import GeneralParser.Proofs.Engine.Forest

/-!
# Single steps

A state is sound if all it stores is a fact. What a task does to a sound state is given by the
relation `Step`, one rule for each way a task can go; everything else about runs is derived from it.
-/

namespace GeneralParser

variable [PatternEngine]

open Slots (role? head? Leads)

namespace State

variable {S : Setting} {s s' s'' : State}

/-! ### Growth -/

/-- The state has grown. -/
structure Le (s s' : State) : Prop where
  calls : s.calls.Le s'.calls
  forest : s.forest.Le s'.forest
  seen {i : Item} {l : Option NodeId} : s.agenda.seen[i]? = some l →
    s'.agenda.seen[i]? = some l
  furthest {o : Obstacle} : s.furthest = some o →
    ∃ o', s'.furthest = some o' ∧ o.index ≤ o'.index

omit [PatternEngine] in
lemma Le.refl (s : State) : Le s s :=
  ⟨.refl _, .refl _, id, fun h => ⟨_, h, Nat.le_refl _⟩⟩

/-- The furthest obstacle lies at offset `i` or beyond. -/
def Covered (s : State) (i : Nat) : Prop := ∃ o, s.furthest = some o ∧ i ≤ o.index

omit [PatternEngine] in
lemma Covered.mono {i : Nat} (h : Le s s') (hc : s.Covered i) : s'.Covered i := by
  obtain ⟨o, ho, hi⟩ := hc
  obtain ⟨o', ho', hle⟩ := h.furthest ho
  exact ⟨o', ho', Nat.le_trans hi hle⟩

/-! ### Facts -/

def ItemFact (S : Setting) (s : State) (d : Descriptor) : Prop :=
  ∃ site o, s.calls.site? d.call = some site ∧ s.forest.Denotes d.soFar o ∧
    S.Derivable (.item d.slot site d.index o)

def EdgeFact (S : Setting) (s : State) (c : CallId) (e : Edge) : Prop :=
  ∃ callee caller o, s.calls.site? c = some callee ∧ s.calls.site? e.caller = some caller ∧
    s.forest.Denotes e.soFar o ∧ S.Derivable (.edge callee e.returnSlot caller o)

def CompletionFact (S : Setting) (s : State) (c : CallId) (i : NodeId) : Prop :=
  ∃ callee j n, s.calls.site? c = some callee ∧ s.forest.node? i = some n ∧
    S.Derivable (.completion callee j n)

lemma ItemFact.mono {d : Descriptor} (h : Le s s') (hd : s.ItemFact S d) : s'.ItemFact S d := by
  obtain ⟨site, o, hc, ho, hf⟩ := hd
  exact ⟨site, o, h.calls.site hc, ho.mono h.forest, hf⟩

lemma EdgeFact.mono {c : CallId} {e : Edge} (h : Le s s') (he : s.EdgeFact S c e) :
    s'.EdgeFact S c e := by
  obtain ⟨callee, caller, o, hc, hc', ho, hf⟩ := he
  exact ⟨callee, caller, o, h.calls.site hc, h.calls.site hc', ho.mono h.forest, hf⟩

lemma CompletionFact.mono {c : CallId} {i : NodeId} (h : Le s s')
    (hi : s.CompletionFact S c i) : s'.CompletionFact S c i := by
  obtain ⟨callee, j, n, hc, hn, hf⟩ := hi
  exact ⟨callee, j, n, h.calls.site hc, h.forest.node hn, hf⟩

/-- All that a state stores is a fact. -/
structure Sound (S : Setting) (s : State) : Prop where
  calls : s.calls.WellFormed
  forest : s.forest.Sound S
  agenda : s.agenda.WellFormed
  root : s.calls.site? rootCall = some S.rootSite
  call {c : CallId} {site : CallSite} : s.calls.site? c = some site → S.Derivable (.call site)
  edge {c : CallId} {e : Edge} : e ∈ s.calls.edges c → s.EdgeFact S c e
  completion {c : CallId} {i : NodeId} : i ∈ s.calls.completions c → s.CompletionFact S c i
  item {i : Item} {l : Option NodeId} : s.agenda.seen[i]? = some l → s.ItemFact S ⟨i, l⟩
  furthest {o : Obstacle} : s.furthest = some o → S.Derivable (.obstacle o)

/-- A state that has grown from a sound one is sound if all that is new in it is a fact. -/
lemma Sound.grow (hs : s.Sound S) (hle : Le s s') (hcalls : s'.calls.WellFormed)
    (hforest : s'.forest.Sound S) (hagenda : s'.agenda.WellFormed)
    (hcall : ∀ {c site}, s'.calls.site? c = some site →
      s.calls.site? c = some site ∨ S.Derivable (.call site))
    (hedge : ∀ {c e}, e ∈ s'.calls.edges c → e ∈ s.calls.edges c ∨ s'.EdgeFact S c e)
    (hcompletion : ∀ {c i}, i ∈ s'.calls.completions c →
      i ∈ s.calls.completions c ∨ s'.CompletionFact S c i)
    (hitem : ∀ {i l}, s'.agenda.seen[i]? = some l →
      s.agenda.seen[i]? = some l ∨ s'.ItemFact S ⟨i, l⟩)
    (hfurthest : ∀ {o}, s'.furthest = some o →
      s.furthest = some o ∨ S.Derivable (.obstacle o)) : s'.Sound S where
  calls := hcalls
  forest := hforest
  agenda := hagenda
  root := hle.calls.site hs.root
  call hc := (hcall hc).elim hs.call id
  edge he := (hedge he).elim (fun h => (hs.edge h).mono hle) id
  completion hi := (hcompletion hi).elim (fun h => (hs.completion h).mono hle) id
  item hi := (hitem hi).elim (fun h => (hs.item h).mono hle) id
  furthest ho := (hfurthest ho).elim hs.furthest id

end State

/-! ### Tasks -/

/-- The descriptor with which a call is entered. -/
def CallSite.entry (site : CallSite) (c : CallId) : Descriptor := ⟨⟨site.slot, c, site.index⟩, none⟩

namespace Task

variable {S : Setting} {s s' : State}

/-- The offset at which a task works. -/
def index : Task → Nat
  | .execute d | .cross d _ _ => d.index
  | .enter _ _ index | .arrive _ _ index _ _ _ => index

/-- What a task relies on. -/
def Fact (S : Setting) (s : State) : Task → Prop
  | .execute d =>
    s.ItemFact S d ∨ ∃ site, s.calls.site? d.call = some site ∧ d = site.entry d.call
  | .enter f c i =>
    ∃ site, s.calls.site? c = some site ∧ i = site.index ∧
      Slots.Starts S.graph.slots site.slot f
  | .cross d t _ => s.ItemFact S d ∧ Leads S.graph.slots d.slot t.symbol t.dest
  | .arrive dest c j l r _ =>
    ∃ site k o n, s.calls.site? c = some site ∧ s.forest.Denotes l o ∧
      s.forest.node? r = some n ∧ S.Derivable (.arrival dest site k j o n)

lemma Fact.mono {t : Task} (h : s.Le s') (ht : t.Fact S s) : t.Fact S s' := by
  cases t with
  | execute d =>
    rcases ht with hd | ⟨site, hc, hd⟩
    · exact Or.inl (hd.mono h)
    · exact Or.inr ⟨site, h.calls.site hc, hd⟩
  | enter f c i =>
    obtain ⟨site, hc, hi, hf⟩ := ht
    exact ⟨site, h.calls.site hc, hi, hf⟩
  | cross d t direct =>
    obtain ⟨hd, hl⟩ := ht
    exact ⟨hd.mono h, hl⟩
  | arrive dest c j l r direct =>
    obtain ⟨site, k, o, n, hc, ho, hn, hf⟩ := ht
    exact ⟨site, k, o, n, h.calls.site hc, ho.mono h.forest, h.forest.node hn, hf⟩

/-- A task relies on facts, and does not lie behind the agenda. -/
structure Sound (S : Setting) (s : State) (t : Task) : Prop where
  fact : t.Fact S s
  drained_le : s.agenda.drained ≤ t.index

end Task

/-! ### What tasks do -/

/-- Two states agree but for their agendas and logs. -/
structure State.Same (s s' : State) : Prop where
  calls : s'.calls = s.calls
  forest : s'.forest = s.forest
  furthest : s'.furthest = s.furthest

/-- What taking note of an obstacle does: it is covered afterwards, and it is the only one that may
be new. -/
structure Obstacle.Reported (o : Obstacle) (old new : Option Obstacle) : Prop where
  covered : ∃ o', new = some o' ∧ o.index ≤ o'.index
  mono {o' : Obstacle} : old = some o' → ∃ o'', new = some o'' ∧ o'.index ≤ o''.index
  back {o' : Obstacle} : new = some o' → old = some o' ∨ o' = o

/-- What is parsed when descriptor `d` is at an end: what it brings, or the node for an empty
rule. -/
inductive ParsedNode (S : Setting) (f : Forest) (d : Descriptor) (e : EndSlot) :
    NodeId → Forest → Prop
  | whole {r : NodeId} : d.soFar = some r → ParsedNode S f d e r f
  | empty {r q : NodeId} {f' : Forest} : d.soFar = none → f.Extended S f' →
    f'.node? r = some (.nonterminal e.head d.index d.index) →
    f'.node? q = some (.epsilon d.index) → f'.hasPacked r d.slot d.index = true →
    ParsedNode S f d e r f'

/-- What arriving at `dest` makes: the node for what has been parsed of the rule. -/
structure ArrivedNode (S : Setting) (s : State) (dest : SlotId) (c : CallId) (j : Nat)
    (l : Option NodeId) (r next : NodeId) (f' : Forest) (site : CallSite) (k : Nat)
    (o : Option Node) (n : Node) : Prop where
  call : s.calls.site? c = some site
  soFar : s.forest.Denotes l o
  part : s.forest.node? r = some n
  arrival : S.Derivable (.arrival dest site k j o n)
  forest : s.forest.Extended S f'
  node : f'.node? next = some ((S.joined? dest site j o).getD n)
  packed {m : Node} : S.joined? dest site j o = some m → f'.hasPacked next dest k = true

/-- How a task changes a sound state, and which tasks it leaves. -/
inductive Step (p : Problem) (s : State) : Task → State → List Task → Prop
  | openCall {d : Descriptor} {n : NonterminalSlot} :
    p.graph.slots[d.slot]? = some (.nonterminal n) →
    Step p s (.execute d) s (n.firstSlots.map fun f => .enter f d.call d.index)
  | advance {d : Descriptor} {b : BodySlot} : p.graph.slots[d.slot]? = some (.body b) →
    Step p s (.execute d) s
      (b.transitions.map fun t => .cross d t (p.config.chaining && b.transitions.length = 1))
  | close {d : Descriptor} {e : EndSlot} {r : NodeId} {new : Bool} {site : CallSite}
      {s' : State} :
    p.graph.slots[d.slot]? = some (.done e) → s.calls.site? d.call = some site →
    ParsedNode p.setting s.forest d e r s'.forest → s'.agenda = s.agenda →
    (if d.call = rootCall ∧ d.index < p.text.length then
      Obstacle.Reported ⟨d.slot, d.index, site⟩ s.furthest s'.furthest
    else s'.furthest = s.furthest) →
    s.calls.Completed d.call r new s'.calls →
    Step p s (.execute d) s' (if new = true then (s.calls.edges d.call).map fun e =>
      .arrive e.returnSlot e.caller d.index e.soFar r false else [])
  | enter {f : SlotId} {c : CallId} {i : Nat} {new : Bool} {s' : State} :
    p.setting.Admits f i → s.agenda.Scheduled ⟨⟨f, c, i⟩, none⟩ new s'.agenda → s.Same s' →
    Step p s (.enter f c i) s' []
  | refuse {f : SlotId} {c : CallId} {i : Nat} {b : BodySlot} {site : CallSite} {s' : State} :
    p.config.lookahead = true → p.graph.admits p.text f i = .ok false →
    p.graph.slots[f]? = some (.body b) → s.calls.site? c = some site → s'.calls = s.calls →
    s'.forest = s.forest → s'.agenda = s.agenda →
    Obstacle.Reported ⟨(p.graph.expectedTerminal? b).getD f, i, site⟩ s.furthest s'.furthest →
    Step p s (.enter f c i) s' []
  | mismatch {d : Descriptor} {t : Transition} {direct : Bool} {τ : Terminal}
      {site : CallSite} {s' : State} :
    role? p.graph.slots t.symbol = some (.terminal τ) → τ.matchAt p.text d.index = .ok none →
    s.calls.site? d.call = some site → s'.calls = s.calls → s'.forest = s.forest →
    s'.agenda = s.agenda → Obstacle.Reported ⟨t.symbol, d.index, site⟩ s.furthest s'.furthest →
    Step p s (.cross d t direct) s' []
  | scan {d : Descriptor} {t : Transition} {direct : Bool} {j : Nat} {r : NodeId} {s' : State} :
    (p.graph.spans p.text).scan t.symbol d.index j → s.forest.Extended p.setting s'.forest →
    s'.forest.node? r = some (.terminal t.symbol d.index j) → s'.calls = s.calls →
    s'.agenda = s.agenda → s'.furthest = s.furthest →
    Step p s (.cross d t direct) s' [.arrive t.dest d.call j d.soFar r direct]
  | call {d : Descriptor} {t : Transition} {direct : Bool} {name : String} {c : CallId}
      {newCall newEdge : Bool} {calls₁ : CallGraph} {s' : State} :
    role? p.graph.slots t.symbol = some (.nonterminal name) →
    s.calls.Called ⟨t.symbol, d.index⟩ c newCall calls₁ →
    calls₁.Linked c ⟨t.dest, d.soFar, d.call⟩ newEdge s'.calls → s'.forest = s.forest →
    s'.agenda = s.agenda → s'.furthest = s.furthest →
    Step p s (.cross d t direct) s' ((if newEdge = true then
      (s'.calls.completions c).map fun r =>
        .arrive t.dest d.call ((s.forest.span? r).elim 0 Prod.snd) d.soFar r false else []) ++
      if newCall = true then [.execute (CallSite.entry ⟨t.symbol, d.index⟩ c)] else [])
  | claim {dest : SlotId} {c : CallId} {j k : Nat} {l : Option NodeId} {r next : NodeId}
      {site : CallSite} {o : Option Node} {n : Node} {new : Bool} {s' : State} :
    ArrivedNode p.setting s dest c j l r next s'.forest site k o n →
    s.agenda.Claimed ⟨⟨dest, c, j⟩, some next⟩ new s'.agenda →
    s'.agenda.pending = s.agenda.pending → s'.calls = s.calls → s'.furthest = s.furthest →
    Step p s (.arrive dest c j l r true) s'
      (if new = true then [.execute ⟨⟨dest, c, j⟩, some next⟩] else [])
  | schedule {dest : SlotId} {c : CallId} {j k : Nat} {l : Option NodeId} {r next : NodeId}
      {site : CallSite} {o : Option Node} {n : Node} {new : Bool} {s' : State} :
    ArrivedNode p.setting s dest c j l r next s'.forest site k o n →
    s.agenda.Scheduled ⟨⟨dest, c, j⟩, some next⟩ new s'.agenda → s'.calls = s.calls →
    s'.furthest = s.furthest → Step p s (.arrive dest c j l r false) s' []

namespace State

variable {S : Setting} {p : Problem} {s s' : State}

/-! ### Single changes -/

section

omit [PatternEngine]

@[simp] lemma record_calls (e : Event) : (s.record e).calls = s.calls := rfl

@[simp] lemma record_forest (e : Event) : (s.record e).forest = s.forest := rfl

@[simp] lemma record_agenda (e : Event) : (s.record e).agenda = s.agenda := rfl

@[simp] lemma record_furthest (e : Event) : (s.record e).furthest = s.furthest := rfl

lemma onForest_eq {α : Type} (change : Forest → α × Forest) :
    s.onForest change = ((change s.forest).1, { s with forest := (change s.forest).2 }) := rfl

lemma onCalls_eq {α : Type} (change : CallGraph → α × CallGraph) :
    s.onCalls change = ((change s.calls).1, { s with calls := (change s.calls).2 }) := rfl

lemma openCall_eq (x : SlotId) (i : Nat) : ∃ log, s.openCall x i =
    ((s.calls.call ⟨x, i⟩).1, { s with calls := (s.calls.call ⟨x, i⟩).2, log }) := by
  obtain ⟨c, new, calls, h⟩ : ∃ c new calls, s.calls.call ⟨x, i⟩ = ((c, new), calls) :=
    ⟨_, _, _, rfl⟩
  rw [openCall]
  simp only [onCalls_eq, h]
  cases new with
  | true => exact ⟨_, rfl⟩
  | false => exact ⟨s.log, rfl⟩

lemma link_eq (c : CallId) (e : Edge) : ∃ log, s.link c e =
    ((s.calls.addEdge c e).1, { s with calls := (s.calls.addEdge c e).2, log }) := by
  obtain ⟨new, calls, h⟩ : ∃ new calls, s.calls.addEdge c e = (new, calls) := ⟨_, _, rfl⟩
  rw [link]
  simp only [onCalls_eq, h]
  cases new with
  | true => exact ⟨_, rfl⟩
  | false => exact ⟨s.log, rfl⟩

end

section obstruct

variable {slot : SlotId} {i : Nat} {c : CallId}

@[simp] lemma obstruct_calls : (s.obstruct p slot i c).calls = s.calls := by
  rw [obstruct]
  split <;> rfl

@[simp] lemma obstruct_forest : (s.obstruct p slot i c).forest = s.forest := by
  rw [obstruct]
  split <;> rfl

@[simp] lemma obstruct_agenda : (s.obstruct p slot i c).agenda = s.agenda := by
  rw [obstruct]
  split <;> rfl

lemma obstruct_furthest {site : CallSite} (hc : s.calls.site? c = some site) :
    Obstacle.Reported ⟨slot, i, site⟩ s.furthest (s.obstruct p slot i c).furthest := by
  rw [obstruct]
  split
  next h =>
    obtain ⟨o, ho, hi⟩ := (Option.any_eq_true ..).mp h
    exact ⟨⟨o, ho, by simpa using hi⟩, fun ho => ⟨_, ho, Nat.le_refl _⟩, Or.inl⟩
  next h =>
    refine ⟨⟨_, rfl, Nat.le_refl _⟩, fun {o'} ho' => ⟨_, rfl, ?_⟩, ?_⟩
    · simp only [ho', Option.any_some, decide_eq_true_eq] at h
      exact Nat.le_of_lt (Nat.lt_of_not_le h)
    · intro o' ho
      obtain rfl := Option.some.inj ho
      exact Or.inr (by simp [hc])

end obstruct

/-- No more descriptors were seen than are allowed. -/
def Within (p : Problem) (s : State) : Prop :=
  ∀ limit, p.config.maxDescriptors = some limit → s.agenda.size ≤ limit

/-- The result is `a`, unless more descriptors were seen than are allowed. -/
def Returns {α : Type} (p : Problem) (s s' : State) (r : Except Failure α) (a : α) : Prop :=
  (r = .ok a ∧ (s.Within p → s'.Within p)) ∨
    ∃ limit, p.config.maxDescriptors = some limit ∧ limit < s'.agenda.size ∧
      r = .error (.overLimit limit)

lemma Returns.map {α β : Type} {r : Except Failure α} {a : α} (h : Returns p s s' r a)
    (f : α → β) : Returns p s s' (r.map f) (f a) := by
  rcases h with ⟨rfl, hw⟩ | ⟨limit, hl, hlt, rfl⟩
  · exact Or.inl ⟨rfl, hw⟩
  · exact Or.inr ⟨limit, hl, hlt, rfl⟩

lemma checkLimit_ok : Returns p s s' (s'.checkLimit p) () := by
  rw [checkLimit]
  cases hl : p.config.maxDescriptors with
  | none => exact Or.inl ⟨rfl, fun _ limit h => by simp [hl] at h⟩
  | some limit =>
    by_cases hlt : limit < s'.agenda.size
    · exact Or.inr ⟨limit, hl, hlt, by simp [hlt]⟩
    · refine Or.inl ⟨by simp [hlt], ?_⟩
      intro _ limit' h
      obtain rfl : limit = limit' := by simpa [hl] using h
      exact Nat.le_of_not_lt hlt

/-- Offering a descriptor goes wrong if its item was seen with another partial result, or lies
behind the agenda. -/
def Refused (s : State) (d : Descriptor) (fault : Fault) : Prop :=
  (fault = .conflictingResults ∧ ∃ l, s.agenda.seen[d.toItem]? = some l ∧ l ≠ d.soFar) ∨
    (fault = .behindAgenda ∧ d.index < s.agenda.drained)

lemma schedule_ok (ha : s.agenda.WellFormed) (d : Descriptor) :
    (∃ new, s.agenda.Scheduled d new (s.schedule p d).1.agenda ∧ s.Same (s.schedule p d).1 ∧
      Returns p s (s.schedule p d).1 (s.schedule p d).2 ()) ∨
    ∃ fault, (s.schedule p d).2 = .error (.broken fault) ∧ s.Refused d fault := by
  rw [schedule]
  rcases Agenda.schedule_ok ha d with ⟨new, a', hd, h⟩ | ⟨hd, ho⟩ | ⟨hd, hlt⟩
  · rw [hd]
    cases new with
    | true => exact Or.inl ⟨true, h, ⟨rfl, rfl, rfl⟩, checkLimit_ok⟩
    | false =>
      obtain rfl := h.claimed.same rfl
      exact Or.inl ⟨false, h, ⟨rfl, rfl, rfl⟩, Or.inl ⟨rfl, id⟩⟩
  · rw [hd]
    exact Or.inr ⟨_, rfl, Or.inl ⟨rfl, ho⟩⟩
  · rw [hd]
    exact Or.inr ⟨_, rfl, Or.inr ⟨rfl, hlt⟩⟩

lemma claim_ok (d : Descriptor) :
    (∃ new, s.agenda.Claimed d new (s.claim p d).1.agenda ∧
      (s.claim p d).1.agenda.pending = s.agenda.pending ∧ s.Same (s.claim p d).1 ∧
      Returns p s (s.claim p d).1 (s.claim p d).2 new) ∨
    ∃ fault, (s.claim p d).2 = .error (.broken fault) ∧ s.Refused d fault := by
  rw [claim]
  rcases Agenda.claim_ok (a := s.agenda) d with ⟨new, a', hd, h, hp⟩ | ⟨hd, ho⟩ | ⟨hd, hlt⟩
  · rw [hd]
    cases new with
    | true => exact Or.inl ⟨true, h, hp, ⟨rfl, rfl, rfl⟩, checkLimit_ok.map _⟩
    | false =>
      obtain rfl := h.same rfl
      exact Or.inl ⟨false, h, hp, ⟨rfl, rfl, rfl⟩, Or.inl ⟨rfl, id⟩⟩
  · rw [hd]
    exact Or.inr ⟨_, rfl, Or.inl ⟨rfl, ho⟩⟩
  · rw [hd]
    exact Or.inr ⟨_, rfl, Or.inr ⟨rfl, hlt⟩⟩

/-- A fact that does not lie behind the agenda is only refused if the facts are not functional. -/
lemma Refused.not_functional (hS : S.Valid) (hs : s.Sound S) {d : Descriptor} {fault : Fault}
    (h : s.Refused d fault) (hd : s.ItemFact S d) (hle : s.agenda.drained ≤ d.index) :
    fault = .conflictingResults ∧ ¬ S.Functional := by
  rcases h with ⟨hfault, l, hl, hne⟩ | ⟨-, hlt⟩
  · refine ⟨hfault, fun hfun => hne ?_⟩
    obtain ⟨site, o, hc, ho, hf⟩ := hs.item hl
    obtain ⟨site', o', hc', ho', hf'⟩ := hd
    obtain rfl : site = site' := Option.mem_unique hc hc'
    obtain rfl := hfun.item hf hf'
    obtain ⟨-, -, -, -, hcov⟩ := hf.placed hS
    exact ho.inj hs.forest.wellFormed ho' (Forest.isPacked_of_covers hcov)
  · exact absurd hlt (Nat.not_lt.mpr hle)

end State

/-! ### The ways a task can go -/

namespace Task

variable {p : Problem} {s : State}

/-- A task goes one of the ways of `Step`. It fails if more descriptors were seen than are allowed;
that two partial results conflict can only happen if the facts are not functional, and another
fault only if a terminal cannot be tried. -/
def Goes (p : Problem) (s : State) (task : Task) (out : Outcome) : Prop :=
  (∃ tasks, Step p s task out.1 tasks ∧ State.Returns p s out.1 out.2 tasks) ∨
    (out.2 = .error (.broken .conflictingResults) ∧ ¬ p.setting.Functional) ∨
    ∃ fault, out.2 = .error (.broken fault) ∧ p.text.Faults fault

lemma runEnter_goes (hS : p.setting.Valid) (hs : s.Sound p.setting) {f : SlotId} {c : CallId}
    {i : Nat} (ht : (Task.enter f c i).Sound p.setting s) :
    Goes p s (.enter f c i) (runEnter p s f c i) := by
  obtain ⟨⟨site, hc, rfl, hf⟩, hle⟩ := ht
  obtain ⟨h, hh⟩ := hS.graph.starts hf
  rw [runEnter]
  have hadmit (hadm : p.setting.Admits f site.index) :
      Goes p s (.enter f c site.index) ((s.schedule p ⟨⟨f, c, site.index⟩, none⟩).1,
        (s.schedule p ⟨⟨f, c, site.index⟩, none⟩).2.map fun _ => []) := by
    rcases State.schedule_ok hs.agenda ⟨⟨f, c, site.index⟩, none⟩ with
      ⟨new, hsch, hsame, hret⟩ | ⟨fault, herr, href⟩
    · exact Or.inl ⟨[], .enter hadm hsch hsame, hret.map _⟩
    · have hitem : s.ItemFact p.setting ⟨⟨f, c, site.index⟩, none⟩ :=
        ⟨site, none, hc, .none, .enter (hs.call hc) hf hadm⟩
      obtain ⟨rfl, hfun⟩ := href.not_functional hS hs hitem hle
      exact Or.inr (Or.inl ⟨by simp [herr, Except.map], hfun⟩)
  by_cases hl : p.config.lookahead = true
  · rw [if_pos hl]
    cases hr : p.graph.admits p.text f site.index with
    | error e =>
      obtain ⟨fault, rfl, ht⟩ := Graph.admits_error hS.graph hh hr
      exact Or.inr (Or.inr ⟨fault, rfl, ht⟩)
    | ok r =>
      cases r with
      | true => exact hadmit fun _ => hr
      | false =>
        obtain ⟨b, hb⟩ : ∃ b, p.graph.slots[f]? = some (.body b) := by
          rcases Slots.head?_eq_some.mp hh with ⟨b, hb, -⟩ | ⟨e, he, -⟩
          · exact ⟨b, hb⟩
          · have hdone : p.graph.admits p.text f site.index = .ok true := Graph.admits_done he
            rw [hdone] at hr
            cases hr
        simp only [Graph.bodySlot_eq_ok hb]
        exact Or.inl ⟨[], .refuse hl hr hb hc (by simp) (by simp) (by simp)
          (State.obstruct_furthest hc), Or.inl ⟨rfl, fun hw => by simpa [State.Within] using hw⟩⟩
  · rw [if_neg hl]
    exact hadmit fun hl' => absurd hl' hl

/-- What executing an end does once the node for the rule is there. -/
def returnWith (p : Problem) (d : Descriptor) (r : NodeId) (s : State) : Outcome :=
  let s := if d.call = rootCall && !p.text.isEnd d.index then s.obstruct p d.slot d.index d.call
    else s
  let (s, tasks) := s.returnFrom d.call d.index r
  (s, .ok tasks)

lemma returnWith_goes (hs : s.Sound p.setting) {d : Descriptor} {e : EndSlot} {site : CallSite}
    {r : NodeId} {s₁ : State} (he : p.graph.slots[d.slot]? = some (.done e))
    (hc : s.calls.site? d.call = some site)
    (hparsed : ParsedNode p.setting s.forest d e r s₁.forest) (hcalls₁ : s₁.calls = s.calls)
    (hagenda₁ : s₁.agenda = s.agenda) (hfurthest₁ : s₁.furthest = s.furthest) :
    Goes p s (.execute d) (returnWith p d r s₁) := by
  obtain ⟨s₂, hs₂, hcalls₂, hforest₂, hagenda₂, hfurthest₂⟩ : ∃ s₂,
      (if d.call = rootCall && !p.text.isEnd d.index then
        s₁.obstruct p d.slot d.index d.call else s₁) = s₂ ∧ s₂.calls = s₁.calls ∧
      s₂.forest = s₁.forest ∧ s₂.agenda = s₁.agenda ∧
      if d.call = rootCall ∧ d.index < p.text.length then
        Obstacle.Reported ⟨d.slot, d.index, site⟩ s₁.furthest s₂.furthest
      else s₂.furthest = s₁.furthest := by
    by_cases hcond : d.call = rootCall ∧ d.index < p.text.length
    · refine ⟨s₁.obstruct p d.slot d.index d.call, ?_, by simp, by simp, by simp, ?_⟩
      · rw [if_pos]
        simpa [Text.isEnd] using hcond
      · rw [if_pos hcond]
        exact State.obstruct_furthest (hcalls₁ ▸ hc)
    · refine ⟨s₁, ?_, rfl, rfl, rfl, by rw [if_neg hcond]⟩
      rw [if_neg]
      simpa [Text.isEnd] using hcond
  obtain ⟨new, calls, hcompl⟩ : ∃ new calls, s₂.calls.addCompletion d.call r = (new, calls) :=
    ⟨_, _, rfl⟩
  have hok : s.calls.Completed d.call r new calls := by
    rw [hcalls₂, hcalls₁] at hcompl
    exact CallGraph.addCompletion_ok hs.calls (CallGraph.lt_size_of_site? hc) hcompl
  have hrun : returnWith p d r s₁ = ({ s₂ with calls }, .ok (if new = true then
      (s.calls.edges d.call).map fun e =>
        .arrive e.returnSlot e.caller d.index e.soFar r false else [])) := by
    rw [returnWith]
    simp only [hs₂, State.returnFrom, State.complete, State.onCalls_eq, hcompl, hok.edges]
  rw [hrun]
  have hstep : Step p s (.execute d) { s₂ with calls } _ :=
    .close he hc (hforest₂ ▸ hparsed) (hagenda₂.trans hagenda₁) (hfurthest₁ ▸ hfurthest₂) hok
  refine Or.inl ⟨_, hstep, Or.inl ⟨rfl, ?_⟩⟩
  intro hw limit hlimit
  exact (hagenda₂.trans hagenda₁) ▸ hw limit hlimit

lemma executeEnd_goes (hs : s.Sound p.setting) {d : Descriptor} {e : EndSlot}
    (he : p.graph.slots[d.slot]? = some (.done e)) (hd : s.ItemFact p.setting d) :
    Goes p s (.execute d) (executeEnd p s d e) := by
  obtain ⟨site, o, hc, ho, hf⟩ := hd
  have hrole : role? p.setting.graph.slots d.slot = some (.done e.head e.alternative) :=
    Slots.role?_done.mpr ⟨e, he, rfl, rfl⟩
  cases hl : d.soFar with
  | some r =>
    have hrun : executeEnd p s d e = returnWith p d r s := by
      rw [executeEnd]
      rw [hl]
      rfl
    rw [hrun]
    exact returnWith_goes hs he hc (.whole hl) rfl rfl rfl
  | none =>
    rw [hl] at ho
    obtain rfl := Forest.denotes_none_iff.mp ho
    obtain ⟨r, f', hr⟩ : ∃ r f', s.forest.internEmpty e.head d.slot d.index = (r, f') :=
      ⟨_, _, rfl⟩
    have hrun : executeEnd p s d e = returnWith p d r { s with forest := f' } := by
      rw [executeEnd]
      rw [hl]
      simp only [State.onForest_eq, hr]
      rfl
    obtain ⟨hext, hrn, ⟨q, hq⟩, hp⟩ := Forest.internEmpty_sound hs.forest (.empty hf hrole)
      (.epsilon hf hrole) (.emptyPacked hf hrole) hr
    rw [hrun]
    exact returnWith_goes hs he hc (.empty hl hext hrn hq hp) rfl rfl rfl

lemma runExecute_goes (hS : p.setting.Valid) (hs : s.Sound p.setting) {d : Descriptor}
    (ht : (Task.execute d).Sound p.setting s) :
    Goes p s (.execute d) (runExecute p s d) := by
  have hcont : p.setting.Continues d.slot := by
    rcases ht.fact with ⟨site, o, -, -, hf⟩ | ⟨site, hc, hd⟩
    · exact (hf.placed hS).2.1
    · rw [hd]
      exact Or.inr ((hs.call hc).placed hS).1
  have hreturn (tasks : List Task) : State.Returns p s s (.ok tasks) tasks := Or.inl ⟨rfl, id⟩
  rw [runExecute]
  rcases hcont with ⟨h, hh⟩ | ⟨name, hn⟩
  · rcases Slots.head?_eq_some.mp hh with ⟨b, hb, -⟩ | ⟨e, he, -⟩
    · have hslot : p.graph.slot d.slot = .ok (.body b) := Graph.slot_eq_ok hb
      rw [hslot]
      exact Or.inl ⟨_, .advance hb, hreturn _⟩
    · have hslot : p.graph.slot d.slot = .ok (.done e) := Graph.slot_eq_ok he
      rw [hslot]
      refine executeEnd_goes hs he (ht.fact.resolve_right ?_)
      rintro ⟨site, hc, hd⟩
      -- the slot of a call is a nonterminal, not an end
      obtain ⟨name, hn⟩ := ((hs.call hc).placed hS).1
      rw [hd] at he
      obtain ⟨n, hn, -⟩ := Slots.role?_nonterminal.mp hn
      rw [show (site.entry d.call).slot = site.slot from rfl, hn] at he
      cases he
  · obtain ⟨n, hn, -⟩ := Slots.role?_nonterminal.mp hn
    have hslot : p.graph.slot d.slot = .ok (.nonterminal n) := Graph.slot_eq_ok hn
    rw [hslot]
    exact Or.inl ⟨_, .openCall hn, hreturn _⟩

lemma runCross_goes (hS : p.setting.Valid) (hs : s.Sound p.setting) {d : Descriptor}
    {t : Transition} {direct : Bool} (ht : (Task.cross d t direct).Sound p.setting s) :
    Goes p s (.cross d t direct) (runCross p s d t direct) := by
  obtain ⟨⟨⟨site, o, hc, ho, hf⟩, hl⟩, -⟩ := ht
  rw [runCross]
  rcases hS.graph.leads_symbol hl with ⟨τ, hτ⟩ | ⟨name, hn⟩
  · obtain ⟨x, hx, rfl⟩ := Slots.role?_terminal.mp hτ
    have hslot : p.graph.slot t.symbol = .ok (.terminal x) := Graph.slot_eq_ok hx
    simp only [hslot]
    cases hm : x.terminal.matchAt p.text d.index with
    | error fault => exact Or.inr (Or.inr ⟨fault, rfl, x.terminal, d.index, hm⟩)
    | ok m =>
      cases m with
      | none =>
        exact Or.inl ⟨[], .mismatch hτ hm hc (by simp) (by simp) (by simp)
          (State.obstruct_furthest hc), Or.inl ⟨rfl, fun hw => by simpa [State.Within] using hw⟩⟩
      | some n =>
        have hscan : (p.graph.spans p.text).scan t.symbol d.index (d.index + n) :=
          ⟨x.terminal, n, hτ, hm, rfl⟩
        obtain ⟨r, f', hr⟩ : ∃ r f',
            s.forest.intern (.terminal t.symbol d.index (d.index + n)) = (r, f') := ⟨_, _, rfl⟩
        obtain ⟨hext, hrn⟩ := Forest.intern_sound hs.forest rfl
          (.part (.scan hf hl hscan)) hr
        simp only [State.onForest_eq, hr]
        exact Or.inl ⟨_, .scan hscan hext hrn rfl rfl rfl, Or.inl ⟨rfl, id⟩⟩
  · obtain ⟨x, hx, -⟩ := Slots.role?_nonterminal.mp hn
    have hslot : p.graph.slot t.symbol = .ok (.nonterminal x) := Graph.slot_eq_ok hx
    simp only [hslot]
    obtain ⟨c, newCall, calls₁, hcall⟩ : ∃ c newCall calls₁,
        s.calls.call ⟨t.symbol, d.index⟩ = ((c, newCall), calls₁) := ⟨_, _, _, rfl⟩
    have hcalled := CallGraph.call_ok hs.calls hcall
    obtain ⟨newEdge, calls', hedge⟩ : ∃ newEdge calls',
        calls₁.addEdge c ⟨t.dest, d.soFar, d.call⟩ = (newEdge, calls') := ⟨_, _, rfl⟩
    have hlinked := CallGraph.addEdge_ok hcalled.wellFormed
      (CallGraph.lt_size_of_site? hcalled.called) hedge
    obtain ⟨log₁, hopen⟩ := s.openCall_eq t.symbol d.index
    obtain ⟨log₂, hlink⟩ := State.link_eq (s := { s with calls := calls₁, log := log₁ }) c
      ⟨t.dest, d.soFar, d.call⟩
    have hrun : s.call t.dest t.symbol d.call d.index d.soFar =
        (c, { s with calls := calls', log := log₂ }, (if newEdge = true then
          (calls'.completions c).map fun r => .arrive t.dest d.call
            ((s.forest.span? r).elim 0 Prod.snd) d.soFar r false else []) ++
          if newCall = true then [.execute (CallSite.entry ⟨t.symbol, d.index⟩ c)] else []) := by
      rw [hcall] at hopen
      rw [State.call]
      simp only [hopen, hlink, hedge]
      rfl
    rw [hrun]
    exact Or.inl ⟨_, .call hn hcalled hlinked rfl rfl rfl, Or.inl ⟨rfl, id⟩⟩

/-- Arriving makes the node for what has been parsed, and with it a descriptor that is a fact. -/
lemma arrive_item (hS : p.setting.Valid) (hs : s.Sound p.setting) {dest : SlotId} {c : CallId}
    {j : Nat} {l : Option NodeId} {r : NodeId} {direct : Bool}
    (ht : (Task.arrive dest c j l r direct).Fact p.setting s) :
    ∃ next f' site k o n, s.forest.combine p.graph dest l r = (.ok next, f') ∧
      ArrivedNode p.setting s dest c j l r next f' site k o n ∧
      State.Sound p.setting { s with forest := f' } ∧
      State.ItemFact p.setting { s with forest := f' } ⟨⟨dest, c, j⟩, some next⟩ := by
  obtain ⟨site, k, o, n, hc, ho, hn, hf⟩ := ht
  obtain ⟨next, f', hcombine, hext, hnext, hpacked⟩ :=
    Forest.combine_sound hS hs.forest hf ho hn
  have hle₁ : s.Le { s with forest := f' } :=
    ⟨.refl _, hext.le, id, fun h => ⟨_, h, Nat.le_refl _⟩⟩
  have hs₁ : State.Sound p.setting { s with forest := f' } :=
    hs.grow hle₁ hs.calls hext.sound hs.agenda Or.inl Or.inl Or.inl Or.inl Or.inl
  exact ⟨next, f', site, k, o, n, hcombine, ⟨hc, ho, hn, hf, hext, hnext, hpacked _⟩, hs₁,
    site, _, hc, .some hnext, .arrive hf⟩

lemma runArrive_goes (hS : p.setting.Valid) (hs : s.Sound p.setting) {dest : SlotId}
    {c : CallId} {j : Nat} {l : Option NodeId} {r : NodeId} {direct : Bool}
    (ht : (Task.arrive dest c j l r direct).Sound p.setting s) :
    Goes p s (.arrive dest c j l r direct) (runArrive p s dest c j l r direct) := by
  obtain ⟨hfact, hle⟩ := ht
  obtain ⟨next, f', site, k, o, n, hcombine, hnode, hs₁, hitem⟩ := arrive_item hS hs hfact
  have hnode' {f'' : Forest} (h : f'' = f') :
      ArrivedNode p.setting s dest c j l r next f'' site k o n := h ▸ hnode
  rw [runArrive]
  have hforest : s.onForest (·.combine p.graph dest l r) = (.ok next, { s with forest := f' }) := by
    rw [State.onForest_eq, hcombine]
  rw [hforest]
  cases direct with
  | true =>
    rcases State.claim_ok (p := p) (s := { s with forest := f' }) ⟨⟨dest, c, j⟩, some next⟩ with
      ⟨new, hclaim, hpending, hsame, hret⟩ | ⟨fault, herr, href⟩
    · have hstep := Step.claim (p := p) (s := s) (hnode' hsame.forest) hclaim hpending
        hsame.calls hsame.furthest
      refine Or.inl ⟨_, hstep, ?_⟩
      exact hret.map fun new : Bool => if new then [Task.execute ⟨⟨dest, c, j⟩, some next⟩] else []
    · obtain ⟨rfl, hfun⟩ := href.not_functional hS hs₁ hitem hle
      exact Or.inr (Or.inl ⟨by simp [herr, Except.map], hfun⟩)
  | false =>
    rcases State.schedule_ok (p := p) (s := { s with forest := f' }) hs.agenda
      ⟨⟨dest, c, j⟩, some next⟩ with ⟨new, hsch, hsame, hret⟩ | ⟨fault, herr, href⟩
    · exact Or.inl ⟨[], .schedule (hnode' hsame.forest) hsch hsame.calls hsame.furthest,
        hret.map _⟩
    · obtain ⟨rfl, hfun⟩ := href.not_functional hS hs₁ hitem hle
      exact Or.inr (Or.inl ⟨by simp [herr, Except.map], hfun⟩)

/-- All tasks go the ways of `Step`. -/
theorem run_goes (hS : p.setting.Valid) (hs : s.Sound p.setting) {task : Task}
    (ht : task.Sound p.setting s) : Goes p s task (task.run p s) := by
  cases task with
  | execute d => exact runExecute_goes hS hs ht
  | enter f c i => exact runEnter_goes hS hs ht
  | cross d t direct => exact runCross_goes hS hs ht
  | arrive dest c j l r direct => exact runArrive_goes hS hs ht

/-- A task that succeeds takes one of the steps. -/
lemma step_of_run (hS : p.setting.Valid) (hs : s.Sound p.setting) {task : Task}
    (ht : task.Sound p.setting s) {s' : State} {new : List Task}
    (h : task.run p s = (s', .ok new)) : Step p s task s' new := by
  have hgoes := run_goes hS hs ht
  rw [h] at hgoes
  rcases hgoes with ⟨tasks, hstep, ⟨hr, -⟩ | ⟨limit, -, -, hr⟩⟩ | ⟨hr, -⟩ | ⟨fault, hr, -⟩
  · obtain rfl : new = tasks := Except.ok.inj hr
    exact hstep
  · cases hr
  · cases hr
  · cases hr

end Task

end GeneralParser
