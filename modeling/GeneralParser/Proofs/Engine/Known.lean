import GeneralParser.Proofs.Engine.Closed

/-!
# Known facts

A sound state knows a fact if it has stored it, under the numbers it has given to calls and nodes.
Once nothing is left to do, a parse knows all facts, and nothing but facts. Its result therefore
does not depend on how it was reached.
-/

namespace GeneralParser.State

variable [PatternEngine]

open Slots (role? head? Leads)

variable {S : Setting} {s : State}

/-- The state has stored a fact. Of the obstacles only the furthest is kept. -/
def Knows (S : Setting) (s : State) : Fact → Prop
  | .call site => ∃ c, s.calls.site? c = some site
  | .item slot site i o => ∃ c l, s.calls.site? c = some site ∧
    s.agenda.seen[(⟨slot, c, i⟩ : Item)]? = some l ∧ s.forest.Denotes l o
  | .edge callee r caller o => ∃ c c' l, s.calls.site? c = some callee ∧
    s.calls.site? c' = some caller ∧ s.forest.Denotes l o ∧ ⟨r, l, c'⟩ ∈ s.calls.edges c
  | .completion callee j n => ∃ c r, s.calls.site? c = some callee ∧
    s.forest.node? r = some n ∧ n.span? = some (callee.index, j) ∧ r ∈ s.calls.completions c
  | .arrival d site k j o n => ∃ c l r next,
    ArrivedNode S s d c j l r next s.forest site k o n ∧
      s.agenda.seen[(⟨d, c, j⟩ : Item)]? = some (some next)
  | .node n => n.isPacked = false ∧ ∃ i, s.forest.node? i = some n
  | .packed m slot k o n => ∃ i q l r, s.forest.node? i = some m ∧ q ∈ s.forest.packedUnder i ∧
    s.forest.node? q = some (.packed slot k) ∧ s.forest.parts q = l.toList ++ [r] ∧
    s.forest.Denotes l o ∧ s.forest.node? r = some n
  | .obstacle o => s.Covered o.index

/-! ### What is known is a fact -/

lemma Arrived.knows (hS : S.Valid) {d : SlotId} {c : CallId} {k j : Nat} {l : Option NodeId}
    {r : NodeId} {site : CallSite} {o : Option Node} {n : Node} (ha : s.Arrived S d c j l r)
    (hc : s.calls.site? c = some site) (hl : s.forest.Denotes l o)
    (hr : s.forest.node? r = some n) (hspan : n.span? = some (k, j)) :
    s.Knows S (.arrival d site k j o n) := by
  obtain ⟨site', k', o', n', next, hnode, hseen⟩ := ha
  obtain rfl : site = site' := Option.mem_unique hc hnode.call
  obtain rfl : n = n' := Option.mem_unique hr hnode.part
  obtain rfl := hl.unique hnode.soFar
  obtain ⟨-, -, -, -, hover⟩ := hnode.arrival.placed hS
  obtain rfl : k = k' := by simpa using hspan.symm.trans hover.span
  exact ⟨c, l, r, next, hnode, hseen⟩

omit [PatternEngine] in
lemma eq_of_toList_append {l l' : Option NodeId} {r r' : NodeId}
    (h : l.toList ++ [r] = l'.toList ++ [r']) : l = l' ∧ r = r' := by
  cases l <;> cases l' <;> simp_all

namespace Sound

variable (hs : s.Sound S)
include hs

/-- What a packed node stands for is a fact. -/
lemma packed {i q : NodeId} {m n : Node} {slot : SlotId} {k : Nat} {o : Option Node}
    {l : Option NodeId} {r : NodeId} (hi : s.forest.node? i = some m)
    (hq : q ∈ s.forest.packedUnder i) (hqn : s.forest.node? q = some (.packed slot k))
    (hp : s.forest.parts q = l.toList ++ [r]) (hl : s.forest.Denotes l o)
    (hr : s.forest.node? r = some n) : S.Derivable (.packed m slot k o n) := by
  obtain ⟨m', slot', k', o', n', l', r', hi', hqn', hp', hl', hr', hd⟩ := hs.forest.packed hq
  obtain ⟨rfl, rfl⟩ := eq_of_toList_append (hp.symm.trans hp')
  obtain rfl : m = m' := Option.mem_unique hi hi'
  obtain rfl : n = n' := Option.mem_unique hr hr'
  obtain rfl := hl.unique hl'
  obtain ⟨rfl, rfl⟩ : slot = slot' ∧ k = k' := by simpa using hqn.symm.trans hqn'
  exact hd

/-- What a sound state knows is a fact, whatever is left to do. -/
theorem derivable (hS : S.Valid) {F : Fact} (h : s.Knows S F) (hF : ∀ o, F ≠ .obstacle o) :
    S.Derivable F := by
  cases F with
  | call site =>
    obtain ⟨c, hc⟩ := h
    exact hs.call hc
  | item slot site i o =>
    obtain ⟨c, l, hc, hi, hl⟩ := h
    obtain ⟨site', o', hc', hl', hf⟩ := hs.item hi
    obtain rfl : site = site' := Option.mem_unique hc hc'
    obtain rfl := hl.unique hl'
    exact hf
  | edge callee r caller o =>
    obtain ⟨c, c', l, hc, hc', hl, he⟩ := h
    obtain ⟨callee', caller', o', hcallee, hcaller, hl', hf⟩ := hs.edge he
    obtain rfl : callee = callee' := Option.mem_unique hc hcallee
    obtain rfl : caller = caller' := Option.mem_unique hc' hcaller
    obtain rfl := hl.unique hl'
    exact hf
  | completion callee j n =>
    obtain ⟨c, r, hc, hr, hspan, hmem⟩ := h
    obtain ⟨callee', j', n', hc', hr', hf⟩ := hs.completion hmem
    obtain rfl : callee = callee' := Option.mem_unique hc hc'
    obtain rfl : n = n' := Option.mem_unique hr hr'
    obtain ⟨-, hover⟩ := hf.placed hS
    obtain rfl : j = j' := by simpa using hspan.symm.trans hover.span
    exact hf
  | arrival d site k j o n =>
    obtain ⟨c, l, r, next, hnode, -⟩ := h
    exact hnode.arrival
  | node n =>
    obtain ⟨hn, i, hi⟩ := h
    exact hs.forest.node hi hn
  | packed m slot k o n =>
    obtain ⟨i, q, l, r, hi, hq, hqn, hp, hl, hr⟩ := h
    exact hs.packed hi hq hqn hp hl hr
  | obstacle o => exact absurd rfl (hF o)

/-- A packed node is made once for its parent, slot and pivot, so its parts are those of the fact.
-/
lemma knows_packed (hfun : S.Functional) {i : NodeId} {m n : Node} {slot : SlotId} {k : Nat}
    {o : Option Node} (hi : s.forest.node? i = some m)
    (hp : s.forest.hasPacked i slot k = true) (hd : S.Derivable (.packed m slot k o n)) :
    s.Knows S (.packed m slot k o n) := by
  obtain ⟨q, hq, hqn⟩ := Forest.mem_hasPacked.mp hp
  obtain ⟨m', slot', k', o', n', l, r, hi', hqn', hparts, hl, hr, hd'⟩ := hs.forest.packed hq
  obtain rfl : m = m' := Option.mem_unique hi hi'
  obtain ⟨rfl, rfl⟩ : slot = slot' ∧ k = k' := by simpa using hqn.symm.trans hqn'
  obtain ⟨rfl, rfl⟩ := hfun.packed hd hd'
  exact ⟨i, q, l, r, hi, hq, hqn, hparts, hl, hr⟩

end Sound

/-! ### All facts are known in the end -/

/-- Nothing is left to do, and nothing was forgotten. -/
structure Saturated (S : Setting) (s : State) : Prop where
  closed : s.Closed S []
  waiting : s.agenda.waiting = []

namespace Saturated

variable (hs : s.Sound S) (h : s.Saturated S)
include h

lemma executed {d : Descriptor} (hd : s.Handled S [] d) : s.Executed S [] d := by
  rcases hd with hd | hd | hd
  · rw [h.waiting] at hd
    cases hd
  · cases hd
  · exact hd

lemma item {i : Item} {l : Option NodeId} (hi : s.agenda.seen[i]? = some l) :
    s.Executed S [] ⟨i, l⟩ :=
  h.executed (h.closed.item hi)

lemma entered {site : CallSite} {f : SlotId} (hsite : s.Knows S (.call site))
    (hf : Slots.Starts S.graph.slots site.slot f) :
    ∃ c, s.calls.site? c = some site ∧ s.Entered S f c site.index := by
  obtain ⟨c, hc⟩ := hsite
  rcases (h.executed (h.closed.entry hc)).enter hf with hf | hf
  · cases hf
  · exact ⟨c, hc, hf⟩

lemma crossed {b x dest : SlotId} {c : CallId} {i : Nat} {l : Option NodeId}
    (hi : s.agenda.seen[(⟨b, c, i⟩ : Item)]? = some l) (hl : Leads S.graph.slots b x dest) :
    s.Crossed S [] ⟨⟨b, c, i⟩, l⟩ ⟨x, dest⟩ := by
  rcases (h.item hi).cross hl with ⟨direct, hd⟩ | hd
  · cases hd
  · exact hd

/-- The node for a rule that has come to its end is a completion of its call. -/
lemma parsed {e a : SlotId} {k : Nat} {c : CallId} {i : Nat} {l : Option NodeId}
    (hi : s.agenda.seen[(⟨e, c, i⟩ : Item)]? = some l)
    (he : role? S.graph.slots e = some (.done a k)) :
    ∃ r ∈ s.calls.completions c, s.Parsed ⟨⟨e, c, i⟩, l⟩ a r :=
  ((h.item hi).close he).1

/-- An empty rule has its nodes. -/
lemma empty {e a : SlotId} {k i : Nat} {site : CallSite} (hi : s.Knows S (.item e site i none))
    (he : role? S.graph.slots e = some (.done a k)) :
    ∃ r, s.forest.node? r = some (.nonterminal a i i) ∧
      (∃ q, s.forest.node? q = some (.epsilon i)) ∧ s.forest.hasPacked r e i = true := by
  obtain ⟨c, l, -, hi, hl⟩ := hi
  obtain ⟨r, -, hr | ⟨-, hr⟩⟩ := h.parsed hi he
  · rw [show l = some r from hr] at hl
    cases hl
  · exact ⟨r, hr⟩

lemma completion (hS : S.Valid) {e a : SlotId} {k i : Nat} {site : CallSite} {o : Option Node}
    (hitem : s.Knows S (.item e site i o)) (hd : S.Derivable (.item e site i o))
    (he : role? S.graph.slots e = some (.done a k)) :
    s.Knows S (.completion site i (o.getD (.nonterminal a i i))) := by
  obtain ⟨-, hover⟩ := (Setting.Derivable.complete hd he).placed hS
  obtain ⟨c, l, hc, hi, hl⟩ := hitem
  obtain ⟨r, hr, hrl | ⟨hrl, hn, -⟩⟩ := h.parsed hi he
  · rw [show l = some r from hrl] at hl
    obtain ⟨n, hn, rfl⟩ := Forest.denotes_some_iff.mp hl
    exact ⟨c, r, hc, hn, hover.span, hr⟩
  · rw [show l = none from hrl] at hl
    obtain rfl := Forest.denotes_none_iff.mp hl
    exact ⟨c, r, hc, hn, hover.span, hr⟩

include hs

lemma resumed (hS : S.Valid) {callee site : CallSite} {d : SlotId} {j : Nat} {o : Option Node}
    {n : Node} (he : s.Knows S (.edge callee d site o)) (hn : s.Knows S (.completion callee j n)) :
    s.Knows S (.arrival d site callee.index j o n) := by
  obtain ⟨c, c', l, hc, hc', hl, he⟩ := he
  obtain ⟨c₁, r, hc₁, hr, hspan, hmem⟩ := hn
  obtain rfl := hs.calls.unique hc hc₁
  obtain ⟨n', i, j', hr', hspan', ha⟩ := h.closed.pair he hmem
  obtain rfl : n = n' := Option.mem_unique hr hr'
  obtain ⟨-, rfl⟩ : callee.index = i ∧ j = j' := by simpa using hspan.symm.trans hspan'
  rcases ha with ⟨direct, ha⟩ | ha
  · cases ha
  · exact ha.knows hS hc' hl hr hspan

/-- A state that is sound and saturated knows every fact. -/
theorem knows (hS : S.Valid) (hfun : S.Functional) {F : Fact} (hF : S.Derivable F) :
    s.Knows S F := by
  induction hF with
  | root => exact ⟨rootCall, hs.root⟩
  | seed => exact ⟨rootCall, none, hs.root, h.closed.seed, .none⟩
  | enter _ hf hadm ih =>
    obtain ⟨c, hc, he⟩ := h.entered ih hf
    exact ⟨c, none, hc, he.1 hadm, .none⟩
  | refuse _ hf hl hadm _ ih =>
    obtain ⟨c, hc, he⟩ := h.entered ih hf
    apply he.2
    intro ha
    have hadm' := ha hl
    rw [hadm] at hadm'
    cases hadm'
  | scan _ hl hscan ih =>
    obtain ⟨c, l, hc, hi, hlo⟩ := ih
    obtain ⟨r, hr, ⟨direct, ha⟩ | ha⟩ := (h.crossed hi hl).scan hscan
    · cases ha
    · exact ha.knows hS hc hlo hr rfl
  | mismatch _ hl hτ hm ih =>
    obtain ⟨c, l, hc, hi, hlo⟩ := ih
    exact (h.crossed hi hl).mismatch hτ hm
  | call _ hl hn ih =>
    obtain ⟨c, l, hc, hi, hlo⟩ := ih
    obtain ⟨c', hc', -⟩ := (h.crossed hi hl).call hn
    exact ⟨c', hc'⟩
  | edge _ hl hn ih =>
    obtain ⟨c, l, hc, hi, hlo⟩ := ih
    obtain ⟨c', hc', he⟩ := (h.crossed hi hl).call hn
    exact ⟨c', c, l, hc', hc, hlo, he⟩
  | resume _ _ ih ih' => exact h.resumed hs hS ih ih'
  | arrive _ ih =>
    obtain ⟨c, l, r, next, hnode, hseen⟩ := ih
    exact ⟨c, some next, hnode.call, hseen, .some hnode.node⟩
  | part hd ih =>
    obtain ⟨c, l, r, next, hnode, hseen⟩ := ih
    obtain ⟨-, -, -, -, hover⟩ := hd.placed hS
    exact ⟨Forest.isPacked_eq_false hover.span, r, hnode.part⟩
  | joined _ hm ih =>
    obtain ⟨c, l, r, next, hnode, hseen⟩ := ih
    exact ⟨Forest.isPacked_eq_false (Setting.span?_joined hm), next, by simpa [hm] using hnode.node⟩
  | packed hd hm ih =>
    obtain ⟨c, l, r, next, hnode, hseen⟩ := ih
    exact hs.knows_packed hfun (by simpa [hm] using hnode.node) (hnode.packed hm) (.packed hd hm)
  | empty _ he ih =>
    obtain ⟨r, hr, -, -⟩ := h.empty ih he
    exact ⟨rfl, r, hr⟩
  | epsilon _ he ih =>
    obtain ⟨r, -, hq, -⟩ := h.empty ih he
    exact ⟨rfl, hq⟩
  | emptyPacked hd he ih =>
    obtain ⟨r, hr, -, hp⟩ := h.empty ih he
    exact hs.knows_packed hfun hr hp (.emptyPacked hd he)
  | complete hd he ih => exact h.completion hS ih hd he
  | early _ he hi ih =>
    obtain ⟨c, l, hc, hseen, hl⟩ := ih
    obtain rfl := hs.calls.unique hc hs.root
    exact ((h.item hseen).close he).2 rfl hi

/-- In the end a parse knows just the facts. -/
theorem knows_iff (hS : S.Valid) (hfun : S.Functional) {F : Fact} (hF : ∀ o, F ≠ .obstacle o) :
    s.Knows S F ↔ S.Derivable F :=
  ⟨fun hk => hs.derivable hS hk hF, h.knows hs hS hfun⟩

end Saturated

end GeneralParser.State
