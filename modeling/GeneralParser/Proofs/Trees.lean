import GeneralParser.Proofs.Exactness
import GeneralParser.Proofs.Grammar.Tree

/-!
# The trees in a forest

A forest stands for the trees that one reads off by choosing one packed node wherever a node is
met. A node can be met more than once on the way, even below itself, and each time another choice is
free. The trees at a node are just those by which its symbols derive its stretch of the text.
-/

namespace GeneralParser

variable [PatternEngine]

open Slots (role? head? Leads Path Starts Spelled)
open Rules (ParsedAs parsedAs_concat_iff parsedAs_nil_iff parsedAs_terminal_iff
  parsedAs_nonterminal_iff derives_iff_exists_parsedAs)

/-! ### Reading off trees -/

/-- The trees `ts` can be read off at node `v`, and `met` are the nodes that are met on the way. An
intermediate node adds nothing to the trees of its parts, and neither does an empty one. -/
inductive Forest.Yields (f : Forest) (g : Graph) : NodeId → List NodeId → List Tree → Prop
  | terminal {v : NodeId} {x : SlotId} {i j : Nat} {τ : Terminal} :
    f.node? v = some (.terminal x i j) → role? g.slots x = some (.terminal τ) →
    Yields f g v [v] [.leaf τ i j]
  | epsilon {v : NodeId} {i : Nat} : f.node? v = some (.epsilon i) → Yields f g v [v] []
  | nonterminal {v q : NodeId} {a e h : SlotId} {i j k l : Nat} {A : String} {met : List NodeId}
    {ts : List Tree} : f.node? v = some (.nonterminal a i j) →
    role? g.slots a = some (.nonterminal A) → q ∈ f.children v →
    f.node? q = some (.packed e k) → role? g.slots e = some (.done h l) → Yields f g q met ts →
    Yields f g v (v :: met) [.node A l i j ts]
  | intermediate {v q : NodeId} {slot : SlotId} {i j : Nat} {met : List NodeId} {ts : List Tree} :
    f.node? v = some (.intermediate slot i j) → q ∈ f.children v → Yields f g q met ts →
    Yields f g v (v :: met) ts
  | single {q r : NodeId} {slot : SlotId} {k : Nat} {met : List NodeId} {ts : List Tree} :
    f.node? q = some (.packed slot k) → f.children q = [r] → Yields f g r met ts →
    Yields f g q (q :: met) ts
  | pair {q l r : NodeId} {slot : SlotId} {k : Nat} {met met' : List NodeId} {ts us : List Tree} :
    f.node? q = some (.packed slot k) → f.children q = [l, r] → Yields f g l met ts →
    Yields f g r met' us → Yields f g q (q :: (met ++ met')) (ts ++ us)

/-- The trees that a forest stands for at node `v`. -/
def Forest.trees (f : Forest) (g : Graph) (v : NodeId) : Set Tree :=
  {tree | ∃ met, f.Yields g v met [tree]}

/-! ### What nodes stand for -/

/-- The node is for the symbols `body` over the stretch from `i` to `j`. -/
inductive Graph.StandsFor (g : Graph) : Node → List Symbol → Nat → Nat → Prop
  | terminal {x : SlotId} {τ : Terminal} {i j : Nat} : role? g.slots x = some (.terminal τ) →
    StandsFor g (.terminal x i j) [.terminal τ] i j
  | epsilon (i : Nat) : StandsFor g (.epsilon i) [] i i
  | nonterminal {a : SlotId} {A : String} {i j : Nat} :
    role? g.slots a = some (.nonterminal A) → StandsFor g (.nonterminal a i j) [.nonterminal A] i j
  | intermediate {slot : SlotId} {xs : List SlotId} {front : List Symbol} {last : Symbol}
    {i j : Nat} : front ≠ [] → g.Precedes slot xs (front ++ [last]) →
    StandsFor g (.intermediate slot i j) (front ++ [last]) i j

namespace Graph

variable {g : Graph} {rules : List (String × List Symbol)}

lemma standsFor_symbolNode {x : SlotId} {X : Symbol} (hx : role? g.slots x = some X.role)
    (i j : Nat) : g.StandsFor (g.symbolNode x i j) [X] i j := by
  cases X with
  | terminal τ =>
    rw [symbolNode_terminal hx]
    exact .terminal hx
  | nonterminal A =>
    rw [symbolNode_nonterminal hx]
    exact .nonterminal hx

/-- What stands before a slot is taken apart at its last symbol. -/
lemma Precedes.concat_cases {slot : SlotId} {xs : List SlotId} {front : List Symbol}
    {last : Symbol} (h : g.Precedes slot xs (front ++ [last])) : ∃ b y ys, xs = ys ++ [y] ∧
      g.Precedes b ys front ∧ Leads g.slots b y slot ∧ role? g.slots y = some last.role := by
  rcases List.eq_nil_or_concat' xs with rfl | ⟨ys, y, rfl⟩
  · have hs := h.spelled
    simp [Spelled] at hs
  · obtain ⟨a, f, hf, hp⟩ := h.path
    obtain ⟨b, hp, hl⟩ := Slots.path_concat_iff.mp hp
    obtain ⟨front', last', heq, hs, hy⟩ := Slots.spelled_concat_iff.mp h.spelled
    obtain ⟨rfl, hlast⟩ := List.append_inj' heq rfl
    obtain rfl : last = last' := by simpa using hlast
    exact ⟨b, y, ys, rfl, ⟨⟨a, f, hf, hp⟩, hs⟩, hl, hy⟩

lemma Precedes.concat {b y slot : SlotId} {ys : List SlotId} {front : List Symbol} {last : Symbol}
    (h : g.Precedes b ys front) (hl : Leads g.slots b y slot)
    (hy : role? g.slots y = some last.role) : g.Precedes slot (ys ++ [y]) (front ++ [last]) := by
  obtain ⟨a, f, hf, hp⟩ := h.path
  exact ⟨⟨a, f, hf, hp.concat hl⟩, h.spelled.concat hy⟩

lemma Precedes.unique (hg : g.Spells rules) {slot : SlotId} {xs xs' : List SlotId}
    {body body' : List Symbol} (h : g.Precedes slot xs body) (h' : g.Precedes slot xs' body') :
    body = body' := by
  obtain ⟨a, f, hf, hp⟩ := h.path
  obtain ⟨a', f', hf', hp'⟩ := h'.path
  obtain ⟨-, rfl⟩ := hg.wired.path_unique hf hf' hp hp'
  refine List.map_injective_iff.mpr ?_ (h.spelled.symm.trans h'.spelled)
  intro X Y hXY
  cases X <;> cases Y <;> simp_all [Symbol.role]

/-- The symbols before a position are the business of one node, if there are any. -/
lemma Precedes.standsFor {b y slot : SlotId} {ys : List SlotId} {front : List Symbol}
    (h : g.Precedes b ys front) (hl : Leads g.slots b y slot) (i j : Nat) :
    (front = [] ∧ g.prefixNode? b ys i j = none) ∨
      ∃ n, g.prefixNode? b ys i j = some n ∧ g.StandsFor n front i j := by
  obtain ⟨s, hs, -⟩ := hl
  rcases List.eq_nil_or_concat' front with rfl | ⟨front, last, rfl⟩
  · have hys := h.spelled
    obtain rfl : ys = [] := by simpa [Spelled] using hys
    exact Or.inl ⟨rfl, rfl⟩
  · refine Or.inr ?_
    obtain ⟨b', x, zs, rfl, hzs, -, hx⟩ := h.concat_cases
    rw [prefixNode?_concat]
    simp only [hs]
    rcases List.eq_nil_or_concat' front with rfl | ⟨front, last', rfl⟩
    · obtain rfl : zs = [] := by simpa [Spelled] using hzs.spelled
      exact ⟨_, if_pos rfl, standsFor_symbolNode hx i j⟩
    · obtain ⟨-, z, zs, rfl, -⟩ := hzs.concat_cases
      exact ⟨_, if_neg (List.concat_ne_nil _ _), .intermediate (List.concat_ne_nil _ _) h⟩

end Graph

variable {f : Forest} {g : Graph} {rules : List (String × List Symbol)} {t : Text}

/-- The node, if there is one, is for the symbols `body`, which derive the stretch from `i` to `j`.
Without symbols no node is needed. -/
inductive Forest.Represents (f : Forest) (g : Graph) (rules : List (String × List Symbol))
    (t : Text) : Option NodeId → List Symbol → Nat → Nat → Prop
  | absent (i : Nat) : Represents f g rules t none [] i i
  | node {v : NodeId} {n : Node} {body : List Symbol} {i j : Nat} : f.node? v = some n →
    g.StandsFor n body i j → (SpanGrammar.ofRules rules t).Derives body i j →
    Represents f g rules t (some v) body i j

/-- The parts of node `q` are for the symbols `body` over the stretch from `i` to `j`, and the last
symbol starts at `k`. -/
inductive Forest.CutInto (f : Forest) (g : Graph) (rules : List (String × List Symbol)) (t : Text)
    (q : NodeId) : List Symbol → Nat → Nat → Nat → Prop
  | symbols {l : Option NodeId} {r : NodeId} {front : List Symbol} {last : Symbol} {i k j : Nat} :
    f.children q = l.toList ++ [r] → f.Represents g rules t l front i k →
    f.Represents g rules t (some r) [last] k j → CutInto f g rules t q (front ++ [last]) i k j
  | empty {r : NodeId} {i : Nat} : f.children q = [r] → f.node? r = some (.epsilon i) →
    CutInto f g rules t q [] i i i

/-- Node `v` is for the lists of trees in `T`. -/
inductive Forest.Stands (f : Forest) (g : Graph) (rules : List (String × List Symbol)) (t : Text)
    (v : NodeId) : Set (List Tree) → Prop
  | node {body : List Symbol} {i j : Nat} : f.Represents g rules t (some v) body i j →
    Stands f g rules t v {ts | ParsedAs rules t body i j ts}
  | packed {slot : SlotId} {body : List Symbol} {i k j : Nat} : f.node? v = some (.packed slot k) →
    f.CutInto g rules t v body i k j →
    Stands f g rules t v {ts | ParsedAs rules t body i j ts ∧ ∀ u ∈ ts.getLast?, u.left = k}

lemma Graph.Cut.represents {slot : SlotId} {front : List Symbol} {last : Symbol} {i k j : Nat}
    {o : Option Node} {n : Node} (h : g.Cut rules t slot front last i k j o n)
    {l : Option NodeId} {r : NodeId} (hl : f.Denotes l o) (hr : f.node? r = some n) :
    f.Represents g rules t l front i k ∧ f.Represents g rules t (some r) [last] k j := by
  cases h with
  | mk hb hlead hy hfront hlast =>
    refine ⟨?_, .node hr (Graph.standsFor_symbolNode hy k j) hlast⟩
    rcases hb.standsFor hlead i k with ⟨rfl, hnone⟩ | ⟨m, hm, hstands⟩
    · rw [hnone] at hl
      obtain rfl := hl.eq_none_iff.mpr rfl
      obtain rfl := SpanGrammar.derives_nil_iff.mp hfront
      exact .absent i
    · rw [hm] at hl
      cases hl with
      | some hv => exact .node hv hstands hfront

namespace Forest.Represents

variable {v : NodeId} {i j : Nat}

/-- The node for a single terminal. -/
lemma terminal {τ : Terminal} (h : f.Represents g rules t (some v) [.terminal τ] i j) :
    ∃ x, f.node? v = some (.terminal x i j) ∧ role? g.slots x = some (.terminal τ) := by
  generalize hbody : [Symbol.terminal τ] = body at h
  cases h with
  | node hv hstands =>
    cases hstands with
    | terminal hτ =>
      cases hbody
      exact ⟨_, hv, hτ⟩
    | nonterminal | epsilon => cases hbody
    | intermediate hne => simp [eq_comm, List.append_eq_singleton_iff, hne] at hbody

/-- The node for a single nonterminal. -/
lemma nonterminal {A : String} (h : f.Represents g rules t (some v) [.nonterminal A] i j) :
    ∃ a, f.node? v = some (.nonterminal a i j) ∧ role? g.slots a = some (.nonterminal A) := by
  generalize hbody : [Symbol.nonterminal A] = body at h
  cases h with
  | node hv hstands =>
    cases hstands with
    | nonterminal ha =>
      cases hbody
      exact ⟨_, hv, ha⟩
    | terminal | epsilon => cases hbody
    | intermediate hne => simp [eq_comm, List.append_eq_singleton_iff, hne] at hbody

/-- The node for more than one symbol. -/
lemma intermediate {front : List Symbol} {last : Symbol} (hne : front ≠ [])
    (h : f.Represents g rules t (some v) (front ++ [last]) i j) :
    ∃ slot xs, f.node? v = some (.intermediate slot i j) ∧
      g.Precedes slot xs (front ++ [last]) := by
  generalize hbody : front ++ [last] = body at h
  cases h with
  | node hv hstands =>
    cases hstands with
    | intermediate _ hprec => exact ⟨_, _, hv, hprec⟩
    | terminal | nonterminal => simp [List.append_eq_singleton_iff, hne] at hbody
    | epsilon => simp at hbody

end Forest.Represents

namespace Forest.Stands

variable {v : NodeId} {T : Set (List Tree)} (h : f.Stands g rules t v T)
include h

lemma of_node {n : Node} (hv : f.node? v = some n) (hn : n.isPacked = false) : ∃ body i j,
    g.StandsFor n body i j ∧ (SpanGrammar.ofRules rules t).Derives body i j ∧
      T = {ts | ParsedAs rules t body i j ts} := by
  cases h with
  | node hrep =>
    cases hrep with
    | node hv' hstands hd =>
      obtain rfl := Option.mem_unique hv hv'
      exact ⟨_, _, _, hstands, hd, rfl⟩
  | packed hv' =>
    obtain rfl := Option.mem_unique hv hv'
    cases hn

lemma of_packed {slot : SlotId} {k : Nat} (hv : f.node? v = some (.packed slot k)) :
    ∃ body i j, f.CutInto g rules t v body i k j ∧
      T = {ts | ParsedAs rules t body i j ts ∧ ∀ u ∈ ts.getLast?, u.left = k} := by
  cases h with
  | node hrep =>
    cases hrep with
    | node hv' hstands =>
      obtain rfl := Option.mem_unique hv hv'
      cases hstands
  | packed hv' hcut =>
    obtain ⟨rfl, rfl⟩ : slot = _ ∧ k = _ := by simpa using hv.symm.trans hv'
    exact ⟨_, _, _, hcut, rfl⟩

end Forest.Stands

/-- The trees of the parts, put together, are trees with the cut in the right place. -/
lemma Rules.ParsedAs.concat {front : List Symbol} {last : Symbol} {i k j : Nat}
    {us ts : List Tree} (hus : ParsedAs rules t front i k us)
    (hts : ParsedAs rules t [last] k j ts) :
    ParsedAs rules t (front ++ [last]) i j (us ++ ts) ∧
      ∀ u ∈ (us ++ ts).getLast?, u.left = k := by
  refine ⟨hus.append hts, ?_⟩
  rw [← List.nil_append [last], parsedAs_concat_iff] at hts
  obtain ⟨k', us', u, hnil, hlast, rfl⟩ := hts
  obtain ⟨rfl, rfl⟩ := parsedAs_nil_iff.mp hnil
  simpa using hlast.left_eq

/-- If the parts of a cut can be read off, then so can a packed node for it. -/
lemma Forest.Splits.exists_yields {v : NodeId} {P : SlotId → Nat → Option Node → Node → Prop}
    (hv : f.Splits v P) {slot : SlotId} {front : List Symbol} {last : Symbol} {i k j : Nat}
    {o : Option Node} {n : Node} (hP : P slot k o n)
    (hcut : g.Cut rules t slot front last i k j o n) {us : List Tree} {u : Tree}
    (hfront : ∀ l, f.Represents g rules t (some l) front i k →
      ∃ met, f.Yields g l met us)
    (hnil : front = [] → us = [])
    (hlast : ∀ r, f.Represents g rules t (some r) [last] k j →
      ∃ met, f.Yields g r met [u]) :
    ∃ q ∈ f.children v, f.node? q = some (.packed slot k) ∧
      ∃ met, f.Yields g q met (us ++ [u]) := by
  obtain ⟨q, hq, hqn⟩ := hv.exact.mpr ⟨o, n, hP⟩
  obtain ⟨l, r, hparts, hl, hr⟩ := hv.parts hq hqn hP
  obtain ⟨hlrep, hrrep⟩ := hcut.represents hl hr
  refine ⟨q, hq, hqn, ?_⟩
  obtain ⟨met', hmet'⟩ := hlast r hrrep
  cases hlrep with
  | absent =>
    obtain rfl := hnil rfl
    exact ⟨_, .single hqn hparts hmet'⟩
  | node hln hstands hd =>
    obtain ⟨met, hmet⟩ := hfront _ (.node hln hstands hd)
    exact ⟨_, .pair hqn hparts hmet hmet'⟩

/-! ### Parts of nodes -/

namespace State.Exact

variable {s : State} (hs : s.Exact g rules t)
include hs

/-- Below a nonterminal, each packed node is for one of its alternatives. -/
lemma cut_of_nonterminal {v q : NodeId} {a : SlotId} {A : String} {i j : Nat}
    (hv : s.forest.node? v = some (.nonterminal a i j))
    (ha : role? g.slots a = some (.nonterminal A)) (hq : q ∈ s.forest.children v) :
    ∃ e k l body, s.forest.node? q = some (.packed e k) ∧ role? g.slots e = some (.done a l) ∧
      (Rules.alternatives rules A)[l]? = some body ∧ s.forest.CutInto g rules t q body i k j := by
  have hsplits := hs.nonterminal ha hv
  obtain ⟨e, k, hqn⟩ := hsplits.packed hq
  obtain ⟨o, n, hP⟩ := hsplits.exact.mp ⟨q, hq, hqn⟩
  obtain ⟨l, r, hparts, hl, hr⟩ := hsplits.parts hq hqn hP
  cases hP with
  | symbols hbody he hcut =>
    obtain ⟨hfront, hlast⟩ := hcut.represents hl hr
    exact ⟨e, k, _, _, hqn, he, hbody, .symbols hparts hfront hlast⟩
  | empty hbody he hij =>
    subst hij
    obtain rfl := hl.eq_none_iff.mpr rfl
    exact ⟨e, _, _, [], hqn, he, hbody, .empty hparts hr⟩

/-- Below an intermediate node, the packed nodes are for what stands before its slot. -/
lemma cut_of_intermediate (hg : g.Spells rules) {v q : NodeId} {slot : SlotId} {xs : List SlotId}
    {body : List Symbol} {i j : Nat} (hv : s.forest.node? v = some (.intermediate slot i j))
    (hbody : g.Precedes slot xs body) (hq : q ∈ s.forest.children v) :
    ∃ k, s.forest.node? q = some (.packed slot k) ∧ s.forest.CutInto g rules t q body i k j := by
  have hsplits := hs.intermediate hv
  obtain ⟨slot', k, hqn⟩ := hsplits.packed hq
  obtain ⟨o, n, hP⟩ := hsplits.exact.mp ⟨q, hq, hqn⟩
  obtain ⟨l, r, hparts, hl, hr⟩ := hsplits.parts hq hqn hP
  cases hP with
  | symbols hcut =>
    obtain ⟨hfront, hlast⟩ := hcut.represents hl hr
    refine ⟨k, hqn, ?_⟩
    cases hcut with
    | mk hb hlead hy =>
      rw [hbody.unique hg (hb.concat hlead hy)]
      exact .symbols hparts hfront hlast

/-! ### The trees at a node -/

/-- What is read off at a node, is what the node is for. -/
theorem mem_of_yields (hg : g.Spells rules) {v : NodeId} {met : List NodeId} {ts : List Tree}
    (h : s.forest.Yields g v met ts) {T : Set (List Tree)} (hT : s.forest.Stands g rules t v T) :
    ts ∈ T := by
  induction h generalizing T with
  | terminal hv hτ =>
    obtain ⟨body, i, j, hstands, hd, rfl⟩ := hT.of_node hv rfl
    cases hstands with
    | terminal hτ' =>
      cases Option.mem_unique hτ hτ'
      obtain ⟨ts, hts⟩ := derives_iff_exists_parsedAs.mp hd
      obtain ⟨n, hm, hj, -⟩ := parsedAs_terminal_iff.mp hts
      exact parsedAs_terminal_iff.mpr ⟨n, hm, hj, rfl⟩
  | epsilon hv =>
    obtain ⟨body, i, j, hstands, -, rfl⟩ := hT.of_node hv rfl
    cases hstands with
    | epsilon => exact .nil _
  | nonterminal hv ha hq hqn he _ ih =>
    obtain ⟨body, i, j, hstands, -, rfl⟩ := hT.of_node hv rfl
    cases hstands with
    | nonterminal ha' =>
      cases Option.mem_unique ha ha'
      obtain ⟨e', k', l', body, hqn', he', hbody, hcut⟩ := hs.cut_of_nonterminal hv ha hq
      cases Option.mem_unique hqn hqn'
      cases Option.mem_unique he he'
      exact parsedAs_nonterminal_iff.mpr ⟨_, _, _, hbody, (ih (.packed hqn hcut)).1, rfl⟩
  | intermediate hv hq _ ih =>
    obtain ⟨body, i, j, hstands, -, rfl⟩ := hT.of_node hv rfl
    cases hstands with
    | intermediate _ hprec =>
      obtain ⟨k, hqn, hcut⟩ := hs.cut_of_intermediate hg hv hprec hq
      exact (ih (.packed hqn hcut)).1
  | single hq hparts _ ih =>
    obtain ⟨body, i, j, hcut, rfl⟩ := hT.of_packed hq
    cases hcut with
    | @symbols l _ _ _ _ _ _ hparts' hfront hlast =>
      rw [hparts] at hparts'
      cases hfront with
      | absent =>
        cases hparts'
        exact ParsedAs.concat (.nil _) (ih (.node hlast))
      | node => simp at hparts'
    | empty hparts' hr =>
      cases hparts.symm.trans hparts'
      have hts := ih (.node (.node hr (.epsilon _) (.nil _)))
      obtain ⟨-, rfl⟩ := parsedAs_nil_iff.mp hts
      exact ⟨hts, by simp⟩
  | pair hq hparts _ _ ih ih' =>
    obtain ⟨body, i, j, hcut, rfl⟩ := hT.of_packed hq
    cases hcut with
    | symbols hparts' hfront hlast =>
      rw [hparts] at hparts'
      cases hfront with
      | absent => simp at hparts'
      | node hl hstands hd =>
        obtain ⟨rfl, rfl⟩ : _ = _ ∧ _ = _ := by simpa using hparts'
        exact (ih (.node (.node hl hstands hd))).concat (ih' (.node hlast))
    | empty hparts' hr => simp [hparts] at hparts'

/-- One more symbol can be read off, at the node for all symbols so far, and at that of the
nonterminal of which they are an alternative. -/
lemma exists_yields_concat (hg : g.Spells rules) {front : List Symbol} {last : Symbol}
    {i k j : Nat} {us : List Tree} {u : Tree} (hus : ParsedAs rules t front i k us)
    (hu : ParsedAs rules t [last] k j [u])
    (hfront : ∀ l, s.forest.Represents g rules t (some l) front i k →
      ∃ met, s.forest.Yields g l met us)
    (hlast : ∀ r, s.forest.Represents g rules t (some r) [last] k j →
      ∃ met, s.forest.Yields g r met [u]) :
    (∀ v, s.forest.Represents g rules t (some v) (front ++ [last]) i j →
      ∃ met, s.forest.Yields g v met (us ++ [u])) ∧
    ∀ {v a A l}, s.forest.node? v = some (.nonterminal a i j) →
      role? g.slots a = some (.nonterminal A) →
      (Rules.alternatives rules A)[l]? = some (front ++ [last]) →
      ∃ met, s.forest.Yields g v met [.node A l i j (us ++ [u])] := by
  have hdfront := derives_iff_exists_parsedAs.mpr ⟨us, hus⟩
  have hdlast := derives_iff_exists_parsedAs.mpr ⟨[u], hu⟩
  have hnil : front = [] → us = [] := by
    rintro rfl
    exact (parsedAs_nil_iff.mp hus).2
  -- what stands before a slot is cut before its last symbol
  have hcut {slot : SlotId} {xs : List SlotId} (h : g.Precedes slot xs (front ++ [last])) :
      ∃ o n, g.Cut rules t slot front last i k j o n := by
    obtain ⟨b, y, ys, rfl, hb, hl, hy⟩ := h.concat_cases
    exact ⟨_, _, .mk hb hl hy hdfront hdlast⟩
  constructor
  · intro v hv
    by_cases hne : front = []
    · subst hne
      obtain ⟨rfl, rfl⟩ := parsedAs_nil_iff.mp hus
      exact hlast v hv
    · obtain ⟨slot, xs, hvn, hprec⟩ := hv.intermediate hne
      obtain ⟨o, n, hcut⟩ := hcut hprec
      obtain ⟨q, hq, hqn, met, hmet⟩ := (hs.intermediate hvn).exists_yields
        (.symbols hcut) hcut hfront hnil hlast
      exact ⟨_, .intermediate hvn hq hmet⟩
  · intro v a A l hv ha hl
    obtain ⟨e, xs, he, hprec⟩ := hg.exists_end ha hl
    obtain ⟨o, n, hcut⟩ := hcut hprec
    have he := (he e).mpr rfl
    obtain ⟨q, hq, hqn, met, hmet⟩ := (hs.nonterminal ha hv).exists_yields
      (.symbols hl he hcut) hcut hfront hnil hlast
    exact ⟨_, .nonterminal hv ha hq hqn he hmet⟩

/-- All trees of a derivation can be read off at the node for its symbols. -/
theorem exists_yields_of_parsedAs (hg : g.Spells rules) {body : List Symbol} {i j : Nat}
    {ts : List Tree} (h : ParsedAs rules t body i j ts) :
    (∀ v, s.forest.Represents g rules t (some v) body i j → ∃ met, s.forest.Yields g v met ts) ∧
    ∀ {v a A l}, s.forest.node? v = some (.nonterminal a i j) →
      role? g.slots a = some (.nonterminal A) → (Rules.alternatives rules A)[l]? = some body →
      ∃ met, s.forest.Yields g v met [.node A l i j ts] := by
  induction h with
  | nil i =>
    constructor
    · intro v hv
      generalize hbody : ([] : List Symbol) = body at hv
      cases hv with
      | node hv hstands =>
        cases hstands with
        | epsilon => exact ⟨_, .epsilon hv⟩
        | terminal | nonterminal | intermediate => simp at hbody
    · intro v a A l hv ha hl
      obtain ⟨e, xs, he, -⟩ := hg.exists_end ha hl
      have he := (he e).mpr rfl
      have hv' := hs.nonterminal ha hv
      have hP : g.NonterminalSplit rules t A a i i e i none (.epsilon i) := .empty hl he rfl
      obtain ⟨q, hq, hqn⟩ := hv'.exact.mpr ⟨_, _, hP⟩
      obtain ⟨l, r, hparts, hl, hr⟩ := hv'.parts hq hqn hP
      obtain rfl := hl.eq_none_iff.mpr rfl
      exact ⟨_, .nonterminal hv ha hq hqn he (.single hqn hparts (.epsilon hr))⟩
  | scan hfront hm ih =>
    refine hs.exists_yields_concat hg hfront (parsedAs_terminal_iff.mpr ⟨_, hm, rfl, rfl⟩) ih.1 ?_
    intro r hr
    obtain ⟨x, hrn, hx⟩ := hr.terminal
    exact ⟨_, .terminal hrn hx⟩
  | rule hfront hl halt ih ih' =>
    refine hs.exists_yields_concat hg hfront
      (parsedAs_nonterminal_iff.mpr ⟨_, _, _, hl, halt, rfl⟩) ih.1 ?_
    intro r hr
    obtain ⟨a, hrn, ha⟩ := hr.nonterminal
    exact ih'.2 hrn ha hl

/-- The trees at a node are those of what it stands for. -/
theorem yields_iff (hg : g.Spells rules) {v : NodeId} {T : Set (List Tree)}
    (hT : s.forest.Stands g rules t v T) {ts : List Tree} :
    (∃ met, s.forest.Yields g v met ts) ↔ ts ∈ T := by
  constructor
  · rintro ⟨met, hmet⟩
    exact hs.mem_of_yields hg hmet hT
  · intro hts
    cases hT with
    | node hv => exact (hs.exists_yields_of_parsedAs hg hts).1 v hv
    | packed hv hcut =>
      obtain ⟨hts, hlast⟩ := hts
      cases hcut with
      | symbols hparts hl hr =>
        obtain ⟨k, us, u, hus, hu, rfl⟩ := parsedAs_concat_iff.mp hts
        obtain rfl : k = _ := hu.left_eq.symm.trans (hlast u (by simp))
        obtain ⟨met', hmet'⟩ := (hs.exists_yields_of_parsedAs hg hu).1 _ hr
        cases hl with
        | absent =>
          obtain ⟨-, rfl⟩ := parsedAs_nil_iff.mp hus
          exact ⟨_, .single hv hparts hmet'⟩
        | node hln hstands hd =>
          obtain ⟨met, hmet⟩ :=
            (hs.exists_yields_of_parsedAs hg hus).1 _ (.node hln hstands hd)
          exact ⟨_, .pair hv hparts hmet hmet'⟩
      | empty hparts hr =>
        obtain ⟨-, rfl⟩ := parsedAs_nil_iff.mp hts
        exact ⟨_, .single hv hparts (.epsilon hr)⟩

/-- At the node for a nonterminal over a stretch of the text there are all its trees. -/
theorem trees_eq (hg : g.Spells rules) {v : NodeId} {a : SlotId} {A : String} {i j : Nat}
    (hv : s.forest.node? v = some (.nonterminal a i j))
    (ha : role? g.slots a = some (.nonterminal A)) :
    s.forest.trees g v = {tree | ParsedAs rules t [.nonterminal A] i j [tree]} := by
  have hd := ((hs.nonterminal_iff ha).mp ⟨v, hv⟩).2
  ext tree
  exact hs.yields_iff hg (.node (.node hv (.nonterminal ha) hd))

end State.Exact

end GeneralParser
