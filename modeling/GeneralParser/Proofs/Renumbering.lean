import GeneralParser.Proofs.Engine.Forest
import GeneralParser.Proofs.DepthFirst
import Mathlib.Data.Set.Function

/-!
# Forests up to numbering

In which order nodes are made, and so their numbers and the order of packed nodes, is no part of
what a forest says. Two forests say the same if the nodes of the one can be renumbered to those of
the other. In sound forests a node is told by what it stands for, which pairs their nodes off.
-/

namespace GeneralParser.Forest

/-- Renumbering by `σ` takes the nodes `I` of one forest to the nodes `J` of another, with the same
packed nodes below each, and the same parts in the same order below those. -/
structure Renumbers (f g : Forest) (σ : NodeId → NodeId) (I J : Set NodeId) : Prop where
  bijOn : Set.BijOn σ I J
  node {i : NodeId} : i ∈ I → g.node? (σ i) = f.node? i
  parts {i : NodeId} {slot : SlotId} {k : Nat} : i ∈ I → f.node? i = some (.packed slot k) →
    g.children (σ i) = (f.children i).map σ
  packed {i : NodeId} {n : Node} : i ∈ I → f.node? i = some n → n.isPacked = false →
    (g.children (σ i)).Perm ((f.children i).map σ)

/-! ### Twins -/

/-- Two nodes stand for the same: nodes that are not packed by themselves, packed ones by their
parents, slots and pivots. -/
inductive Twin (f g : Forest) : NodeId → NodeId → Prop
  | node {i j : NodeId} {n : Node} : f.node? i = some n → g.node? j = some n →
    n.isPacked = false → Twin f g i j
  | packed {i j q r : NodeId} {m : Node} {slot : SlotId} {k : Nat} : f.node? i = some m →
    g.node? j = some m → q ∈ f.packedUnder i → r ∈ g.packedUnder j →
    f.node? q = some (.packed slot k) → g.node? r = some (.packed slot k) → Twin f g q r

namespace Twin

variable {f g : Forest} {i j j' : NodeId}

lemma symm (h : Twin f g i j) : Twin g f j i := by
  cases h with
  | node hi hj hn => exact .node hj hi hn
  | packed hi hj hq hr hqn hrn => exact .packed hj hi hr hq hrn hqn

lemma node_eq (h : Twin f g i j) : g.node? j = f.node? i := by
  cases h with
  | node hi hj _ => rw [hi, hj]
  | packed _ _ _ _ hqn hrn => rw [hqn, hrn]

lemma unique (hf : f.WellFormed) (hg : g.WellFormed) (h : Twin f g i j) (h' : Twin f g i j') :
    j = j' := by
  cases h with
  | node hi hj hn =>
    have hj' := h'.node_eq
    rw [hi] at hj'
    exact hg.unique hj hj' hn
  | @packed i i' q r m slot k hi hj hq hr hqn hrn =>
    cases h' with
    | node hq' _ hn =>
      rw [hqn] at hq'
      obtain rfl := Option.some.inj hq'
      cases hn
    | @packed _ j _ _ m' slot' k' hi' hj' hq' hr' hqn' hrn' =>
      obtain rfl := hf.parent_unique hq hq'
      obtain rfl : m = m' := Option.mem_unique hi hi'
      obtain ⟨rfl, rfl⟩ : slot = slot' ∧ k = k' := by simpa using hqn.symm.trans hqn'
      obtain ⟨-, n, hn, hnk⟩ := hf.packed_kind hq
      obtain rfl : m = n := Option.mem_unique hi hn
      obtain rfl := hg.unique hj hj' hnk
      exact hg.packed_unique hr hr' (hrn.trans hrn'.symm)

/-- Twins of what is packed below a node are packed below its twin. -/
lemma mem_packedUnder (hf : f.WellFormed) (hg : g.WellFormed) {q r : NodeId} {n : Node}
    (hi : f.node? i = some n) (hn : n.isPacked = false) (h : Twin f g i j)
    (hq : q ∈ f.packedUnder i) (hqr : Twin f g q r) : r ∈ g.packedUnder j := by
  obtain ⟨⟨slot, k, hqn⟩, -⟩ := hf.packed_kind hq
  cases hqr with
  | node hq' _ hn' =>
    rw [hqn] at hq'
    obtain rfl := Option.some.inj hq'
    cases hn'
  | packed hi' hj' hq' hr' _ _ =>
    obtain rfl := hf.parent_unique hq hq'
    have hj := h.node_eq
    rw [hi'] at hi hj
    obtain rfl := Option.some.inj hi
    obtain rfl := hg.unique hj hj' hn
    exact hr'

end Twin

/-! ### Renumbering -/

/-- The nodes `I` and `J` are paired off as twins, and nothing below them is left out. -/
structure Paired (f g : Forest) (I J : Set NodeId) : Prop where
  left {i : NodeId} : i ∈ I → ∃ j ∈ J, Twin f g i j
  right {j : NodeId} : j ∈ J → ∃ i ∈ I, Twin f g i j
  children_left {i c : NodeId} : i ∈ I → c ∈ f.children i → c ∈ I
  children_right {j c : NodeId} : j ∈ J → c ∈ g.children j → c ∈ J

variable {f g : Forest} {I J : Set NodeId}

lemma eq_map_of_twins {σ : NodeId → NodeId}
    (hσ : ∀ {i j}, i ∈ I → Twin f g i j → σ i = j) {is js : List NodeId}
    (h : List.Forall₂ (Twin f g) is js) (hI : ∀ i ∈ is, i ∈ I) : js = is.map σ := by
  induction h with
  | nil => rfl
  | cons hij _ ih =>
    rw [List.map_cons, hσ (hI _ List.mem_cons_self) hij,
      ih fun i hi => hI i (List.mem_cons_of_mem _ hi)]

/-- If twins have the same below them, what is below twins is paired off. -/
lemma Paired.of_roots {root root' : NodeId} (hroot : Twin f g root root')
    (hleft : ∀ {i j c}, Twin f g i j → c ∈ f.children i → ∃ d ∈ g.children j, Twin f g c d)
    (hright : ∀ {i j d}, Twin f g i j → d ∈ g.children j → ∃ c ∈ f.children i, Twin f g c d) :
    Paired f g {i | Relation.ReflTransGen (fun v w => w ∈ f.children v) root i}
      {j | Relation.ReflTransGen (fun v w => w ∈ g.children v) root' j} := by
  refine ⟨?_, ?_, fun hi hc => hi.tail hc, fun hj hc => hj.tail hc⟩
  · intro i hi
    induction hi with
    | refl => exact ⟨root', .refl, hroot⟩
    | tail _ hc ih =>
      obtain ⟨j, hj, hij⟩ := ih
      obtain ⟨d, hd, hcd⟩ := hleft hij hc
      exact ⟨d, hj.tail hd, hcd⟩
  · intro j hj
    induction hj with
    | refl => exact ⟨root, .refl, hroot⟩
    | tail _ hd ih =>
      obtain ⟨i, hi, hij⟩ := ih
      obtain ⟨c, hc, hcd⟩ := hright hij hd
      exact ⟨c, hi.tail hc, hcd⟩

section

variable [PatternEngine] {S : Setting}

/-- Packed twins have the same parts. -/
lemma twin_parts (hS : S.Valid) (hfun : S.Functional) (hf : f.Sound S) (hg : g.Sound S)
    {q r : NodeId} {slot : SlotId} {k : Nat} (hqn : f.node? q = some (.packed slot k))
    (h : Twin f g q r) : List.Forall₂ (Twin f g) (f.children q) (g.children r) := by
  cases h with
  | node hq _ hn =>
    rw [hqn] at hq
    obtain rfl := Option.some.inj hq
    cases hn
  | packed hi hj hq hr hqn' hrn =>
    rw [hf.wellFormed.children_eq_parts hqn', hg.wellFormed.children_eq_parts hrn]
    obtain ⟨m, x, y, o, n, l, v, hm, hx, hparts, hl, hv, hd⟩ := hf.packed hq
    obtain ⟨m', x', y', o', n', l', v', hm', hx', hparts', hl', hv', hd'⟩ := hg.packed hr
    obtain rfl := Option.mem_unique hi hm
    obtain rfl := Option.mem_unique hj hm'
    obtain ⟨rfl, rfl⟩ : _ ∧ _ := by simpa using hqn'.symm.trans hx
    obtain ⟨rfl, rfl⟩ : _ ∧ _ := by simpa using hrn.symm.trans hx'
    obtain ⟨rfl, rfl⟩ := hfun.packed hd hd'
    obtain ⟨a, b, -, -, hcov, hover⟩ := hd.placed hS
    have hlast : Twin f g v v' := .node hv hv' (isPacked_eq_false hover.span)
    rw [hparts, hparts']
    cases hl with
    | none =>
      cases hl'
      exact .cons hlast .nil
    | some hl =>
      cases hl' with
      | some hl' => exact .cons (.node hl hl' (isPacked_of_covers hcov _ rfl)) (.cons hlast .nil)

/-- If their nodes are paired off, one forest is the other renumbered. -/
theorem Paired.exists_renumbers (hS : S.Valid) (hfun : S.Functional) (hf : f.Sound S)
    (hg : g.Sound S) (h : Paired f g I J) :
    ∃ σ, Renumbers f g σ I J ∧ ∀ i j, i ∈ I → Twin f g i j → σ i = j := by
  have hwf := hf.wellFormed
  have hwg := hg.wellFormed
  choose! σ hσ using fun i (hi : i ∈ I) => h.left hi
  have htwin {i j : NodeId} (hi : i ∈ I) (hij : Twin f g i j) : σ i = j :=
    (hσ i hi).2.unique hwf hwg hij
  have hinj : Set.InjOn σ I := by
    intro i hi i' hi' heq
    have htw := (hσ i' hi').2
    rw [← heq] at htw
    exact (hσ i hi).2.symm.unique hwg hwf htw.symm
  refine ⟨σ, ⟨⟨fun i hi => (hσ i hi).1, hinj, ?_⟩, fun hi => (hσ _ hi).2.node_eq, ?_, ?_⟩,
    fun i j hi hij => htwin hi hij⟩
  · intro j hj
    obtain ⟨i, hi, hij⟩ := h.right hj
    exact ⟨i, hi, htwin hi hij⟩
  · intro i slot k hi hin
    apply eq_map_of_twins htwin (twin_parts hS hfun hf hg hin (hσ i hi).2)
    intro c hc
    exact h.children_left hi hc
  · intro i n hi hin hn
    have htw := (hσ i hi).2
    have hjn := htw.node_eq.trans hin
    have hI {q : NodeId} (hq : q ∈ f.packedUnder i) : q ∈ I :=
      h.children_left hi (hwf.children_eq_packedUnder hin hn ▸ hq)
    rw [hwf.children_eq_packedUnder hin hn, hwg.children_eq_packedUnder hjn hn]
    apply (List.perm_ext_iff_of_nodup hwg.nodup ?_).mpr
    · intro r
      rw [List.mem_map]
      constructor
      · intro hr
        have hJ := h.children_right (hσ _ hi).1 (hwg.children_eq_packedUnder hjn hn ▸ hr)
        obtain ⟨q, hq, hqr⟩ := h.right hJ
        exact ⟨q, htw.symm.mem_packedUnder hwg hwf hjn hn hr hqr.symm, htwin hq hqr⟩
      · rintro ⟨q, hq, rfl⟩
        exact htw.mem_packedUnder hwf hwg hin hn hq (hσ q (hI hq)).2
    · apply List.Nodup.map_on _ hwf.nodup
      intro q hq q' hq' heq
      exact hinj (hI hq) (hI hq') heq

/-! ### What is below a root -/

/-- The nodes below a root are those that can be reached from it. -/
lemma Sound.mem_reachable_iff (hf : f.Sound S) {root i : NodeId} (hroot : root < f.size) :
    i ∈ f.reachable root ↔ Relation.ReflTransGen (fun v w => w ∈ f.children v) root i := by
  have hnext : DepthFirst.Next f.children f.size = fun v w => w ∈ f.children v := by
    ext v w
    exact and_iff_left_of_imp hf.lt_size_of_mem_children
  rw [reachable, DepthFirst.mem_order_iff hroot, hnext]

/-- If everything packed below a node has a twin below its twin, so does all that is below it. -/
lemma Twin.exists_child (hS : S.Valid) (hfun : S.Functional) (hf : f.Sound S) (hg : g.Sound S)
    {i j c : NodeId} (h : Twin f g i j)
    (hpacked : ∀ {q}, q ∈ f.packedUnder i → ∃ r ∈ g.packedUnder j, Twin f g q r)
    (hc : c ∈ f.children i) : ∃ d ∈ g.children j, Twin f g c d := by
  have hi : i < f.size := by
    cases h with
    | node hi | packed _ _ _ _ hi => exact lt_size_of_node? hi
  obtain ⟨n, hn⟩ := exists_node? hi
  cases hk : n.isPacked with
  | false =>
    rw [hf.wellFormed.children_eq_packedUnder hn hk] at hc
    rw [hg.wellFormed.children_eq_packedUnder (h.node_eq.trans hn) hk]
    exact hpacked hc
  | true =>
    cases n with
    | packed slot k =>
      obtain ⟨a, ha, rfl⟩ := List.mem_iff_getElem.mp hc
      have hparts := twin_parts hS hfun hf hg hn h
      have hlt : a < (g.children j).length := hparts.length_eq ▸ ha
      exact ⟨_, List.getElem_mem hlt, hparts.get ha hlt⟩
    | terminal | epsilon | nonterminal | intermediate => cases hk

end

/-! ### Counts -/

lemma nodes_eq : f.nodes = (List.range f.size).map fun i => (f.node? i).getD (.epsilon 0) := by
  apply List.ext_getElem
  · simp [nodes, size]
  · intro i hi hi'
    have hlt : i < f.entries.size := by simpa [nodes] using hi
    simp [nodes, node?, hlt]

namespace Renumbers

variable {σ : NodeId → NodeId}

lemma range_perm (h : Renumbers f g σ {i | i < f.size} {j | j < g.size}) :
    ((List.range f.size).map σ).Perm (List.range g.size) := by
  have hnodup : ((List.range f.size).map σ).Nodup := by
    apply List.Nodup.map_on _ List.nodup_range
    intro i hi j hj heq
    exact h.bijOn.injOn (List.mem_range.mp hi) (List.mem_range.mp hj) heq
  apply (List.perm_ext_iff_of_nodup hnodup List.nodup_range).mpr
  intro j
  rw [List.mem_map, List.mem_range]
  constructor
  · rintro ⟨i, hi, rfl⟩
    exact h.bijOn.mapsTo (List.mem_range.mp hi)
  · intro hj
    obtain ⟨i, hi, rfl⟩ := h.bijOn.surjOn hj
    exact ⟨i, List.mem_range.mpr hi, rfl⟩

lemma nodes_perm (h : Renumbers f g σ {i | i < f.size} {j | j < g.size}) :
    f.nodes.Perm g.nodes := by
  rw [nodes_eq, nodes_eq]
  refine List.Perm.trans ?_ (h.range_perm.map _)
  rw [List.map_map]
  apply List.Perm.of_eq
  apply List.map_congr_left
  intro i hi
  simp only [Function.comp, h.node (List.mem_range.mp hi)]

lemma isAmbiguous_eq (h : Renumbers f g σ {i | i < f.size} {j | j < g.size}) {i : NodeId}
    (hi : i < f.size) : g.isAmbiguous (σ i) = f.isAmbiguous i := by
  obtain ⟨n, hn⟩ := exists_node? hi
  have hgn : g.node? (σ i) = some n := (h.node hi).trans hn
  simp only [isAmbiguous, hn, hgn]
  cases hk : n.isPacked with
  | true => rfl
  | false =>
    have hlen := (h.packed hi hn hk).length_eq
    rw [List.length_map] at hlen
    rw [hlen]

/-- The counts of a forest do not depend on its numbering. -/
theorem counts_eq (h : Renumbers f g σ {i | i < f.size} {j | j < g.size}) :
    f.counts = g.counts := by
  have hambiguous : f.ambiguousNodes.length = g.ambiguousNodes.length := by
    rw [ambiguousNodes, ambiguousNodes, ← List.countP_eq_length_filter,
      ← List.countP_eq_length_filter, ← h.range_perm.countP_eq, List.countP_map]
    apply List.countP_congr
    intro i hi
    simp only [Function.comp, h.isAmbiguous_eq (List.mem_range.mp hi)]
  simp only [counts]
  simp only [h.nodes_perm.countP_eq, hambiguous]

end Renumbers

end GeneralParser.Forest
