import GeneralParser.Proofs.Engine.Fact
import GeneralParser.Proofs.Forest

/-!
# Sound forests

A forest is sound if its nodes and packed nodes are facts. The nodes that a parse makes keep it so.
-/

namespace GeneralParser.Forest

variable [PatternEngine]

variable {S : Setting} {f f' : Forest}

/-- Packed node `q` stands for what its parent `i` is made of. -/
def PackedFact (S : Setting) (f : Forest) (i q : NodeId) : Prop :=
  ∃ m slot k o n l r, f.node? i = some m ∧ f.node? q = some (.packed slot k) ∧
    f.parts q = l.toList ++ [r] ∧ f.Denotes l o ∧ f.node? r = some n ∧
    S.Derivable (.packed m slot k o n)

structure Sound (S : Setting) (f : Forest) : Prop where
  wellFormed : f.WellFormed
  node {i : NodeId} {n : Node} : f.node? i = some n → n.isPacked = false →
    S.Derivable (.node n)
  packed {i q : NodeId} : q ∈ f.packedUnder i → f.PackedFact S i q

/-- Below which node a packed node is, and what it stands for. -/
lemma Sound.derivable_packed (hf : f.Sound S) {i q : NodeId} (hq : q ∈ f.packedUnder i) :
    ∃ m slot k o n, f.node? i = some m ∧ m.isPacked = false ∧
      f.node? q = some (.packed slot k) ∧ S.Derivable (.packed m slot k o n) := by
  obtain ⟨m, slot, k, o, n, l, r, hi, hqn, -, -, -, hd⟩ := hf.packed hq
  obtain ⟨-, m', hi', hm⟩ := hf.wellFormed.packed_kind hq
  obtain rfl := Option.mem_unique hi hi'
  exact ⟨m, slot, k, o, n, hi, hm, hqn, hd⟩

lemma sound_empty : Sound S empty := by
  refine ⟨wellFormed_empty, ?_, ?_⟩ <;> simp [empty, node?, packedUnder]

lemma PackedFact.mono (h : Le f f') {i q : NodeId} (hq : f.PackedFact S i q) :
    f'.PackedFact S i q := by
  obtain ⟨m, slot, k, o, n, l, r, hi, hqn, hp, hl, hr, hd⟩ := hq
  exact ⟨m, slot, k, o, n, l, r, h.node hi, h.node hqn,
    (h.parts (lt_size_of_node? hqn)).trans hp, hl.mono h, h.node hr, hd⟩

omit [PatternEngine] in
lemma isPacked_eq_false {n : Node} {i j : Nat} (h : n.span? = some (i, j)) :
    n.isPacked = false := by
  cases n with
  | packed => simp [Node.span?] at h
  | terminal | epsilon | nonterminal | intermediate => rfl

lemma isPacked_of_covers {i j : Nat} {o : Option Node} (ho : S.Covers i j o) (n : Node)
    (hn : o = some n) : n.isPacked = false := by
  subst hn
  exact isPacked_eq_false ho.span

/-- What making nodes does to a sound forest. -/
structure Extended (S : Setting) (f f' : Forest) : Prop where
  sound : f'.Sound S
  le : Le f f'

lemma Extended.refl (hf : f.Sound S) : Extended S f f := ⟨hf, .refl f⟩

lemma Extended.trans {f'' : Forest} (h : Extended S f f') (h' : Extended S f' f'') :
    Extended S f f'' :=
  ⟨h'.sound, h.le.trans h'.le⟩

lemma intern_sound (hf : f.Sound S) {n : Node} {i : NodeId} (hn : n.isPacked = false)
    (hd : S.Derivable (.node n)) (h : f.intern n = (i, f')) :
    Extended S f f' ∧ f'.node? i = some n := by
  have hi := intern_ok hf.wellFormed hn h
  refine ⟨⟨⟨hi.wellFormed, ?_, ?_⟩, hi.le⟩, hi.node⟩
  · intro i n hj hm
    rcases hi.back hj with hj | ⟨-, rfl⟩
    · exact hf.node hj hm
    · exact hd
  · intro i n hq
    rw [hi.packedUnder] at hq
    exact (hf.packed hq).mono hi.le

lemma pack_sound (hf : f.Sound S) {parent right : NodeId} {m n : Node} {slot : SlotId}
    {k : Nat} {left : Option NodeId} {o : Option Node} (hp : f.node? parent = some m)
    (hm : m.isPacked = false) (hl : f.Denotes left o) (hr : f.node? right = some n)
    (hd : S.Derivable (.packed m slot k o n)) :
    Extended S f (f.pack parent slot k left right).2 ∧
      (f.pack parent slot k left right).2.hasPacked parent slot k = true := by
  have hpk := pack_ok hf.wellFormed slot k left right hp hm
  refine ⟨⟨⟨hpk.wellFormed, ?_, ?_⟩, hpk.le⟩, hpk.hasPacked⟩
  · intro i n hi hn
    rcases hpk.back hi with hi | rfl
    · exact hf.node hi hn
    · cases hn
  · intro i q hq
    rcases hpk.new hq with hq | ⟨rfl, hqn, hparts⟩
    · exact (hf.packed hq).mono hpk.le
    · exact ⟨m, slot, k, o, n, left, right, hpk.le.node hp, hqn, hparts, hl.mono hpk.le,
        hpk.le.node hr, hd⟩

/-- The node for an empty rule. -/
lemma internEmpty_sound (hf : f.Sound S) {a e : SlotId} {i : Nat} {r : NodeId}
    (hm : S.Derivable (.node (.nonterminal a i i))) (he : S.Derivable (.node (.epsilon i)))
    (hd : S.Derivable (.packed (.nonterminal a i i) e i none (.epsilon i)))
    (h : f.internEmpty a e i = (r, f')) :
    Extended S f f' ∧ f'.node? r = some (.nonterminal a i i) ∧
      (∃ q, f'.node? q = some (.epsilon i)) ∧ f'.hasPacked r e i = true := by
  obtain ⟨r', f₁, h₁⟩ : ∃ r' f₁, f.intern (.nonterminal a i i) = (r', f₁) := ⟨_, _, rfl⟩
  obtain ⟨q, f₂, h₂⟩ : ∃ q f₂, f₁.intern (.epsilon i) = (q, f₂) := ⟨_, _, rfl⟩
  obtain ⟨rfl, rfl⟩ : r' = r ∧ (f₂.pack r' e i none q).2 = f' := by
    simpa [internEmpty, h₁, h₂] using h
  obtain ⟨hx₁, hr⟩ := intern_sound hf rfl hm h₁
  obtain ⟨hx₂, hq⟩ := intern_sound hx₁.sound rfl he h₂
  obtain ⟨hx₃, hp⟩ := pack_sound hx₂.sound (hx₂.le.node hr) rfl .none hq hd
  exact ⟨(hx₁.trans hx₂).trans hx₃, hx₃.le.node (hx₂.le.node hr), ⟨q, hx₃.le.node hq⟩, hp⟩

/-! ### Arriving -/

omit [PatternEngine] in
lemma span_ok {i : NodeId} {n : Node} {l r : Nat} (hi : f.node? i = some n)
    (hn : n.span? = some (l, r)) : f.span i = .ok (l, r) := by
  simp [span, span?, hi, hn]

/-- The node that is made on arriving at a slot, and where its last part starts. -/
lemma junction_eq (hS : S.Valid) {d : SlotId} {site : CallSite} {k j : Nat} {o : Option Node}
    {n : Node} {left : Option NodeId} {right : NodeId} (hd : S.Derivable (.arrival d site k j o n))
    (hl : f.Denotes left o) (hr : f.node? right = some n) :
    f.junction S.graph d left right = .ok ((S.joined? d site j o).map fun m => (m, k)) := by
  obtain ⟨-, ⟨h, hh⟩, -, ho, hn⟩ := hd.placed hS
  have hspan := span_ok hr hn.span
  simp only [junction, Setting.joined?]
  rcases Slots.head?_eq_some.mp hh with ⟨s, hs, -⟩ | ⟨s, hs, -⟩
  · cases hl with
    | none => simp [hspan, Graph.slot_eq_ok hs, Failure.ofGraph, hs, bind, Except.bind, pure,
        Except.pure]
    | some hl => simp [hspan, Graph.slot_eq_ok hs, Failure.ofGraph, hs, bind, Except.bind, pure,
        Except.pure, span_ok hl ho.span]
  · cases hl with
    | none =>
      obtain rfl : site.index = k := ho
      simp [hspan, Graph.slot_eq_ok hs, Failure.ofGraph, hs, bind, Except.bind, pure,
        Except.pure]
    | some hl => simp [hspan, Graph.slot_eq_ok hs, Failure.ofGraph, hs, bind, Except.bind, pure,
        Except.pure, span_ok hl ho.span]

/-- On arriving at a slot the node for what has been parsed is there. -/
lemma combine_sound (hS : S.Valid) (hf : f.Sound S) {d : SlotId} {site : CallSite} {k j : Nat}
    {o : Option Node} {n : Node} {left : Option NodeId} {right : NodeId}
    (hd : S.Derivable (.arrival d site k j o n)) (hl : f.Denotes left o)
    (hr : f.node? right = some n) :
    ∃ next f', f.combine S.graph d left right = (.ok next, f') ∧ Extended S f f' ∧
      f'.node? next = some ((S.joined? d site j o).getD n) ∧
      ∀ m, S.joined? d site j o = some m → f'.hasPacked next d k = true := by
  rw [combine]
  rw [junction_eq hS hd hl hr]
  cases hm : S.joined? d site j o with
  | none => exact ⟨right, f, rfl, .refl hf, hr, by simp⟩
  | some m =>
    have hmk := isPacked_eq_false (Setting.span?_joined hm)
    obtain ⟨i, f₁, h₁⟩ : ∃ i f₁, f.intern m = (i, f₁) := ⟨_, _, rfl⟩
    obtain ⟨hx₁, hi⟩ := intern_sound hf hmk (.joined hd hm) h₁
    obtain ⟨hx₂, hp⟩ := pack_sound hx₁.sound hi hmk (hl.mono hx₁.le) (hx₁.le.node hr)
      (.packed hd hm)
    exact ⟨i, _, by simp [internPacked, h₁], hx₁.trans hx₂, hx₂.le.node hi, fun _ _ => hp⟩

/-- Arriving once more makes nothing new. -/
lemma combine_again (hS : S.Valid) (hf : f.WellFormed) {d : SlotId} {site : CallSite} {k j : Nat}
    {o : Option Node} {n : Node} {left : Option NodeId} {right next : NodeId}
    (hd : S.Derivable (.arrival d site k j o n)) (hl : f.Denotes left o)
    (hr : f.node? right = some n) (hnext : f.node? next = some ((S.joined? d site j o).getD n))
    (hp : ∀ m, S.joined? d site j o = some m → f.hasPacked next d k = true) :
    f.combine S.graph d left right = (.ok next, f) := by
  rw [combine]
  rw [junction_eq hS hd hl hr]
  cases hm : S.joined? d site j o with
  | none =>
    obtain ⟨-, -, -, -, hn⟩ := hd.placed hS
    rw [hm] at hnext
    obtain rfl := hf.unique hr hnext (isPacked_eq_false hn.span)
    rfl
  | some m =>
    rw [hm] at hnext
    have hmk := isPacked_eq_false (Setting.span?_joined hm)
    simp [internPacked, intern_eq_self hf hmk hnext, pack_eq_self (hp m hm)]

/-- Nothing is packed below any other node than these. -/
lemma Sound.packed_cases (hf : f.Sound S) {i q : NodeId} (hq : q ∈ f.packedUnder i) :
    (∃ a j k, f.node? i = some (.nonterminal a j k)) ∨
      ∃ slot j k, f.node? i = some (.intermediate slot j k) := by
  obtain ⟨m, slot, k, o, n, hi, -, -, hd⟩ := hf.derivable_packed hq
  rcases hd.packed_cases with ⟨a, j, k, rfl⟩ | ⟨j, k, rfl⟩
  · exact Or.inl ⟨a, j, k, hi⟩
  · exact Or.inr ⟨slot, j, k, hi⟩

/-- Nothing lies below a terminal or an empty node. -/
lemma Sound.children_eq_nil (hf : f.Sound S) {v : NodeId}
    (hv : (∃ x i j, f.node? v = some (.terminal x i j)) ∨ ∃ i, f.node? v = some (.epsilon i)) :
    f.children v = [] := by
  have hpacked : f.packedUnder v = [] := by
    rw [List.eq_nil_iff_forall_not_mem]
    intro q hq
    rcases hf.packed_cases hq with ⟨a, j, k, hn⟩ | ⟨slot, j, k, hn⟩ <;>
      rcases hv with ⟨x, i, j, hv⟩ | ⟨i, hv⟩ <;> cases Option.mem_unique hn hv
  rcases hv with ⟨x, i, j, hv⟩ | ⟨i, hv⟩ <;>
    rw [hf.wellFormed.children_eq_packedUnder hv rfl, hpacked]

/-- What lies below a node is a node. -/
lemma Sound.lt_size_of_mem_children (hf : f.Sound S) {i c : NodeId}
    (hc : c ∈ f.children i) : c < f.size := by
  rw [children_eq] at hc
  rcases List.mem_append.mp hc with hc | hc
  · -- only packed nodes have parts, and these are nodes
    obtain ⟨n, hn⟩ := exists_node? (lt_size_of_mem_parts hc)
    cases n with
    | packed slot k =>
      obtain ⟨v, hv⟩ := hf.wellFormed.parent hn
      obtain ⟨m, x, y, o, n', l, r, -, -, hparts, hl, hr, -⟩ := hf.packed hv
      rw [hparts] at hc
      rcases List.mem_append.mp hc with hc | hc
      · rw [Option.mem_toList] at hc
        obtain rfl := Option.mem_def.mp hc
        obtain ⟨n'', hn'', -⟩ := denotes_some_iff.mp hl
        exact lt_size_of_node? hn''
      · obtain rfl := List.mem_singleton.mp hc
        exact lt_size_of_node? hr
    | terminal | epsilon | nonterminal | intermediate =>
      rw [hf.wellFormed.parts_nil hn rfl] at hc
      cases hc
  · obtain ⟨⟨slot, k, hq⟩, -⟩ := hf.wellFormed.packed_kind hc
    exact lt_size_of_node? hq

end GeneralParser.Forest
