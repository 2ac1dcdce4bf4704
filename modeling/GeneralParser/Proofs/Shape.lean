import GeneralParser.Proofs.Engine.Passing
import GeneralParser.Proofs.Wiring

/-!
# The shape of forests

At any time of a parse, on any valid graph, the forest is well-formed and its stretches fit
together: a packed node cuts the stretch of its parent at its pivot, and terminals match theirs. The
descriptors fit, too: what they bring reaches from where their call was made to where they are. All
this holds as well if descriptors that are met with another partial result are passed over.
-/

namespace GeneralParser

section

variable [PatternEngine]

open Slots (role?)

/-! ### Shape -/

/-- The parts of a packed node with pivot `k` fill the stretch from `i` to `j`: one part all of it,
and two meet at the pivot. -/
inductive Forest.Fills (f : Forest) (i k j : Nat) : List NodeId → Prop
  | one {r : NodeId} : k = i → f.span? r = some (i, j) → Fills f i k j [r]
  | two {l r : NodeId} : f.span? l = some (i, k) → f.span? r = some (k, j) → Fills f i k j [l, r]

/-- The shape of a forest over a text. -/
structure Forest.Shaped (g : Graph) (t : Text) (f : Forest) : Prop where
  /-- Nodes that are not packed are there once. -/
  unique {v w : NodeId} {n : Node} : f.node? v = some n → f.node? w = some n →
    n.isPacked = false → v = w
  span {v : NodeId} {n : Node} : f.node? v = some n → n.isPacked = false →
    ∃ i j, n.span? = some (i, j) ∧ i ≤ j ∧ j ≤ t.length
  /-- The terminal of a terminal node matches just its stretch. -/
  terminal {v : NodeId} {x : SlotId} {i j : Nat} : f.node? v = some (.terminal x i j) →
    ∃ τ, role? g.slots x = some (.terminal τ) ∧ τ.matchAt t i = .ok (some (j - i))
  inner {v : NodeId} {n : Node} : f.node? v = some n → n.isInner = true → f.children v ≠ [] ∧
    ∀ q ∈ f.children v, ∃ slot k, f.node? q = some (.packed slot k)
  leaf {v : NodeId} {n : Node} : f.node? v = some n → n.isPacked = false → n.isInner = false →
    f.children v = []
  /-- A packed node is below one node, and below this once. Its parts fill the stretch of its
  parent. -/
  packed {q : NodeId} {slot : SlotId} {k : Nat} : f.node? q = some (.packed slot k) →
    ∃ v n i j, f.node? v = some n ∧ n.isInner = true ∧ n.span? = some (i, j) ∧
      (∀ w, (f.children w).count q = if w = v then 1 else 0) ∧ f.Fills i k j (f.children q)

namespace Setting

variable {S : Setting}

/-- Calls are completed with nodes for nonterminals. -/
lemma Derivable.completion_nonterminal {c : CallSite} {j : Nat} {n : Node}
    (h : S.Derivable (.completion c j n)) : ∃ a i k, n = .nonterminal a i k := by
  cases h with
  | @complete e a l _ _ o hi he =>
    cases hi with
    | seed | enter => exact ⟨_, _, _, rfl⟩
    | arrive ha =>
      obtain ⟨s, hs, -⟩ := Slots.role?_done.mp he
      simp [joined?, hs]

/-- Terminal nodes are made where their terminals match. -/
lemma Derivable.scan_of_node {x : SlotId} {i j : Nat}
    (h : S.Derivable (.node (.terminal x i j))) : (S.graph.spans S.text).scan x i j := by
  generalize hn : Node.terminal x i j = n at h
  cases h with
  | part ha =>
    cases ha with
    | scan _ _ hscan =>
      cases hn
      exact hscan
    | resume _ hc =>
      obtain ⟨a, k, l, rfl⟩ := hc.completion_nonterminal
      cases hn
  | joined _ hm => rcases joined?_cases hm with ⟨a, l, -, rfl⟩ | rfl <;> cases hn
  | empty => cases hn
  | epsilon => cases hn

end Setting

namespace Forest

variable {S : Setting} {f : Forest}

omit [PatternEngine] in
lemma Fills.span {i k j : Nat} {cs : List NodeId} {c : NodeId} (h : f.Fills i k j cs)
    (hc : c ∈ cs) : ∃ a b, f.span? c = some (a, b) := by
  cases h with
  | one _ hr =>
    obtain rfl := List.mem_singleton.mp hc
    exact ⟨_, _, hr⟩
  | two hl hr =>
    rcases List.mem_pair.mp hc with rfl | rfl
    · exact ⟨_, _, hl⟩
    · exact ⟨_, _, hr⟩

/-- Packed nodes are as the facts say. -/
lemma Sound.fills (hS : S.Valid) (hf : f.Sound S) {v q : NodeId} {slot : SlotId} {k : Nat}
    (hv : q ∈ f.packedUnder v) (hq : f.node? q = some (.packed slot k)) :
    ∃ m i j, f.node? v = some m ∧ m.span? = some (i, j) ∧ f.Fills i k j (f.children q) := by
  obtain ⟨m, slot', k', o, n, l, r, hm, hq', hparts, hl, hr, hd⟩ := hf.packed hv
  obtain ⟨rfl, rfl⟩ : slot = slot' ∧ k = k' := by simpa using hq.symm.trans hq'
  obtain ⟨i, j, hspan, -, ho, hn⟩ := hd.placed hS
  refine ⟨m, i, j, hm, hspan, ?_⟩
  have hright : f.span? r = some (k, j) := by simp [span?, hr, hn.span]
  rw [hf.wellFormed.children_eq_parts hq, hparts]
  cases hl with
  | none =>
    obtain rfl : i = k := ho
    exact .one rfl hright
  | some hl => exact .two (by simp [span?, hl, ho.span]) hright

/-- Packed nodes are no parts of others. -/
lemma Sound.mem_packedUnder (hS : S.Valid) (hf : f.Sound S) {w q : NodeId} {slot : SlotId} {k : Nat}
    (hq : f.node? q = some (.packed slot k)) (hw : q ∈ f.children w) : q ∈ f.packedUnder w := by
  rw [children_eq] at hw
  rcases List.mem_append.mp hw with hparts | hpacked
  · obtain ⟨n, hn⟩ := exists_node? (lt_size_of_mem_parts hparts)
    cases n with
    | packed slot' k' =>
      -- the parts of a packed node have spans, so they are not packed
      obtain ⟨v, hv⟩ := hf.wellFormed.parent hn
      obtain ⟨m, i, j, -, -, hfills⟩ := hf.fills hS hv hn
      rw [hf.wellFormed.children_eq_parts hn] at hfills
      obtain ⟨a, b, hspan⟩ := hfills.span hparts
      simp [span?, hq, Node.span?] at hspan
    | terminal | epsilon | nonterminal | intermediate =>
      rw [hf.wellFormed.parts_nil hn rfl] at hparts
      cases hparts
  · exact hpacked

lemma Sound.shaped (hS : S.Valid) (hf : f.Sound S) (hfounded : f.Founded) :
    f.Shaped S.graph S.text where
  unique := hf.wellFormed.unique
  span hv hn := by
    obtain ⟨i, j, hover⟩ := (hf.node hv hn).placed hS
    exact ⟨i, j, hover.span, hover.le, hover.le_length⟩
  terminal hv := by
    obtain ⟨τ, n, hτ, hmatch, rfl⟩ := (hf.node hv rfl).scan_of_node
    exact ⟨τ, hτ, by simpa using hmatch⟩
  inner hv hn := by
    rw [hf.wellFormed.children_eq_packedUnder hv (Node.isPacked_of_isInner hn)]
    exact ⟨hfounded _ _ hv hn, fun q hq => (hf.wellFormed.packed_kind hq).1⟩
  leaf {v n} hv hn hinner := by
    apply hf.children_eq_nil
    cases n with
    | terminal => exact Or.inl ⟨_, _, _, hv⟩
    | epsilon => exact Or.inr ⟨_, hv⟩
    | nonterminal | intermediate => cases hinner
    | packed => cases hn
  packed {q slot k} hq := by
    obtain ⟨v, hv⟩ := hf.wellFormed.parent hq
    obtain ⟨m, i, j, hm, hspan, hfills⟩ := hf.fills hS hv hq
    refine ⟨v, m, i, j, hm, ?_, hspan, ?_, hfills⟩
    · rcases hf.packed_cases hv with ⟨a, k, l, hn⟩ | ⟨x, k, l, hn⟩ <;>
        cases Option.mem_unique hm hn <;> rfl
    · intro w
      split
      next h =>
        subst h
        rw [hf.wellFormed.children_eq_packedUnder hm (isPacked_eq_false hspan)]
        exact List.count_eq_one_of_mem hf.wellFormed.nodup hv
      next h =>
        apply List.count_eq_zero.mpr
        intro hw
        exact h (hf.wellFormed.parent_unique (hf.mem_packedUnder hS hq hw) hv)

end Forest

/-! ### Descriptors -/

namespace State

variable {s : State} {d : Descriptor}

/-- The descriptors of a state: those in hand, those that wait, and all that were ever seen. -/
def HasDescriptor (s : State) (ds : List Descriptor) (d : Descriptor) : Prop :=
  d ∈ ds ∨ d ∈ s.agenda.waiting ∨ s.agenda.find? d.toItem = some d

/-- What a descriptor brings spans just the stretch from where its call was made to where it is. If
it brings nothing, it is where its call was made. -/
def Aligned (s : State) (d : Descriptor) : Prop :=
  ∃ site, s.calls.site? d.call = some site ∧ match d.soFar with
    | none => d.index = site.index
    | some v => s.forest.span? v = some (site.index, d.index)

/-- The descriptors that are executed are aligned. -/
lemma aligned_of_fact {S : Setting} (hS : S.Valid) (hd : (Task.execute d).Fact S s) :
    s.Aligned d := by
  rcases hd with ⟨site, o, hc, ho, hf⟩ | ⟨site, hc, hd⟩
  · obtain ⟨-, -, -, -, hcov⟩ := hf.placed hS
    refine ⟨site, hc, ?_⟩
    cases hl : d.soFar with
    | none =>
      rw [hl] at ho
      obtain rfl := Forest.denotes_none_iff.mp ho
      exact Eq.symm hcov
    | some v =>
      rw [hl] at ho
      obtain ⟨n, hv, rfl⟩ := Forest.denotes_some_iff.mp ho
      simp [Forest.span?, hv, hcov.span]
  · rw [hd]
    exact ⟨site, hc, rfl⟩

end State

/-! ### Runs -/

/-- Whatever state a parse passes through, its forest is in shape, and its descriptors are aligned
with it. -/
structure Problem.KeepsShape (p : Problem) : Prop where
  forest {s : State} {ds : List Descriptor} : p.Passes s ds → s.forest.Shaped p.graph p.text
  descriptor {s : State} {ds : List Descriptor} {d : Descriptor} : p.Passes s ds →
    s.HasDescriptor ds d → s.Aligned d
  /-- The state in which the parse ends is one of those it passes through. -/
  last : ∃ ds, p.Passes p.solve.1 ds
  /-- So is the forest in shape that is returned in the end, whatever was passed over before. -/
  returned {s : State} {r : Success} : State.Tolerated p s [] → (s.finish p).2 = .ok r →
    r.forest.Shaped p.graph p.text

theorem Problem.keepsShape {p : Problem} (hS : p.setting.Valid) : p.KeepsShape := by
  have hforest {s : State} {ds : List Descriptor} (h : p.Passes s ds) :
      s.forest.Shaped p.graph p.text := (h.sound hS).forest.shaped hS (h.founded hS)
  refine ⟨hforest, ?_, exists_passes_solve hS, ?_⟩
  · intro s ds d h hd
    have hs := h.sound hS
    have hseen {d : Descriptor} (hseen : s.agenda.seen[d.toItem]? = some d.soFar) : s.Aligned d :=
      State.aligned_of_fact hS (Or.inl (hs.item hseen))
    rcases hd with hd | hd | hd
    · exact State.aligned_of_fact hS (h.fact hS hd)
    · exact hseen (hs.agenda.seen hd)
    · apply hseen
      obtain ⟨l, hl, hd⟩ := Option.map_eq_some_iff.mp hd
      rw [hl, ← hd]
  · intro s r h hr
    obtain ⟨root, rfl⟩ := State.eq_of_finish hr
    exact hforest (.reached h)

/-- On any valid graph, a parse keeps its forest in shape and its descriptors aligned, and the
forest it returns is in shape. -/
theorem parse_keepsShape {g : Graph} (hg : g.validate = .ok ()) {start : String} {id : SlotId}
    (hstart : g.nonterminal? start = some id) (text : String) (config : Config) :
    Problem.KeepsShape ⟨g, .ofString text, id, config⟩ ∧
      ∀ r, parse g (.ofString text) start config = .ok r → r.forest.Shaped g (.ofString text) := by
  have hvalid := Graph.validate_eq_ok_iff.mp hg
  have hkeeps := Problem.keepsShape (hvalid.setting_valid hstart text config)
  refine ⟨hkeeps, ?_⟩
  intro r hr
  rw [parse_eq_solve hvalid hstart] at hr
  obtain ⟨ds, hlast⟩ := hkeeps.last
  have hforest := hkeeps.forest hlast
  rwa [Problem.forest_of_solve hr] at hforest

end

/-- On the longer odd graph a parse breaks off. If it passes over the second way into slot 4, it
returns a forest for `abb`, which is in shape: node 3 is for the first two letters, and node 6 for
all of them. -/
theorem parse_converging_keepsShape : Graph.converging.validate = .ok () ∧
    Graph.converging.nonterminal? "S" = some 0 ∧
    parse Graph.converging (.ofString "abb") "S" {} = .error (.broken .conflictingResults) ∧
    Problem.KeepsShape Problem.converging ∧
    State.Tolerated Problem.converging State.converged [] ∧
    (State.converged.finish Problem.converging).2 =
      .ok ⟨6, State.converged.forest, State.converged.statistics⟩ ∧
    State.converged.forest.nodes = [.terminal 2 0 1, .terminal 3 0 1, .terminal 5 1 2,
      .intermediate 6 0 2, .packed 6 1, .terminal 5 2 3, .nonterminal 0 0 3, .packed 7 2] ∧
    (List.range 8).map State.converged.forest.children =
      [[], [], [], [4], [0, 2], [], [7], [3, 5]] ∧
    State.converged.forest.Shaped Graph.converging (.ofString "abb") := by
  have hkeeps := (parse_keepsShape Graph.validate_converging Graph.nonterminal?_converging "abb"
    {}).1
  have hreturned : (State.converged.finish Problem.converging).2 =
      .ok ⟨6, State.converged.forest, State.converged.statistics⟩ := by decide +kernel
  exact ⟨Graph.validate_converging, Graph.nonterminal?_converging, parse_converging_conflict,
    hkeeps, State.tolerated_converged, hreturned, by decide +kernel, by decide +kernel,
    hkeeps.returned State.tolerated_converged hreturned⟩

end GeneralParser
