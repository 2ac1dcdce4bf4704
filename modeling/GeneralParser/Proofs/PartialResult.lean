import GeneralParser.Proofs.Engine.Offer
import GeneralParser.Proofs.Grammar.Position
import GeneralParser.Proofs.Recognition

/-!
# Partial results

Descriptors are told apart by their slots, calls and offsets alone. What has been parsed of the
rule takes no part in this, because it is determined by the rest: the slot tells which symbols were
read, and the offsets which stretch of the text they derive. The same holds for the edges between
calls.
-/

namespace GeneralParser

section

variable [PatternEngine]

open Slots (role? head? Leads Path Starts)

/-- What has been parsed when descriptor `d` is reached in the call at `site` is what its slot and
the offsets determine. -/
structure State.Determined (p : Problem) (s : State) (d : Descriptor) (site : CallSite) : Prop where
  call : s.calls.site? d.call = some site
  none_iff : d.soFar = none ↔ d.slot = p.start ∨ Starts p.graph.slots site.slot d.slot
  index : d.soFar = none → d.index = site.index
  /-- At an end it is the nonterminal. -/
  done {e : EndSlot} {v : NodeId} : p.graph.slots[d.slot]? = some (.done e) → d.soFar = some v →
    s.forest.node? v = some (.nonterminal site.slot site.index d.index)
  none_iff_position {b : BodySlot} : p.graph.slots[d.slot]? = some (.body b) →
    (d.soFar = none ↔ b.position = 0)
  /-- After the first symbol it is that symbol, the only one over which the slot is entered. -/
  first {b : BodySlot} {v : NodeId} : p.graph.slots[d.slot]? = some (.body b) → b.position = 1 →
    d.soFar = some v → ∃ c x, (∀ c' x', Leads p.graph.slots c' x' d.slot ↔ c' = c ∧ x' = x) ∧
      s.forest.node? v = some (p.graph.symbolNode x site.index d.index)
  /-- After more symbols it is an intermediate node. -/
  later {b : BodySlot} {v : NodeId} : p.graph.slots[d.slot]? = some (.body b) → 2 ≤ b.position →
    d.soFar = some v → s.forest.node? v = some (.intermediate d.slot site.index d.index)

/-- What the caller at site `u` had parsed before the call at site `v` is what the edge between them
determines. -/
structure State.EdgeDetermined (p : Problem) (s : State) (e : Edge) (v u : CallSite) : Prop where
  caller : s.calls.site? e.caller = some u
  le : u.index ≤ v.index
  /-- The return slot is entered only over the nonterminal that is called. -/
  leads : ∃ b, ∀ b' x', Leads p.graph.slots b' x' e.returnSlot ↔ b' = b ∧ x' = v.slot
  none_iff : e.soFar = none ↔ Slots.At p.graph.slots e.returnSlot 1
  none_iff_position {b : BodySlot} : p.graph.slots[e.returnSlot]? = some (.body b) →
    (e.soFar = none ↔ b.position = 1)
  span {i : NodeId} : e.soFar = some i → s.forest.span? i = some (u.index, v.index)

/-! ### What slots determine -/

namespace Setting

variable {S : Setting}

namespace Reads

variable {slot f : SlotId} {site : CallSite} {i : Nat} {xs : List SlotId} (hS : S.WellBuilt)
  (h : S.Reads slot site i f xs)
include hS h

lemma starts_iff : Starts S.graph.slots site.slot slot ↔ xs = [] := by
  constructor
  · intro hslot
    exact (hS.wired.path_unique h.starts hslot h.path (.nil slot)).2
  · rintro rfl
    obtain rfl := Slots.path_nil_iff.mp h.path
    exact h.starts

end Reads

/-- A slot is entered over the last symbol before it, and in no other way. -/
lemma leads_iff (hS : S.WellBuilt) {b x d : SlotId} (h : Leads S.graph.slots b x d)
    (b' x' : SlotId) : Leads S.graph.slots b' x' d ↔ b' = b ∧ x' = x := by
  constructor
  · exact fun h' => hS.wired.leads_unique h' h
  · rintro ⟨rfl, rfl⟩
    exact h

end Setting

/-! ### Descriptors -/

namespace State

variable {p : Problem} {s : State}

/-- Where nothing has been read, nothing has been parsed. -/
lemma determined_start (hS : p.setting.WellBuilt) {d : Descriptor} {site : CallSite}
    (hc : s.calls.site? d.call = some site) (hslot : d.slot = p.start)
    (hindex : d.index = site.index) (hnone : d.soFar = none) : s.Determined p d site := by
  have hbody (b : BodySlot) : p.graph.slots[d.slot]? ≠ some (.body b) := by
    intro hb
    obtain ⟨name, hn⟩ := hS.start
    obtain ⟨n, hn, -⟩ := Slots.role?_nonterminal.mp hn
    rw [hslot, show p.graph.slots[p.start]? = _ from hn] at hb
    cases hb
  exact ⟨hc, by simp [hnone, hslot], fun _ => hindex, by simp [hnone],
    fun hb => absurd hb (hbody _), fun hb => absurd hb (hbody _), fun hb => absurd hb (hbody _)⟩

/-- The symbols that have been read determine what has been parsed. -/
lemma determined_of_reads (hS : p.setting.WellBuilt) (hn : Slots.Numbered p.graph.slots)
    {d : Descriptor} {site : CallSite} {f : SlotId} {xs : List SlotId}
    (hc : s.calls.site? d.call = some site) (hr : p.setting.Reads d.slot site d.index f xs)
    (ho : s.forest.Denotes d.soFar (p.graph.prefixNode? d.slot xs site.index d.index)) :
    s.Determined p d site := by
  have hnone : d.soFar = none ↔ xs = [] := ho.eq_none_iff.trans Graph.prefixNode?_eq_none_iff
  have hnode {v : NodeId} (hv : d.soFar = some v) :
      s.forest.node? v = p.graph.prefixNode? d.slot xs site.index d.index := by
    rw [hv] at ho
    obtain ⟨n, hvn, hpn⟩ := Forest.denotes_some_iff.mp ho
    rw [hvn, hpn]
  have hposition {b : BodySlot} (hb : p.graph.slots[d.slot]? = some (.body b)) :
      b.position = xs.length :=
    hn.eq_length hr.starts hr.path (Slots.role?_body.mpr ⟨b, hb, rfl, rfl⟩)
  refine ⟨hc, ?_, ?_, ?_, ?_, ?_, ?_⟩
  · rw [hnone, ← hr.starts_iff hS, or_iff_right]
    · rfl
    · intro hslot
      obtain ⟨name, hstart⟩ := hS.start
      have hhead := hr.head hS.toWired
      rw [hslot, head?, show role? _ p.start = _ from hstart] at hhead
      cases hhead
  · intro h
    obtain rfl := hnone.mp h
    exact hr.eq_index
  · intro e v he hv
    have hrole := Slots.role?_done.mpr ⟨e, he, rfl, rfl⟩
    have hxs : xs ≠ [] := fun h => by simp [hnone.mpr h] at hv
    rw [hnode hv, Graph.prefixNode?_done hxs hrole, (hr.derives_head hS.toWired hrole).1]
  · intro b hb
    rw [hnone, hposition hb, List.length_eq_zero_iff]
  · intro b v hb hone hv
    obtain ⟨x, rfl⟩ := List.length_eq_one_iff.mp ((hposition hb).symm.trans hone)
    refine ⟨f, x, Setting.leads_iff hS (Slots.path_singleton_iff.mp hr.path), ?_⟩
    rw [hnode hv]
    simp [Graph.prefixNode?, hb]
  · intro b v hb htwo hv
    rw [hposition hb] at htwo
    rw [hnode hv]
    cases xs with
    | nil => simp at htwo
    | cons x ys =>
      cases ys with
      | nil => simp at htwo
      | cons y zs => simp [Graph.prefixNode?, hb]

/-- What is a fact is determined by its slot and offsets. -/
lemma ItemFact.determined (hS : p.setting.WellBuilt) (hn : Slots.Numbered p.graph.slots)
    {d : Descriptor} (hd : s.ItemFact p.setting d) : ∃ site, s.Determined p d site := by
  obtain ⟨site, o, hc, ho, hf⟩ := hd
  refine ⟨site, ?_⟩
  rcases hf.means hS.toWired with hslot | ⟨f, xs, hr, rfl⟩
  · obtain ⟨name, hstart⟩ := hS.start
    obtain ⟨-, hindex, rfl⟩ := hf.item_nonterminal hS.toValid (hslot ▸ hstart)
    exact determined_start hS hc hslot hindex (Forest.Denotes.eq_none_iff ho |>.mpr rfl)
  · exact determined_of_reads hS hn hc hr ho

/-! ### Edges -/

lemma edgeDetermined (hS : p.setting.WellBuilt) (hn : Slots.Numbered p.graph.slots)
    (hs : s.Sound p.setting) {c : CallId} {e : Edge} (he : e ∈ s.calls.edges c) :
    ∃ v u, s.calls.site? c = some v ∧ s.EdgeDetermined p e v u := by
  obtain ⟨v, u, o, hv, hu, ho, hf⟩ := hs.edge he
  obtain ⟨-, -, -, hle, hcov⟩ := hf.placed hS.toValid
  obtain ⟨-, b, hl, f, xs, hr, rfl⟩ := hf.means hS.toWired
  have hpath := hr.path.concat hl
  have hnone : e.soFar = none ↔ (xs ++ [v.slot]).length = 1 := by
    rw [ho.eq_none_iff, Graph.prefixNode?_eq_none_iff]
    simp
  refine ⟨v, u, hv, hu, hle, ⟨b, Setting.leads_iff hS hl⟩, ?_, ?_, ?_⟩
  · exact hnone.trans (hS.wired.at_iff hr.starts hpath).symm
  · intro d hd
    rw [hnone, hn.eq_length hr.starts hpath (Slots.role?_body.mpr ⟨d, hd, rfl, rfl⟩)]
  · intro i hi
    rw [hi] at ho
    obtain ⟨n, hin, hpn⟩ := Forest.denotes_some_iff.mp ho
    rw [hpn] at hcov
    simp [Forest.span?, hin, hcov.span]

/-- Two edges of a call that lead back to the same slot in the same caller are the same. -/
lemma edge_unique (hS : p.setting.WellBuilt) (hs : s.Sound p.setting) {c : CallId} {e e' : Edge}
    (he : e ∈ s.calls.edges c) (he' : e' ∈ s.calls.edges c) (hslot : e.returnSlot = e'.returnSlot)
    (hcaller : e.caller = e'.caller) : e = e' := by
  obtain ⟨v, u, o, hv, hu, ho, hf⟩ := hs.edge he
  obtain ⟨v', u', o', hv', hu', ho', hf'⟩ := hs.edge he'
  obtain ⟨-, -, -, -, hcov⟩ := hf.placed hS.toValid
  obtain ⟨-, b, hl, f, xs, hr, rfl⟩ := hf.means hS.toWired
  obtain ⟨-, b', hl', f', xs', hr', rfl⟩ := hf'.means hS.toWired
  obtain rfl := Option.mem_unique hv hv'
  rw [hcaller] at hu
  obtain rfl := Option.mem_unique hu hu'
  -- the return slot tells where the call was made, and that slot what was read before
  rw [hslot] at hl
  obtain ⟨rfl, -⟩ := hS.wired.leads_unique hl hl'
  obtain ⟨-, -, rfl⟩ := hr.unique hS.toWired hr'
  have hsoFar := ho.inj hs.forest.wellFormed ho' (Forest.isPacked_of_covers hcov)
  cases e
  cases e'
  simp_all

end State

/-! ### Runs -/

/-- In a parse, slots, calls and offsets determine what has been parsed, wherever a descriptor is
claimed or scheduled and between any two calls. -/
structure Problem.KeysSuffice (p : Problem) : Prop where
  offer {s : State} {d : Descriptor} : p.Offers s d → ∃ site, s.Determined p d site
  /-- Whatever is offered agrees with what was seen before. -/
  accepted {s : State} {d : Descriptor} : p.Offers s d → ∃ r, s.agenda.claim d = .ok r
  edge {s : State} {tasks : List Task} {c : CallId} {e : Edge} : State.Reachable p s tasks →
    e ∈ s.calls.edges c → ∃ v u, s.calls.site? c = some v ∧ s.EdgeDetermined p e v u
  edges_unique {s : State} {tasks : List Task} (c : CallId) : State.Reachable p s tasks →
    (s.calls.edges c).Pairwise fun e e' => ¬ (e.returnSlot = e'.returnSlot ∧ e.caller = e'.caller)

/-- The key of a descriptor determines what has been parsed, so no descriptor is ever seen with two
different partial results. -/
theorem keys_suffice {share : Bool} {rules : List (String × List Symbol)} {g : Graph}
    (hbuild : (Rules.ofList share rules).build = .ok g) {start : String} {id : SlotId}
    (hstart : g.nonterminal? start = some id) (text : String) (config : Config) :
    Problem.KeysSuffice ⟨g, .ofString text, id, config⟩ ∧
      parse g (.ofString text) start config ≠ .error (.broken .conflictingResults) := by
  have hg := Graph.spells_of_build hbuild
  have hn : Slots.Numbered g.slots := Graph.numbered_of_build hbuild
  obtain ⟨hS, hends⟩ := hg.parse_ends hstart text config
  refine ⟨⟨?_, ?_, ?_, ?_⟩, ?_⟩
  · intro s d h
    exact (h.fact hS.toValid).2.1.determined hS hn
  · intro s d h
    exact h.claim_ok hS.toValid hS.functional
  · intro s tasks c e h he
    exact State.edgeDetermined hS hn (h.running hS.toValid).sound he
  · intro s tasks c h
    have hs := (h.running hS.toValid).sound
    refine hs.calls.edges_nodup.pairwise_of_forall_ne ?_
    rintro e he e' he' hne ⟨hslot, hcaller⟩
    exact hne (State.edge_unique hS hs he he' hslot hcaller)
  · intro h
    rw [h] at hends
    cases hends

end

/-- In a cyclic grammar many derivations lead to the same key, and all agree. -/
theorem keys_suffice_letters : (Rules.ofList true Rules.letters).build = .ok Graph.letters ∧
    Graph.letters.nonterminal? "S" = some 0 ∧ Problem.letters.KeysSuffice :=
  ⟨Graph.build_letters, Graph.nonterminal?_letters,
    (keys_suffice Graph.build_letters Graph.nonterminal?_letters "aa" {}).1⟩

end GeneralParser
