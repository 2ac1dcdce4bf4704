import GeneralParser.Proofs.Engine.Count
import GeneralParser.Proofs.PartialResult

/-!
# Resources

Every parse comes to an end, whatever the grammar, and what it stores grows at most with the cube of
the length of the text. Each thing is counted by a slot and the offsets that determine it. A position
belongs to one nonterminal, so no second slot is needed to tell which call a descriptor is for.
-/

namespace GeneralParser

section

variable [PatternEngine]

open Slots (role? head? Leads Starts)

/-! ### Counting slots -/

namespace Graph

/-- The number of nonterminals. -/
def nonterminalCount (g : Graph) : Nat := g.slots.countP fun s => s.kind = .nonterminal

/-- The number of positions and ends. -/
def placeCount (g : Graph) : Nat := g.slots.countP fun s => s.kind = .body ∨ s.kind = .done

end Graph

omit [PatternEngine] in
/-- The numbers of the entries that satisfy `P` are as many as these. -/
lemma card_filter_getElem? {α : Type} (as : List α) (P : α → Bool) :
    ((Finset.range as.length).filter fun i => as[i]?.any P).card = as.countP P := by
  induction as using List.reverseRecOn with
  | nil => rfl
  | append_singleton as a ih =>
    have hold : ∀ i ∈ Finset.range as.length, (as ++ [a])[i]? = as[i]? := by
      intro i hi
      exact List.getElem?_append_left (Finset.mem_range.mp hi)
    rw [Finset.card_filter] at ih ⊢
    rw [List.length_append, List.length_singleton, Finset.sum_range_succ, List.countP_append, ← ih]
    congr 1
    · exact Finset.sum_congr rfl fun i hi => by rw [hold i hi]
    · simp [List.countP_singleton]

namespace Graph

variable {g : Graph}

/-- The nonterminals. -/
def nonterminals (g : Graph) : Finset SlotId :=
  (Finset.range g.slots.toList.length).filter fun i =>
    g.slots.toList[i]?.any fun s => s.kind = .nonterminal

/-- The positions and ends. -/
def places (g : Graph) : Finset SlotId :=
  (Finset.range g.slots.toList.length).filter fun i =>
    g.slots.toList[i]?.any fun s => s.kind = .body ∨ s.kind = .done

lemma card_nonterminals : g.nonterminals.card = g.nonterminalCount := by
  rw [nonterminals, card_filter_getElem?, nonterminalCount, Array.countP_toList]

lemma card_places : g.places.card = g.placeCount := by
  rw [places, card_filter_getElem?, placeCount, Array.countP_toList]

lemma mem_nonterminals {a : SlotId} {name : String}
    (h : role? g.slots a = some (.nonterminal name)) : a ∈ g.nonterminals := by
  have hlt := Slots.lt_size_of_role? h
  obtain ⟨s, hs, -⟩ := Slots.role?_nonterminal.mp h
  refine Finset.mem_filter.mpr ⟨by simpa using hlt, ?_⟩
  rw [Array.getElem?_toList, hs]
  rfl

lemma mem_places {d a : SlotId} (h : head? g.slots d = some a) : d ∈ g.places := by
  have hlt := Slots.lt_size_of_head? h
  refine Finset.mem_filter.mpr ⟨by simpa using hlt, ?_⟩
  rw [Array.getElem?_toList]
  rcases Slots.head?_eq_some.mp h with ⟨s, hs, -⟩ | ⟨s, hs, -⟩ <;> rw [hs] <;> rfl

end Graph

/-- The offsets of a text, its end included. -/
def Text.offsetRange (t : Text) : Finset Nat := Finset.range (t.length + 1)

omit [PatternEngine] in
@[simp] lemma Text.mem_offsetRange {t : Text} {i : Nat} : i ∈ t.offsetRange ↔ i ≤ t.length :=
  Finset.mem_range_succ_iff

omit [PatternEngine] in
@[simp] lemma Text.card_offsetRange {t : Text} : t.offsetRange.card = t.length + 1 :=
  Finset.card_range _

/-! ### What determines a packed node -/

/-- The node for a stretch of the text below which the packed nodes for a slot come. -/
def Graph.parentNode (g : Graph) (slot : SlotId) (i j : Nat) : Node :=
  match g.slots[slot]? with
  | some (.done e) => .nonterminal e.head i j
  | _ => .intermediate slot i j

@[simp] lemma Graph.span?_parentNode {g : Graph} {slot : SlotId} {i j : Nat} :
    (g.parentNode slot i j).span? = some (i, j) := by
  rw [parentNode]
  split <;> rfl

namespace Setting

variable {S : Setting}

lemma joined?_eq_parentNode {d : SlotId} {site : CallSite} {j : Nat} {o : Option Node} {m : Node}
    (h : S.joined? d site j o = some m) : m = S.graph.parentNode d site.index j := by
  simp only [joined?] at h
  rw [Graph.parentNode]
  split at h <;> simp_all

/-- A packed node comes below the node that its slot and the stretch of the text determine. -/
lemma Derivable.packed_parent (hS : S.Valid) {m n : Node} {slot : SlotId} {k : Nat}
    {o : Option Node} (h : S.Derivable (.packed m slot k o n)) :
    (∃ a, head? S.graph.slots slot = some a) ∧ ∃ i j, m = S.graph.parentNode slot i j := by
  cases h with
  | packed ha hm =>
    obtain ⟨-, hslot, -⟩ := ha.placed hS
    exact ⟨hslot, _, _, joined?_eq_parentNode hm⟩
  | @emptyPacked _ a _ _ _ hi he =>
    obtain ⟨e, hs, rfl, -⟩ := Slots.role?_done.mp he
    exact ⟨⟨_, Slots.head?_done hs⟩, k, k, by simp [Graph.parentNode, hs]⟩

end Setting

/-! ### What a state can store -/

attribute [ext] CallSite

/-- The packed nodes, each with the node it belongs to. -/
def Forest.packings (f : Forest) : Finset (Σ _ : NodeId, NodeId) :=
  (Finset.range f.size).sigma fun i => (f.packedUnder i).toFinset

omit [PatternEngine] in
lemma Forest.mem_packings {f : Forest} {i q : NodeId} :
    ⟨i, q⟩ ∈ f.packings ↔ q ∈ f.packedUnder i := by
  simpa [packings] using lt_size_of_mem_packedUnder

omit [PatternEngine] in
/-- Every packed node belongs to a node. -/
lemma Forest.WellFormed.packed_le {f : Forest} (hf : f.WellFormed) :
    f.counts.packed ≤ f.packings.card := by
  have hsub : ((Finset.range f.nodes.length).filter fun q => f.nodes[q]?.any Node.isPacked) ⊆
      f.packings.image Sigma.snd := by
    intro q hq
    obtain ⟨-, hq⟩ := Finset.mem_filter.mp hq
    obtain ⟨n, hn, hpacked⟩ := (Option.any_eq_true _ _).mp hq
    cases n with
    | packed slot k =>
      have hn : f.node? q = some (.packed slot k) := by simpa [nodes, node?] using hn
      obtain ⟨i, hi⟩ := hf.parent hn
      exact Finset.mem_image.mpr ⟨⟨i, q⟩, mem_packings.mpr hi, rfl⟩
    | _ => cases hpacked
  calc f.counts.packed = f.nodes.countP Node.isPacked := rfl
    _ = _ := (card_filter_getElem? _ _).symm
    _ ≤ (f.packings.image Sigma.snd).card := Finset.card_le_card hsub
    _ ≤ f.packings.card := Finset.card_image_le

namespace State.Sound

variable {p : Problem} {s : State} (hS : p.setting.WellBuilt) (hs : s.Sound p.setting)
include hS hs

/-- There is at most one call for each nonterminal and offset. -/
theorem calls_size_le_sites :
    s.calls.size ≤ p.graph.nonterminalCount * (p.text.length + 1) := by
  have hcard : (Finset.range s.calls.size).card ≤
      (p.graph.nonterminals ×ˢ p.text.offsetRange).card := by
    apply Finset.card_le_card_of_injOn fun c => ((s.siteOf c).slot, (s.siteOf c).index)
    · intro c hc
      obtain ⟨site, hsite⟩ := CallGraph.exists_site? (Finset.mem_range.mp hc)
      obtain ⟨⟨name, hn⟩, hi⟩ := (hs.call hsite).placed hS.toValid
      have hslot : site.slot ∈ p.graph.nonterminals := Graph.mem_nonterminals hn
      have hindex : site.index ≤ p.text.length := hi
      simp [siteOf_eq hsite, hslot, hindex]
    · intro c hc c' hc' heq
      obtain ⟨hslot, hindex⟩ := Prod.mk.inj heq
      exact hs.siteOf_inj (Finset.mem_range.mp hc) (Finset.mem_range.mp hc')
        (CallSite.ext hslot hindex)
  simpa [Graph.card_nonterminals] using hcard

/-- A descriptor other than the first is for a slot in the rules of what was called. -/
lemma placed_item {i : Item} (hi : i ∈ s.agenda.items.erase ⟨p.start, rootCall, 0⟩) :
    ∃ site, s.calls.site? i.call = some site ∧ head? p.graph.slots i.slot = some site.slot ∧
      site.index ≤ p.text.length ∧ i.index ≤ p.text.length := by
  obtain ⟨hne, hmem⟩ := Finset.mem_erase.mp hi
  obtain ⟨l, hl⟩ := Agenda.mem_items.mp hmem
  obtain ⟨site, o, hc, -, hf⟩ := hs.item hl
  obtain ⟨⟨-, hsite⟩, -, -, hindex, -⟩ := hf.placed hS.toValid
  rcases hf.item_head hS.toWired with ⟨hslot, rfl, hzero⟩ | hhead
  · have hcall := hs.calls.unique hc hs.root
    exact absurd (by cases i; simp_all [Problem.setting]) hne
  · exact ⟨site, hc, hhead, hsite, hindex⟩

/-- But for the first, there is at most one descriptor for each slot and two offsets: the slot tells
which nonterminal was called. -/
theorem agenda_size_le_places :
    s.agenda.size ≤ p.graph.placeCount * (p.text.length + 1) ^ 2 + 1 := by
  have hcard : (s.agenda.items.erase ⟨p.start, rootCall, 0⟩).card ≤
      (p.graph.places ×ˢ p.text.offsetRange ×ˢ p.text.offsetRange).card := by
    apply Finset.card_le_card_of_injOn fun i => (i.slot, (s.siteOf i.call).index, i.index)
    · intro i hi
      obtain ⟨site, hc, hhead, hsite, hindex⟩ := hs.placed_item hS hi
      simp [siteOf_eq hc, Graph.mem_places hhead, hsite, hindex]
    · intro i hi i' hi' heq
      obtain ⟨site, hc, hhead, -⟩ := hs.placed_item hS hi
      obtain ⟨site', hc', hhead', -⟩ := hs.placed_item hS hi'
      simp only [Prod.mk.injEq, siteOf_eq hc, siteOf_eq hc'] at heq
      obtain ⟨hslot, hsite, hindex⟩ := heq
      rw [hslot] at hhead
      obtain rfl : site = site' := CallSite.ext (Option.mem_unique hhead hhead') hsite
      have hcall := hs.calls.unique hc hc'
      cases i
      cases i'
      simp_all
  have hone := Finset.pred_card_le_card_erase (s := s.agenda.items) (a := ⟨p.start, rootCall, 0⟩)
  calc s.agenda.size = s.agenda.items.card := Agenda.card_items.symm
    _ ≤ (s.agenda.items.erase ⟨p.start, rootCall, 0⟩).card + 1 := by omega
    _ ≤ p.graph.placeCount * (p.text.length + 1) ^ 2 + 1 := by
        simpa [Graph.card_places, pow_two] using hcard

/-- An edge leads back to a slot behind what was called, in the rules of the caller. -/
lemma placed_edge {c : CallId} {e : Edge} (he : e ∈ s.calls.edges c) : ∃ callee caller b,
    s.calls.site? c = some callee ∧ s.calls.site? e.caller = some caller ∧
      Leads p.graph.slots b callee.slot e.returnSlot ∧
      head? p.graph.slots e.returnSlot = some caller.slot ∧
      callee.index ≤ p.text.length ∧ caller.index ≤ p.text.length := by
  obtain ⟨callee, caller, o, hc, hcaller, -, hf⟩ := hs.edge he
  obtain ⟨⟨-, hi⟩, ⟨-, hi'⟩, -⟩ := hf.placed hS.toValid
  obtain ⟨-, b, hl, f, xs, hr, -⟩ := hf.means hS.toWired
  have hhead := (hS.wired.leads_head hl).trans (hr.head hS.toWired)
  exact ⟨callee, caller, b, hc, hcaller, hl, hhead, hi, hi'⟩

/-- There is at most one edge for each slot and two offsets: the slot tells which nonterminal was
called, and in the rule of which other. -/
theorem edgeCount_le_places :
    s.calls.edgeCount ≤ p.graph.placeCount * (p.text.length + 1) ^ 2 := by
  have hcard : s.calls.links.card ≤
      (p.graph.places ×ˢ p.text.offsetRange ×ˢ p.text.offsetRange).card := by
    apply Finset.card_le_card_of_injOn
      fun x => (x.2.returnSlot, (s.siteOf x.2.caller).index, (s.siteOf x.1).index)
    · rintro ⟨c, e⟩ he
      obtain ⟨v, u, b, hv, hu, -, hhead, hi, hi'⟩ := hs.placed_edge hS (CallGraph.mem_links.mp he)
      simp [siteOf_eq hv, siteOf_eq hu, Graph.mem_places hhead, hi, hi']
    · rintro ⟨c, e⟩ he ⟨c', e'⟩ he' heq
      replace he := CallGraph.mem_links.mp he
      replace he' := CallGraph.mem_links.mp he'
      obtain ⟨v, u, b, hv, hu, hl, hhead, -⟩ := hs.placed_edge hS he
      obtain ⟨v', u', b', hv', hu', hl', hhead', -⟩ := hs.placed_edge hS he'
      simp only [Prod.mk.injEq, siteOf_eq hv, siteOf_eq hv', siteOf_eq hu, siteOf_eq hu'] at heq
      obtain ⟨hslot, hcaller, hcallee⟩ := heq
      rw [hslot] at hl hhead
      obtain rfl : v = v' := CallSite.ext (hS.wired.leads_unique hl hl').2 hcallee
      obtain rfl : u = u' := CallSite.ext (Option.mem_unique hhead hhead') hcaller
      obtain rfl : c = c' := hs.calls.unique hv hv'
      rw [edge_unique hS hs he he' hslot (hs.calls.unique hu hu')]
  rw [hs.calls.edgeCount_eq]
  simpa [Graph.card_places, pow_two] using hcard

/-- The slot and the pivot of a packed node, and the stretch of the node it belongs to. -/
lemma placed_packed {i q : NodeId} (hq : q ∈ s.forest.packedUnder i) : ∃ slot k l r,
    s.forest.node? q = some (.packed slot k) ∧
      s.forest.node? i = some (p.graph.parentNode slot l r) ∧ slot ∈ p.graph.places ∧
      k ≤ p.text.length ∧ l ≤ p.text.length ∧ r ≤ p.text.length := by
  obtain ⟨m, slot, k, o, n, -, -, hi, hqn, -, -, -, hf⟩ := hs.forest.packed hq
  obtain ⟨⟨a, ha⟩, l, r, rfl⟩ := hf.packed_parent hS.toValid
  obtain ⟨l', r', hspan, hlk, -, hover⟩ := hf.placed hS.toValid
  obtain ⟨rfl, rfl⟩ : l = l' ∧ r = r' := by simpa using hspan
  have hr := hover.le_length
  have hk := hover.le.trans hr
  exact ⟨slot, k, l, r, hqn, hi, Graph.mem_places ha, hk, hlk.trans hk, hr⟩

/-- There is at most one packed node for each slot and three offsets. -/
theorem packed_le_places :
    s.forest.counts.packed ≤ p.graph.placeCount * (p.text.length + 1) ^ 3 := by
  have hwf := hs.forest.wellFormed
  have hcard : s.forest.packings.card ≤
      (p.graph.places ×ˢ p.text.offsetRange ×ˢ p.text.offsetRange ×ˢ p.text.offsetRange).card := by
    apply Finset.card_le_card_of_injOn fun x =>
      ((s.forest.node? x.2).elim 0 Node.first, (s.forest.node? x.2).elim 0 Node.second,
        (s.forest.span? x.1).getD (0, 0))
    · rintro ⟨i, q⟩ hq
      obtain ⟨slot, k, l, r, hqn, hi, hslot, hk, hl, hr⟩ :=
        hs.placed_packed hS (Forest.mem_packings.mp hq)
      simp [Forest.span?, hqn, hi, Node.first, Node.second, hslot, hk, hl, hr]
    · rintro ⟨i, q⟩ hq ⟨i', q'⟩ hq' heq
      replace hq := Forest.mem_packings.mp hq
      replace hq' := Forest.mem_packings.mp hq'
      obtain ⟨slot, k, l, r, hqn, hi, -⟩ := hs.placed_packed hS hq
      obtain ⟨slot', k', l', r', hqn', hi', -⟩ := hs.placed_packed hS hq'
      simp only [Forest.span?, hqn, hqn', hi, hi', Option.elim_some, Option.bind_some,
        Graph.span?_parentNode, Option.getD_some, Node.first, Node.second, Prod.mk.injEq] at heq
      obtain ⟨rfl, rfl, rfl, rfl⟩ := heq
      obtain rfl : i = i' := hwf.unique hi hi' (Forest.isPacked_eq_false Graph.span?_parentNode)
      rw [hwf.packed_unique hq hq' (hqn.trans hqn'.symm)]
  calc s.forest.counts.packed ≤ s.forest.packings.card := hwf.packed_le
    _ ≤ p.graph.placeCount * (p.text.length + 1) ^ 3 := by
        simpa [Graph.card_places, pow_succ, Nat.mul_assoc] using hcard

end State.Sound

/-! ### Coming to an end -/

/-- Move by move, a parse comes to the end `r` in state `s'`. How many moves it is given does not
matter. -/
inductive State.Halts (p : Problem) : State → List Task → State → Except Failure Unit → Prop
  | finish {s s' : State} {tasks : List Task} : s.move p tasks = .finish s' →
    Halts p s tasks s' (.ok ())
  | fail {s s' : State} {tasks : List Task} {e : Failure} : s.move p tasks = .fail s' e →
    Halts p s tasks s' (.error e)
  | goOn {s s' t : State} {tasks tasks' : List Task} {r : Except Failure Unit} :
    s.move p tasks = .goOn s' tasks' → Halts p s' tasks' t r → Halts p s tasks t r

/-- A parse halts if it fails at the start, or comes to an end from there. -/
inductive Problem.Halts (p : Problem) : State → Except Failure Unit → Prop
  | fail {s : State} {e : Failure} : State.start p = (s, .error e) → Halts p s (.error e)
  | run {s s' : State} {r : Except Failure Unit} : State.start p = (s, .ok ()) →
    State.Halts p s [] s' r → Halts p s' r

/-- A run that does not use up the moves it is given comes to an end. -/
lemma State.halts_of_drainFor {p : Problem} {fuel : Nat} {s s' : State} {tasks : List Task}
    {r : Except Failure Unit} (h : drainFor p fuel s tasks = (s', r))
    (hr : r ≠ .error (.broken .outOfSteps)) : Halts p s tasks s' r := by
  induction fuel generalizing s tasks with
  | zero =>
    cases h
    exact absurd rfl hr
  | succ fuel ih =>
    rw [drainFor] at h
    cases hmove : s.move p tasks with
    | goOn t tasks' =>
      rw [hmove] at h
      exact .goOn hmove (ih h)
    | finish t =>
      rw [hmove] at h
      cases h
      exact .finish hmove
    | fail t e =>
      rw [hmove] at h
      cases h
      exact .fail hmove

lemma Problem.halts_of_run {p : Problem} {s : State} {r : Except Failure Unit}
    (h : p.run = (s, r)) (hr : r ≠ .error (.broken .outOfSteps)) : p.Halts s r := by
  rw [run] at h
  split at h
  next t e hstart =>
    cases h
    exact .fail hstart
  next t hstart => exact .run hstart (State.halts_of_drainFor h hr)

/-- What is stored after parsing `n` characters. -/
structure State.Bounded (g : Graph) (n : Nat) (s : State) : Prop where
  calls : s.calls.size ≤ g.nonterminalCount * (n + 1)
  items : s.agenda.size ≤ g.placeCount * (n + 1) ^ 2 + 1
  edges : s.calls.edgeCount ≤ g.placeCount * (n + 1) ^ 2
  packed : s.forest.counts.packed ≤ g.placeCount * (n + 1) ^ 3

lemma State.Sound.bounded {p : Problem} {s : State} (hS : p.setting.WellBuilt)
    (hs : s.Sound p.setting) : s.Bounded p.graph p.text.length :=
  ⟨hs.calls_size_le_sites hS, hs.agenda_size_le_places hS, hs.edgeCount_le_places hS,
    hs.packed_le_places hS⟩

/-- Every parse comes to an end, with nothing left to do or at the limit. What it has stored then is
bounded by a cubic function of the length of the text. -/
theorem run_bounded {share : Bool} {rules : List (String × List Symbol)} {g : Graph}
    (hbuild : (Rules.ofList share rules).build = .ok g) {start : String} {id : SlotId}
    (hstart : g.nonterminal? start = some id) (text : String) (config : Config) :
    let p : Problem := ⟨g, .ofString text, id, config⟩
    ∃ s r, p.Halts s r ∧ p.run = (s, r) ∧ s.Bounded g text.length ∧ (r = .ok () ∨
      ∃ limit, config.maxDescriptors = some limit ∧ r = .error (.overLimit limit)) := by
  intro p
  have hS := (Graph.spells_of_build hbuild).setting_wellBuilt hstart text config
  have hlength : p.text.length = text.length :=
    (Text.length_ofString text).trans String.length_toList
  rw [← hlength]
  rcases p.run_final hS with ⟨s, h⟩ | ⟨s, limit, hlimit, hrun, hs, -⟩
  · exact ⟨s, _, Problem.halts_of_run h.run (by simp), h.run, (h.sound hS).bounded hS, Or.inl rfl⟩
  · exact ⟨s, _, Problem.halts_of_run hrun (by simp), hrun, hs.bounded hS,
      Or.inr ⟨limit, hlimit, rfl⟩⟩

end

/-- The small grammar is cyclic, and yet parsing with it comes to an end. -/
theorem run_bounded_letters : (Rules.ofList true Rules.letters).build = .ok Graph.letters ∧
    Graph.letters.nonterminal? "S" = some 0 ∧
    ∃ s, Problem.letters.Halts s (.ok ()) ∧ s.Bounded Graph.letters 2 := by
  refine ⟨Graph.build_letters, Graph.nonterminal?_letters, ?_⟩
  obtain ⟨s, r, hhalts, hrun, hbounded, -⟩ :=
    run_bounded Graph.build_letters Graph.nonterminal?_letters "aa" {}
  obtain rfl : r = .ok () := congrArg Prod.snd (hrun.symm.trans Problem.run_letters)
  exact ⟨s, hhalts, hbounded⟩

end GeneralParser
