import GeneralParser.Proofs.Engine.Known
import Mathlib.Algebra.BigOperators.Group.Finset.Sigma

/-!
# Counting what is stored

The calls, descriptors and edges of a sound state stand for different facts. A state that knows all
facts therefore has at least as many of each as any other sound state, and all that do have the same
number.
-/

namespace GeneralParser

/-- The edges, each with the call that returns over it. -/
def CallGraph.links (g : CallGraph) : Finset (Σ _ : CallId, Edge) :=
  (Finset.range g.size).sigma fun c => (g.edges c).toFinset

lemma CallGraph.mem_links {g : CallGraph} {c : CallId} {e : Edge} :
    ⟨c, e⟩ ∈ g.links ↔ e ∈ g.edges c := by
  simpa [links] using lt_size_of_mem_edges

lemma CallGraph.WellFormed.edgeCount_eq {g : CallGraph} (hg : g.WellFormed) :
    g.edgeCount = g.links.card := by
  rw [CallGraph.edgeCount_eq, links, Finset.card_sigma]
  apply Finset.sum_congr rfl
  intro c _
  exact (List.toFinset_card_of_nodup hg.edges_nodup).symm

namespace State

variable {s t : State}

/-! ### What is stored as facts -/

def siteOf (s : State) (c : CallId) : CallSite := (s.calls.site? c).getD ⟨0, 0⟩

def nodeOf? (s : State) (l : Option NodeId) : Option Node := l.bind s.forest.node?

def callFact (s : State) (c : CallId) : Fact := .call (s.siteOf c)

def itemFact (s : State) (i : Item) : Fact :=
  .item i.slot (s.siteOf i.call) i.index (s.nodeOf? (s.agenda.seen[i]?.getD none))

def edgeFact (s : State) (c : CallId) (e : Edge) : Fact :=
  .edge (s.siteOf c) e.returnSlot (s.siteOf e.caller) (s.nodeOf? e.soFar)

lemma siteOf_eq {c : CallId} {site : CallSite} (h : s.calls.site? c = some site) :
    s.siteOf c = site := by
  simp [siteOf, h]

lemma nodeOf?_eq {l : Option NodeId} {o : Option Node} (h : s.forest.Denotes l o) :
    s.nodeOf? l = o := by
  cases h with
  | none => rfl
  | some h => exact h

variable [PatternEngine] {S : Setting}

lemma Sound.siteOf_inj (hs : s.Sound S) {c c' : CallId} (hc : c < s.calls.size)
    (hc' : c' < s.calls.size) (h : s.siteOf c = s.siteOf c') : c = c' := by
  obtain ⟨site, hsite⟩ := CallGraph.exists_site? hc
  obtain ⟨site', hsite'⟩ := CallGraph.exists_site? hc'
  rw [siteOf_eq hsite, siteOf_eq hsite'] at h
  subst h
  exact hs.calls.unique hsite hsite'

/-! ### Comparing numbers -/

omit [PatternEngine] in
/-- If what is counted stands for different facts, and each is among other facts, there are no more
of the one than of the other. -/
lemma card_le_of_facts {α β : Type} {A : Finset α} {B : Finset β} (φ : α → Fact) (ψ : β → Fact)
    (hinj : Set.InjOn φ A) (h : ∀ a ∈ A, ∃ b ∈ B, ψ b = φ a) : A.card ≤ B.card := by
  have hsub : A.image φ ⊆ B.image ψ := by
    intro F hF
    obtain ⟨a, ha, rfl⟩ := Finset.mem_image.mp hF
    obtain ⟨b, hb, hab⟩ := h a ha
    exact Finset.mem_image.mpr ⟨b, hb, hab⟩
  calc A.card = (A.image φ).card := (Finset.card_image_of_injOn hinj).symm
    _ ≤ (B.image ψ).card := Finset.card_le_card hsub
    _ ≤ B.card := Finset.card_image_le

section le

variable (hS : S.Valid) (hfun : S.Functional) (hs : s.Sound S) (ht : t.Sound S)
  (hsat : t.Saturated S)
include hS hfun hs ht hsat

lemma calls_size_le : s.calls.size ≤ t.calls.size := by
  have hcard : (Finset.range s.calls.size).card ≤ (Finset.range t.calls.size).card := by
    apply card_le_of_facts s.callFact t.callFact
    · intro c hc c' hc' heq
      exact hs.siteOf_inj (Finset.mem_range.mp hc) (Finset.mem_range.mp hc') (by
        simpa [callFact] using heq)
    · intro c hc
      obtain ⟨site, hsite⟩ := CallGraph.exists_site? (Finset.mem_range.mp hc)
      obtain ⟨c', hc'⟩ := hsat.knows ht hS hfun (hs.call hsite)
      refine ⟨c', Finset.mem_range.mpr (CallGraph.lt_size_of_site? hc'), ?_⟩
      rw [callFact, callFact, siteOf_eq hsite, siteOf_eq hc']
  simpa using hcard

lemma agenda_size_le : s.agenda.size ≤ t.agenda.size := by
  rw [← Agenda.card_items, ← Agenda.card_items]
  apply card_le_of_facts s.itemFact t.itemFact
  · intro i hi i' hi' heq
    obtain ⟨l, hl⟩ := Agenda.mem_items.mp hi
    obtain ⟨l', hl'⟩ := Agenda.mem_items.mp hi'
    obtain ⟨site, o, hc, -⟩ := hs.item hl
    obtain ⟨site', o', hc', -⟩ := hs.item hl'
    obtain ⟨slot, c, k⟩ := i
    obtain ⟨slot', c', k'⟩ := i'
    simp only [itemFact, Fact.item.injEq] at heq
    obtain ⟨rfl, hsite, rfl, -⟩ := heq
    obtain rfl : c = c' := hs.siteOf_inj (CallGraph.lt_size_of_site? hc)
      (CallGraph.lt_size_of_site? hc') hsite
    rfl
  · intro i hi
    obtain ⟨l, hl⟩ := Agenda.mem_items.mp hi
    obtain ⟨site, o, hc, ho, hf⟩ := hs.item hl
    obtain ⟨c', l', hc', hl', ho'⟩ := hsat.knows ht hS hfun hf
    refine ⟨⟨i.slot, c', i.index⟩, Agenda.mem_items.mpr ⟨l', hl'⟩, ?_⟩
    simp only [itemFact, hl, hl', Option.getD_some, siteOf_eq hc, siteOf_eq hc', nodeOf?_eq ho,
      nodeOf?_eq ho']

lemma edgeCount_le : s.calls.edgeCount ≤ t.calls.edgeCount := by
  rw [hs.calls.edgeCount_eq, ht.calls.edgeCount_eq]
  apply card_le_of_facts (fun p => s.edgeFact p.1 p.2) (fun p => t.edgeFact p.1 p.2)
  · rintro ⟨c, e⟩ he ⟨c', e'⟩ he' heq
    obtain ⟨callee, caller, o, hc, hcaller, ho, hf⟩ := hs.edge (CallGraph.mem_links.mp he)
    obtain ⟨callee', caller', o', hc', hcaller', ho', -⟩ := hs.edge (CallGraph.mem_links.mp he')
    obtain ⟨r, l, d⟩ := e
    obtain ⟨r', l', d'⟩ := e'
    simp only [edgeFact, Fact.edge.injEq] at heq
    obtain ⟨hcallee, rfl, hsite, hnode⟩ := heq
    obtain rfl : c = c' := hs.siteOf_inj (CallGraph.lt_size_of_site? hc)
      (CallGraph.lt_size_of_site? hc') hcallee
    obtain rfl : d = d' := hs.siteOf_inj (CallGraph.lt_size_of_site? hcaller)
      (CallGraph.lt_size_of_site? hcaller') hsite
    rw [nodeOf?_eq ho, nodeOf?_eq ho'] at hnode
    subst hnode
    obtain ⟨-, -, -, -, hcov⟩ := hf.placed hS
    obtain rfl : l = l' := ho.inj hs.forest.wellFormed ho' (Forest.isPacked_of_covers hcov)
    rfl
  · rintro ⟨c, e⟩ he
    obtain ⟨callee, caller, o, hcallee, hcaller, ho, hf⟩ := hs.edge (CallGraph.mem_links.mp he)
    obtain ⟨c', d', l', hcallee', hcaller', ho', he'⟩ := hsat.knows ht hS hfun hf
    refine ⟨⟨c', ⟨e.returnSlot, l', d'⟩⟩, CallGraph.mem_links.mpr he', ?_⟩
    simp only [edgeFact, siteOf_eq hcallee, siteOf_eq hcallee', siteOf_eq hcaller,
      siteOf_eq hcaller', nodeOf?_eq ho, nodeOf?_eq ho']

end le

end State

end GeneralParser
