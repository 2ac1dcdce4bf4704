import GeneralParser.CallGraph
import Mathlib.Algebra.BigOperators.Group.Finset.Piecewise
import Mathlib.Data.List.Nodup

/-!
# Growing call graphs

A call graph has one call for each site, and each call has every edge and every completion once.
-/

namespace GeneralParser.CallGraph

variable {g g' : CallGraph}

lemma site?_eq_some {c : CallId} {site : CallSite} :
    g.site? c = some site ↔ ∃ v, g.calls[c]? = some v ∧ v.site = site := by
  simp [site?]

lemma lt_size_of_site? {c : CallId} {site : CallSite} (h : g.site? c = some site) :
    c < g.size := by
  obtain ⟨v, hv, -⟩ := site?_eq_some.mp h
  exact (Array.getElem?_eq_some_iff.mp hv).1

lemma exists_site? {c : CallId} (h : c < g.size) : ∃ site, g.site? c = some site :=
  ⟨_, site?_eq_some.mpr ⟨_, Array.getElem?_eq_getElem h, rfl⟩⟩

lemma edges_eq {c : CallId} : g.edges c = (g.calls[c]?.map Call.edges).getD [] := by
  rw [edges]
  cases g.calls[c]? <;> rfl

lemma completions_eq {c : CallId} :
    g.completions c = (g.calls[c]?.map Call.completions).getD [] := by
  rw [completions]
  cases g.calls[c]? <;> rfl

lemma lt_size_of_mem_edges {c : CallId} {e : Edge} (h : e ∈ g.edges c) : c < g.size := by
  by_contra hc
  rw [edges_eq, Array.getElem?_eq_none (Nat.le_of_not_lt hc)] at h
  simp at h

lemma lt_size_of_mem_completions {c : CallId} {i : NodeId} (h : i ∈ g.completions c) :
    c < g.size := by
  by_contra hc
  rw [completions_eq, Array.getElem?_eq_none (Nat.le_of_not_lt hc)] at h
  simp at h

structure WellFormed (g : CallGraph) : Prop where
  unique {c c' : CallId} {site : CallSite} : g.site? c = some site → g.site? c' = some site →
    c = c'
  edges_nodup {c : CallId} : (g.edges c).Nodup
  completions_nodup {c : CallId} : (g.completions c).Nodup

lemma wellFormed_empty : WellFormed empty := by
  refine ⟨?_, ?_, ?_⟩ <;> simp [site?, edges_eq, completions_eq, empty]

/-- The call graph has grown. -/
structure Le (g g' : CallGraph) : Prop where
  site {c : CallId} {site : CallSite} : g.site? c = some site → g'.site? c = some site
  edges {c : CallId} {e : Edge} : e ∈ g.edges c → e ∈ g'.edges c
  completions {c : CallId} {i : NodeId} : i ∈ g.completions c → i ∈ g'.completions c

lemma Le.refl (g : CallGraph) : Le g g := ⟨id, id, id⟩

lemma Le.trans {g'' : CallGraph} (h : Le g g') (h' : Le g' g'') : Le g g'' :=
  ⟨fun hc => h'.site (h.site hc), fun he => h'.edges (h.edges he),
    fun hi => h'.completions (h.completions hi)⟩

/-! ### Calls -/

/-- What calling does: the call is there afterwards, and it is the only one that may be new. -/
structure Called (g : CallGraph) (site : CallSite) (c : CallId) (new : Bool) (g' : CallGraph) :
    Prop where
  wellFormed : g'.WellFormed
  le : Le g g'
  called : g'.site? c = some site
  back {c' : CallId} {site' : CallSite} : g'.site? c' = some site' →
    g.site? c' = some site' ∨ (new = true ∧ c' = c ∧ site' = site)
  edges {c' : CallId} : g'.edges c' = g.edges c'
  completions {c' : CallId} : g'.completions c' = g.completions c'
  size : g'.size = g.size + new.toNat

lemma find?_eq_some {site : CallSite} {c : CallId} (h : g.find? site = some c) :
    g.site? c = some site := by
  obtain ⟨hc, hs, -⟩ := Array.findIdx?_eq_some_iff_getElem.mp h
  exact site?_eq_some.mpr ⟨_, Array.getElem?_eq_getElem hc, by simpa using hs⟩

lemma find?_eq_none {site : CallSite} (h : g.find? site = none) (c : CallId) :
    g.site? c ≠ some site := by
  intro hc
  obtain ⟨v, hv, rfl⟩ := site?_eq_some.mp hc
  have := Array.findIdx?_eq_none_iff.mp h v (Array.mem_of_getElem? hv)
  simp at this

lemma call_ok (hg : g.WellFormed) {site : CallSite} {c : CallId} {new : Bool}
    (h : g.call site = ((c, new), g')) : Called g site c new g' := by
  rw [call] at h
  split at h
  next c' hc' =>
    obtain ⟨⟨rfl, rfl⟩, rfl⟩ : (c' = c ∧ false = new) ∧ g = g' := by simpa using h
    exact ⟨hg, .refl g, find?_eq_some hc', Or.inl, rfl, rfl, rfl⟩
  next hnone =>
    obtain ⟨⟨rfl, rfl⟩, rfl⟩ : (g.size = c ∧ true = new) ∧ ⟨g.calls.push ⟨site, [], []⟩⟩ = g' := by
      simpa using h
    have hsite {c' : CallId} : site? ⟨g.calls.push ⟨site, [], []⟩⟩ c' =
        if c' = g.size then some site else g.site? c' := by
      simp only [site?, Array.getElem?_push, size]
      by_cases hc : c' = g.calls.size <;> simp [hc]
    have hedges {c' : CallId} : edges ⟨g.calls.push ⟨site, [], []⟩⟩ c' = g.edges c' := by
      simp only [edges_eq, Array.getElem?_push]
      by_cases hc : c' = g.calls.size <;> simp [hc]
    have hcompletions {c' : CallId} :
        completions ⟨g.calls.push ⟨site, [], []⟩⟩ c' = g.completions c' := by
      simp only [completions_eq, Array.getElem?_push]
      by_cases hc : c' = g.calls.size <;> simp [hc]
    have hback {c' : CallId} {site' : CallSite}
        (h : site? ⟨g.calls.push ⟨site, [], []⟩⟩ c' = some site') :
        g.site? c' = some site' ∨ (c' = g.size ∧ site' = site) := by
      rw [hsite] at h
      split at h
      next hc => exact Or.inr ⟨hc, by simpa using h.symm⟩
      next => exact Or.inl h
    refine ⟨⟨?_, hedges ▸ hg.edges_nodup, hcompletions ▸ hg.completions_nodup⟩,
      ⟨?_, fun he => hedges ▸ he, fun hi => hcompletions ▸ hi⟩, by simp [hsite],
      fun h => (hback h).imp id fun h => ⟨rfl, h⟩, hedges, hcompletions, ?_⟩
    · intro c c' site' h h'
      rcases hback h with h | ⟨rfl, rfl⟩ <;> rcases hback h' with h' | ⟨rfl, hs⟩
      · exact hg.unique h h'
      · exact absurd (hs ▸ h) (find?_eq_none hnone _)
      · exact absurd h' (find?_eq_none hnone _)
      · rfl
    · intro c site' hc
      rwa [hsite, if_neg (Nat.ne_of_lt (lt_size_of_site? hc))]
    · exact Array.size_push ..

/-- A new call was not there before. -/
lemma Called.fresh {site : CallSite} {c : CallId} (h : g.Called site c true g') :
    g.site? c = none := by
  obtain ⟨site', hsite'⟩ := exists_site? (g := g') (c := g.size) (by simp [h.size])
  rcases h.back hsite' with hold | ⟨-, rfl, -⟩
  · exact absurd (lt_size_of_site? hold) (Nat.lt_irrefl _)
  · rw [Option.eq_none_iff_forall_ne_some]
    intro site hsite
    exact absurd (lt_size_of_site? hsite) (Nat.lt_irrefl _)

/-! ### Edges and completions -/

section modify

variable {c : CallId} {change : Call → Call}

@[simp] lemma site?_modify (hc : ∀ v, (change v).site = v.site) {c' : CallId} :
    site? ⟨g.calls.modify c change⟩ c' = g.site? c' := by
  simp only [site?, Array.getElem?_modify]
  split
  · cases g.calls[c']? <;> simp [hc]
  · rfl

lemma edges_modify {c' : CallId} (hc : c < g.size) {f : List Edge → List Edge}
    (hf : ∀ v, (change v).edges = f v.edges) :
    edges ⟨g.calls.modify c change⟩ c' = if c' = c then f (g.edges c) else g.edges c' := by
  simp only [edges_eq, Array.getElem?_modify]
  by_cases h : c = c'
  · subst h
    simp [Array.getElem?_eq_getElem hc, hf]
  · simp [h, Ne.symm h]

lemma completions_modify {c' : CallId} (hc : c < g.size) {f : List NodeId → List NodeId}
    (hf : ∀ v, (change v).completions = f v.completions) :
    completions ⟨g.calls.modify c change⟩ c' =
      if c' = c then f (g.completions c) else g.completions c' := by
  simp only [completions_eq, Array.getElem?_modify]
  by_cases h : c = c'
  · subst h
    simp [Array.getElem?_eq_getElem hc, hf]
  · simp [h, Ne.symm h]

end modify

/-- What adding an edge does: it is there afterwards, and it is the only one that may be new. -/
structure Linked (g : CallGraph) (c : CallId) (e : Edge) (new : Bool) (g' : CallGraph) :
    Prop where
  wellFormed : g'.WellFormed
  le : Le g g'
  edge : e ∈ g'.edges c
  back {c' : CallId} {e' : Edge} : e' ∈ g'.edges c' →
    e' ∈ g.edges c' ∨ (new = true ∧ c' = c ∧ e' = e)
  site {c' : CallId} : g'.site? c' = g.site? c'
  completions {c' : CallId} : g'.completions c' = g.completions c'
  edges {c' : CallId} : g'.edges c' = if new = true ∧ c' = c then e :: g.edges c' else g.edges c'
  size : g'.size = g.size

lemma addEdge_ok (hg : g.WellFormed) {c : CallId} {e : Edge} {new : Bool} (hc : c < g.size)
    (h : g.addEdge c e = (new, g')) : Linked g c e new g' := by
  rw [addEdge] at h
  split at h
  next he =>
    obtain ⟨rfl, rfl⟩ : false = new ∧ g = g' := by simpa using h
    exact ⟨hg, .refl g, he, Or.inl, rfl, rfl, by simp, rfl⟩
  next he =>
    obtain ⟨rfl, hg'⟩ : true = new ∧
        ⟨g.calls.modify c fun v => { v with edges := e :: v.edges }⟩ = g' := by simpa using h
    have hedges {c' : CallId} : g'.edges c' = if c' = c then e :: g.edges c else g.edges c' := by
      rw [← hg']
      exact edges_modify hc (by intro v; rfl)
    have hsite {c' : CallId} : g'.site? c' = g.site? c' := by
      rw [← hg']
      exact site?_modify (by intro v; rfl)
    have hcompletions {c' : CallId} : g'.completions c' = g.completions c' := by
      rw [← hg']
      apply (completions_modify hc (f := id) (by intro v; rfl)).trans
      by_cases h : c' = c <;> simp [h]
    refine ⟨⟨?_, ?_, hcompletions ▸ hg.completions_nodup⟩,
      ⟨fun h => hsite ▸ h, ?_, fun h => hcompletions ▸ h⟩, by simp [hedges], ?_,
      hsite, hcompletions, ?_, by simp [← hg', size]⟩
    · intro c c' site h h'
      rw [hsite] at h h'
      exact hg.unique h h'
    · intro c'
      rw [hedges]
      split
      · exact List.nodup_cons.mpr ⟨he, hg.edges_nodup⟩
      · exact hg.edges_nodup
    · intro c e h
      rw [hedges]
      split
      next hc' => exact List.mem_cons_of_mem _ (hc' ▸ h)
      next => exact h
    · intro c' e' h
      rw [hedges] at h
      split at h
      next hc' =>
        rcases List.mem_cons.mp h with h | h
        · exact Or.inr ⟨rfl, hc', h⟩
        · exact Or.inl (hc' ▸ h)
      next => exact Or.inl h
    · intro c'
      rw [hedges]
      by_cases hc' : c' = c <;> simp [hc']

/-- What recording a completion does: it is there afterwards, and it is the only one that may be
new. -/
structure Completed (g : CallGraph) (c : CallId) (i : NodeId) (new : Bool) (g' : CallGraph) :
    Prop where
  wellFormed : g'.WellFormed
  le : Le g g'
  completion : i ∈ g'.completions c
  back {c' : CallId} {i' : NodeId} : i' ∈ g'.completions c' →
    i' ∈ g.completions c' ∨ (new = true ∧ c' = c ∧ i' = i)
  site {c' : CallId} : g'.site? c' = g.site? c'
  edges {c' : CallId} : g'.edges c' = g.edges c'
  completions {c' : CallId} : g'.completions c' =
    if new = true ∧ c' = c then g.completions c' ++ [i] else g.completions c'
  size : g'.size = g.size

lemma addCompletion_ok (hg : g.WellFormed) {c : CallId} {i : NodeId} {new : Bool}
    (hc : c < g.size) (h : g.addCompletion c i = (new, g')) : Completed g c i new g' := by
  rw [addCompletion] at h
  split at h
  next hi =>
    obtain ⟨rfl, hg'⟩ : true = new ∧
        ⟨g.calls.modify c fun v => { v with completions := v.completions ++ [i] }⟩ = g' := by
      simpa using h
    have hcompletions {c' : CallId} :
        g'.completions c' = if c' = c then g.completions c ++ [i] else g.completions c' := by
      rw [← hg']
      exact completions_modify hc (f := (· ++ [i])) (by intro v; rfl)
    have hsite {c' : CallId} : g'.site? c' = g.site? c' := by
      rw [← hg']
      exact site?_modify (by intro v; rfl)
    have hedges {c' : CallId} : g'.edges c' = g.edges c' := by
      rw [← hg']
      apply (edges_modify hc (f := id) (by intro v; rfl)).trans
      by_cases h : c' = c <;> simp [h]
    refine ⟨⟨?_, hedges ▸ hg.edges_nodup, ?_⟩,
      ⟨fun h => hsite ▸ h, fun h => hedges ▸ h, ?_⟩, by simp [hcompletions],
      ?_, hsite, hedges, ?_, by simp [← hg', size]⟩
    · intro c c' site h h'
      rw [hsite] at h h'
      exact hg.unique h h'
    · intro c'
      rw [hcompletions]
      split
      · exact List.nodup_append.mpr ⟨hg.completions_nodup, List.nodup_singleton _,
          fun j hj k hk hjk => hi.2 (List.mem_singleton.mp hk ▸ hjk ▸ hj)⟩
      · exact hg.completions_nodup
    · intro c i h
      rw [hcompletions]
      split
      next hc' => exact List.mem_append_left _ (hc' ▸ h)
      next => exact h
    · intro c' i' h
      rw [hcompletions] at h
      split at h
      next hc' =>
        rcases List.mem_append.mp h with h | h
        · exact Or.inl (hc' ▸ h)
        · exact Or.inr ⟨rfl, hc', List.mem_singleton.mp h⟩
      next => exact Or.inl h
    · intro c'
      rw [hcompletions]
      by_cases hc' : c' = c <;> simp [hc']
  next hi =>
    obtain ⟨rfl, rfl⟩ : false = new ∧ g = g' := by simpa using h
    have hmem : i ∈ g.completions c := by
      by_contra hmem
      exact hi ⟨hc, hmem⟩
    exact ⟨hg, .refl g, hmem, Or.inl, rfl, rfl, by simp, rfl⟩

/-! ### Counts -/

/-- The number of completions. -/
def completionCount (g : CallGraph) : Nat :=
  ∑ c ∈ Finset.range g.size, (g.completions c).length

lemma length_flatMap_edges (calls : List Call) : (calls.flatMap Call.edges).length =
    ∑ c ∈ Finset.range calls.length, ((calls[c]?.map Call.edges).getD []).length := by
  induction calls with
  | nil => rfl
  | cons v calls ih =>
    rw [List.flatMap_cons, List.length_append, ih, List.length_cons, Finset.sum_range_succ']
    simp [Nat.add_comm]

lemma edgeCount_eq : g.edgeCount = ∑ c ∈ Finset.range g.size, (g.edges c).length := by
  rw [edgeCount, length_flatMap_edges]
  simp [edges_eq, size]

section step

variable {c : CallId} {e : Edge} {i : NodeId} {site : CallSite} {new : Bool}

/-- A sum over all calls in which one of them counts for one more. -/
lemma sum_succ {f f' : CallId → Nat} (hc : c < g.size)
    (h : ∀ c', f' c' = f c' + if new = true ∧ c' = c then 1 else 0) :
    ∑ c' ∈ Finset.range g.size, f' c' = ∑ c' ∈ Finset.range g.size, f c' + new.toNat := by
  simp only [h, Finset.sum_add_distrib]
  cases new with
  | false => simp
  | true => simp [Finset.sum_ite_eq', hc]

lemma Linked.edgeCount (h : Linked g c e new g') : g'.edgeCount = g.edgeCount + new.toNat := by
  rw [edgeCount_eq, edgeCount_eq, h.size]
  apply sum_succ (h.size ▸ lt_size_of_mem_edges h.edge)
  intro c'
  rw [h.edges]
  split <;> simp

lemma Linked.completionCount (h : Linked g c e new g') :
    g'.completionCount = g.completionCount := by
  simp only [CallGraph.completionCount, h.size, h.completions]

lemma Completed.edgeCount (h : Completed g c i new g') : g'.edgeCount = g.edgeCount := by
  simp only [edgeCount_eq, h.size, h.edges]

lemma Completed.completionCount (h : Completed g c i new g') :
    g'.completionCount = g.completionCount + new.toNat := by
  rw [CallGraph.completionCount, CallGraph.completionCount, h.size]
  apply sum_succ (h.size ▸ lt_size_of_mem_completions h.completion)
  intro c'
  rw [h.completions]
  split <;> simp

/-- A new call has no edges and no completions. -/
lemma Called.sum_eq (h : Called g site c new g') {f : CallId → Nat} (hf : f g.size = 0) :
    ∑ c' ∈ Finset.range g'.size, f c' = ∑ c' ∈ Finset.range g.size, f c' := by
  rw [h.size]
  cases new with
  | false => rfl
  | true => rw [Bool.toNat_true, Finset.sum_range_succ, hf, Nat.add_zero]

lemma Called.edgeCount (h : Called g site c new g') : g'.edgeCount = g.edgeCount := by
  simp only [edgeCount_eq, h.edges]
  apply h.sum_eq
  simp [edges_eq, CallGraph.size]

lemma Called.completionCount (h : Called g site c new g') :
    g'.completionCount = g.completionCount := by
  simp only [CallGraph.completionCount, h.completions]
  apply h.sum_eq
  simp [completions_eq, CallGraph.size]

end step

end GeneralParser.CallGraph
