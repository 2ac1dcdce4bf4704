import GeneralParser.Proofs.Order

/-!
# Chaining

Where there is only one way to go on, a parse takes it at once, ahead of all that waits on the
agenda. Calls, nodes and descriptors are then made in another order than if everything were
scheduled. But in the end both parses know just the facts, so both come to the same state, up to the
numbers of calls and nodes.
-/

namespace GeneralParser

/-! ### States up to numbering -/

/-- The item with its call renumbered. -/
def Item.renumber (κ : CallId → CallId) (i : Item) : Item := { i with call := κ i.call }

/-- The edge with its caller and its partial result renumbered. -/
def Edge.renumber (κ : CallId → CallId) (σ : NodeId → NodeId) (e : Edge) : Edge :=
  ⟨e.returnSlot, e.soFar.map σ, κ e.caller⟩

/-- Renumbering calls by `κ` and nodes by `σ` takes one state to another: the calls with their
edges and completions, the descriptors seen, and the whole forest. -/
structure State.Renumbers (s t : State) (κ : CallId → CallId) (σ : NodeId → NodeId) : Prop where
  calls : Set.BijOn κ {c | c < s.calls.size} {c | c < t.calls.size}
  site {c : CallId} : c < s.calls.size → t.calls.site? (κ c) = s.calls.site? c
  edges {c : CallId} : c < s.calls.size →
    (t.calls.edges (κ c)).Perm ((s.calls.edges c).map (Edge.renumber κ σ))
  completions {c : CallId} : c < s.calls.size →
    (t.calls.completions (κ c)).Perm ((s.calls.completions c).map σ)
  items : Set.BijOn (Item.renumber κ) s.agenda.items t.agenda.items
  soFar {i : Item} {l : Option NodeId} : s.agenda.seen[i]? = some l →
    t.agenda.seen[i.renumber κ]? = some (l.map σ)
  forest : s.forest.Renumbers t.forest σ {i | i < s.forest.size} {j | j < t.forest.size}

lemma perm_map_of_mem {α β : Type} {f : α → β} {xs : List α} {ys : List β} (hx : xs.Nodup)
    (hy : ys.Nodup) (hinj : ∀ x ∈ xs, ∀ x' ∈ xs, f x = f x' → x = x')
    (hf : ∀ x ∈ xs, f x ∈ ys) (hg : ∀ y ∈ ys, ∃ x ∈ xs, f x = y) : ys.Perm (xs.map f) := by
  apply (List.perm_ext_iff_of_nodup hy (List.Nodup.map_on hinj hx)).mpr
  intro y
  rw [List.mem_map]
  constructor
  · exact hg y
  · rintro ⟨x, hx, rfl⟩
    exact hf x hx

section

variable [PatternEngine]

namespace State

variable {S : Setting} {s t : State} {κ : CallId → CallId} {σ : NodeId → NodeId}

/-- What two states call alike: calls at one site, and nodes that stand for the same. -/
structure Matches (s t : State) (κ : CallId → CallId) (σ : NodeId → NodeId) : Prop where
  call {c c' : CallId} {site : CallSite} : s.calls.site? c = some site →
    t.calls.site? c' = some site → κ c = c'
  node {i j : NodeId} {n : Node} : s.forest.node? i = some n → t.forest.node? j = some n →
    n.isPacked = false → σ i = j
  calls_injOn : Set.InjOn κ {c | c < s.calls.size}
  nodes_injOn : Set.InjOn σ {i | i < s.forest.size}

namespace Matches

variable (h : Matches s t κ σ)
include h

omit [PatternEngine] in
lemma call_inj {c c' : CallId} {site site' : CallSite} (hc : s.calls.site? c = some site)
    (hc' : s.calls.site? c' = some site') (heq : κ c = κ c') : c = c' :=
  h.calls_injOn (CallGraph.lt_size_of_site? hc) (CallGraph.lt_size_of_site? hc') heq

omit [PatternEngine] in
lemma node_inj {i i' : NodeId} {n n' : Node} (hi : s.forest.node? i = some n)
    (hi' : s.forest.node? i' = some n') (heq : σ i = σ i') : i = i' :=
  h.nodes_injOn (Forest.lt_size_of_node? hi) (Forest.lt_size_of_node? hi') heq

lemma soFar {l l' : Option NodeId} {o : Option Node} {i j : Nat} (hl : s.forest.Denotes l o)
    (hl' : t.forest.Denotes l' o) (hcov : S.Covers i j o) : l.map σ = l' := by
  cases hl with
  | none =>
    cases hl'
    rfl
  | some hr =>
    cases hl' with
    | some hr' => exact congrArg some (h.node hr hr' (Forest.isPacked_of_covers hcov _ rfl))

omit [PatternEngine] in
lemma soFar_inj {l l' : Option NodeId} {o o' : Option Node} (hl : s.forest.Denotes l o)
    (hl' : s.forest.Denotes l' o') (heq : l.map σ = l'.map σ) : l = l' := by
  cases hl with
  | none =>
    cases hl' with
    | none => rfl
    | some => cases heq
  | some hr =>
    cases hl' with
    | none => cases heq
    | some hr' => exact congrArg some (h.node_inj hr hr' (Option.some.inj heq))

lemma edge_inj (hs : s.Sound S) {c : CallId} {e e' : Edge} (he : e ∈ s.calls.edges c)
    (he' : e' ∈ s.calls.edges c) (heq : e.renumber κ σ = e'.renumber κ σ) : e = e' := by
  obtain ⟨_, _, _, -, hcaller, ho, -⟩ := hs.edge he
  obtain ⟨_, _, _, -, hcaller', ho', -⟩ := hs.edge he'
  obtain ⟨r, l, d⟩ := e
  obtain ⟨r', l', d'⟩ := e'
  simp only [Edge.renumber, Edge.mk.injEq] at heq
  obtain ⟨rfl, hl, hd⟩ := heq
  obtain rfl := h.soFar_inj ho ho' hl
  obtain rfl := h.call_inj hcaller hcaller' hd
  rfl

/-! ### The call graph -/

variable (hS : S.Valid) (hfun : S.Functional) (hs : s.Sound S) (ht : t.Sound S)
include hS hfun hs ht

lemma mem_edges (hsat : t.Saturated S) {c : CallId} {e : Edge} (he : e ∈ s.calls.edges c) :
    e.renumber κ σ ∈ t.calls.edges (κ c) := by
  obtain ⟨callee, caller, o, hc, hcaller, ho, hf⟩ := hs.edge he
  obtain ⟨c', d', l', hc', hcaller', ho', he'⟩ := hsat.knows ht hS hfun hf
  obtain ⟨-, -, -, -, hcov⟩ := hf.placed hS
  rw [Edge.renumber, h.call hc hc', h.call hcaller hcaller', h.soFar ho ho' hcov]
  exact he'

lemma exists_edge (hsat : s.Saturated S) {c : CallId} {site : CallSite}
    (hc : s.calls.site? c = some site) {e : Edge} (he : e ∈ t.calls.edges (κ c))
    (hsite : t.calls.site? (κ c) = some site) :
    ∃ e' ∈ s.calls.edges c, e'.renumber κ σ = e := by
  obtain ⟨callee, caller, o, hcallee, hcaller, ho, hf⟩ := ht.edge he
  obtain rfl : site = callee := Option.mem_unique hsite hcallee
  obtain ⟨c', d', l', hc', hcaller', ho', he'⟩ := hsat.knows hs hS hfun hf
  obtain rfl := hs.calls.unique hc hc'
  obtain ⟨-, -, -, -, hcov⟩ := hf.placed hS
  refine ⟨_, he', ?_⟩
  rw [Edge.renumber, h.call hcaller' hcaller, h.soFar ho' ho hcov]

lemma mem_completions (hsat : t.Saturated S) {c : CallId} {r : NodeId}
    (hr : r ∈ s.calls.completions c) : σ r ∈ t.calls.completions (κ c) := by
  obtain ⟨callee, j, n, hc, hn, hf⟩ := hs.completion hr
  obtain ⟨c', r', hc', hn', -, hr'⟩ := hsat.knows ht hS hfun hf
  obtain ⟨-, hover⟩ := hf.placed hS
  rw [h.call hc hc', h.node hn hn' (Forest.isPacked_eq_false hover.span)]
  exact hr'

lemma exists_completion (hsat : s.Saturated S) {c : CallId} {site : CallSite}
    (hc : s.calls.site? c = some site) {r : NodeId} (hr : r ∈ t.calls.completions (κ c))
    (hsite : t.calls.site? (κ c) = some site) : ∃ r' ∈ s.calls.completions c, σ r' = r := by
  obtain ⟨callee, j, n, hcallee, hn, hf⟩ := ht.completion hr
  obtain rfl : site = callee := Option.mem_unique hsite hcallee
  obtain ⟨c', r', hc', hn', -, hr'⟩ := hsat.knows hs hS hfun hf
  obtain rfl := hs.calls.unique hc hc'
  obtain ⟨-, hover⟩ := hf.placed hS
  exact ⟨r', hr', h.node hn' hn (Forest.isPacked_eq_false hover.span)⟩

/-! ### The agenda -/

lemma seen (hsat : t.Saturated S) {i : Item} {l : Option NodeId}
    (hi : s.agenda.seen[i]? = some l) : t.agenda.seen[i.renumber κ]? = some (l.map σ) := by
  obtain ⟨site, o, hc, ho, hf⟩ := hs.item hi
  obtain ⟨c', l', hc', hi', ho'⟩ := hsat.knows ht hS hfun hf
  obtain ⟨-, -, -, -, hcov⟩ := hf.placed hS
  rw [Item.renumber, h.call hc hc', h.soFar ho ho' hcov]
  exact hi'

lemma items_bijOn (hsat : s.Saturated S) (hsat' : t.Saturated S) :
    Set.BijOn (Item.renumber κ) s.agenda.items t.agenda.items := by
  refine ⟨?_, ?_, ?_⟩
  · intro i hi
    obtain ⟨l, hl⟩ := Agenda.mem_items.mp hi
    exact Agenda.mem_items.mpr ⟨_, h.seen hS hfun hs ht hsat' hl⟩
  · intro i hi i' hi' heq
    obtain ⟨l, hl⟩ := Agenda.mem_items.mp hi
    obtain ⟨l', hl'⟩ := Agenda.mem_items.mp hi'
    obtain ⟨_, _, hc, -⟩ := hs.item hl
    obtain ⟨_, _, hc', -⟩ := hs.item hl'
    obtain ⟨slot, c, k⟩ := i
    obtain ⟨slot', c', k'⟩ := i'
    simp only [Item.renumber, Item.mk.injEq] at heq
    obtain ⟨rfl, hcall, rfl⟩ := heq
    obtain rfl : c = c' := h.call_inj hc hc' hcall
    rfl
  · intro i hi
    obtain ⟨l, hl⟩ := Agenda.mem_items.mp hi
    obtain ⟨site, _, hc, -, hf⟩ := ht.item hl
    obtain ⟨c', l', hc', hi', -⟩ := hsat.knows hs hS hfun hf
    refine ⟨_, Agenda.mem_items.mpr ⟨l', hi'⟩, ?_⟩
    rw [Item.renumber, h.call hc' hc]

end Matches

/-- Two states that know all facts are the same, up to the numbers of calls and nodes. -/
theorem Saturated.exists_renumbering (hS : S.Valid) (hfun : S.Functional) (hs : s.Sound S)
    (ht : t.Sound S) (hsat : s.Saturated S) (hsat' : t.Saturated S) :
    ∃ κ σ, s.Renumbers t κ σ := by
  obtain ⟨σ, hσ, htwin⟩ := hsat.exists_renumbers hS hfun hs ht hsat'
  have hκ : ∀ c, c < s.calls.size → ∃ c', t.calls.site? c' = s.calls.site? c := by
    intro c hc
    obtain ⟨site, hsite⟩ := CallGraph.exists_site? hc
    rw [hsite]
    exact hsat'.knows ht hS hfun (hs.call hsite)
  choose! κ hκ using hκ
  have hsite {c : CallId} {site : CallSite} (hc : s.calls.site? c = some site) :
      t.calls.site? (κ c) = some site := (hκ c (CallGraph.lt_size_of_site? hc)).trans hc
  have hm : Matches s t κ σ := by
    refine ⟨fun hc hc' => ht.calls.unique (hsite hc) hc', ?_, ?_, hσ.bijOn.injOn⟩
    · intro i j n hi hj hn
      exact htwin i j (Forest.lt_size_of_node? hi) (.node hi hj hn)
    · intro c hc c' hc' heq
      obtain ⟨site, hsc⟩ := CallGraph.exists_site? hc
      have hsc' := hsite hsc
      rw [heq, hκ c' hc'] at hsc'
      exact hs.calls.unique hsc hsc'
  refine ⟨κ, σ, ⟨?_, hm.calls_injOn, ?_⟩, fun hc => hκ _ hc, ?_, ?_,
    hm.items_bijOn hS hfun hs ht hsat hsat', fun hi => hm.seen hS hfun hs ht hsat' hi, hσ⟩
  · intro c hc
    obtain ⟨site, hsc⟩ := CallGraph.exists_site? hc
    exact CallGraph.lt_size_of_site? (hsite hsc)
  · intro c' hc'
    obtain ⟨site, hsc'⟩ := CallGraph.exists_site? hc'
    obtain ⟨c, hc⟩ := hsat.knows hs hS hfun (ht.call hsc')
    exact ⟨c, CallGraph.lt_size_of_site? hc, hm.call hc hsc'⟩
  · intro c hc
    obtain ⟨site, hsc⟩ := CallGraph.exists_site? hc
    exact perm_map_of_mem hs.calls.edges_nodup ht.calls.edges_nodup
      (fun _ he _ he' => hm.edge_inj hs he he')
      (fun _ he => hm.mem_edges hS hfun hs ht hsat' he)
      (fun _ he => hm.exists_edge hS hfun hs ht hsat hsc he (hsite hsc))
  · intro c hc
    obtain ⟨site, hsc⟩ := CallGraph.exists_site? hc
    refine perm_map_of_mem hs.calls.completions_nodup ht.calls.completions_nodup ?_
      (fun _ hr => hm.mem_completions hS hfun hs ht hsat' hr)
      (fun _ hr => hm.exists_completion hS hfun hs ht hsat hsc hr (hsite hsc))
    intro r hr r' hr' heq
    obtain ⟨_, _, _, -, hn, -⟩ := hs.completion hr
    obtain ⟨_, _, _, -, hn', -⟩ := hs.completion hr'
    exact hm.node_inj hn hn' heq

end State

/-! ### Both ways to run -/

/-- Two runs come to the same end: both to a state with nothing left to do, which is the same up to
numbering and has its obstacle at the same offset, or both hit the limit. -/
inductive Problem.SameEnd (p p' : Problem) : Prop
  | finished {s s' : State} {κ : CallId → CallId} {σ : NodeId → NodeId} : p.run = (s, .ok ()) →
    p'.run = (s', .ok ()) → s.Renumbers s' κ σ →
    (s.obstacle p).index = (s'.obstacle p').index → SameEnd p p'
  | overLimit {s s' : State} (limit : Nat) : p.run = (s, .error (.overLimit limit)) →
    p'.run = (s', .error (.overLimit limit)) → SameEnd p p'

/-- Two runs in the same setting and with the same limit come to the same end. -/
theorem Problem.sameEnd {p p' : Problem} (hS : p.setting.WellBuilt)
    (hset : p'.setting = p.setting)
    (hmax : p'.config.maxDescriptors = p.config.maxDescriptors) : p.SameEnd p' := by
  have hS' : p'.setting.WellBuilt := hset ▸ hS
  rcases run_final hS with ⟨s, h⟩ | ⟨s, limit, hlimit, hrun, hs, hlt⟩
  · rcases run_final hS' with ⟨s', h'⟩ | ⟨s', limit, hlimit, -, hs', hlt⟩
    · have hs' : s'.Sound p.setting := hset ▸ h'.sound hS'
      have hsat' : s'.Saturated p.setting := hset ▸ h'.saturated
      obtain ⟨κ, σ, hren⟩ := h.saturated.exists_renumbering hS.toValid hS.functional
        (h.sound hS) hs' hsat'
      exact .finished h.run h'.run hren (Nat.le_antisymm
        (hsat'.furthest_le hS.toValid hS.functional (h.sound hS) hs')
        (h.saturated.furthest_le hS.toValid hS.functional hs' (h.sound hS)))
    · have hle := Ends.size_le_limit hS h (hset ▸ hs') (hmax ▸ hlimit)
      exact absurd hlt (Nat.not_lt.mpr hle)
  · rcases run_final hS' with ⟨s', h'⟩ | ⟨s', limit', hlimit', hrun', -, -⟩
    · have hle := Ends.size_le_limit hS' h' (hset.symm ▸ hs) (hmax ▸ hlimit)
      exact absurd hlt (Nat.not_lt.mpr hle)
    · obtain rfl : limit = limit' := by
        rw [hmax, hlimit] at hlimit'
        exact Option.some.inj hlimit'
      exact .overLimit limit hrun hrun'

/-- To go on at once where there is only one way, and to schedule every descriptor, comes to the
same end: the results say the same, and so do the states. -/
theorem parse_chaining_alike {share : Bool} {rules : List (String × List Symbol)} {g : Graph}
    (hbuild : (Rules.ofList share rules).build = .ok g) {start : String} {id : SlotId}
    (hstart : g.nonterminal? start = some id) (text : String) (config : Config) :
    Alike (parse g (.ofString text) start { config with chaining := true })
        (parse g (.ofString text) start { config with chaining := false }) ∧
      Problem.SameEnd ⟨g, .ofString text, id, { config with chaining := true }⟩
        ⟨g, .ofString text, id, { config with chaining := false }⟩ := by
  have hg := Graph.spells_of_build hbuild
  obtain ⟨hwell, h⟩ := hg.parse_ends hstart text { config with chaining := true }
  obtain ⟨-, h'⟩ := hg.parse_ends hstart text { config with chaining := false }
  refine ⟨h.alike hwell ?_ ?_ h', Problem.sameEnd hwell ?_ ?_⟩ <;> rfl

end

/-- Nested pairs of letters are parsed alike in both ways. The logs differ, since four descriptors are
neither put on the agenda nor handed out if there is only one way to go on. -/
theorem parse_nested_chaining_alike :
    (Rules.ofList false Rules.nested).build = .ok Graph.nested ∧
    Graph.nested.nonterminal? "S" = some 0 ∧
    (Problem.run ⟨Graph.nested, .ofString "aabb", 0, { chaining := true }⟩).1.log.length = 25 ∧
    (Problem.run ⟨Graph.nested, .ofString "aabb", 0, { chaining := false }⟩).1.log.length = 33 ∧
    Alike (parse Graph.nested (.ofString "aabb") "S" { chaining := true })
      (parse Graph.nested (.ofString "aabb") "S" { chaining := false }) ∧
    Problem.SameEnd ⟨Graph.nested, .ofString "aabb", 0, { chaining := true }⟩
      ⟨Graph.nested, .ofString "aabb", 0, { chaining := false }⟩ :=
  ⟨Graph.build_nested, Graph.nonterminal?_nested, by decide +kernel, by decide +kernel,
    parse_chaining_alike Graph.build_nested Graph.nonterminal?_nested "aabb" {}⟩

end GeneralParser
