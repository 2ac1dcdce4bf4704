import GeneralParser.Proofs.Recognition
import GeneralParser.Proofs.Renumbering

/-!
# Lookahead makes no difference

With lookahead fewer alternatives are entered, so fewer calls are made and the forest has fewer
nodes. All that is missing is dead: a node that is made with lookahead has the same packed nodes
below it as without. So whether a text is parsed, and the forest below the root, do not depend on
lookahead.
-/

namespace GeneralParser

section

variable [PatternEngine]

open Slots (role? head? Leads Path Starts)

/-! ### Facts without lookahead -/

namespace Setting

variable {S : Setting}

/-- The same setting, but without lookahead. -/
def blind (S : Setting) : Setting := { S with lookahead := false }

lemma WellBuilt.blind (hS : S.WellBuilt) : S.blind.WellBuilt :=
  ⟨⟨⟨hS.graph, hS.text, hS.start⟩, hS.wired⟩, hS.summarised, hS.readable⟩

lemma blind_admits {f : SlotId} {i : Nat} : S.blind.Admits f i := by
  intro h
  cases h

/-- Without lookahead all is found out that is found out with it, but for the obstacles. -/
theorem Derivable.blind {F : Fact} (h : S.Derivable F) (hF : ∀ o, F ≠ .obstacle o) :
    S.blind.Derivable F := by
  induction h with
  | root => exact .root
  | seed => exact .seed
  | enter _ hf _ ih => exact .enter (ih (by simp)) hf blind_admits
  | scan _ hl hs ih => exact .scan (ih (by simp)) hl hs
  | call _ hl hn ih => exact .call (ih (by simp)) hl hn
  | edge _ hl hn ih => exact .edge (ih (by simp)) hl hn
  | resume _ _ ih ih' => exact .resume (ih (by simp)) (ih' (by simp))
  | arrive _ ih => exact .arrive (ih (by simp))
  | part _ ih => exact .part (ih (by simp))
  | joined _ hm ih => exact .joined (ih (by simp)) hm
  | packed _ hm ih => exact .packed (ih (by simp)) hm
  | empty _ he ih => exact .empty (ih (by simp)) he
  | epsilon _ he ih => exact .epsilon (ih (by simp)) he
  | emptyPacked _ he ih => exact .emptyPacked (ih (by simp)) he
  | complete _ he ih => exact .complete (ih (by simp)) he
  | refuse | mismatch | early => exact absurd rfl (hF _)

lemma Reads.blind {slot f : SlotId} {site : CallSite} {i : Nat} {xs : List SlotId}
    (h : S.Reads slot site i f xs) : S.blind.Reads slot site i f xs :=
  ⟨h.call.blind (by simp), h.starts, blind_admits, h.path, h.derives⟩

/-- A rule that is read to its end in a call that is made with lookahead, is read so too. -/
lemma Reads.sighted (hS : S.WellBuilt) {e f a : SlotId} {site : CallSite} {i l : Nat}
    {xs : List SlotId} (h : S.blind.Reads e site i f xs)
    (he : role? S.graph.slots e = some (.done a l)) (hcall : S.Derivable (.call site)) :
    S.Reads e site i f xs := by
  refine ⟨hcall, h.starts, ?_, h.path, h.derives⟩
  intro _
  exact Graph.admits_of_derives hS.graph hS.summarised hS.readable h.derives h.path he

/-- Below a node that is made with lookahead, nothing is missing. -/
theorem Derivable.packed_of_blind {m n : Node} {slot : SlotId} {k : Nat} {o : Option Node}
    (hm : S.Derivable (.node m)) (hS : S.WellBuilt)
    (h : S.blind.Derivable (.packed m slot k o n)) : S.Derivable (.packed m slot k o n) := by
  rcases (packed_iff hS.blind).mp h with ⟨site, j, f, xs, b, x, hs, rfl, rfl, hj⟩ |
    ⟨site, a, l, hr, he, rfl, rfl, rfl⟩
  · -- the alternative is entered in the same call with lookahead
    have hentered : S.Derivable (.call site) ∧ S.Admits f site.index := by
      rcases joined?_cases hj with ⟨a, l, he, rfl⟩ | rfl
      · obtain ⟨rfl, -⟩ := hs.concat.derives_head hS.blind.toWired he
        have hcall := ((node_nonterminal_iff hS).mp hm).1
        exact ⟨hcall, (hs.concat.sighted hS he hcall).admits⟩
      · obtain ⟨-, site', f', ys, hi, hr, -⟩ := node_intermediate hS hm
        obtain ⟨hslot, rfl, -⟩ := hs.concat.unique hS.blind.toWired hr.blind
        have hsite : site = site' := by
          cases site
          cases site'
          simp_all
        exact hsite ▸ ⟨hr.call, hr.admits⟩
    have hr : S.Reads b site k f xs :=
      ⟨hentered.1, hs.reads.starts, hentered.2, hs.reads.path, hs.reads.derives⟩
    exact (packed_iff hS).mpr (Or.inl ⟨site, j, f, xs, b, x, ⟨hr, hs.leads, hs.last⟩, rfl, rfl, hj⟩)
  · obtain ⟨rfl, -⟩ := hr.derives_head hS.blind.toWired he
    obtain rfl := hr.eq_index
    have hcall := ((node_nonterminal_iff hS).mp hm).1
    exact (packed_iff hS).mpr
      (Or.inr ⟨site, _, l, hr.sighted hS he hcall, he, rfl, rfl, rfl⟩)

end Setting

/-! ### Forests without lookahead -/

lemma Forest.Sound.blind {S : Setting} {f : Forest} (hf : f.Sound S) : f.Sound S.blind := by
  refine ⟨hf.wellFormed, fun hi hn => (hf.node hi hn).blind (by simp), ?_⟩
  intro i q hq
  obtain ⟨m, slot, k, o, n, l, r, hi, hqn, hparts, hl, hr, hd⟩ := hf.packed hq
  exact ⟨m, slot, k, o, n, l, r, hi, hqn, hparts, hl, hr, hd.blind (by simp)⟩

namespace State

variable {S : Setting} {s t : State}

/-- A packed node that is a fact is stored below its parent. -/
lemma Saturated.exists_packed (hS : S.WellBuilt) (ht : t.Sound S) (hsat : t.Saturated S)
    {j : NodeId} {m n : Node} {slot : SlotId} {k : Nat} {o : Option Node}
    (hj : t.forest.node? j = some m) (hm : m.isPacked = false)
    (hd : S.Derivable (.packed m slot k o n)) :
    ∃ r ∈ t.forest.packedUnder j, t.forest.node? r = some (.packed slot k) := by
  obtain ⟨v, r, -, -, hv, hr, hrn, -⟩ := hsat.knows ht hS.toValid hS.functional hd
  obtain rfl := ht.forest.wellFormed.unique hv hj hm
  exact ⟨r, hr, hrn⟩

/-- Twins have the same packed nodes below them, with lookahead and without. -/
lemma Saturated.exists_child (hS : S.WellBuilt) (hs : s.Sound S) (hsat : s.Saturated S)
    (ht : t.Sound S.blind) (hsat' : t.Saturated S.blind) {i j : NodeId}
    (h : Forest.Twin s.forest t.forest i j) :
    (∀ {c}, c ∈ s.forest.children i →
      ∃ d ∈ t.forest.children j, Forest.Twin s.forest t.forest c d) ∧
    ∀ {d}, d ∈ t.forest.children j →
      ∃ c ∈ s.forest.children i, Forest.Twin s.forest t.forest c d := by
  have hS' := hS.blind
  have hfs := hs.forest.blind
  constructor
  · intro c hc
    apply h.exists_child hS'.toValid hS'.functional hfs ht.forest ?_ hc
    intro q hq
    obtain ⟨m, slot, k, o, n, hi, hm, hqn, hd⟩ := hs.forest.derivable_packed hq
    have hj := h.node_eq.trans hi
    obtain ⟨r, hr, hrn⟩ := hsat'.exists_packed hS' ht hj hm (hd.blind (by simp))
    exact ⟨r, hr, .packed hi hj hq hr hqn hrn⟩
  · have hpacked {r : NodeId} (hr : r ∈ t.forest.packedUnder j) :
        ∃ q ∈ s.forest.packedUnder i, Forest.Twin t.forest s.forest r q := by
      obtain ⟨m, slot, k, o, n, hj, hm, hrn, hd⟩ := ht.forest.derivable_packed hr
      have hi := h.symm.node_eq.trans hj
      have hd' := (hs.forest.node hi hm).packed_of_blind hS hd
      obtain ⟨q, hq, hqn⟩ := hsat.exists_packed hS hs hi hm hd'
      exact ⟨q, hq, .packed hj hi hr hq hrn hqn⟩
    intro d hd
    obtain ⟨c, hc, hdc⟩ := h.symm.exists_child hS'.toValid hS'.functional ht.forest hfs hpacked hd
    exact ⟨c, hc, hdc.symm⟩

/-- The forests below twins are the same up to numbering, with lookahead and without. -/
theorem Saturated.exists_renumbers_reachable (hS : S.WellBuilt) (hs : s.Sound S)
    (hsat : s.Saturated S) (ht : t.Sound S.blind) (hsat' : t.Saturated S.blind)
    {root root' : NodeId} {n : Node} (hroot : s.forest.node? root = some n)
    (hroot' : t.forest.node? root' = some n) (hn : n.isPacked = false) :
    ∃ σ, s.forest.Renumbers t.forest σ {i | i ∈ s.forest.reachable root}
      {j | j ∈ t.forest.reachable root'} ∧ σ root = root' := by
  have htwin : Forest.Twin s.forest t.forest root root' := .node hroot hroot' hn
  have hpaired := Forest.Paired.of_roots htwin
    (fun h hc => (hsat.exists_child hS hs ht hsat' h).1 hc)
    (fun h hd => (hsat.exists_child hS hs ht hsat' h).2 hd)
  obtain ⟨σ, hσ, heq⟩ := hpaired.exists_renumbers hS.blind.toValid hS.blind.functional
    hs.forest.blind ht.forest
  refine ⟨σ, ?_, heq root root' .refl htwin⟩
  simpa only [hs.forest.mem_reachable_iff (Forest.lt_size_of_node? hroot),
    ht.forest.mem_reachable_iff (Forest.lt_size_of_node? hroot')] using hσ

end State

/-! ### Results -/

/-- Two results hold the same parses: the forests below their roots are equal up to numbering, or
neither text is parsed. -/
inductive SameParses : Except Failure Success → Except Failure Success → Prop
  | parsed {r r' : Success} {σ : NodeId → NodeId} : r.forest.Renumbers r'.forest σ
      {i | i ∈ r.forest.reachable r.root} {j | j ∈ r'.forest.reachable r'.root} →
    σ r.root = r'.root → SameParses (.ok r) (.ok r')
  | rejected (o o' : Obstacle) :
    SameParses (.error (.rejected o)) (.error (.rejected o'))

/-- With lookahead and without, the same parses are found. -/
theorem Problem.Ends.sameParses {p p' : Problem} {r r' : Except Failure Success}
    (hS : p.setting.WellBuilt) (hset : p'.setting = p.setting.blind)
    (hmax : p.config.maxDescriptors = none) (hmax' : p'.config.maxDescriptors = none)
    (h : Ends p r) (h' : Ends p' r') : SameParses r r' := by
  have hS' : p'.setting.WellBuilt := hset ▸ hS.blind
  have hstart : p'.start = p.start := congrArg Setting.start hset
  have htext : p'.text = p.text := congrArg Setting.text hset
  -- what is derived does not depend on lookahead
  have hderives : p'.setting.Derives [p'.start] 0 p'.text.length ↔
      p.setting.Derives [p.start] 0 p.text.length := by
    rw [hset, hstart, htext]
    rfl
  cases h with
  | parsed h hroot =>
    cases h' with
    | parsed h' hroot' =>
      rw [hstart, htext] at hroot'
      obtain ⟨σ, hσ, heq⟩ := h.saturated.exists_renumbers_reachable hS (h.sound hS)
        (hset ▸ h'.sound hS') (hset ▸ h'.saturated) hroot hroot' rfl
      exact .parsed hσ heq
    | rejected h' hno => exact absurd ((h.root_iff hS).mp ⟨_, hroot⟩) (hderives.not.mp hno)
    | overLimit hlimit =>
      rw [hmax'] at hlimit
      cases hlimit
  | rejected h hno =>
    cases h' with
    | parsed h' hroot' => exact absurd ((h'.root_iff hS').mp ⟨_, hroot'⟩) (hderives.not.mpr hno)
    | rejected => exact .rejected _ _
    | overLimit hlimit =>
      rw [hmax'] at hlimit
      cases hlimit
  | overLimit hlimit =>
    rw [hmax] at hlimit
    cases hlimit

/-- Without a limit, lookahead changes neither whether a text is parsed nor how. -/
theorem parse_lookahead_sameParses {share : Bool} {rules : List (String × List Symbol)}
    {g : Graph} (hbuild : (Rules.ofList share rules).build = .ok g) {start : String} {id : SlotId}
    (hstart : g.nonterminal? start = some id) (text : String) (config : Config)
    (hconfig : config.maxDescriptors = none) :
    SameParses (parse g (.ofString text) start { config with lookahead := true })
      (parse g (.ofString text) start { config with lookahead := false }) := by
  have hg := Graph.spells_of_build hbuild
  obtain ⟨hwell, h⟩ := hg.parse_ends hstart text { config with lookahead := true }
  obtain ⟨-, h'⟩ := hg.parse_ends hstart text { config with lookahead := false }
  exact h.sameParses hwell rfl hconfig hconfig h'

end

/-- Nested pairs of letters are parsed the same in both ways, although behind the last `a` lookahead
rules out the alternative for a further pair, so that there is one descriptor less. -/
theorem parse_nested_sameParses :
    (Rules.ofList false Rules.nested).build = .ok Graph.nested ∧
    Graph.nested.nonterminal? "S" = some 0 ∧ Config.maxDescriptors {} = none ∧
    Graph.nested.admits (.ofString "aabb") 1 2 = .ok false ∧
    (parse Graph.nested (.ofString "aabb") "S" { lookahead := true }).toOption.map
      (·.statistics.descriptors) = some 13 ∧
    (parse Graph.nested (.ofString "aabb") "S" { lookahead := false }).toOption.map
      (·.statistics.descriptors) = some 14 ∧
    SameParses (parse Graph.nested (.ofString "aabb") "S" { lookahead := true })
      (parse Graph.nested (.ofString "aabb") "S" { lookahead := false }) :=
  ⟨Graph.build_nested, Graph.nonterminal?_nested, rfl, by decide +kernel, by decide +kernel,
    by decide +kernel,
    parse_lookahead_sameParses Graph.build_nested Graph.nonterminal?_nested "aabb" {} rfl⟩

end GeneralParser
