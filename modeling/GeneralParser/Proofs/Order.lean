import GeneralParser.Proofs.Engine.Count
import GeneralParser.Proofs.Recognition
import GeneralParser.Proofs.Renumbering

/-!
# The order of the steps

In which order descriptors are handed out, and whether the only way to go on is taken at once, makes
no difference to the result: the forest is the same up to the numbers of its nodes, and so are the
statistics, the offset of a rejection, and whether the limit is hit.
-/

namespace GeneralParser

section

variable [PatternEngine]

/-! ### Saturated states -/

namespace State

variable {S : Setting} {s t : State}

/-- A state that knows all facts has a twin of every node of another. -/
lemma Saturated.exists_twin (hS : S.Valid) (hfun : S.Functional) (hs : s.Sound S)
    (ht : t.Sound S) (hsat : t.Saturated S) {i : NodeId} (hi : i < s.forest.size) :
    ∃ j, j < t.forest.size ∧ Forest.Twin s.forest t.forest i j := by
  obtain ⟨n, hn⟩ := Forest.exists_node? hi
  cases hk : n.isPacked with
  | false =>
    obtain ⟨-, j, hj⟩ := hsat.knows ht hS hfun (hs.forest.node hn hk)
    exact ⟨j, Forest.lt_size_of_node? hj, .node hn hj hk⟩
  | true =>
    cases n with
    | packed slot k =>
      obtain ⟨v, hv⟩ := hs.forest.wellFormed.parent hn
      obtain ⟨m, x, y, o, n', l, r, hm, hq, -, -, -, hd⟩ := hs.forest.packed hv
      obtain ⟨rfl, rfl⟩ : slot = x ∧ k = y := by simpa using hn.symm.trans hq
      obtain ⟨v', q', -, -, hm', hv', hq', -⟩ := hsat.knows ht hS hfun hd
      exact ⟨q', Forest.lt_size_of_node? hq', .packed hm hm' hv hv' hn hq'⟩
    | terminal | epsilon | nonterminal | intermediate => cases hk

/-- Two states that know all facts have the same forest, up to numbering. -/
lemma Saturated.exists_renumbers (hS : S.Valid) (hfun : S.Functional) (hs : s.Sound S)
    (ht : t.Sound S) (hsat : s.Saturated S) (hsat' : t.Saturated S) :
    ∃ σ, s.forest.Renumbers t.forest σ {i | i < s.forest.size} {j | j < t.forest.size} ∧
      ∀ i j, i < s.forest.size → Forest.Twin s.forest t.forest i j → σ i = j := by
  have hpaired : Forest.Paired s.forest t.forest {i | i < s.forest.size}
      {j | j < t.forest.size} := by
    refine ⟨fun hi => hsat'.exists_twin hS hfun hs ht hi, ?_,
      fun _ hc => hs.forest.lt_size_of_mem_children hc,
      fun _ hc => ht.forest.lt_size_of_mem_children hc⟩
    intro j hj
    obtain ⟨i, hi, htw⟩ := hsat.exists_twin hS hfun ht hs hj
    exact ⟨i, hi, htw.symm⟩
  exact hpaired.exists_renumbers hS hfun hs.forest ht.forest

/-- Two states that know all facts have the same statistics. -/
lemma Saturated.statistics_eq (hS : S.Valid) (hfun : S.Functional) (hs : s.Sound S)
    (ht : t.Sound S) (hsat : s.Saturated S) (hsat' : t.Saturated S) :
    s.statistics = t.statistics := by
  obtain ⟨σ, hσ, -⟩ := hsat.exists_renumbers hS hfun hs ht hsat'
  have hitems := Nat.le_antisymm (agenda_size_le hS hfun hs ht hsat')
    (agenda_size_le hS hfun ht hs hsat)
  have hcalls := Nat.le_antisymm (calls_size_le hS hfun hs ht hsat')
    (calls_size_le hS hfun ht hs hsat)
  have hedges := Nat.le_antisymm (edgeCount_le hS hfun hs ht hsat')
    (edgeCount_le hS hfun ht hs hsat)
  simp only [statistics, hitems, hcalls, hedges, hσ.counts_eq]

/-- A state that knows all facts knows of an obstacle at least as far as that of any other. -/
lemma Saturated.furthest_le (hS : S.Valid) (hfun : S.Functional) (hs : s.Sound S)
    (ht : t.Sound S) (hsat : t.Saturated S) {p p' : Problem} :
    (s.obstacle p).index ≤ (t.obstacle p').index := by
  simp only [obstacle]
  cases ho : s.furthest with
  | none => exact Nat.zero_le _
  | some o =>
    obtain ⟨o', ho', hle⟩ := hsat.knows ht hS hfun (hs.furthest ho)
    rw [ho']
    exact hle

end State

/-! ### Results -/

/-- Two results say the same: the forests are equal up to numbering, and the statistics are; or both
texts are rejected at the same offset; or both parses hit the limit. -/
inductive Alike : Except Failure Success → Except Failure Success → Prop
  | parsed {r r' : Success} {σ : NodeId → NodeId} : r.forest.Renumbers r'.forest σ
      {i | i < r.forest.size} {j | j < r'.forest.size} → σ r.root = r'.root →
    r.statistics = r'.statistics → Alike (.ok r) (.ok r')
  | rejected {o o' : Obstacle} : o.index = o'.index →
    Alike (.error (.rejected o)) (.error (.rejected o'))
  | overLimit (limit : Nat) : Alike (.error (.overLimit limit)) (.error (.overLimit limit))

namespace Problem.Ends

variable {p p' : Problem} {r r' : Except Failure Success}

/-- A parse that comes to an end does not hit the limit in any order. -/
lemma size_le_limit {s s' : State} (hS : p.setting.WellBuilt) (h : s.Final p)
    (hs' : s'.Sound p.setting) {limit : Nat} (hlimit : p.config.maxDescriptors = some limit) :
    s'.agenda.size ≤ limit := by
  apply Nat.le_trans _ ((h.running hS).within limit hlimit)
  exact State.agenda_size_le hS.toValid hS.functional hs' (h.sound hS) h.saturated

/-- The results of two parses in the same setting say the same. -/
theorem alike (hS : p.setting.WellBuilt) (hset : p'.setting = p.setting)
    (hmax : p'.config.maxDescriptors = p.config.maxDescriptors) (h : Ends p r) (h' : Ends p' r') :
    Alike r r' := by
  have hS' : p'.setting.WellBuilt := hset ▸ hS
  have hstart : p'.start = p.start := congrArg Setting.start hset
  have htext : p'.text = p.text := congrArg Setting.text hset
  cases h with
  | @parsed s root h hroot =>
    cases h' with
    | @parsed s' root' h' hroot' =>
      have hs' : s'.Sound p.setting := hset ▸ h'.sound hS'
      have hsat' : s'.Saturated p.setting := hset ▸ h'.saturated
      obtain ⟨σ, hσ, htwin⟩ := h.saturated.exists_renumbers hS.toValid hS.functional
        (h.sound hS) hs' hsat'
      rw [hstart, htext] at hroot'
      exact .parsed hσ
        (htwin root root' (Forest.lt_size_of_node? hroot) (.node hroot hroot' rfl))
        (h.saturated.statistics_eq hS.toValid hS.functional (h.sound hS) hs' hsat')
    | rejected h' hno =>
      rw [hset, hstart, htext] at hno
      exact absurd ((h.root_iff hS).mp ⟨root, hroot⟩) hno
    | @overLimit s' limit hlimit _ hs' hlt =>
      have hle := size_le_limit hS h (hset ▸ hs') (hmax ▸ hlimit)
      exact absurd hlt (Nat.not_lt.mpr hle)
  | @rejected s h hno =>
    cases h' with
    | parsed h' hroot' =>
      have hd := (h'.root_iff hS').mp ⟨_, hroot'⟩
      rw [hset, hstart, htext] at hd
      exact absurd hd hno
    | @rejected s' h' _ =>
      have hs' : s'.Sound p.setting := hset ▸ h'.sound hS'
      have hsat' : s'.Saturated p.setting := hset ▸ h'.saturated
      apply Alike.rejected
      exact Nat.le_antisymm
        (hsat'.furthest_le hS.toValid hS.functional (h.sound hS) hs')
        (h.saturated.furthest_le hS.toValid hS.functional hs' (h.sound hS))
    | @overLimit s' limit hlimit _ hs' hlt =>
      have hle := size_le_limit hS h (hset ▸ hs') (hmax ▸ hlimit)
      exact absurd hlt (Nat.not_lt.mpr hle)
  | @overLimit s limit hlimit _ hs hlt =>
    cases h' with
    | parsed h' _ | rejected h' _ =>
      have hle := size_le_limit hS' h' (hset.symm ▸ hs) (hmax ▸ hlimit)
      exact absurd hlt (Nat.not_lt.mpr hle)
    | @overLimit s' limit' hlimit' =>
      obtain rfl : limit = limit' := by
        rw [hmax, hlimit] at hlimit'
        exact Option.some.inj hlimit'
      exact .overLimit limit

end Problem.Ends

/-- Drain order does not change what a parse says. -/
theorem parse_order_alike {share : Bool} {rules : List (String × List Symbol)} {g : Graph}
    (hbuild : (Rules.ofList share rules).build = .ok g) {start : String} {id : SlotId}
    (hstart : g.nonterminal? start = some id) (text : String) (config : Config) :
    Alike (parse g (.ofString text) start { config with order := .newestFirst })
      (parse g (.ofString text) start { config with order := .oldestFirst }) := by
  have hg := Graph.spells_of_build hbuild
  obtain ⟨hwell, h⟩ := hg.parse_ends hstart text { config with order := .newestFirst }
  obtain ⟨-, h'⟩ := hg.parse_ends hstart text { config with order := .oldestFirst }
  refine h.alike hwell ?_ ?_ h'
  · rfl
  · rfl

end

/-- The small grammar is parsed alike in both orders. -/
theorem parse_letters_order_alike :
    (Rules.ofList true Rules.letters).build = .ok Graph.letters ∧
    Graph.letters.nonterminal? "S" = some 0 ∧
    Alike (parse Graph.letters (.ofString "aa") "S" { order := .newestFirst })
      (parse Graph.letters (.ofString "aa") "S" { order := .oldestFirst }) :=
  ⟨Graph.build_letters, Graph.nonterminal?_letters,
    parse_order_alike Graph.build_letters Graph.nonterminal?_letters "aa" {}⟩

end GeneralParser
