import GeneralParser.Proofs.Recognition

/-!
# Prediction

Which calls are made and which descriptors are seen does not depend on how a parse proceeds. A slot
is reached in a call at an offset if it can be predicted from what comes before: the alternatives of
a call are entered where it is made, and what a nonterminal derives is passed over in one step.
-/

namespace GeneralParser

section

variable [PatternEngine]

open Slots (role? head? Leads Path Starts)

/-- What may be predicted: that a call is made, or that a slot is reached in a call at an offset. -/
inductive Prediction where
  | call (site : CallSite)
  | item (slot : SlotId) (site : CallSite) (index : Nat)

/-- The valid predictions when parsing with the graph of `rules`. -/
inductive Predicted (rules : List (String × List Symbol)) (p : Problem) : Prediction → Prop
  | start : Predicted rules p (.call ⟨p.start, 0⟩)
  | enter {site : CallSite} {f : SlotId} : Predicted rules p (.call site) →
    Starts p.graph.slots site.slot f →
    (p.config.lookahead = true → p.graph.admits p.text f site.index = .ok true) →
    Predicted rules p (.item f site site.index)
  | scan {b x d : SlotId} {site : CallSite} {i n : Nat} {τ : Terminal} :
    Predicted rules p (.item b site i) → Leads p.graph.slots b x d →
    role? p.graph.slots x = some (.terminal τ) → τ.matchAt p.text i = .ok (some n) →
    Predicted rules p (.item d site (i + n))
  | call {b x d : SlotId} {site : CallSite} {i : Nat} {A : String} :
    Predicted rules p (.item b site i) → Leads p.graph.slots b x d →
    role? p.graph.slots x = some (.nonterminal A) → Predicted rules p (.call ⟨x, i⟩)
  | pass {b x d : SlotId} {site : CallSite} {i j : Nat} {A : String} :
    Predicted rules p (.item b site i) → Leads p.graph.slots b x d →
    role? p.graph.slots x = some (.nonterminal A) →
    (SpanGrammar.ofRules rules p.text).Derives [.nonterminal A] i j →
    Predicted rules p (.item d site j)

variable {rules : List (String × List Symbol)} {p : Problem}

/-! ### Facts are predicted -/

/-- What a fact says of the predictions. An edge says that parsing will go on behind the call,
wherever it ends. -/
def Fact.Foretold (rules : List (String × List Symbol)) (p : Problem) : Fact → Prop
  | .call site => Predicted rules p (.call site)
  | .item slot site i _ =>
    Predicted rules p (.item slot site i) ∨ (slot = p.start ∧ site = p.rootSite ∧ i = 0)
  | .edge callee r caller _ => ∀ j, p.setting.Derives [callee.slot] callee.index j →
    Predicted rules p (.item r caller j)
  | .arrival d site _ j _ _ => Predicted rules p (.item d site j)
  | .completion .. | .node _ | .packed .. | .obstacle _ => True

/-- Where a transition leads on from a slot, it is predicted that the slot is reached. -/
lemma predicted_of_leads (hS : p.setting.WellBuilt) {b x d : SlotId} {site : CallSite} {i : Nat}
    {o : Option Node} (h : (Fact.item b site i o).Foretold rules p)
    (hl : Leads p.graph.slots b x d) : Predicted rules p (.item b site i) := by
  apply h.resolve_right
  rintro ⟨rfl, -⟩
  exact hS.not_leads_start hl

/-- All facts are foretold. -/
theorem Setting.Derivable.foretold (hg : p.graph.Spells rules) (hS : p.setting.WellBuilt)
    {F : Fact} (h : p.setting.Derivable F) : F.Foretold rules p := by
  induction h with
  | refuse | mismatch | part | joined | packed | empty | epsilon | emptyPacked | complete
    | early => trivial
  | root => exact .start
  | seed => exact Or.inr ⟨rfl, rfl, rfl⟩
  | enter _ hf hadm ih => exact Or.inl (.enter ih hf hadm)
  | scan _ hl hscan ih =>
    obtain ⟨τ, n, hτ, hm, rfl⟩ := hscan
    exact .scan (predicted_of_leads hS ih hl) hl hτ hm
  | call _ hl hn ih => exact .call (predicted_of_leads hS ih hl) hl hn
  | edge _ hl hn ih =>
    intro j hd
    exact .pass (predicted_of_leads hS ih hl) hl hn ((hg.derives_nonterminal_iff hn).mp hd)
  | resume _ hc ih _ =>
    obtain ⟨-, hd⟩ := hc.means hS.toWired
    exact ih _ hd
  | arrive _ ih => exact Or.inl ih

/-! ### What is predicted is a fact -/

/-- What a prediction says of the facts. -/
def Prediction.Holds (S : Setting) : Prediction → Prop
  | .call site => S.Derivable (.call site)
  | .item slot site i => ∃ o, S.Derivable (.item slot site i o)

/-- All predictions come true. -/
theorem Predicted.holds (hg : p.graph.Spells rules) (hS : p.setting.WellBuilt)
    {P : Prediction} (h : Predicted rules p P) : P.Holds p.setting := by
  induction h with
  | start => exact .root
  | enter _ hf hadm ih => exact ⟨none, .enter ih hf hadm⟩
  | scan _ hl hτ hm ih =>
    obtain ⟨o, ho⟩ := ih
    exact ⟨_, .arrive (.scan ho hl ⟨_, _, hτ, hm, rfl⟩)⟩
  | call _ hl hn ih =>
    obtain ⟨o, ho⟩ := ih
    exact .call ho hl hn
  | @pass b x d site i j A _ hl hn hd ih =>
    obtain ⟨o, ho⟩ := ih
    have hx : p.setting.Derives [x] i j := (hg.derives_nonterminal_iff hn).mpr hd
    exact ho.advance hS hx (Slots.path_singleton_iff.mpr hl)

lemma predicted_call_iff (hg : p.graph.Spells rules) (hS : p.setting.WellBuilt)
    {site : CallSite} : Predicted rules p (.call site) ↔ p.setting.Derivable (.call site) :=
  ⟨fun h => h.holds hg hS, fun h => h.foretold hg hS⟩

/-- But for the first descriptor of all, parsing goes on just where it is predicted. -/
lemma predicted_item_iff (hg : p.graph.Spells rules) (hS : p.setting.WellBuilt) {slot : SlotId}
    {site : CallSite} {i : Nat} :
    (Predicted rules p (.item slot site i) ∨ (slot = p.start ∧ site = p.rootSite ∧ i = 0)) ↔
      ∃ o, p.setting.Derivable (.item slot site i o) := by
  constructor
  · rintro (h | ⟨rfl, rfl, rfl⟩)
    · exact h.holds hg hS
    · exact ⟨none, .seed⟩
  · rintro ⟨o, ho⟩
    exact ho.foretold hg hS

/-! ### What is explored -/

/-- The calls that were made and the descriptors that were seen are those that are predicted, and
the descriptor with which a parse starts. -/
structure State.Predictive (rules : List (String × List Symbol)) (p : Problem) (s : State) :
    Prop where
  call {site : CallSite} :
    (∃ c, s.calls.site? c = some site) ↔ Predicted rules p (.call site)
  call_unique {c c' : CallId} {site : CallSite} : s.calls.site? c = some site →
    s.calls.site? c' = some site → c = c'
  item {slot : SlotId} {c : CallId} {i : Nat} :
    (∃ l, s.agenda.seen[(⟨slot, c, i⟩ : Item)]? = some l) ↔ ∃ site, s.calls.site? c = some site ∧
      (Predicted rules p (.item slot site i) ∨ (slot = p.start ∧ site = ⟨p.start, 0⟩ ∧ i = 0))

lemma State.Final.predictive {s : State} (h : s.Final p) (hg : p.graph.Spells rules)
    (hS : p.setting.WellBuilt) : s.Predictive rules p := by
  have hs := h.sound hS
  refine ⟨(h.call_iff hS).trans (predicted_call_iff hg hS).symm, hs.calls.unique, ?_⟩
  intro slot c i
  constructor
  · rintro ⟨l, hl⟩
    obtain ⟨site, o, hc, -, hf⟩ := hs.item hl
    exact ⟨site, hc, (predicted_item_iff hg hS).mpr ⟨o, hf⟩⟩
  · rintro ⟨site, hc, hpred⟩
    obtain ⟨o, ho⟩ := (predicted_item_iff hg hS).mp hpred
    obtain ⟨c', l, hc', hl, -⟩ := (h.knows_iff hS (by simp)).mpr ho
    obtain rfl := hs.calls.unique hc hc'
    exact ⟨l, hl⟩

/-- A parse that does not hit the limit makes just the calls and sees just the descriptors that can
be predicted. -/
theorem explored_iff_predicted {share : Bool} {g : Graph}
    (hbuild : (Rules.ofList share rules).build = .ok g) {start : String} {id : SlotId}
    (hstart : g.nonterminal? start = some id) (text : String) (config : Config) :
    let p : Problem := ⟨g, .ofString text, id, config⟩
    (∃ s, p.run = (s, .ok ()) ∧ s.Predictive rules p) ∨
      ∃ s limit, config.maxDescriptors = some limit ∧ p.run = (s, .error (.overLimit limit)) := by
  intro p
  have hg := Graph.spells_of_build hbuild
  have hS := hg.setting_wellBuilt hstart text config
  rcases p.run_final hS with ⟨s, h⟩ | ⟨s, limit, hlimit, hrun, -⟩
  · exact Or.inl ⟨s, h.run, h.predictive hg hS⟩
  · exact Or.inr ⟨s, limit, hlimit, hrun⟩

end

/-- Left recursion and cycles make no difference. -/
theorem explored_iff_predicted_letters :
    (Rules.ofList true Rules.letters).build = .ok Graph.letters ∧
    Graph.letters.nonterminal? "S" = some 0 ∧
    Problem.letters.run.1.Predictive Rules.letters Problem.letters := by
  refine ⟨Graph.build_letters, Graph.nonterminal?_letters, ?_⟩
  rcases explored_iff_predicted Graph.build_letters Graph.nonterminal?_letters "aa" {} with
    ⟨s, hrun, h⟩ | ⟨s, limit, hlimit, -⟩
  · obtain rfl : Problem.letters.run.1 = s := congrArg Prod.fst hrun
    exact h
  · cases hlimit

end GeneralParser
