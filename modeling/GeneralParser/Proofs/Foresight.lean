import GeneralParser.Proofs.Engine.Obstacle
import GeneralParser.Proofs.Prediction
import GeneralParser.Proofs.Transparency

/-!
# Rejections without lookahead

Where lookahead rules out an alternative, it takes note of an obstacle. Without lookahead the
alternative is tried, and since none of the terminals with which it can start matches, parsing does
not get any further in it. So nothing new is met beyond, and there is an obstacle on the way to the
first of these terminals. But there may be no such terminal, if all that the alternative leads to is
a recursion without end: then nothing is taken note of, and what is reported is an obstacle that was
met before.
-/

namespace GeneralParser

section

variable [PatternEngine]

open Slots (role? head? Leads Path Starts Nullable First)

/-- A position is stuck if what comes after it neither can be empty nor starts with any terminal. -/
def Graph.Stuck (g : Graph) (slot : SlotId) : Prop :=
  ∃ b, g.slots[slot]? = some (.body b) ∧ b.nullable = false ∧ ∀ y, ¬ y ∈ b.first

/-- A symbol is no position. -/
lemma Graph.Valid.head?_of_leads {g : Graph} (hg : g.Valid) {b x d : SlotId}
    (hl : Leads g.slots b x d) : head? g.slots x = none :=
  Slots.head?_eq_none (hg.leads_symbol hl)

lemma Graph.Valid.not_leads_position {g : Graph} (hg : g.Valid) {b x d b' d' : SlotId}
    (hl : Leads g.slots b x d) : ¬ Leads g.slots b' b d' := by
  intro hl'
  obtain ⟨s, hs, -⟩ := hl
  cases (hg.head?_of_leads hl').symm.trans (Slots.head?_body hs)

namespace Setting

variable {S : Setting} {i : Nat}

/-! ### Where nothing can start -/

/-- None of the terminals with which slot `id` can start matches at offset `i`. -/
def Barred (S : Setting) (id : SlotId) (i : Nat) : Prop :=
  ∀ y, First S.graph.slots id y → ∀ j, ¬ (S.graph.spans S.text).scan y i j

namespace Barred

lemma symbol {b x d : SlotId} (h : S.Barred b i) (hl : Leads S.graph.slots b x d) :
    S.Barred x i :=
  fun y hy => h y (.symbol hl hy)

lemma dest {b x d : SlotId} (h : S.Barred b i) (hl : Leads S.graph.slots b x d)
    (hx : Nullable S.graph.slots x) : S.Barred d i :=
  fun y hy => h y (.dest hl hx hy)

lemma start {a f : SlotId} (h : S.Barred a i) (hf : Starts S.graph.slots a f) : S.Barred f i :=
  fun y hy => h y (.nonterminal hf hy)

/-- Only the empty stretch can be derived there. -/
lemma eq_of_derives {x : SlotId} {j : Nat} (h : S.Barred x i) (hd : S.Derives [x] i j) :
    j = i ∧ Nullable S.graph.slots x := by
  rcases SpanGrammar.derives_singleton_iff.mp hd with hscan | ⟨xs, ⟨f, e, a, k, hf, hp, he⟩, hbody⟩
  · obtain ⟨τ, -, hτ, -⟩ := id hscan
    exact absurd hscan (h x (.terminal hτ) j)
  · rcases Graph.first_of_derives hbody hp he with ⟨hj, hn⟩ | ⟨y, k, hy, hscan⟩
    · exact ⟨hj, .nonterminal hf hn⟩
    · exact absurd hscan (h y (.nonterminal hf hy) k)

end Barred

/-- What lookahead rules out is barred. -/
lemma barred_of_ruledOut (hS : S.WellBuilt) {a f : SlotId} (hf : Starts S.graph.slots a f)
    (hadm : S.graph.admits S.text f i = .ok false) : S.Barred f i := by
  obtain ⟨b, hb⟩ := Graph.exists_body_of_admits_eq_false (hS.wired.starts_head hf) hadm
  obtain ⟨-, hfirst⟩ := Graph.matchAt_of_admits hb hadm
  intro y hy j
  exact Graph.not_scan_of_matchAt (hfirst y (((hS.summarised.body hb).2 y).mpr hy))

/-! ### Obstacles without lookahead -/

/-- Slot `id` is barred at offset `i`, and there is an obstacle at that offset or beyond. -/
structure Shut (S : Setting) (id : SlotId) (i : Nat) : Prop where
  barred : S.Barred id i
  blocked : S.Blocked i

end Setting

/-- The same problem, but without lookahead. -/
def Problem.blind (p : Problem) : Problem :=
  { p with config := { p.config with lookahead := false } }

/-- A prediction that is made without lookahead is a fact with lookahead, or what it is about is
shut. -/
def Prediction.Followed (S : Setting) : Prediction → Prop
  | .call site => S.Derivable (.call site) ∨ S.Shut site.slot site.index
  | .item slot site i => (∃ o, S.Derivable (.item slot site i o)) ∨ S.Shut slot i

section

variable {rules : List (String × List Symbol)} {p : Problem} (hg : p.graph.Spells rules)
  (hS : p.setting.WellBuilt)
include hg hS

/-- Parsing without lookahead goes on where it goes on with lookahead, or stays where all is
shut. -/
theorem Predicted.followed {P : Prediction} (h : Predicted rules p.blind P) :
    P.Followed p.setting := by
  induction h with
  | start => exact Or.inl .root
  | @enter site f _ hf _ ih =>
    rcases ih with hcall | hshut
    · rcases Setting.admits_or_ruledOut (i := site.index) hS hf with hadm | ⟨hlook, hadm⟩
      · exact Or.inl ⟨none, .enter hcall hf hadm⟩
      · obtain ⟨b, hb⟩ := Graph.exists_body_of_admits_eq_false (hS.wired.starts_head hf) hadm
        exact Or.inr ⟨Setting.barred_of_ruledOut hS hf hadm,
          _, .refuse hcall hf hlook hadm hb, Nat.le_refl _⟩
    · exact Or.inr ⟨hshut.barred.start hf, hshut.blocked⟩
  | scan _ hl hτ hm ih =>
    rcases ih with ⟨o, hitem⟩ | hshut
    · exact Or.inl ⟨_, .arrive (.scan hitem hl ⟨_, _, hτ, hm, rfl⟩)⟩
    · exact absurd ⟨_, _, hτ, hm, rfl⟩ (hshut.barred _ (.symbol hl (.terminal hτ)) _)
  | call _ hl hx ih =>
    rcases ih with ⟨o, hitem⟩ | hshut
    · exact Or.inl (.call hitem hl hx)
    · exact Or.inr ⟨hshut.barred.symbol hl, hshut.blocked⟩
  | @pass b x d site i j A _ hl hx hd ih =>
    have hd : p.setting.Derives [x] i j := (hg.derives_nonterminal_iff hx).mpr hd
    rcases ih with ⟨o, hitem⟩ | hshut
    · exact Or.inl (hitem.advance hS hd (Slots.path_singleton_iff.mpr hl))
    · -- nothing but the empty stretch is derived here, so what follows is shut at the same offset
      obtain ⟨rfl, hnull⟩ := (hshut.barred.symbol hl).eq_of_derives hd
      exact Or.inr ⟨hshut.barred.dest hl hnull, hshut.blocked⟩

lemma Setting.Derivable.followed {slot : SlotId} {site : CallSite} {i : Nat} {o : Option Node}
    (h : p.setting.blind.Derivable (.item slot site i o)) :
    (Prediction.item slot site i).Followed p.setting := by
  rcases (Derivable.foretold (p := p.blind) hg hS.blind h) with hpred | ⟨rfl, rfl, rfl⟩
  · exact hpred.followed hg hS
  · exact Or.inl ⟨none, .seed⟩

/-- With lookahead there is an obstacle wherever there is one without it, or beyond. -/
theorem Setting.Derivable.blocked_of_blind {o : Obstacle}
    (h : p.setting.blind.Derivable (.obstacle o)) : p.setting.Blocked o.index := by
  cases h with
  | refuse _ _ hlook _ _ => cases hlook
  | mismatch hitem hl hτ hm =>
    rcases hitem.followed hg hS with ⟨o', hitem'⟩ | hshut
    · exact ⟨_, .mismatch hitem' hl hτ hm, Nat.le_refl _⟩
    · exact hshut.blocked
  | early hitem he hlt =>
    rcases hitem.followed hg hS with ⟨o', hitem'⟩ | hshut
    · exact ⟨_, .early hitem' he hlt, Nat.le_refl _⟩
    · exact hshut.blocked

end

/-! ### Obstacles with lookahead -/

namespace Setting

variable {S : Setting} {i : Nat}

/-- What comes after slot `id`, or the symbol in it, is passed without leaving offset `i`. -/
structure Passed (S : Setting) (i : Nat) (id : SlotId) : Prop where
  position {a : SlotId} {site : CallSite} {o : Option Node} : head? S.graph.slots id = some a →
    S.Derivable (.item id site i o) →
    ∃ e k o', role? S.graph.slots e = some (.done a k) ∧ S.Derivable (.item e site i o')
  symbol {b d : SlotId} {site : CallSite} {o : Option Node} : S.Derivable (.item b site i o) →
    Leads S.graph.slots b id d → ∃ o', S.Derivable (.item d site i o')

/-- Parsing never comes to slot `id` at offset `i`, nor to the symbol in it. -/
structure Avoided (S : Setting) (i : Nat) (id : SlotId) : Prop where
  position {a : SlotId} {site : CallSite} {o : Option Node} : head? S.graph.slots id = some a →
    ¬ S.Derivable (.item id site i o)
  symbol {b d : SlotId} {site : CallSite} {o : Option Node} : S.Derivable (.item b site i o) →
    ¬ Leads S.graph.slots b id d

section

variable (hS : S.WellBuilt) (hlook : S.lookahead = false) (hno : ¬ S.Blocked i)
include hS hlook hno

/-- Where no obstacle is met, what may be empty is passed if it is barred. -/
lemma Barred.passed {id : SlotId} (h : S.Barred id i) (hn : Nullable S.graph.slots id) :
    S.Passed i id := by
  induction hn with
  | terminal hτ _ =>
    refine ⟨fun ha => by simp [Slots.head?_eq_none (Or.inl ⟨_, hτ⟩)] at ha, fun hitem hl => ?_⟩
    rcases hitem.scan_or_blocked hS hl hτ with ⟨j, hscan, -⟩ | hblocked
    · exact absurd hscan (h _ (.terminal hτ) j)
    · exact absurd hblocked hno
  | @done e a k he =>
    have hhead := Slots.head?_of_role_done he
    refine ⟨fun ha hitem => ?_, fun _ hl => ?_⟩
    · obtain rfl := Option.some.inj (hhead.symm.trans ha)
      exact ⟨e, k, _, he, hitem⟩
    · cases (hS.graph.head?_of_leads hl).symm.trans hhead
  | @nonterminal a f hf _ ih =>
    obtain ⟨A, hA⟩ := hS.wired.head_nonterminal (hS.wired.starts_head hf)
    refine ⟨fun ha => by simp [Slots.head?_eq_none (Or.inr ⟨A, hA⟩)] at ha, fun hitem hl => ?_⟩
    have hcall := Derivable.call hitem hl hA
    have hfirst := Derivable.enter hcall hf fun hl => by simp [hlook] at hl
    obtain ⟨e, k, o', he, hend⟩ := (ih (h.start hf)).position (hS.wired.starts_head hf) hfirst
    exact hitem.returned hl hA hend he
  | @body b x d hl hx _ ihx ihd =>
    refine ⟨fun ha hitem => ?_, fun _ hl' => absurd hl' (hS.graph.not_leads_position hl)⟩
    obtain ⟨o', hnext⟩ := (ihx (h.symbol hl)).symbol hitem hl
    exact (ihd (h.dest hl hx)).position ((hS.wired.leads_head hl).trans ha) hnext

/-- Where no obstacle is met, parsing does not come to what is barred but starts with some
terminal. -/
lemma Barred.avoided {id y : SlotId} (h : S.Barred id i) (hy : First S.graph.slots id y) :
    S.Avoided i id := by
  induction hy with
  | terminal hτ =>
    refine ⟨fun ha => by simp [Slots.head?_eq_none (Or.inl ⟨_, hτ⟩)] at ha, fun hitem hl => ?_⟩
    rcases hitem.scan_or_blocked hS hl hτ with ⟨j, hscan, -⟩ | hblocked
    · exact h _ (.terminal hτ) j hscan
    · exact hno hblocked
  | @nonterminal a f _ hf _ ih =>
    obtain ⟨A, hA⟩ := hS.wired.head_nonterminal (hS.wired.starts_head hf)
    refine ⟨fun ha => by simp [Slots.head?_eq_none (Or.inr ⟨A, hA⟩)] at ha, fun hitem hl => ?_⟩
    exact (ih (h.start hf)).position (hS.wired.starts_head hf)
      (.enter (.call hitem hl hA) hf fun hl => by simp [hlook] at hl)
  | symbol hl _ ih =>
    exact ⟨fun _ hitem => (ih (h.symbol hl)).symbol hitem hl,
      fun _ => hS.graph.not_leads_position hl⟩
  | dest hl hx _ ih =>
    -- the terminal comes behind a symbol that may be empty, and so is passed
    refine ⟨fun ha hitem => ?_, fun _ => hS.graph.not_leads_position hl⟩
    obtain ⟨o', hnext⟩ := ((h.symbol hl).passed hS hlook hno hx).symbol hitem hl
    exact (ih (h.dest hl hx)).position ((hS.wired.leads_head hl).trans ha) hnext

end

/-- What is ruled out can start with some terminal, unless what is reported for it is stuck. -/
lemma exists_first_of_ruledOut (hS : S.WellBuilt) {f : SlotId} {b : BodySlot}
    (hb : S.graph.slots[f]? = some (.body b)) (hnull : b.nullable = false)
    (hstuck : ¬ S.graph.Stuck ((S.graph.expectedTerminal? b).getD f)) :
    ∃ y, First S.graph.slots f y := by
  cases hx : S.graph.expectedTerminal? b with
  | some x =>
    obtain ⟨⟨d, ht⟩, τ, hτ⟩ := Graph.expectedTerminal?_eq_some hx
    have hl : Leads S.graph.slots f x d := ⟨b, hb, by simp [ht]⟩
    exact ⟨x, .symbol hl (.terminal hτ)⟩
  | none =>
    by_contra hnone
    refine hstuck ⟨b, by simpa [hx] using hb, hnull, fun y hy => hnone ⟨y, ?_⟩⟩
    exact ((hS.summarised.body hb).2 y).mp hy

/-- Without lookahead there is an obstacle wherever there is one with it, or beyond, unless that one
is at a position that is stuck. -/
theorem Derivable.blind_blocked (hS : S.WellBuilt) {o : Obstacle} (h : S.Derivable (.obstacle o))
    (hstuck : ¬ S.graph.Stuck o.slot) : S.blind.Blocked o.index := by
  cases h with
  | mismatch hitem hl hτ hm =>
    exact ⟨_, .mismatch (hitem.blind (by simp)) hl hτ hm, Nat.le_refl _⟩
  | early hitem he hlt => exact ⟨_, .early (hitem.blind (by simp)) he hlt, Nat.le_refl _⟩
  | @refuse site f b hcall hf _ hadm hb =>
    obtain ⟨hnull, -⟩ := Graph.matchAt_of_admits hb hadm
    obtain ⟨y, hy⟩ := exists_first_of_ruledOut hS hb hnull hstuck
    have hitem : S.blind.Derivable (.item f site site.index none) :=
      .enter (hcall.blind (by simp)) hf blind_admits
    by_contra hno
    have hbarred : S.blind.Barred f site.index := barred_of_ruledOut hS hf hadm
    exact (hbarred.avoided hS.blind rfl hno hy).position (hS.wired.starts_head hf) hitem

end Setting

/-! ### Reports -/

/-- Two results of a parse, with lookahead and without, stop at one offset. If the position that is
reported with lookahead is stuck, it may be that less is reported without. -/
inductive StopAlike (g : Graph) : Except Failure Success → Except Failure Success → Prop
  | parsed (r r' : Success) : StopAlike g (.ok r) (.ok r')
  | rejected {o o' : Obstacle} : o'.index ≤ o.index → (¬ g.Stuck o.slot → o'.index = o.index) →
    StopAlike g (.error (.rejected o)) (.error (.rejected o'))

namespace State.Final

variable {p : Problem} {s : State} (hS : p.setting.Wired) (h : s.Final p)
include hS h

lemma le_obstacle_of_blocked {i : Nat} (hi : p.setting.Blocked i) : i ≤ (s.obstacle p).index := by
  obtain ⟨o, ho, hle⟩ := h.covered_of_blocked hS hi
  simpa [State.obstacle, ho] using hle

lemma obstacle_cases : (s.obstacle p).index = 0 ∨
    p.setting.Derivable (.obstacle (s.obstacle p)) := by
  rw [State.obstacle]
  cases ho : s.furthest with
  | none => exact Or.inl rfl
  | some o => exact Or.inr ((h.reachable.running hS.toValid).sound.furthest ho)

end State.Final

/-- With lookahead and without, the furthest obstacles are at one offset, unless the one with
lookahead is at a position that is stuck. -/
theorem State.Final.stopAlike {rules : List (String × List Symbol)} {p : Problem} {s s' : State}
    (hg : p.graph.Spells rules) (hS : p.setting.WellBuilt) (h : s.Final p) (h' : s'.Final p.blind) :
    StopAlike p.graph (.error (.rejected (s.obstacle p)))
      (.error (.rejected (s'.obstacle p.blind))) := by
  have hS' : p.blind.setting.Wired := hS.blind.toWired
  have hle : (s'.obstacle p.blind).index ≤ (s.obstacle p).index := by
    rcases h'.obstacle_cases hS' with hzero | ho'
    · omega
    · exact h.le_obstacle_of_blocked hS.toWired (ho'.blocked_of_blind hg hS)
  refine .rejected hle fun hstuck => Nat.le_antisymm hle ?_
  rcases h.obstacle_cases hS.toWired with hzero | ho
  · omega
  · exact h'.le_obstacle_of_blocked hS' (ho.blind_blocked hS hstuck)

/-- Without a limit, a text is rejected at the same offset with lookahead and without, unless the
position at which it is rejected with lookahead is stuck. -/
theorem parse_lookahead_stopAlike {share : Bool} {rules : List (String × List Symbol)}
    {g : Graph} (hbuild : (Rules.ofList share rules).build = .ok g) {start : String} {id : SlotId}
    (hstart : g.nonterminal? start = some id) (text : String) (config : Config)
    (hconfig : config.maxDescriptors = none) :
    StopAlike g (parse g (.ofString text) start { config with lookahead := true })
      (parse g (.ofString text) start { config with lookahead := false }) := by
  have hg := Graph.spells_of_build hbuild
  obtain ⟨hS, hends⟩ := hg.parse_ends hstart text { config with lookahead := true }
  obtain ⟨-, hends'⟩ := hg.parse_ends hstart text { config with lookahead := false }
  have hsame := hends.sameParses hS rfl hconfig hconfig hends'
  -- only two rejections are left to be compared
  generalize parse g (.ofString text) start { config with lookahead := true } = r at *
  generalize parse g (.ofString text) start { config with lookahead := false } = r' at *
  cases hsame with
  | parsed => exact .parsed _ _
  | rejected o o' =>
    cases hends with
    | rejected h _ =>
      cases hends' with
      | rejected h' _ => exact h.stopAlike hg hS h'

end

/-! ### A grammar that gets stuck -/

/-- Behind the letter there is a recursion without end. -/
def Rules.endless : List (String × List Symbol) :=
  [("S", [.terminal (.char 'a'), .nonterminal "X"]), ("S", [.terminal (.char 'b')]),
    ("X", [.nonterminal "X"])]

/-- The graph of the rules for a recursion without end. -/
def Graph.endless : Graph := ((Rules.ofList false Rules.endless).build.toOption).getD .empty

lemma Graph.build_endless : (Rules.ofList false Rules.endless).build = .ok Graph.endless := by
  decide +kernel

lemma Graph.nonterminal?_endless : Graph.endless.nonterminal? "S" = some 0 := by
  decide +kernel

/-- The letter is parsed, and without lookahead nothing is taken note of behind it. -/
theorem parse_endless_stops_earlier :
    (Rules.ofList false Rules.endless).build = .ok Graph.endless ∧
    Graph.endless.nonterminal? "S" = some 0 ∧
    parse Graph.endless (.ofString "a") "S" { lookahead := true } =
      .error (.rejected ⟨9, 1, ⟨1, 1⟩⟩) ∧
    parse Graph.endless (.ofString "a") "S" { lookahead := false } =
      .error (.rejected ⟨7, 0, ⟨0, 0⟩⟩) := by
  decide +kernel

/-- Behind the other letter, nothing gets stuck. -/
theorem parse_endless_stopAlike :
    (Rules.ofList false Rules.endless).build = .ok Graph.endless ∧
    Graph.endless.nonterminal? "S" = some 0 ∧ Config.maxDescriptors {} = none ∧
    StopAlike Graph.endless (parse Graph.endless (.ofString "bb") "S" { lookahead := true })
      (parse Graph.endless (.ofString "bb") "S" { lookahead := false }) :=
  ⟨Graph.build_endless, Graph.nonterminal?_endless, rfl,
    parse_lookahead_stopAlike Graph.build_endless Graph.nonterminal?_endless "bb" {} rfl⟩

end GeneralParser
