import GeneralParser.Proofs.Engine.Obstacle
import GeneralParser.Proofs.Exactness

/-!
# Reported obstacles are true

When a text is rejected, the obstacle that is reported says something true of the text: a terminal
that is expected where the text goes on differently, a position that lookahead rules out, or a text
that goes on behind what was parsed. If there was no obstacle at all, the report is that of the
start.
-/

namespace GeneralParser

section

variable [PatternEngine]

open Slots (role? head? Leads Path Starts)

/-! ### What a report says -/

/-- Within a call, the symbol in slot `x` is expected at offset `i`: in a rule of what is called it
may come next, and what stands before it derives the text from the call on. -/
def Graph.Expects (g : Graph) (rules : List (String × List Symbol)) (t : Text) (site : CallSite)
    (i : Nat) (x : SlotId) : Prop :=
  ∃ b d xs front, head? g.slots b = some site.slot ∧ Leads g.slots b x d ∧
    g.Precedes b xs front ∧ (SpanGrammar.ofRules rules t).Derives front site.index i

/-- What an obstacle says of the text, by the kind of its slot. -/
inductive Obstacle.Truthful (rules : List (String × List Symbol)) (start : String) (p : Problem)
    (o : Obstacle) : Prop
  /-- A terminal is expected that does not match. -/
  | terminal {τ : Terminal} : role? p.graph.slots o.slot = some (.terminal τ) →
    τ.matchAt p.text o.index = .ok none → p.graph.Expects rules p.text o.context o.index o.slot →
    Truthful rules start p o
  /-- The start of an alternative is ruled out by lookahead. -/
  | body {b : BodySlot} : p.graph.slots[o.slot]? = some (.body b) → p.config.lookahead = true →
    Starts p.graph.slots o.context.slot o.slot → o.index = o.context.index →
    b.nullable = false → (∀ y ∈ b.first, p.graph.matchAt p.text y o.index = .ok none) →
    Truthful rules start p o
  /-- The text goes on behind what the start symbol derives. -/
  | done {e : EndSlot} : p.graph.slots[o.slot]? = some (.done e) → o.context = ⟨p.start, 0⟩ →
    o.index < p.text.length →
    (SpanGrammar.ofRules rules p.text).Derives [.nonterminal start] 0 o.index →
    Truthful rules start p o
  /-- There never was an obstacle. -/
  | nonterminal : role? p.graph.slots o.slot = some (.nonterminal start) →
    o = ⟨p.start, 0, ⟨p.start, 0⟩⟩ →
    (∀ {s : State} {tasks : List Task}, State.Reachable p s tasks → s.furthest = none) →
    Truthful rules start p o

/-! ### Obstacles are true -/

section

variable {rules : List (String × List Symbol)} {start : String} {p : Problem} {o : Obstacle}
  (hg : p.graph.Spells rules) (hS : p.setting.Wired)

include hS in
/-- Obstacles are met in calls that were made. -/
lemma Setting.Derivable.call_of_obstacle (h : p.setting.Derivable (.obstacle o)) :
    p.setting.Derivable (.call o.context) := by
  cases h with
  | refuse hcall _ _ _ _ => exact hcall
  | mismatch hitem hl _ _ =>
    obtain ⟨f, xs, hr, -⟩ := readsItem_of_leads hS.toValid (hitem.means hS) hl
    exact hr.call
  | early => exact .root

include hg hS

/-- Where parsing can go over a symbol, that symbol is expected. -/
lemma expects_of_item {b x d : SlotId} {site : CallSite} {i : Nat} {l : Option Node}
    (h : p.setting.Derivable (.item b site i l)) (hl : Leads p.graph.slots b x d) :
    p.graph.Expects rules p.text site i x := by
  obtain ⟨f, xs, hr, -⟩ := Setting.readsItem_of_leads hS.toValid (h.means hS) hl
  obtain ⟨front, hfront⟩ := hS.wired.exists_spelled hr.path
  exact ⟨b, d, xs, front, hr.head hS, hl, ⟨⟨_, f, hr.starts, hr.path⟩, hfront⟩,
    (hg.derives_iff hfront).mp hr.derives⟩

/-- All obstacles are true. A position that is ruled out is reported as the only terminal over which
it goes on, which does not match either. -/
theorem Setting.Derivable.truthful (hstart : role? p.graph.slots p.start = some (.nonterminal start))
    (h : p.setting.Derivable (.obstacle o)) : o.Truthful rules start p := by
  cases h with
  | @refuse site f b hcall hf hlook hadm hb =>
    obtain ⟨hnull, hfirst⟩ := Graph.matchAt_of_admits hb hadm
    cases hx : p.setting.graph.expectedTerminal? b with
    | none => exact .body hb hlook hf rfl hnull hfirst
    | some x =>
      obtain ⟨⟨d, ht⟩, τ, hτ⟩ := Graph.expectedTerminal?_eq_some hx
      have hl : Leads p.graph.slots f x d := ⟨b, hb, by simp [ht]⟩
      have hmem : x ∈ b.first := ((hg.summarised.body hb).2 x).mpr (.symbol hl (.terminal hτ))
      have hm : Failure.ofText (τ.matchAt p.text site.index) = .ok none :=
        (Graph.matchAt_eq_ofText site.index hτ).symm.trans (hfirst x hmem)
      refine .terminal hτ ?_ ⟨f, d, [], [], hS.wired.starts_head hf, hl, ⟨⟨_, f, hf, .nil f⟩, rfl⟩,
        .nil _⟩
      cases hmatch : τ.matchAt p.text site.index with
      | error fault => simp [hmatch, Failure.ofText] at hm
      | ok r => simpa [hmatch, Failure.ofText] using hm
  | mismatch hitem hl hτ hm => exact .terminal hτ hm (expects_of_item hg hS hitem hl)
  | early hitem he hlt =>
    obtain ⟨f, xs, hr, -⟩ := readsItem_of_done hS.toValid (hitem.means hS) he
    obtain ⟨e, hslot, -⟩ := Slots.role?_done.mp he
    obtain ⟨-, hd⟩ := hr.derives_head hS he
    exact .done hslot rfl hlt ((hg.derives_nonterminal_iff hstart).mp hd)

end

/-! ### Rejections -/

/-- A rejection is the report of a run that has come to its end. -/
lemma Problem.final_of_rejected {p : Problem} {o : Obstacle} (hS : p.setting.Valid)
    (h : p.solve.2 = .error (.rejected o)) : ∃ s : State, s.Final p ∧ o = s.obstacle p := by
  rw [solve_eq] at h
  rcases run_ok hS with ⟨s, hrun, hreach, hsat⟩ | ⟨s, e, hrun, ha⟩
  · refine ⟨s, ⟨hrun, hreach, hsat⟩, ?_⟩
    simp only [hrun, State.finish, Agenda.hasNext_eq_false hsat.waiting, Bool.false_eq_true,
      if_false] at h
    split at h
    · cases h
    · exact (Failure.rejected.inj (Except.error.inj h)).symm
  · rw [hrun] at h
    obtain rfl : e = .rejected o := Except.error.inj h
    cases ha

/-- The obstacle with which a text is rejected lies within the text, behind the start of a call that
was made, and says something true of the text. -/
theorem rejection_truthful {share : Bool} {rules : List (String × List Symbol)} {g : Graph}
    (hbuild : (Rules.ofList share rules).build = .ok g) {start : String} {id : SlotId}
    (hstart : g.nonterminal? start = some id) {t : Text} (ht : t.Made) (config : Config)
    {o : Obstacle} (hparse : parse g t start config = .error (.rejected o)) :
    o.context.index ≤ o.index ∧ o.index ≤ t.length ∧
      (∃ s c, Problem.run ⟨g, t, id, config⟩ = (s, .ok ()) ∧ s.calls.site? c = some o.context) ∧
      o.Truthful rules start ⟨g, t, id, config⟩ := by
  have hg := Graph.spells_of_build hbuild
  have hid := hg.lookup_iff.mp hstart
  have hS : (Problem.setting ⟨g, t, id, config⟩).Wired :=
    ⟨⟨hg.valid, ht.bounded, ⟨_, hid⟩⟩, hg.wired⟩
  rw [parse_eq_solve hg.valid hstart] at hparse
  obtain ⟨s, h, ho⟩ := Problem.final_of_rejected hS.toValid hparse
  have hs := (h.reachable.running hS.toValid).sound
  rw [State.obstacle] at ho
  cases hfurthest : s.furthest with
  | none =>
    obtain rfl : o = ⟨id, 0, ⟨id, 0⟩⟩ := by simpa [hfurthest, Problem.rootSite] using ho
    exact ⟨Nat.le_refl _, Nat.zero_le _, ⟨s, rootCall, h.run, hs.root⟩,
      .nonterminal hid rfl fun hreach => h.furthest_eq_none hS hfurthest hreach⟩
  | some o' =>
    obtain rfl : o = o' := by simpa [hfurthest] using ho
    have hd := hs.furthest hfurthest
    obtain ⟨-, hle, hlen⟩ := hd.placed hS.toValid
    obtain ⟨c, hc⟩ := h.saturated.knows hs hS.toValid hS.functional (hd.call_of_obstacle hS)
    exact ⟨hle, hlen, ⟨s, c, h.run, hc⟩, hd.truthful hg hS hid⟩

end

/-- One letter is parsed, and then the text goes on with another one. -/
theorem rejection_letters_truthful :
    (Rules.ofList true Rules.letters).build = .ok Graph.letters ∧
    Graph.letters.nonterminal? "S" = some 0 ∧ (Text.ofString "ab").Made ∧
    parse Graph.letters (.ofString "ab") "S" {} = .error (.rejected ⟨5, 1, ⟨0, 0⟩⟩) ∧
    0 ≤ 1 ∧ 1 ≤ (Text.ofString "ab").length ∧
    (∃ s c, Problem.run ⟨Graph.letters, .ofString "ab", 0, {}⟩ = (s, .ok ()) ∧
      s.calls.site? c = some ⟨0, 0⟩) ∧
    Obstacle.Truthful Rules.letters "S" ⟨Graph.letters, .ofString "ab", 0, {}⟩
      ⟨5, 1, ⟨0, 0⟩⟩ := by
  have hparse : parse Graph.letters (.ofString "ab") "S" {} =
      .error (.rejected ⟨5, 1, ⟨0, 0⟩⟩) := by decide +kernel
  exact ⟨Graph.build_letters, Graph.nonterminal?_letters, .ofString "ab", hparse,
    rejection_truthful Graph.build_letters Graph.nonterminal?_letters (.ofString "ab") {} hparse⟩

end GeneralParser
