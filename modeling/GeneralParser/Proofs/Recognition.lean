import GeneralParser.Proofs.Engine.Outcome

/-!
# Recognition

A text is parsed just if the start symbol derives it. This holds for all grammars: left recursion,
cycles, empty rules, ambiguity and nonterminals that derive nothing need no special care.
-/

namespace GeneralParser

section

variable [PatternEngine]

open Slots (role? head? Leads Path Starts)

variable {share : Bool} {rules : List (String × List Symbol)} {g : Graph}

lemma Graph.Spells.setting_wellBuilt (hg : g.Spells rules) {A : String} {a : SlotId}
    (ha : g.nonterminal? A = some a) (text : String) (config : Config) :
    (Problem.setting ⟨g, .ofString text, a, config⟩).WellBuilt :=
  hg.wellBuilt (Text.readable_ofString text) (hg.lookup_iff.mp ha) config.lookahead

/-- The results of parsing with the graph of a list of rules. -/
lemma Graph.Spells.parse_ends (hg : g.Spells rules) {A : String} {a : SlotId}
    (ha : g.nonterminal? A = some a) (text : String) (config : Config) :
    (Problem.setting ⟨g, .ofString text, a, config⟩).WellBuilt ∧
      Problem.Ends ⟨g, .ofString text, a, config⟩ (parse g (.ofString text) A config) := by
  have hwell := hg.setting_wellBuilt ha text config
  refine ⟨hwell, ?_⟩
  rw [parse_eq_solve hg.valid ha]
  exact Problem.solve_ends hwell

/-- Without a limit, a parse succeeds if and only if the start symbol derives the whole text, and is
rejected otherwise. -/
theorem parse_ok_iff_derives (hbuild : (Rules.ofList share rules).build = .ok g) {A : String}
    {a : SlotId} (ha : g.nonterminal? A = some a) (text : String) {config : Config}
    (hconfig : config.maxDescriptors = none) :
    ((∃ r, parse g (.ofString text) A config = .ok r) ↔
      (SpanGrammar.ofRules rules (.ofString text)).Derives [.nonterminal A] 0
        (Text.ofString text).length) ∧
    ((¬ ∃ r, parse g (.ofString text) A config = .ok r) →
      ∃ o, parse g (.ofString text) A config = .error (.rejected o)) := by
  have hg := Graph.spells_of_build hbuild
  obtain ⟨hwell, hends⟩ := hg.parse_ends ha text config
  have hderives : Setting.Derives ⟨g, .ofString text, a, config.lookahead⟩ [a] 0
      (Text.ofString text).length ↔ (SpanGrammar.ofRules rules (.ofString text)).Derives
        [.nonterminal A] 0 (Text.ofString text).length :=
    hg.derives_nonterminal_iff (hg.lookup_iff.mp ha)
  rw [← hderives]
  generalize parse g (.ofString text) A config = result at hends
  cases hends with
  | @parsed s root h hroot =>
    have hd := (h.root_iff hwell).mp ⟨root, hroot⟩
    exact ⟨⟨fun _ => hd, fun _ => ⟨_, rfl⟩⟩, fun hno => absurd ⟨_, rfl⟩ hno⟩
  | rejected _ hno =>
    refine ⟨⟨?_, fun hd => absurd hd hno⟩, fun _ => ⟨_, rfl⟩⟩
    rintro ⟨r, hr⟩
    cases hr
  | overLimit hlimit =>
    rw [show config.maxDescriptors = _ from hlimit] at hconfig
    cases hconfig

end

/-- The theorem applies to a grammar that is ambiguous, left-recursive and cyclic. -/
theorem parse_letters_iff_derives :
    (Rules.ofList true Rules.letters).build = .ok Graph.letters ∧
    Graph.letters.nonterminal? "S" = some 0 ∧ Config.maxDescriptors {} = none ∧
    ((∃ r, parse Graph.letters (.ofString "aa") "S" {} = .ok r) ↔
      (SpanGrammar.ofRules Rules.letters (.ofString "aa")).Derives [.nonterminal "S"] 0
        (Text.ofString "aa").length) :=
  ⟨Graph.build_letters, Graph.nonterminal?_letters, rfl,
    (parse_ok_iff_derives Graph.build_letters Graph.nonterminal?_letters "aa" rfl).1⟩

end GeneralParser
