import GeneralParser.Proofs.Grammar.Defined
import GeneralParser.Proofs.Trees

/-!
# Sharing prefixes makes no difference

With shared prefixes the graph has fewer slots, and the alternatives of a nonterminal have
intermediate nodes in common. The trees that can be read off do not depend on that: either way they
are the derivation trees of the text, with the alternatives numbered as in the rules.
-/

namespace GeneralParser

section

variable [PatternEngine]

open Slots (role?)

variable {rules : List (String × List Symbol)} {g g' : Graph} {p p' : Problem}

/-- Two results hold the same trees, or neither text is parsed. -/
inductive SameTrees (g g' : Graph) : Except Failure Success → Except Failure Success → Prop
  | parsed {r r' : Success} : r.forest.trees g r.root = r'.forest.trees g' r'.root →
    SameTrees g g' (.ok r) (.ok r')
  | rejected (o o' : Obstacle) : SameTrees g g' (.error (.rejected o)) (.error (.rejected o'))

/-- A nonterminal that has rules can be looked up. -/
lemma Graph.Spells.exists_nonterminal? (hg : g.Spells rules) {A : String}
    (hA : A ∈ rules.map Prod.fst) : ∃ a, g.nonterminal? A = some a := by
  obtain ⟨⟨A, body⟩, hmem, rfl⟩ := List.mem_map.mp hA
  obtain ⟨l, hl⟩ := List.mem_iff_getElem?.mp (Rules.mem_alternatives.mpr hmem)
  obtain ⟨a, -, ha, -⟩ := hg.reached hl
  exact ⟨a, hg.lookup_iff.mpr ha⟩

/-- A parse succeeds if the text has a tree, and then it finds all of them. Otherwise it is
rejected. -/
theorem Graph.Spells.parse_trees (hg : g.Spells rules) {start : String}
    (hstart : start ∈ rules.map Prod.fst) (text : String) {config : Config}
    (hconfig : config.maxDescriptors = none) :
    (∃ r, parse g (.ofString text) start config = .ok r ∧
        r.forest.trees g r.root = {tree | Rules.ParseTree rules (.ofString text) start tree} ∧
        ∃ tree, Rules.ParseTree rules (.ofString text) start tree) ∨
      ∃ o, parse g (.ofString text) start config = .error (.rejected o) ∧
        ∀ tree, ¬ Rules.ParseTree rules (.ofString text) start tree := by
  obtain ⟨a, ha⟩ := hg.exists_nonterminal? hstart
  obtain ⟨hwell, hends⟩ := hg.parse_ends ha text config
  have hrole := hg.lookup_iff.mp ha
  have hderives : Setting.Derives ⟨g, .ofString text, a, config.lookahead⟩ [a] 0
      (Text.ofString text).length ↔ ∃ ts, Rules.ParsedAs rules (.ofString text)
        [.nonterminal start] 0 (Text.ofString text).length ts :=
    (hg.derives_nonterminal_iff hrole).trans Rules.derives_iff_exists_parsedAs
  generalize parse g (.ofString text) start config = result at hends
  cases hends with
  | @parsed s root h hroot =>
    have hexact := h.exact hwell hg
    obtain ⟨ts, hts⟩ := hderives.mp ((h.root_iff hwell).mp ⟨root, hroot⟩)
    obtain ⟨l, body, us, -, -, rfl⟩ := Rules.parsedAs_nonterminal_iff.mp hts
    exact Or.inl ⟨_, rfl, hexact.trees_eq hg hroot hrole, _, hts⟩
  | rejected h hno => exact Or.inr ⟨_, rfl, fun tree htree => hno (hderives.mpr ⟨_, htree⟩)⟩
  | overLimit hlimit =>
    rw [show config.maxDescriptors = _ from hlimit] at hconfig
    cases hconfig

/-- Without a limit, sharing prefixes changes neither whether a text is parsed nor the trees that
are found. -/
theorem parse_share_sameTrees {share : Bool} (hbuild : (Rules.ofList share rules).build = .ok g)
    {start : String} (hstart : start ∈ rules.map Prod.fst) (text : String) (config : Config)
    (hconfig : config.maxDescriptors = none) :
    ∃ shared unshared, (Rules.ofList true rules).build = .ok shared ∧
      (Rules.ofList false rules).build = .ok unshared ∧
      SameTrees shared unshared (parse shared (.ofString text) start config)
        (parse unshared (.ofString text) start config) := by
  obtain ⟨shared, hshared⟩ := Rules.exists_build_of_build hbuild true
  obtain ⟨unshared, hunshared⟩ := Rules.exists_build_of_build hbuild false
  refine ⟨shared, unshared, hshared, hunshared, ?_⟩
  rcases (Graph.spells_of_build hshared).parse_trees hstart text hconfig with
    ⟨r, hr, htrees, tree, htree⟩ | ⟨o, ho, hno⟩ <;>
  rcases (Graph.spells_of_build hunshared).parse_trees hstart text hconfig with
    ⟨r', hr', htrees', tree', htree'⟩ | ⟨o', ho', hno'⟩
  · rw [hr, hr']
    exact .parsed (htrees.trans htrees'.symm)
  · exact absurd htree (hno' tree)
  · exact absurd htree' (hno tree')
  · rw [ho, ho']
    exact .rejected o o'

end

/-- The alternatives of the small grammar share no more than their first position, but that is
enough to make another graph of it. -/
theorem parse_letters_share_sameTrees :
    (Rules.ofList true Rules.letters).build = .ok Graph.letters ∧
    "S" ∈ Rules.letters.map Prod.fst ∧ Config.maxDescriptors {} = none ∧
    ∃ shared unshared, (Rules.ofList true Rules.letters).build = .ok shared ∧
      (Rules.ofList false Rules.letters).build = .ok unshared ∧
      SameTrees shared unshared (parse shared (.ofString "aa") "S" {})
        (parse unshared (.ofString "aa") "S" {}) :=
  ⟨Graph.build_letters, by decide, rfl,
    parse_share_sameTrees Graph.build_letters (by decide) "aa" {} rfl⟩

end GeneralParser
