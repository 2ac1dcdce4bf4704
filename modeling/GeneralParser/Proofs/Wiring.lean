import GeneralParser.Proofs.Engine.Passing
import GeneralParser.Proofs.Recognition

/-!
# Oddly wired graphs

Validation looks at the references of a graph one by one, so it does not notice a slot that is
entered in two ways. There, what has been parsed can depend on the way in, and a parse breaks off
when it meets a descriptor a second time with something else. On a valid graph this is the only
assumption of a parse that can be broken, and it is not broken if slots are entered in one way only.
-/

namespace GeneralParser

section

variable [PatternEngine]

open Slots (role?)

namespace Graph

variable {g : Graph}

lemma Valid.exists_role? (hg : g.Valid) {name : String} {id : SlotId}
    (h : g.nonterminal? name = some id) : ∃ A, role? g.slots id = some (.nonterminal A) := by
  obtain ⟨front, back, hregistry, -⟩ := List.lookup_eq_some_iff.mp h
  have hmem : (name, id) ∈ g.registry := by simp [hregistry]
  exact hg.registry hmem

/-- To parse any text as a nonterminal of a valid graph is a valid problem. -/
lemma Valid.setting_valid (hg : g.Valid) {start : String} {id : SlotId}
    (h : g.nonterminal? start = some id) (text : String) (config : Config) :
    (Problem.setting ⟨g, .ofString text, id, config⟩).Valid :=
  ⟨hg, (Text.readable_ofString text).bounded, hg.exists_role? h⟩

end Graph

/-! ### Results -/

/-- The results of a parse on a valid graph: a success, an expected failure, or that one descriptor
was met with two partial results, for which the graph has to be wired oddly. -/
inductive Problem.Concludes (p : Problem) : Except Failure Success → Prop
  | parsed (r : Success) : Concludes p (.ok r)
  | rejected (o : Obstacle) : Concludes p (.error (.rejected o))
  | overLimit {limit : Nat} : p.config.maxDescriptors = some limit →
    Concludes p (.error (.overLimit limit))
  | conflict : ¬ Slots.Wired p.graph.slots → Concludes p (.error (.broken .conflictingResults))

lemma State.Aborted.concludes {p : Problem} {s : State} {e : Failure} (hS : p.setting.Valid)
    (ht : p.text.Readable) (h : s.Aborted p e) : p.Concludes (.error e) := by
  cases h with
  | overLimit hlimit => exact .overLimit hlimit
  | conflict hfun => exact .conflict fun hw => hfun (Setting.Wired.functional ⟨hS, hw⟩)
  | unreadable hfault => exact absurd hfault ht.not_faults

/-- When nothing waits any more, the text is parsed or rejected. -/
lemma State.finish_concludes {p : Problem} {s : State} (h : s.agenda.waiting = []) :
    p.Concludes (s.finish p).2 := by
  rw [finish]
  rw [Agenda.hasNext_eq_false h]
  cases s.forest.find? (.nonterminal p.start 0 p.text.length) with
  | some root => exact .parsed _
  | none => exact .rejected _

theorem Problem.solve_concludes {p : Problem} (hS : p.setting.Valid) (ht : p.text.Readable) :
    p.Concludes p.solve.2 := by
  rw [solve_eq]
  rcases run_ok hS with ⟨s, hrun, -, hsat⟩ | ⟨s, e, hrun, he⟩
  · rw [hrun]
    exact State.finish_concludes hsat.waiting
  · rw [hrun]
    exact he.concludes hS ht

/-- On a valid graph, a parse succeeds, rejects the text, hits the limit, or breaks off because one
descriptor is met with two partial results. The last only happens if the graph is wired oddly, and
no other assumption is ever broken. -/
theorem parse_concludes {g : Graph} (hg : g.validate = .ok ()) {start : String} {id : SlotId}
    (hstart : g.nonterminal? start = some id) (text : String) (config : Config) :
    Problem.Concludes ⟨g, .ofString text, id, config⟩ (parse g (.ofString text) start config) := by
  have hvalid := Graph.validate_eq_ok_iff.mp hg
  rw [parse_eq_solve hvalid hstart]
  exact Problem.solve_concludes (hvalid.setting_valid hstart text config)
    (Text.readable_ofString text)

end

/-! ### Odd graphs -/

/-- A graph for `a b` with two transitions from slot 1 to slot 4, over the character and over the
literal. -/
def Graph.merging : Graph where
  slots := #[
    .nonterminal ⟨"S", [1], false, .ofList [2, 3]⟩,
    .body ⟨0, 0, [⟨2, 4⟩, ⟨3, 4⟩], false, .ofList [2, 3], "S0"⟩,
    .terminal ⟨.char 'a', "a"⟩,
    .terminal ⟨.literal "a", "a"⟩,
    .body ⟨0, 1, [⟨5, 6⟩], false, .ofList [5], "S1"⟩,
    .terminal ⟨.char 'b', "b"⟩,
    .done ⟨0, 0, "S2"⟩]
  registry := [("S", 0)]

lemma Graph.validate_merging : merging.validate = .ok () := by decide +kernel

lemma Graph.nonterminal?_merging : merging.nonterminal? "S" = some 0 := by decide +kernel

/-- Slot 4 is reached with a node for the character, and then with one for the literal. -/
theorem parse_merging_conflict : Graph.merging.validate = .ok () ∧
    Graph.merging.nonterminal? "S" = some 0 ∧
    parse Graph.merging (.ofString "a") "S" {} = .error (.broken .conflictingResults) := by
  decide +kernel

/-- So the graph is wired oddly. -/
theorem parse_merging_concludes : Graph.merging.validate = .ok () ∧
    Graph.merging.nonterminal? "S" = some 0 ∧
    Problem.Concludes ⟨Graph.merging, .ofString "a", 0, {}⟩
      (parse Graph.merging (.ofString "a") "S" {}) ∧
    ¬ Slots.Wired Graph.merging.slots := by
  have hconcludes := parse_concludes Graph.validate_merging Graph.nonterminal?_merging "a" {}
  refine ⟨Graph.validate_merging, Graph.nonterminal?_merging, hconcludes, ?_⟩
  have hrun : parse Graph.merging (.ofString "a") "S" {} =
      .error (.broken .conflictingResults) := by decide +kernel
  rw [hrun] at hconcludes
  cases hconcludes with
  | conflict hwired => exact hwired

/-- A longer graph, for `a b b`, in which slot 4 is entered in two ways as well. -/
def Graph.converging : Graph where
  slots := #[
    .nonterminal ⟨"S", [1], false, .ofList [2, 3]⟩,
    .body ⟨0, 0, [⟨2, 4⟩, ⟨3, 4⟩], false, .ofList [2, 3], "S0"⟩,
    .terminal ⟨.char 'a', "a"⟩,
    .terminal ⟨.literal "a", "a"⟩,
    .body ⟨0, 1, [⟨5, 6⟩], false, .ofList [5], "S1"⟩,
    .terminal ⟨.char 'b', "b"⟩,
    .body ⟨0, 2, [⟨5, 7⟩], false, .ofList [5], "S2"⟩,
    .done ⟨0, 0, "S3"⟩]
  registry := [("S", 0)]

lemma Graph.validate_converging : converging.validate = .ok () := by decide +kernel

lemma Graph.nonterminal?_converging : converging.nonterminal? "S" = some 0 := by decide +kernel

/-- The three letters are to be parsed with this graph. -/
def Problem.converging : Problem := ⟨Graph.converging, .ofString "abb", 0, {}⟩

lemma parse_converging_conflict : parse Graph.converging (.ofString "abb") "S" {} =
    .error (.broken .conflictingResults) := by decide +kernel

/-- Where a parse comes to if it passes over the second way into slot 4. -/
def State.converged : State :=
  (tolerateFor Problem.converging 30 (State.start Problem.converging).1 []).1

lemma State.tolerated_converged : Tolerated Problem.converging converged [] := by
  have hstart : (State.start Problem.converging).2 = .ok () := by decide +kernel
  have hdone : (tolerateFor Problem.converging 30 (State.start Problem.converging).1 []).2 = [] := by
    decide +kernel
  have hrun := (Tolerated.start (Prod.ext rfl hstart)).tolerateFor 30
  rwa [hdone] at hrun

end GeneralParser
