import GeneralParser.Parse
import GeneralParser.Proofs.Engine.Bound
import GeneralParser.Proofs.Engine.Meaning

/-!
# What comes out of a parse

A parse either comes to a final state, in which all facts are known, or hits the limit. In a final
state there is a node for the start symbol over the whole text just if the start symbol derives it.
-/

namespace GeneralParser

section

variable [PatternEngine]

open Slots (role? head? Leads Path Starts)

/-- On a graph that was built from rules the setting of every parse is well-built. -/
lemma Graph.Spells.wellBuilt {g : Graph} {rules : List (String × List Symbol)} (h : g.Spells rules)
    {t : Text} (ht : t.Readable) {a : SlotId} {A : String}
    (ha : role? g.slots a = some (.nonterminal A)) (lookahead : Bool) :
    Setting.WellBuilt ⟨g, t, a, lookahead⟩ := by
  exact ⟨⟨⟨h.valid, ht.bounded, ⟨A, ha⟩⟩, h.wired⟩, h.summarised, ht⟩

/-! ### Final states -/

/-- A parse has come to an end in state `s`, with nothing left to do. -/
structure State.Final (p : Problem) (s : State) : Prop where
  run : p.run = (s, .ok ())
  reachable : State.Reachable p s []
  saturated : s.Saturated p.setting

namespace State.Final

variable {p : Problem} {s : State} (hS : p.setting.WellBuilt) (h : s.Final p)
include hS h

lemma running : s.Running p [] := h.reachable.running hS.toValid

lemma sound : s.Sound p.setting := (h.running hS).sound

/-- The facts are just what is stored in the end. -/
lemma knows_iff {F : Fact} (hF : ∀ o, F ≠ .obstacle o) :
    s.Knows p.setting F ↔ p.setting.Derivable F :=
  h.saturated.knows_iff (h.sound hS) hS.toValid hS.functional hF

lemma call_iff {site : CallSite} :
    (∃ c, s.calls.site? c = some site) ↔ p.setting.Derivable (.call site) := by
  apply h.knows_iff hS (F := .call site)
  simp

lemma node_iff {n : Node} (hn : n.isPacked = false) :
    (∃ i, s.forest.node? i = some n) ↔ p.setting.Derivable (.node n) := by
  rw [← h.knows_iff hS (F := .node n) (by simp)]
  simp [State.Knows, hn]

/-- There is a node for a nonterminal just where it was called and derives something. -/
lemma nonterminal_iff {a : SlotId} {i j : Nat} :
    (∃ v, s.forest.node? v = some (.nonterminal a i j)) ↔
      (∃ c, s.calls.site? c = some ⟨a, i⟩) ∧ p.setting.Derives [a] i j := by
  rw [h.node_iff hS rfl, h.call_iff hS]
  exact Setting.node_nonterminal_iff hS

/-- There is a node for the whole text just if the start symbol derives it. -/
lemma root_iff : (∃ v, s.forest.node? v = some (.nonterminal p.start 0 p.text.length)) ↔
    p.setting.Derives [p.start] 0 p.text.length := by
  rw [h.nonterminal_iff hS]
  apply and_iff_right
  exact ⟨rootCall, (h.sound hS).root⟩

end State.Final

/-! ### Results -/

namespace Problem

variable {p : Problem} {s : State}

/-- The results of a parse: the forest of its final state, or a rejection, or the limit was hit. -/
inductive Ends (p : Problem) : Except Failure Success → Prop
  | parsed {s : State} {root : NodeId} : s.Final p →
    s.forest.node? root = some (.nonterminal p.start 0 p.text.length) →
    Ends p (.ok ⟨root, s.forest, s.statistics⟩)
  | rejected {s : State} : s.Final p → ¬ p.setting.Derives [p.start] 0 p.text.length →
    Ends p (.error (.rejected (s.obstacle p)))
  | overLimit {s : State} {limit : Nat} : p.config.maxDescriptors = some limit →
    p.run = (s, .error (.overLimit limit)) → s.Sound p.setting → limit < s.agenda.size →
    Ends p (.error (.overLimit limit))

/-- A run comes to a final state, or hits the limit. -/
theorem run_final (hS : p.setting.WellBuilt) : (∃ s : State, s.Final p) ∨
    ∃ s limit, p.config.maxDescriptors = some limit ∧
      p.run = (s, .error (.overLimit limit)) ∧ s.Sound p.setting ∧ limit < s.agenda.size := by
  rcases run_ok hS.toValid with ⟨s, hrun, hreach, hsat⟩ | ⟨s, e, hrun, ha⟩
  · exact Or.inl ⟨s, hrun, hreach, hsat⟩
  · cases ha with
    | overLimit hlimit hlt hs => exact Or.inr ⟨s, _, hlimit, hrun, hs, hlt⟩
    | conflict hfun => exact absurd hS.functional hfun
    | unreadable hfault => exact absurd hfault hS.readable.not_faults

/-- The end of a run is a state that was reached, with no task left. -/
lemma reachable_of_run (hS : p.setting.WellBuilt) (h : p.run = (s, .ok ())) :
    State.Reachable p s [] := by
  rcases run_final hS with ⟨s', hs'⟩ | ⟨s', limit, -, hrun, -⟩
  · obtain rfl : s = s' := congrArg Prod.fst (h.symm.trans hs'.run)
    exact hs'.reachable
  · have hr := congrArg Prod.snd (h.symm.trans hrun)
    cases hr

lemma ends_of_final (hS : p.setting.WellBuilt) (h : s.Final p) :
    Ends p (s.finish p).2 := by
  have hnext := Agenda.hasNext_eq_false h.saturated.waiting
  have hwf := (h.sound hS).forest.wellFormed
  rw [State.finish]
  rw [hnext]
  cases hroot : s.forest.find? (.nonterminal p.start 0 p.text.length) with
  | some root => exact .parsed h ((hwf.find?_eq_some_iff rfl).mp hroot)
  | none =>
    apply Ends.rejected h
    intro hd
    obtain ⟨v, hv⟩ := (h.root_iff hS).mpr hd
    exact (hwf.find?_eq_none_iff rfl).mp hroot v hv

/-- Every parse ends in one of these ways. -/
theorem solve_ends (hS : p.setting.WellBuilt) : Ends p p.solve.2 := by
  rw [solve_eq]
  rcases run_final hS with ⟨s, h⟩ | ⟨s, limit, hlimit, hrun, hs, hlt⟩
  · rw [h.run]
    exact ends_of_final hS h
  · rw [hrun]
    exact .overLimit hlimit hrun hs hlt

end Problem

/-- Once the graph is known to be valid and the start symbol is found, parsing is solving. -/
lemma parse_eq_solve {g : Graph} (hg : g.Valid) {A : String} {a : SlotId}
    (ha : g.nonterminal? A = some a) (t : Text) (config : Config) :
    parse g t A config = (Problem.solve ⟨g, t, a, config⟩).2 := by
  rw [parse, parseReport]
  rw [Graph.validate_eq_ok_iff.mpr hg, ha]

end

/-! ### Small problems -/

/-- Two letters are to be parsed. -/
def Problem.letters : Problem := ⟨Graph.letters, .ofString "aa", 0, {}⟩

lemma Problem.run_letters : letters.run = (letters.run.1, .ok ()) := by
  have h : letters.run.2 = .ok () := by decide +kernel
  rw [← h]

/-- Two nested pairs of letters are to be parsed. -/
def Problem.nested : Problem := ⟨Graph.nested, .ofString "aabb", 0, {}⟩

lemma Problem.run_nested : nested.run = (nested.run.1, .ok ()) := by
  have h : nested.run.2 = .ok () := by decide +kernel
  rw [← h]

end GeneralParser
