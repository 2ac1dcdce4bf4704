import GeneralParser.Proofs.Engine.Passing
import GeneralParser.Proofs.Wiring

/-!
# Look-ups never fail

On a valid graph no look-up of a parse fails: every slot is there and of the kind that is needed,
and every node whose stretch of the text is asked for has one. This does not hang on how the slots
are wired. Even if descriptors that are met with another partial result are passed over instead of
ending the parse, all that is stored stays a fact, and so no look-up fails.
-/

namespace GeneralParser

section

variable [PatternEngine]

open Slots (role?)

/-! ### Failures -/

/-- The failures that are left on a valid graph: the text is rejected, the limit is hit, or an
assumption is broken that validation does not look after. -/
inductive Problem.Fails (p : Problem) : Failure → Prop
  | rejected (o : Obstacle) : Fails p (.rejected o)
  | overLimit {limit : Nat} : p.config.maxDescriptors = some limit → Fails p (.overLimit limit)
  /-- One descriptor is met with two partial results, since a slot can be entered in two ways. -/
  | conflict : ¬ Slots.Wired p.graph.slots → Fails p (.broken .conflictingResults)
  /-- A terminal is tried where the table of offsets of the text was not filled in. -/
  | unreadable {fault : Fault} : p.text.Faults fault → Fails p (.broken fault)

lemma State.Aborted.fails {p : Problem} {s : State} {e : Failure} (hS : p.setting.Valid)
    (h : s.Aborted p e) : p.Fails e := by
  cases h with
  | overLimit hlimit => exact .overLimit hlimit
  | conflict hfun => exact .conflict fun hw => hfun (Setting.Wired.functional ⟨hS, hw⟩)
  | unreadable ht => exact .unreadable ht

/-- When nothing waits any more, a parse only fails if the text is rejected. -/
lemma State.finish_fails {p : Problem} {s s' : State} {e : Failure}
    (hwaiting : s.agenda.waiting = []) (h : s.finish p = (s', .error e)) : p.Fails e := by
  have hconcludes := finish_concludes (p := p) hwaiting
  rw [h] at hconcludes
  cases hconcludes with
  | rejected o => exact .rejected o
  | overLimit hlimit => exact .overLimit hlimit
  | conflict hw => exact .conflict hw

/-! ### Failures of a parse -/

/-- Wherever a parse fails, at its start, in one of its moves or in the end, it is for one of the
reasons that validation leaves. -/
structure Problem.LooksUp (p : Problem) : Prop where
  start {s : State} {e : Failure} : State.start p = (s, .error e) → p.Fails e
  move {s s' : State} {tasks : List Task} {e : Failure} : State.Tolerated p s tasks →
    s.move p tasks = .fail s' e → p.Fails e
  finish {s s' s'' : State} {e : Failure} : State.Tolerated p s [] →
    s.move p [] = .finish s' → s'.finish p = (s'', .error e) → p.Fails e
  run {s : State} {e : Failure} : p.run = (s, .error e) → p.Fails e

theorem Problem.looksUp {p : Problem} (hS : p.setting.Valid) : p.LooksUp := by
  refine ⟨?_, ?_, ?_, ?_⟩
  · intro s e hs
    rcases State.start_ok p with ⟨s', hs', -⟩ | ⟨s', e', hs', ha⟩
    · cases congrArg Prod.snd (hs.symm.trans hs')
    · obtain ⟨rfl, rfl⟩ : s = s' ∧ e = e' := by simpa using hs.symm.trans hs'
      exact ha.fails hS
  · intro s s' tasks e h hmove
    have hm := (h.steady hS).moves hS
    rw [hmove] at hm
    cases hm with
    | abort ha => exact ha.fails hS
  · intro s s' s'' e h hmove hfinish
    have hm := (h.steady hS).moves hS
    rw [hmove] at hm
    cases hm with
    | finish hw => exact State.finish_fails hw hfinish
  · intro s e hrun
    rcases run_ok hS with ⟨s', hrun', -⟩ | ⟨s', e', hrun', ha⟩
    · cases congrArg Prod.snd (hrun.symm.trans hrun')
    · obtain ⟨rfl, rfl⟩ : s = s' ∧ e = e' := by simpa using hrun.symm.trans hrun'
      exact ha.fails hS

/-- On a graph that passes validation, whatever the text, no look-up of a parse ever fails. -/
theorem parse_looksUp {g : Graph} (hg : g.validate = .ok ()) {start : String} {id : SlotId}
    (hstart : g.nonterminal? start = some id) {t : Text} (ht : t.Made) (config : Config) :
    Problem.LooksUp ⟨g, t, id, config⟩ ∧
      ∀ e, parse g t start config = .error e → Problem.Fails ⟨g, t, id, config⟩ e := by
  have hvalid := Graph.validate_eq_ok_iff.mp hg
  have hS : (Problem.setting ⟨g, t, id, config⟩).Valid :=
    ⟨hvalid, ht.bounded, hvalid.exists_role? hstart⟩
  refine ⟨Problem.looksUp hS, ?_⟩
  intro e he
  rw [parse_eq_solve hvalid hstart, Problem.solve_eq] at he
  rcases Problem.run_ok hS with ⟨s, hrun, -, hsat⟩ | ⟨s, e', hrun, ha⟩
  · rw [hrun] at he
    exact State.finish_fails hsat.waiting (Prod.ext rfl he)
  · rw [hrun] at he
    obtain rfl : e' = e := Except.error.inj he
    exact ha.fails hS

end

/-- On an oddly wired graph a parse may break off, but not because of a look-up. If it goes on
instead, it comes to the end of the call that it started with, and packs nodes on the way. -/
theorem parse_converging_looksUp : Graph.converging.validate = .ok () ∧
    Graph.converging.nonterminal? "S" = some 0 ∧ (Text.ofString "abb").Made ∧
    Problem.LooksUp Problem.converging ∧
    (∀ e, parse Graph.converging (.ofString "abb") "S" {} = .error e →
      Problem.Fails Problem.converging e) ∧
    parse Graph.converging (.ofString "abb") "S" {} = .error (.broken .conflictingResults) ∧
    State.Tolerated Problem.converging State.converged [] ∧
    State.converged.calls.completions rootCall = [6] ∧
    State.converged.forest.children 6 = [7] ∧ State.converged.forest.children 7 = [3, 5] := by
  obtain ⟨hlooksUp, hfails⟩ := parse_looksUp Graph.validate_converging
    Graph.nonterminal?_converging (.ofString "abb") {}
  exact ⟨Graph.validate_converging, Graph.nonterminal?_converging, .ofString "abb", hlooksUp,
    hfails, parse_converging_conflict, State.tolerated_converged, by decide +kernel, by decide +kernel,
    by decide +kernel⟩

end GeneralParser
