import GeneralParser.Proofs.Engine.Offer
import GeneralParser.Proofs.Recognition

/-!
# The limit on descriptors

A limit cuts a parse off and does nothing else. A parse with a limit takes the same steps as one
without, for as long as no more descriptors were seen than are allowed; and since no descriptor is
ever forgotten, it is cut off just if in the end there are more of them.
-/

namespace GeneralParser

/-! ### Descriptors are not forgotten -/

namespace Agenda

variable {a a' : Agenda} {d : Descriptor} {new : Bool}

lemma size_le_claim (h : a.claim d = .ok (new, a')) : a.size ≤ a'.size := by
  rw [(claimed_of_ok h).1.size]
  exact Nat.le_add_right _ _

lemma size_le_schedule (h : a.schedule d = .ok (new, a')) : a.size ≤ a'.size := by
  rw [schedule] at h
  split at h
  next a₁ hc =>
    obtain ⟨-, rfl⟩ : true = new ∧ { a₁ with pending := enqueue d a₁.pending } = a' := by
      simpa using h
    exact show a.size ≤ a₁.size from size_le_claim hc
  next => exact size_le_claim h

lemma size_next? (h : a.next? = some (d, a')) : a'.size = a.size := by
  rw [next?] at h
  split at h
  · cases h
  · obtain ⟨-, rfl⟩ := Prod.mk.inj (Option.some.inj h)
    rfl

end Agenda

section

variable [PatternEngine]

namespace State

variable {p : Problem} {s : State}

lemma size_le_claim (d : Descriptor) : s.agenda.size ≤ (s.claim p d).1.agenda.size := by
  rw [claim]
  split
  · exact Nat.le_refl _
  · exact Nat.le_refl _
  next hc => exact Agenda.size_le_claim hc

lemma size_le_schedule (d : Descriptor) : s.agenda.size ≤ (s.schedule p d).1.agenda.size := by
  rw [schedule]
  split
  · exact Nat.le_refl _
  · exact Nat.le_refl _
  next hc => exact Agenda.size_le_schedule hc

end State

lemma Task.size_le_run {p : Problem} {s : State} (task : Task) :
    s.agenda.size ≤ (task.run p s).1.agenda.size := by
  cases hoffer : task.offer? p s with
  | none => rw [agenda_of_offer?_eq_none hoffer]
  | some offer =>
    obtain ⟨s₁, d⟩ := offer
    rw [← agenda_of_offer? hoffer]
    rcases run_of_offer? hoffer with ⟨tasks, hrun⟩ | ⟨tasks, hrun⟩
    · rw [hrun]
      exact State.size_le_claim d
    · rw [hrun]
      exact State.size_le_schedule d

lemma State.size_le_drainFor {p : Problem} (fuel : Nat) (s : State) (tasks : List Task) :
    s.agenda.size ≤ (drainFor p fuel s tasks).1.agenda.size := by
  induction fuel generalizing s tasks with
  | zero => exact Nat.le_refl _
  | succ fuel ih =>
    rw [drainFor]
    cases tasks with
    | nil =>
      cases hnext : s.agenda.next? with
      | none => simp [move, handOut, hnext]
      | some next =>
        obtain ⟨d, a⟩ := next
        simp only [move, handOut, hnext]
        rw [← Agenda.size_next? hnext]
        exact ih ({ s with agenda := a }.record _) [.execute d]
    | cons task rest =>
      obtain ⟨s', r, hrun⟩ : ∃ s' r, task.run p s = (s', r) := ⟨_, _, rfl⟩
      have hsize := task.size_le_run (p := p) (s := s)
      rw [hrun] at hsize
      simp only [move, hrun]
      cases r with
      | error e => exact hsize
      | ok new => exact hsize.trans (ih _ _)

/-! ### The same parse with and without a limit -/

/-- The same problem, to be given up after `limit` descriptors, if there is one. -/
def Problem.within (p : Problem) (limit : Option Nat) : Problem :=
  { p with config := { p.config with maxDescriptors := limit } }

@[simp] lemma Problem.within_graph {p : Problem} {limit : Option Nat} :
    (p.within limit).graph = p.graph := rfl

/-- The limit does not take part in the bound for the number of moves. -/
@[simp] lemma Problem.within_moves {p : Problem} {limit : Option Nat} {s : State}
    {tasks : List Task} : (p.within limit).moves s tasks = p.moves s tasks := by
  simp only [moves, extent, within]

/-- The second outcome is the first one, unless more than `n` descriptors were seen: then the limit
was hit. -/
inductive CutOff {α : Type} (n : Nat) : State × Except Failure α → State × Except Failure α → Prop
  | same {out : State × Except Failure α} : out.1.agenda.size ≤ n → CutOff n out out
  | cut {out : State × Except Failure α} {s : State} : n < out.1.agenda.size →
    CutOff n out (s, .error (.overLimit n))

omit [PatternEngine] in
lemma CutOff.map {α β : Type} {n : Nat} {out out' : State × Except Failure α}
    (h : CutOff n out out') (f : α → β) :
    CutOff n (out.1, out.2.map f) (out'.1, out'.2.map f) := by
  cases h with
  | same h => exact .same h
  | cut h => exact .cut h

section

variable {p : Problem} {n : Nat} {s : State}

namespace State

/-- Once a new descriptor was seen, the limit is looked after. -/
lemma checkLimit_cutOff {s : State} : CutOff n (s, s.checkLimit (p.within none))
    (s, s.checkLimit (p.within (some n))) := by
  have hfull : s.checkLimit (p.within none) = .ok () := rfl
  by_cases hle : n < s.agenda.size
  · have hcut : s.checkLimit (p.within (some n)) = .error (.overLimit n) := if_pos hle
    rw [hcut]
    exact .cut hle
  · have hcut : s.checkLimit (p.within (some n)) = .ok () := if_neg hle
    rw [hfull, hcut]
    exact .same (Nat.le_of_not_lt hle)

lemma claim_cutOff (h : s.agenda.size ≤ n) (d : Descriptor) :
    CutOff n (s.claim (p.within none) d) (s.claim (p.within (some n)) d) := by
  simp only [claim]
  cases s.agenda.claim d with
  | error fault => exact .same h
  | ok r =>
    obtain ⟨new, a⟩ := r
    cases new with
    | false => exact .same h
    | true => exact (checkLimit_cutOff (p := p) (s := { s with agenda := a })).map fun _ => true

lemma schedule_cutOff (h : s.agenda.size ≤ n) (d : Descriptor) :
    CutOff n (s.schedule (p.within none) d) (s.schedule (p.within (some n)) d) := by
  simp only [schedule]
  cases s.agenda.schedule d with
  | error fault => exact .same h
  | ok r =>
    obtain ⟨new, a⟩ := r
    cases new with
    | false => exact .same h
    | true => exact checkLimit_cutOff

end State

/-- Only the tasks that make an offer notice the limit. -/
lemma Task.run_cutOff (h : s.agenda.size ≤ n) (task : Task) :
    CutOff n (task.run (p.within none) s) (task.run (p.within (some n)) s) := by
  have hsame {out : Outcome} (hrun : task.run (p.within none) s = out)
      (hoffer : task.offer? (p.within none) s = none) : CutOff n out out := by
    refine .same ?_
    rw [← hrun, agenda_of_offer?_eq_none hoffer]
    exact h
  cases task with
  | execute d => exact hsame rfl rfl
  | cross d t direct => exact hsame rfl rfl
  | enter f c i =>
    obtain ⟨answer, hanswer⟩ : ∃ answer, (if p.config.lookahead then p.graph.admits p.text f i
      else .ok true) = answer := ⟨_, rfl⟩
    have hsame (limit : Option Nat) : (if (p.within limit).config.lookahead then
        (p.within limit).graph.admits (p.within limit).text f i else .ok true) = answer := hanswer
    simp only [run, runEnter, hsame]
    cases answer with
    | error e => exact .same h
    | ok admitted =>
      cases admitted with
      | true => exact (State.schedule_cutOff h _).map _
      | false =>
        simp only [Problem.within_graph]
        cases p.graph.bodySlot f with
        | error e => exact .same h
        | ok b =>
          have hagenda : (s.obstruct p ((p.graph.expectedTerminal? b).getD f) i c).agenda =
              s.agenda := State.obstruct_agenda
          exact CutOff.same (hagenda ▸ h)
  | arrive dest c j l r direct =>
    simp only [run, runArrive, Problem.within_graph]
    have hagenda : (s.onForest (·.combine p.graph dest l r)).2.agenda = s.agenda := rfl
    split
    next hcombine =>
      rw [hcombine] at hagenda
      exact .same (hagenda ▸ h)
    next hcombine =>
      rw [hcombine] at hagenda
      cases direct with
      | true => exact (State.claim_cutOff (hagenda ▸ h) _).map _
      | false => exact (State.schedule_cutOff (hagenda ▸ h) _).map _

/-- Both parses take the same moves, until there are too many descriptors. -/
lemma State.drainFor_cutOff (fuel : Nat) (h : s.agenda.size ≤ n) (tasks : List Task) :
    CutOff n (drainFor (p.within none) fuel s tasks) (drainFor (p.within (some n)) fuel s tasks) := by
  induction fuel generalizing s tasks with
  | zero => exact .same h
  | succ fuel ih =>
    rw [drainFor, drainFor]
    cases tasks with
    | nil =>
      cases hnext : s.agenda.next? with
      | none =>
        simp only [move, handOut, hnext]
        exact .same h
      | some next =>
        obtain ⟨d, a⟩ := next
        simp only [move, handOut, hnext]
        rw [← Agenda.size_next? hnext] at h
        exact ih (s := { s with agenda := a }.record _) h [.execute d]
    | cons task rest =>
      have hrun := task.run_cutOff (p := p) h
      obtain ⟨s', r, hfull⟩ : ∃ s' r, task.run (p.within none) s = (s', r) := ⟨_, _, rfl⟩
      obtain ⟨s'', r', hcut⟩ : ∃ s' r, task.run (p.within (some n)) s = (s', r) := ⟨_, _, rfl⟩
      rw [hfull, hcut] at hrun
      simp only [move, hfull, hcut]
      cases hrun with
      | same h' =>
        cases r with
        | error e => exact .same h'
        | ok new => exact ih h' _
      | cut hlt =>
        refine .cut ?_
        cases r with
        | error e => exact hlt
        | ok new => exact Nat.lt_of_lt_of_le hlt (size_le_drainFor fuel s' _)

namespace Problem

lemma start_cutOff : CutOff n (State.start (p.within none)) (State.start (p.within (some n))) :=
  State.schedule_cutOff (p := p) (s := State.root p) (Nat.zero_le n) ⟨⟨p.start, rootCall, 0⟩, none⟩

/-- A run with a limit is the run without, unless there are too many descriptors in the end. -/
theorem run_cutOff (p : Problem) (n : Nat) :
    CutOff n (p.within none).run (p.within (some n)).run := by
  have hstart := start_cutOff (p := p) (n := n)
  obtain ⟨s, r, hfull⟩ : ∃ s r, State.start (p.within none) = (s, r) := ⟨_, _, rfl⟩
  obtain ⟨s', r', hcut⟩ : ∃ s r, State.start (p.within (some n)) = (s, r) := ⟨_, _, rfl⟩
  rw [hfull, hcut] at hstart
  rw [run, run, hfull, hcut]
  cases hstart with
  | same h =>
    cases r with
    | error e => exact .same h
    | ok =>
      simp only [State.drain, within_moves]
      exact State.drainFor_cutOff _ h []
  | cut hlt =>
    refine .cut ?_
    cases r with
    | error e => exact hlt
    | ok =>
      simp only [State.drain]
      exact Nat.lt_of_lt_of_le hlt (State.size_le_drainFor _ s [])

/-- So the limit is hit if there are too many descriptors, -/
lemma solve_within_of_lt (h : n < (p.within none).run.1.agenda.size) :
    (p.within (some n)).solve.2 = .error (.overLimit n) := by
  have hcut := run_cutOff p n
  rw [solve_eq]
  generalize (p.within none).run = out, (p.within (some n)).run = out' at h hcut
  cases hcut with
  | same hle => exact absurd hle (Nat.not_le.mpr h)
  | cut => rfl

/-- and otherwise it makes no difference. -/
lemma solve_within_of_le (h : (p.within none).run.1.agenda.size ≤ n) :
    (p.within (some n)).solve = (p.within none).solve := by
  have hcut := run_cutOff p n
  rw [solve_eq, solve_eq]
  generalize (p.within none).run = out, (p.within (some n)).run = out' at h hcut
  cases hcut with
  | same => rfl
  | cut hlt => exact absurd h (Nat.not_le.mpr hlt)

end Problem

end

/-- Let a text be parsed without a limit, and let `D` be the number of items that are seen on the
way. With a limit below `D` this parse is cut off, whatever would have come out of it, and with any
other limit the same comes out. -/
theorem parse_limit {share : Bool} {rules : List (String × List Symbol)} {g : Graph}
    (hbuild : (Rules.ofList share rules).build = .ok g) {start : String} {id : SlotId}
    (hstart : g.nonterminal? start = some id) (text : String) (config : Config) :
    let p : Problem := ⟨g, .ofString text, id, config⟩
    let parseWithin (limit : Option Nat) :=
      parse g (.ofString text) start { config with maxDescriptors := limit }
    ∃ s : State, (p.within none).run = (s, .ok ()) ∧
      (∀ n < s.agenda.items.card, parseWithin (some n) = .error (.overLimit n)) ∧
      (∀ n ≥ s.agenda.items.card, parseWithin (some n) = parseWithin none) ∧
      ∀ r, parseWithin none = .ok r → r.statistics.descriptors = s.agenda.items.card := by
  intro p parseWithin
  have hg := Graph.spells_of_build hbuild
  have hparse (limit : Option Nat) : parseWithin limit = (p.within limit).solve.2 :=
    parse_eq_solve hg.valid hstart _ _
  have hwell := hg.setting_wellBuilt hstart text (p.within none).config
  rcases Problem.run_final (p := p.within none) hwell with ⟨s, hs⟩ | ⟨s, limit, hlimit, -⟩
  · refine ⟨s, hs.run, ?_, ?_, ?_⟩
    · intro n hn
      rw [hparse]
      apply Problem.solve_within_of_lt
      rwa [hs.run, ← Agenda.card_items]
    · intro n hn
      rw [hparse, hparse]
      apply congrArg Prod.snd
      apply Problem.solve_within_of_le
      rwa [hs.run, ← Agenda.card_items]
    · intro r hr
      rw [hparse, Problem.solve_eq, hs.run] at hr
      obtain ⟨root, rfl⟩ := State.eq_of_finish hr
      rw [Agenda.card_items]
      rfl
  · cases hlimit

end

/-- To parse two nested pairs of letters takes 13 descriptors, so it is cut off by a limit of 12, but
not by one of 13. -/
theorem parse_limit_nested : (Rules.ofList false Rules.nested).build = .ok Graph.nested ∧
    Graph.nested.nonterminal? "S" = some 0 ∧
    ∃ s : State, (Problem.nested.within none).run = (s, .ok ()) ∧ s.agenda.items.card = 13 ∧
      parse Graph.nested (.ofString "aabb") "S" { maxDescriptors := some 12 } =
        .error (.overLimit 12) ∧
      parse Graph.nested (.ofString "aabb") "S" { maxDescriptors := some 13 } =
        parse Graph.nested (.ofString "aabb") "S" {} := by
  obtain ⟨s, hrun, hcut, hsame, -⟩ :=
    parse_limit Graph.build_nested Graph.nonterminal?_nested "aabb" {}
  have hcard : s.agenda.items.card = 13 := by
    rw [Agenda.card_items]
    rw [← show (Problem.nested.within none).run.1 = s from congrArg Prod.fst hrun]
    decide +kernel
  exact ⟨Graph.build_nested, Graph.nonterminal?_nested, s, hrun, hcard, hcut 12 (by omega),
    hsame 13 (by omega)⟩

end GeneralParser
