import GeneralParser.Proofs.Lookups

/-!
# The agenda only moves on

A parse runs ahead of the agenda: it goes over direct transitions at once, returns to callers that
were made long before, and passes old completions on to new callers. Still, nothing is offered to
the agenda before the offset handed out last. For whatever starts where a call was made ends there
or further on, so tasks that rely on facts never go back. Hence the offsets handed out never
decrease.
-/

namespace GeneralParser

section

variable [PatternEngine]

/-! ### What was handed out -/

/-- The states that a parse goes through, with the descriptors that were handed out so far, the
newest first. A descriptor that is met with another partial result is passed over like one that is
known, or else the parse ends there. -/
inductive State.Handing (p : Problem) : List Descriptor → State → List Task → Prop
  | start {s : State} : State.start p = (s, .ok ()) → Handing p [] s []
  | handOut {ds : List Descriptor} {s s' : State} {d : Descriptor} {a : Agenda}
      {tasks : List Task} : Handing p ds s [] → s.agenda.next? = some (d, a) →
    s.move p [] = .goOn s' tasks → Handing p (d :: ds) s' tasks
  | work {ds : List Descriptor} {s s' : State} {task : Task} {rest tasks : List Task} :
    Handing p ds s (task :: rest) → s.move p (task :: rest) = .goOn s' tasks →
    Handing p ds s' tasks
  | pass {ds : List Descriptor} {s s' : State} {task : Task} {rest : List Task} :
    Handing p ds s (task :: rest) →
    s.move p (task :: rest) = .fail s' (.broken .conflictingResults) → Handing p ds s' rest

/-- The descriptors that are claimed or scheduled after those in the list were handed out, with the
states in which they are. -/
inductive Problem.OffersAfter (p : Problem) : List Descriptor → State → Descriptor → Prop
  | start : OffersAfter p [] (State.root p) ⟨⟨p.start, rootCall, 0⟩, none⟩
  | task {ds : List Descriptor} {s s₁ : State} {task : Task} {tasks : List Task}
      {d : Descriptor} : State.Handing p ds s (task :: tasks) →
    task.offer? p s = some (s₁, d) → OffersAfter p ds s₁ d

/-- The offset of the descriptor handed out last. -/
def lastIndex (ds : List Descriptor) : Nat := ds.head?.elim 0 (·.index)

namespace State

variable {p : Problem} {s s' : State} {ds : List Descriptor} {tasks : List Task}

/-- Every state that a parse goes through has such a past. -/
theorem Tolerated.exists_handing (h : Tolerated p s tasks) : ∃ ds, Handing p ds s tasks := by
  induction h with
  | start hs => exact ⟨[], .start hs⟩
  | @move s s' tasks tasks' _ hmove ih =>
    obtain ⟨ds, hds⟩ := ih
    cases tasks with
    | cons task rest => exact ⟨ds, hds.work hmove⟩
    | nil =>
      obtain ⟨d, a, hnext⟩ := exists_next? hmove
      exact ⟨d :: ds, hds.handOut hnext hmove⟩
  | pass _ hmove ih =>
    obtain ⟨ds, hds⟩ := ih
    exact ⟨ds, hds.pass hmove⟩

namespace Handing

lemma tolerated (h : Handing p ds s tasks) : Tolerated p s tasks := by
  induction h with
  | start hs => exact .start hs
  | handOut _ _ hmove ih => exact ih.move hmove
  | work _ hmove ih => exact ih.move hmove
  | pass _ hmove ih => exact ih.pass hmove

lemma drained_pass (hS : p.setting.Valid) {task : Task} {rest : List Task} {fault : Fault}
    (h : Steady p s (task :: rest))
    (hmove : s.move p (task :: rest) = .fail s' (.broken fault)) :
    s'.agenda.drained = s.agenda.drained := by
  have hrun := move_cons_eq_fail_iff.mp hmove
  exact congrArg _ (le_of_broken hS h.sound (h.task List.mem_cons_self) hrun).2

/-- The agenda stands at the offset handed out last. -/
theorem drained_eq (hS : p.setting.Valid) (h : Handing p ds s tasks) :
    s.agenda.drained = lastIndex ds := by
  induction h with
  | start hs =>
    obtain ⟨s', r, hs', hscheduled, -⟩ := start_scheduled p
    obtain rfl := congrArg Prod.fst (hs.symm.trans hs')
    exact hscheduled.claimed.drained
  | @handOut ds s s' d a tasks h hnext hmove =>
    obtain ⟨rfl, -⟩ := Move.goOn.inj ((move_nil_of_next? hnext).symm.trans hmove)
    exact (Agenda.next?_ok (h.tolerated.steady hS).sound.agenda hnext).drained
  | work h hmove ih =>
    have hm := (h.tolerated.steady hS).moves hS
    rw [hmove] at hm
    cases hm with
    | step hstep => exact hstep.drained_eq.trans ih
  | pass h hmove ih => exact (drained_pass hS (h.tolerated.steady hS) hmove).trans ih

/-- Descriptors are handed out by increasing offset. -/
theorem sorted (hS : p.setting.Valid) (h : Handing p ds s tasks) :
    ds.Pairwise fun d e => e.index ≤ d.index := by
  induction h with
  | start => exact .nil
  | @handOut ds s s' d a tasks h hnext _ ih =>
    have hs := (h.tolerated.steady hS).sound.agenda
    have hd := hs.drained_le
      ((Agenda.next?_ok hs hnext).waiting.mem_iff.mpr List.mem_cons_self)
    rw [h.drained_eq hS] at hd
    -- the offset handed out last is the largest so far
    cases ds with
    | nil => exact List.pairwise_singleton ..
    | cons last ds =>
      refine ih.cons ?_
      intro e he
      rcases List.mem_cons.mp he with rfl | he
      · exact hd
      · exact Nat.le_trans (List.rel_of_pairwise_cons ih he) hd
  | work _ _ ih | pass _ _ ih => exact ih

end Handing

end State

/-! ### What is offered -/

namespace Agenda

variable {a : Agenda} {d : Descriptor}

omit [PatternEngine] in
lemma claim_ne_behindAgenda (h : a.drained ≤ d.index) : a.claim d ≠ .error .behindAgenda := by
  rcases claim_ok (a := a) d with ⟨new, a', hd, -⟩ | ⟨hd, -⟩ | ⟨-, hlt⟩
  · simp [hd]
  · simp [hd]
  · exact absurd h (Nat.not_le.mpr hlt)

omit [PatternEngine] in
lemma schedule_ne_behindAgenda (h : a.drained ≤ d.index) :
    a.schedule d ≠ .error .behindAgenda := by
  rw [schedule]
  split
  · simp
  · exact claim_ne_behindAgenda h

end Agenda

namespace Problem

variable {p : Problem}

lemma OffersAfter.lastIndex_le {s : State} {ds : List Descriptor} {d : Descriptor}
    (hS : p.setting.Valid) (h : p.OffersAfter ds s d) :
    s.agenda.drained = lastIndex ds ∧ lastIndex ds ≤ d.index := by
  cases h with
  | start => exact ⟨rfl, Nat.le_refl _⟩
  | task h hoffer =>
    have hsteady := h.tolerated.steady hS
    obtain ⟨-, -, hle⟩ := hsteady.offered hS hoffer
    rw [← h.drained_eq hS, ← Task.agenda_of_offer? hoffer]
    exact ⟨rfl, hle⟩

lemma OffersAfter.sorted {s : State} {ds : List Descriptor} {d : Descriptor}
    (hS : p.setting.Valid) (h : p.OffersAfter ds s d) :
    ds.Pairwise fun d e => e.index ≤ d.index := by
  cases h with
  | start => exact .nil
  | task h => exact h.sorted hS

omit [PatternEngine] in
lemma le_lastIndex {ds : List Descriptor} (h : ds.Pairwise fun d e => e.index ≤ d.index)
    {d : Descriptor} (hd : d ∈ ds) : d.index ≤ lastIndex ds := by
  cases ds with
  | nil => cases hd
  | cons last ds =>
    rcases List.mem_cons.mp hd with rfl | hd
    · exact Nat.le_refl _
    · exact List.rel_of_pairwise_cons h hd

/-- The agenda of a parse never goes back. -/
structure MovesOn (p : Problem) : Prop where
  /-- Nothing is offered before an offset that was handed out. -/
  offered {ds : List Descriptor} {s : State} {d : Descriptor} : p.OffersAfter ds s d →
    ∀ e ∈ ds, e.index ≤ d.index
  /-- So no offer is refused because it comes too late. -/
  accepted {ds : List Descriptor} {s : State} {d : Descriptor} : p.OffersAfter ds s d →
    s.agenda.claim d ≠ .error .behindAgenda ∧ s.agenda.schedule d ≠ .error .behindAgenda
  /-- The offsets handed out never decrease. -/
  sorted {ds : List Descriptor} {s : State} {tasks : List Task} :
    State.Handing p ds s tasks → ds.Pairwise fun d e => e.index ≤ d.index
  run : p.run.2 ≠ .error (.broken .behindAgenda)

theorem movesOn (hS : p.setting.Valid) (ht : p.text.Readable) : p.MovesOn := by
  refine ⟨?_, ?_, fun h => h.sorted hS, ?_⟩
  · intro ds s d h e he
    exact Nat.le_trans (le_lastIndex (h.sorted hS) he) (h.lastIndex_le hS).2
  · intro ds s d h
    obtain ⟨hdrained, hle⟩ := h.lastIndex_le hS
    rw [← hdrained] at hle
    exact ⟨Agenda.claim_ne_behindAgenda hle, Agenda.schedule_ne_behindAgenda hle⟩
  · intro hrun
    rcases run_ok hS with ⟨s, hok, -⟩ | ⟨s, e, he, ha⟩
    · simp [hok] at hrun
    · rw [he] at hrun
      obtain rfl : e = .broken .behindAgenda := Except.error.inj hrun
      cases ha with
      | unreadable hfault => exact ht.not_faults hfault

end Problem

/-- On every valid graph, however it is wired, and with any configuration, the agenda of a parse
never goes back. -/
theorem parse_movesOn {g : Graph} (hg : g.validate = .ok ()) {start : String} {id : SlotId}
    (hstart : g.nonterminal? start = some id) (text : String) (config : Config) :
    Problem.MovesOn ⟨g, .ofString text, id, config⟩ ∧
      parse g (.ofString text) start config ≠ .error (.broken .behindAgenda) := by
  have hvalid := Graph.validate_eq_ok_iff.mp hg
  refine ⟨Problem.movesOn (hvalid.setting_valid hstart text config)
    (Text.readable_ofString text), ?_⟩
  intro hbehind
  have hconcludes := parse_concludes hg hstart text config
  rw [hbehind] at hconcludes
  cases hconcludes

end

/-- So it is on an oddly wired graph, on which the parse breaks off. -/
theorem parse_merging_movesOn : Graph.merging.validate = .ok () ∧
    Graph.merging.nonterminal? "S" = some 0 ∧
    Problem.MovesOn ⟨Graph.merging, .ofString "ab", 0, {}⟩ ∧
    parse Graph.merging (.ofString "ab") "S" {} ≠ .error (.broken .behindAgenda) :=
  ⟨Graph.validate_merging, Graph.nonterminal?_merging,
    parse_movesOn Graph.validate_merging Graph.nonterminal?_merging "ab" {}⟩

end GeneralParser
