import GeneralParser.Proofs.Engine.Run

/-!
# Offered descriptors

Only two kinds of tasks offer a descriptor to the agenda: those that try an alternative, and those
that arrive at a slot. What is offered is a fact that does not lie behind the agenda, so as long as
the facts determine what has been parsed, no offer is refused.
-/

namespace GeneralParser

variable [PatternEngine]

namespace Task

variable {p : Problem} {s s₁ : State} {task : Task} {d : Descriptor}

/-- The descriptor that a task claims or schedules, if any, and the state in which it does so. -/
def offer? (p : Problem) (s : State) : Task → Option (State × Descriptor)
  | .enter f c i =>
    match if p.config.lookahead then p.graph.admits p.text f i else .ok true with
    | .ok true => some (s, ⟨⟨f, c, i⟩, none⟩)
    | _ => none
  | .arrive dest c j l r _ =>
    match s.onForest (·.combine p.graph dest l r) with
    | (.ok next, s) => some (s, ⟨⟨dest, c, j⟩, some next⟩)
    | (.error _, _) => none
  | .execute _ | .cross .. => none

/-- A task that makes an offer is over once the descriptor was claimed or scheduled. -/
theorem run_of_offer? (h : task.offer? p s = some (s₁, d)) :
    (∃ tasks, task.run p s = ((s₁.claim p d).1, (s₁.claim p d).2.map tasks)) ∨
      ∃ tasks, task.run p s = ((s₁.schedule p d).1, (s₁.schedule p d).2.map tasks) := by
  cases task with
  | execute | cross => cases h
  | enter f c i =>
    simp only [offer?] at h
    split at h
    next hadm =>
      obtain ⟨rfl, rfl⟩ : s = s₁ ∧ ⟨⟨f, c, i⟩, none⟩ = d := by simpa using h
      refine Or.inr ⟨fun _ => [], ?_⟩
      simp only [run, runEnter, hadm]
    next => cases h
  | arrive dest c j l r direct =>
    simp only [offer?] at h
    split at h
    next next s' hcombine =>
      obtain ⟨rfl, rfl⟩ : s' = s₁ ∧ ⟨⟨dest, c, j⟩, some next⟩ = d := by simpa using h
      simp only [run, runArrive, hcombine]
      cases direct with
      | true => exact Or.inl ⟨_, rfl⟩
      | false => exact Or.inr ⟨_, rfl⟩
    next => cases h

/-- Before a task makes its offer it leaves all but the forest alone. -/
lemma state_of_offer? (h : task.offer? p s = some (s₁, d)) :
    s₁ = { s with forest := s₁.forest } := by
  cases task with
  | execute | cross => cases h
  | enter f c i =>
    simp only [offer?] at h
    split at h
    · obtain ⟨rfl, -⟩ := Prod.mk.inj (Option.some.inj h)
      rfl
    · cases h
  | arrive dest c j l r direct =>
    simp only [offer?, State.onForest_eq] at h
    split at h
    next hcombine =>
      obtain ⟨rfl, -⟩ := Prod.mk.inj (Option.some.inj h)
      rw [← (Prod.mk.inj hcombine).2]
    next => cases h

lemma agenda_of_offer? (h : task.offer? p s = some (s₁, d)) : s₁.agenda = s.agenda := by
  rw [state_of_offer? h]

lemma calls_of_offer? (h : task.offer? p s = some (s₁, d)) : s₁.calls = s.calls := by
  rw [state_of_offer? h]

lemma agenda_executeEnd {e : EndSlot} : (executeEnd p s d e).1.agenda = s.agenda := by
  rw [executeEnd]
  simp only [State.returnFrom, State.complete, State.onCalls_eq]
  cases d.soFar <;> split <;> simp [State.onForest_eq]

lemma agenda_runCross {t : Transition} {direct : Bool} :
    (runCross p s d t direct).1.agenda = s.agenda := by
  rw [runCross]
  split
  · rfl
  · split <;> simp [State.onForest_eq]
  · obtain ⟨log, hopen⟩ := s.openCall_eq t.symbol d.index
    obtain ⟨log', hlink⟩ := State.link_eq
      (s := { s with calls := (s.calls.call ⟨t.symbol, d.index⟩).2, log := log })
      (s.calls.call ⟨t.symbol, d.index⟩).1.1 ⟨t.dest, d.soFar, d.call⟩
    simp [State.call, hopen, hlink]
  · rfl

/-- A task that makes no offer leaves the agenda alone. -/
theorem agenda_of_offer?_eq_none (h : task.offer? p s = none) :
    (task.run p s).1.agenda = s.agenda := by
  cases task with
  | execute d =>
    simp only [run, runExecute]
    split
    · rfl
    · rfl
    · rfl
    · rfl
    · exact agenda_executeEnd
  | cross d t direct => exact agenda_runCross
  | enter f c i =>
    simp only [run, runEnter]
    split
    · rfl
    next hadm => simp [offer?, hadm] at h
    · split <;> simp
  | arrive dest c j l r direct =>
    simp only [run, runArrive]
    split
    next s' hcombine =>
      rw [State.onForest_eq] at hcombine
      simp only [Prod.mk.injEq] at hcombine
      rw [← hcombine.2]
    next hcombine => simp [offer?, hcombine] at h

/-- What a task offers is a fact, and does not lie behind the agenda. -/
lemma Sound.offered (hS : p.setting.Valid) (hs : s.Sound p.setting)
    (ht : task.Sound p.setting s) (h : task.offer? p s = some (s₁, d)) :
    s₁.Sound p.setting ∧ s₁.ItemFact p.setting d ∧ s₁.agenda.drained ≤ d.index := by
  cases task with
  | execute | cross => cases h
  | enter f c i =>
    obtain ⟨⟨site, hc, rfl, hf⟩, hle⟩ := ht
    simp only [offer?] at h
    split at h
    next hadm =>
      obtain ⟨rfl, rfl⟩ : s = s₁ ∧ ⟨⟨f, c, site.index⟩, none⟩ = d := by simpa using h
      have hadmits : p.setting.Admits f site.index := fun hl => by
        rwa [if_pos (show p.config.lookahead = true from hl)] at hadm
      exact ⟨hs, ⟨site, none, hc, .none, .enter (hs.call hc) hf hadmits⟩, hle⟩
    next => cases h
  | arrive dest c j l r direct =>
    obtain ⟨hfact, hle⟩ := ht
    obtain ⟨next, f', site, k, o, n, hcombine, -, hs₁, hitem⟩ := arrive_item hS hs hfact
    simp only [offer?, State.onForest_eq, hcombine] at h
    obtain ⟨rfl, rfl⟩ : { s with forest := f' } = s₁ ∧ ⟨⟨dest, c, j⟩, some next⟩ = d := by
      simpa using h
    exact ⟨hs₁, hitem, hle⟩

end Task

lemma State.Steady.offered {p : Problem} {s s₁ : State} {task : Task} {tasks : List Task}
    {d : Descriptor} (hS : p.setting.Valid) (h : Steady p s (task :: tasks))
    (hoffer : task.offer? p s = some (s₁, d)) :
    s₁.Sound p.setting ∧ s₁.ItemFact p.setting d ∧ s₁.agenda.drained ≤ d.index :=
  (h.task List.mem_cons_self).offered hS h.sound hoffer

/-! ### Offers of a run -/

/-- The descriptors that are claimed or scheduled in a run, with the states in which they are: the
one with which a parse starts, and those that the tasks offer. By `Task.run_of_offer?` all of these
are claimed or scheduled, and by `Task.agenda_of_offer?_eq_none` there are no others. -/
inductive Problem.Offers (p : Problem) : State → Descriptor → Prop
  | start : Offers p (State.root p) ⟨⟨p.start, rootCall, 0⟩, none⟩
  | task {s s₁ : State} {task : Task} {tasks : List Task} {d : Descriptor} :
    State.Reachable p s (task :: tasks) → task.offer? p s = some (s₁, d) → Offers p s₁ d

namespace Problem.Offers

variable {p : Problem} {s : State} {d : Descriptor} (hS : p.setting.Valid) (h : p.Offers s d)
include hS h

lemma fact : s.Sound p.setting ∧ s.ItemFact p.setting d ∧ s.agenda.drained ≤ d.index := by
  cases h with
  | start => exact ⟨State.sound_root, State.itemFact_root, Nat.le_refl _⟩
  | task hreach hoffer => exact (hreach.running hS).offered hS hoffer

/-- No offer is refused. -/
theorem claim_ok (hfun : p.setting.Functional) : ∃ r, s.agenda.claim d = .ok r := by
  obtain ⟨hs, hitem, hle⟩ := h.fact hS
  rcases Agenda.claim_ok (a := s.agenda) d with ⟨new, a, hd, -⟩ | ⟨-, ho⟩ | ⟨-, hlt⟩
  · exact ⟨_, hd⟩
  · have href : s.Refused d .conflictingResults := Or.inl ⟨rfl, ho⟩
    exact absurd hfun (href.not_functional hS hs hitem hle).2
  · exact absurd hlt (Nat.not_lt.mpr hle)

end Problem.Offers

end GeneralParser
