import GeneralParser.Proofs.Engine.Bound
import GeneralParser.Proofs.Engine.Making

/-!
# States on the way

A descriptor that is met with another partial result ends a parse, unless it is passed over like one
that is known. In either case a parse passes through more states than those between two tasks. All
these states are sound, and in all of them every node for a nonterminal or for the beginning of a
rule has packed nodes below it.
-/

namespace GeneralParser

variable [PatternEngine]

/-! ### Descriptors that are passed over -/

namespace State

variable {p : Problem} {s s' s₁ : State} {task : Task} {tasks : List Task} {d : Descriptor}
  {fault : Fault}

/-- The states that a parse goes through if a descriptor that is met with another partial result is
passed over like one that is known. -/
inductive Tolerated (p : Problem) : State → List Task → Prop
  | start {s : State} : State.start p = (s, .ok ()) → Tolerated p s []
  | move {s s' : State} {tasks tasks' : List Task} : Tolerated p s tasks →
    s.move p tasks = .goOn s' tasks' → Tolerated p s' tasks'
  | pass {s s' : State} {task : Task} {rest : List Task} : Tolerated p s (task :: rest) →
    s.move p (task :: rest) = .fail s' (.broken .conflictingResults) → Tolerated p s' rest

/-- Where no descriptor is passed over, a parse goes through such states, too. -/
lemma Reachable.tolerated (h : Reachable p s tasks) : Tolerated p s tasks := by
  induction h with
  | start hs => exact .start hs
  | move _ hmove ih => exact ih.move hmove

lemma checkLimit_ne_broken : s.checkLimit p ≠ .error (.broken fault) := by
  rw [checkLimit]
  split
  · split <;> simp
  · simp

omit [PatternEngine] in
lemma eq_error_of_map {α β : Type} {f : α → β} {r : Except Failure α} {e : Failure}
    (h : r.map f = .error e) : r = .error e := by
  cases r with
  | ok a => cases h
  | error e' => exact congrArg Except.error (Except.error.inj h)

lemma claim_eq_of_broken (h : (s.claim p d).2 = .error (.broken fault)) :
    s.agenda.claim d = .error fault := by
  rw [claim] at h
  split at h
  next hclaim =>
    obtain rfl := Failure.broken.inj (Except.error.inj h)
    exact hclaim
  next => cases h
  next => exact absurd (eq_error_of_map h) checkLimit_ne_broken

lemma schedule_eq_of_broken (h : (s.schedule p d).2 = .error (.broken fault)) :
    s.agenda.schedule d = .error fault := by
  rw [schedule] at h
  split at h
  next hschedule =>
    obtain rfl := Failure.broken.inj (Except.error.inj h)
    exact hschedule
  next => cases h
  next => exact absurd h checkLimit_ne_broken

/-- A claim that breaks an assumption changes nothing. -/
lemma claim_of_broken (h : (s.claim p d).2 = .error (.broken fault)) : (s.claim p d).1 = s := by
  rw [claim, claim_eq_of_broken h]

lemma schedule_of_broken (h : (s.schedule p d).2 = .error (.broken fault)) :
    (s.schedule p d).1 = s := by
  rw [schedule, schedule_eq_of_broken h]

/-- Before a task offers a descriptor, at most its node is made. -/
lemma le_of_offer? (hS : p.setting.Valid) (hs : s.Sound p.setting)
    (ht : task.Sound p.setting s) (h : task.offer? p s = some (s₁, d)) : s.Le s₁ := by
  cases task with
  | execute | cross => cases h
  | enter f c i =>
    simp only [Task.offer?] at h
    split at h
    · obtain ⟨rfl, -⟩ : s = s₁ ∧ _ = d := by simpa using h
      exact .refl s
    · cases h
  | arrive dest c j l r direct =>
    obtain ⟨next, f', site, k, o, n, hcombine, hnode, -⟩ := Task.arrive_item hS hs ht.fact
    simp only [Task.offer?, onForest_eq, hcombine] at h
    obtain ⟨rfl, -⟩ : { s with forest := f' } = s₁ ∧ _ = d := by simpa using h
    exact ⟨.refl _, hnode.forest.le, id, fun ho => ⟨_, ho, Nat.le_refl _⟩⟩

/-- A task that breaks an assumption leaves the agenda alone and loses nothing. -/
lemma le_of_broken (hS : p.setting.Valid) (hs : s.Sound p.setting)
    (ht : task.Sound p.setting s) (h : task.run p s = (s', .error (.broken fault))) :
    s.Le s' ∧ s'.agenda = s.agenda := by
  cases hoffer : task.offer? p s with
  | none =>
    have hsame := Task.state_of_error hoffer (congrArg Prod.snd h)
    obtain rfl : s' = s := (congrArg Prod.fst h).symm.trans hsame
    exact ⟨.refl s', rfl⟩
  | some offer =>
    obtain ⟨s₁, d⟩ := offer
    have hle : s.Le s₁ ∧ s₁.agenda = s.agenda :=
      ⟨le_of_offer? hS hs ht hoffer, Task.agenda_of_offer? hoffer⟩
    rcases Task.run_of_offer? hoffer with ⟨left, hrun⟩ | ⟨left, hrun⟩
    · obtain ⟨hstate, hresult⟩ := Prod.mk.inj (hrun.symm.trans h)
      rw [claim_of_broken (eq_error_of_map hresult)] at hstate
      exact hstate ▸ hle
    · obtain ⟨hstate, hresult⟩ := Prod.mk.inj (hrun.symm.trans h)
      rw [schedule_of_broken (eq_error_of_map hresult)] at hstate
      exact hstate ▸ hle

/-- If a descriptor is passed over, what is stored and still to be done relies on facts as before. -/
lemma Steady.pass (hS : p.setting.Valid) (h : Steady p s (task :: tasks))
    (hrun : task.run p s = (s', .error (.broken fault))) : Steady p s' tasks := by
  have ht := h.task List.mem_cons_self
  obtain ⟨hle, hagenda⟩ := le_of_broken hS h.sound ht hrun
  have hsound := h.sound.run hS ht
  rw [hrun] at hsound
  refine ⟨hsound, ?_, ?_⟩
  · intro t hmem
    obtain ⟨hfact, hindex⟩ := h.task (List.mem_cons_of_mem _ hmem)
    exact ⟨hfact.mono hle, hagenda ▸ hindex⟩
  · intro limit hlimit
    exact hagenda ▸ h.within limit hlimit

lemma Steady.goOn (hS : p.setting.Valid) (h : Steady p s tasks) {tasks' : List Task}
    (hmove : s.move p tasks = .goOn s' tasks') : Steady p s' tasks' := by
  have hm := h.moves hS
  rw [hmove] at hm
  cases hm with
  | handOut ha => exact h.handOut ha
  | step hstep hw => exact h.step hS hstep hw

/-- All that is stored stays a fact, even if descriptors are passed over. -/
theorem Tolerated.steady (hS : p.setting.Valid) (h : Tolerated p s tasks) :
    Steady p s tasks := by
  induction h with
  | start hs => exact (Running.start hs).toSteady
  | move _ hmove ih => exact ih.goOn hS hmove
  | pass _ hmove ih => exact ih.pass hS (move_cons_eq_fail_iff.mp hmove)

/-- Moves until nothing is left to do, at most `fuel` times, and passes over descriptors that are
met with another partial result. -/
def tolerateFor (p : Problem) : Nat → State → List Task → State × List Task
  | 0, s, tasks => (s, tasks)
  | fuel + 1, s, tasks =>
    match s.move p tasks with
    | .goOn s' tasks' => tolerateFor p fuel s' tasks'
    | .fail s' (.broken .conflictingResults) => tolerateFor p fuel s' tasks.tail
    | .finish _ | .fail _ _ => (s, tasks)

lemma Tolerated.tolerateFor (h : Tolerated p s tasks) (fuel : Nat) :
    Tolerated p (State.tolerateFor p fuel s tasks).1 (State.tolerateFor p fuel s tasks).2 := by
  induction fuel generalizing s tasks with
  | zero => exact h
  | succ fuel ih =>
    rw [State.tolerateFor]
    split
    next hmove => exact ih (h.move hmove)
    next s' hmove =>
      cases tasks with
      | nil =>
        -- taking a descriptor from the agenda never fails
        rw [State.move, State.handOut] at hmove
        split at hmove <;> cases hmove
      | cons task rest => exact ih (h.pass hmove)
    next => exact h
    next => exact h

end State

/-! ### Moves -/

/-- The state to which a move leads. -/
def Move.state : Move → State
  | .goOn s _ | .finish s | .fail s _ => s

namespace State

variable {p : Problem} {s : State} {tasks : List Task}

lemma state_move_cons {task : Task} :
    (s.move p (task :: tasks)).state = (task.run p s).1 := by
  rw [move]
  obtain ⟨s', r⟩ := task.run p s
  cases r <;> rfl

lemma made_move : s.forest.Made p.graph (s.move p tasks).state.forest := by
  cases tasks with
  | nil =>
    have hforest : (s.move p []).state.forest = s.forest := by
      rw [move]
      rw [handOut]
      split <;> rfl
    rw [hforest]
    exact .same
  | cons task tasks =>
    rw [state_move_cons]
    exact Task.made

lemma Steady.sound_move (hS : p.setting.Valid) (h : Steady p s tasks) :
    (s.move p tasks).state.Sound p.setting := by
  cases tasks with
  | nil =>
    rw [move]
    rw [State.handOut]
    cases hnext : s.agenda.next? with
    | none => exact h.sound
    | some next => exact (h.handOut (Agenda.next?_ok h.sound.agenda hnext)).sound
  | cons task tasks =>
    rw [state_move_cons]
    exact h.sound.run hS (h.task List.mem_cons_self)

lemma founded_start : (State.start p).1.forest.Founded := by
  rw [start_eq]
  rw [schedule_forest]
  exact Forest.founded_empty

/-- A move founds the nodes that it makes, even if it fails. -/
lemma Steady.founded_move (h : Steady p s tasks) (hfounded : s.forest.Founded) :
    (s.move p tasks).state.forest.Founded :=
  hfounded.made h.sound.forest.wellFormed made_move

theorem Tolerated.founded (hS : p.setting.Valid) (h : Tolerated p s tasks) :
    s.forest.Founded := by
  induction h with
  | start hs =>
    have hfounded := founded_start (p := p)
    rwa [hs] at hfounded
  | move h hmove ih | pass h hmove ih =>
    have hfounded := (h.steady hS).founded_move ih
    rwa [hmove] at hfounded

end State

/-! ### The states of a parse -/

/-- The descriptor that a task works on. -/
def Task.descriptor? : Task → Option Descriptor
  | .execute d | .cross d _ _ => some d
  | .enter .. | .arrive .. => none

lemma Task.Fact.of_descriptor? {S : Setting} {s : State} {task : Task} {d : Descriptor}
    (h : task.Fact S s) (hd : task.descriptor? = some d) : (Task.execute d).Fact S s := by
  cases task with
  | execute =>
    cases hd
    exact h
  | cross =>
    cases hd
    exact Or.inl h.1
  | enter | arrive => cases hd

/-- The states that a parse passes through between two changes of its forest, with the descriptors
that it has in hand there. Where a descriptor is met with another partial result, the parse ends or
passes it over. -/
inductive Problem.Passes (p : Problem) : State → List Descriptor → Prop
  | root : Passes p (State.root p) [⟨⟨p.start, rootCall, 0⟩, none⟩]
  | started : Passes p (State.start p).1 []
  | reached {s : State} {tasks : List Task} : State.Tolerated p s tasks →
    Passes p s (tasks.filterMap Task.descriptor?)
  /-- A node was made, and the descriptor that brings it has not been offered yet. -/
  | offered {s s₁ : State} {task : Task} {tasks : List Task} {d : Descriptor} :
    State.Tolerated p s (task :: tasks) → task.offer? p s = some (s₁, d) →
    Passes p s₁ (d :: tasks.filterMap Task.descriptor?)
  /-- A move was made, which possibly failed. -/
  | moved {s : State} {tasks : List Task} : State.Tolerated p s tasks →
    Passes p (s.move p tasks).state []
  | finished {s : State} : State.Tolerated p s [] → Passes p (s.finish p).1 []

namespace Problem

variable {p : Problem} {s : State} {ds : List Descriptor} {d : Descriptor}

lemma Passes.sound (hS : p.setting.Valid) (h : p.Passes s ds) : s.Sound p.setting := by
  cases h with
  | root => exact State.sound_root
  | started =>
    rw [State.start_eq]
    exact State.sound_root.schedule State.itemFact_root
  | reached h => exact (h.steady hS).sound
  | offered h hoffer => exact ((h.steady hS).offered hS hoffer).1
  | moved h => exact (h.steady hS).sound_move hS
  | finished h => exact (h.steady hS).sound.finish

lemma Passes.founded (hS : p.setting.Valid) (h : p.Passes s ds) : s.forest.Founded := by
  cases h with
  | root => exact Forest.founded_empty
  | started => exact State.founded_start
  | reached h => exact h.founded hS
  | offered h hoffer =>
    exact (h.founded hS).made (h.steady hS).sound.forest.wellFormed (Task.made_of_offer? hoffer)
  | moved h => exact (h.steady hS).founded_move (h.founded hS)
  | finished h =>
    rw [State.finish_forest]
    exact h.founded hS

/-- What is in hand is a fact, or enters a call. -/
lemma Passes.fact (hS : p.setting.Valid) (h : p.Passes s ds) (hd : d ∈ ds) :
    (Task.execute d).Fact p.setting s := by
  cases h with
  | started | moved | finished => cases hd
  | root =>
    obtain rfl := List.mem_singleton.mp hd
    exact Or.inl State.itemFact_root
  | reached h =>
    obtain ⟨task, htask, hdescriptor⟩ := List.mem_filterMap.mp hd
    exact ((h.steady hS).task htask).fact.of_descriptor? hdescriptor
  | offered h hoffer =>
    have hsteady := h.steady hS
    rcases List.mem_cons.mp hd with rfl | hd
    · exact Or.inl (hsteady.offered hS hoffer).2.1
    · obtain ⟨task, htask, hdescriptor⟩ := List.mem_filterMap.mp hd
      have hfact := (hsteady.task (List.mem_cons_of_mem _ htask)).fact
      have hle := State.le_of_offer? hS hsteady.sound (hsteady.task List.mem_cons_self) hoffer
      exact (hfact.mono hle).of_descriptor? hdescriptor

end Problem

lemma State.Tolerated.exists_passes {p : Problem} {s : State} {tasks : List Task} {fuel : Nat}
    (h : Tolerated p s tasks) : ∃ ds, p.Passes (State.drainFor p fuel s tasks).1 ds := by
  induction fuel generalizing s tasks with
  | zero => exact ⟨_, .reached h⟩
  | succ fuel ih =>
    have hmoved := Problem.Passes.moved h
    rw [State.drainFor]
    cases hmove : s.move p tasks with
    | goOn s' tasks' => exact ih (h.move hmove)
    | finish s' =>
      rw [hmove] at hmoved
      exact ⟨[], hmoved⟩
    | fail s' e =>
      rw [hmove] at hmoved
      exact ⟨[], hmoved⟩

lemma Problem.exists_passes_run (p : Problem) : ∃ ds, p.Passes p.run.1 ds := by
  have hstarted : p.Passes (State.start p).1 [] := .started
  rw [run]
  obtain ⟨s, r, hstart⟩ : ∃ s r, State.start p = (s, r) := ⟨_, _, rfl⟩
  rw [hstart] at hstarted ⊢
  cases r with
  | error e => exact ⟨[], hstarted⟩
  | ok => exact (State.Tolerated.start hstart).exists_passes

/-- A parse ends in a state that it passes through. -/
lemma Problem.exists_passes_solve {p : Problem} (hS : p.setting.Valid) :
    ∃ ds, p.Passes p.solve.1 ds := by
  rw [solve_eq]
  rcases run_ok hS with ⟨s, hrun, hreach, -⟩ | ⟨s, e, hrun, -⟩
  · rw [hrun]
    exact ⟨[], .finished hreach.tolerated⟩
  · obtain ⟨ds, hds⟩ := p.exists_passes_run
    rw [hrun] at hds ⊢
    exact ⟨ds, hds⟩

/-- The forest that a successful parse returns is that of its last state. -/
lemma Problem.forest_of_solve {p : Problem} {r : Success} (h : p.solve.2 = .ok r) :
    p.solve.1.forest = r.forest := by
  rw [solve_eq] at h ⊢
  obtain ⟨s, result, hrun⟩ : ∃ s result, p.run = (s, result) := ⟨_, _, rfl⟩
  rw [hrun] at h ⊢
  cases result with
  | error e => cases h
  | ok =>
    obtain ⟨root, rfl⟩ := State.eq_of_finish h
    exact State.finish_forest

end GeneralParser
