import GeneralParser.Proofs.Engine.Known

/-!
# Runs

A run goes from the start from move to move. What holds of all states on the way is an invariant of
the single moves: the state is sound, nothing has been forgotten, and no more descriptors were seen
than are allowed.
-/

namespace GeneralParser

variable [PatternEngine]

open Slots (role? head? Leads)

namespace State

variable {p : Problem} {s s' : State} {tasks tasks' : List Task}

/-- The states that a parse goes through, with the tasks on the stack. Between two descriptors the
stack is empty. -/
inductive Reachable (p : Problem) : State → List Task → Prop
  | start {s : State} : State.start p = (s, .ok ()) → Reachable p s []
  | move {s s' : State} {tasks tasks' : List Task} : Reachable p s tasks →
    s.move p tasks = .goOn s' tasks' → Reachable p s' tasks'

/-- What is stored and what is still to be done relies on facts, and no more descriptors were seen
than are allowed. -/
structure Steady (p : Problem) (s : State) (tasks : List Task) : Prop where
  sound : s.Sound p.setting
  task {t : Task} : t ∈ tasks → t.Sound p.setting s
  within : s.Within p

/-- What holds of a parse at any time. -/
structure Running (p : Problem) (s : State) (tasks : List Task) : Prop
    extends Steady p s tasks where
  closed : s.Closed p.setting tasks

/-- The failures that end a parse early. The second kind only occurs if the facts do not determine
what is stored, and the third only if the text cannot be read. -/
inductive Aborted (p : Problem) (s : State) : Failure → Prop
  | overLimit {limit : Nat} : p.config.maxDescriptors = some limit → limit < s.agenda.size →
    s.Sound p.setting → Aborted p s (.overLimit limit)
  | conflict : ¬ p.setting.Functional → Aborted p s (.broken .conflictingResults)
  | unreadable {fault : Fault} : p.text.Faults fault → Aborted p s (.broken fault)

/-! ### The start -/

/-- Where a parse starts, before the first descriptor is scheduled. -/
def root (p : Problem) : State :=
  { empty p.config.order with calls := (CallGraph.empty.call p.rootSite).2 }

lemma start_eq : State.start p = (root p).schedule p ⟨⟨p.start, rootCall, 0⟩, none⟩ := rfl

lemma called_root : CallGraph.empty.Called p.rootSite rootCall true (root p).calls :=
  CallGraph.call_ok CallGraph.wellFormed_empty
    (by simp [root, CallGraph.call, CallGraph.find?, CallGraph.empty, CallGraph.size, rootCall])

lemma site?_root {c : CallId} {site : CallSite} (h : (root p).calls.site? c = some site) :
    c = rootCall ∧ site = p.rootSite := by
  rcases called_root.back h with h | ⟨-, hc⟩
  · simp [CallGraph.empty, CallGraph.site?] at h
  · exact hc

lemma edges_root {c : CallId} : (root p).calls.edges c = [] := by
  rw [called_root.edges]
  simp [CallGraph.empty, CallGraph.edges_eq]

lemma completions_root {c : CallId} : (root p).calls.completions c = [] := by
  rw [called_root.completions]
  simp [CallGraph.empty, CallGraph.completions_eq]

lemma sound_root : (root p).Sound p.setting where
  calls := called_root.wellFormed
  forest := Forest.sound_empty
  agenda := Agenda.wellFormed_empty _
  root := called_root.called
  call hc := by
    obtain ⟨-, rfl⟩ := site?_root hc
    exact .root
  edge he := by simp [edges_root] at he
  completion hi := by simp [completions_root] at hi
  item hi := by simp [root, empty, Agenda.empty] at hi
  furthest ho := by simp [root, empty] at ho

/-- The first descriptor is a fact, -/
lemma itemFact_root : (root p).ItemFact p.setting ⟨⟨p.start, rootCall, 0⟩, none⟩ :=
  ⟨_, none, sound_root.root, .none, .seed⟩

/-- and it is scheduled. -/
lemma start_scheduled (p : Problem) : ∃ s r, State.start p = (s, r) ∧
    (root p).agenda.Scheduled ⟨⟨p.start, rootCall, 0⟩, none⟩ true s.agenda ∧ (root p).Same s ∧
      Returns p (root p) s r () := by
  have hempty (i : Item) : (root p).agenda.seen[i]? = none := by simp [root, empty, Agenda.empty]
  refine ⟨_, _, start_eq, ?_⟩
  rcases schedule_ok (p := p) (sound_root (p := p)).agenda ⟨⟨p.start, rootCall, 0⟩, none⟩ with
    ⟨new, hsch, hsame, hret⟩ | ⟨fault, -, ⟨-, l, hl, -⟩ | ⟨-, hlt⟩⟩
  · obtain rfl : new = true := hsch.claimed.new_iff.mpr (hempty _)
    exact ⟨hsch, hsame, hret⟩
  · rw [hempty] at hl
    cases hl
  · exact absurd hlt (Nat.not_lt_zero _)

/-- At the start there is one call, and the descriptor that enters it. -/
lemma start_ok (p : Problem) :
    (∃ s, State.start p = (s, .ok ()) ∧ Running p s []) ∨
      ∃ s e, State.start p = (s, .error e) ∧ Aborted p s e := by
  have hroot := sound_root (p := p)
  obtain ⟨s, r, hs, hsch, hsame, hret⟩ := start_scheduled p
  have hitem {i : Item} {l : Option NodeId} (hi : s.agenda.seen[i]? = some l) :
      i = ⟨p.start, rootCall, 0⟩ ∧ l = none := by
    rcases hsch.claimed.back hi with hi | ⟨-, hi, hl⟩
    · simp [root, empty, Agenda.empty] at hi
    · exact ⟨hi, hl⟩
  have hwait : ⟨⟨p.start, rootCall, 0⟩, none⟩ ∈ s.agenda.waiting :=
    hsch.waiting.mem_iff.mpr (by simp)
  have hle : (root p).Le s :=
    ⟨hsame.calls ▸ .refl _, hsame.forest ▸ .refl _, hsch.claimed.mono,
      fun ho => ⟨_, hsame.furthest ▸ ho, Nat.le_refl _⟩⟩
  have hsound : s.Sound p.setting := by
    refine hroot.grow hle (hsame.calls ▸ hroot.calls) (hsame.forest ▸ hroot.forest)
      hsch.wellFormed (fun h => Or.inl (hsame.calls ▸ h)) (fun h => Or.inl (hsame.calls ▸ h))
      (fun h => Or.inl (hsame.calls ▸ h)) (fun hi => Or.inr ?_)
      (fun h => Or.inl (hsame.furthest ▸ h))
    obtain ⟨rfl, rfl⟩ := hitem hi
    exact itemFact_root.mono hle
  have hclosed : s.Closed p.setting [] := by
    refine ⟨hsch.claimed.seen, ?_, ?_, ?_⟩
    · intro i l hi
      obtain ⟨rfl, rfl⟩ := hitem hi
      exact Or.inl hwait
    · intro c site hc
      rw [hsame.calls] at hc
      obtain ⟨rfl, rfl⟩ := site?_root hc
      exact Or.inl hwait
    · intro c e r he _
      rw [hsame.calls, edges_root] at he
      cases he
  rcases hret with ⟨rfl, hw⟩ | ⟨limit, hlimit, hlt, rfl⟩
  · refine Or.inl ⟨s, hs, ⟨hsound, by simp, hw ?_⟩, hclosed⟩
    intro limit _
    exact Nat.zero_le limit
  · exact Or.inr ⟨s, _, hs, .overLimit hlimit hlt hsound⟩

/-- A parse that starts at all is under way. -/
lemma Running.start (h : State.start p = (s, .ok ())) : Running p s [] := by
  rcases start_ok p with ⟨s', hs', hrun⟩ | ⟨s', e, hs', -⟩
  · obtain rfl := congrArg Prod.fst (h.symm.trans hs')
    exact hrun
  · cases congrArg Prod.snd (h.symm.trans hs')

/-! ### Moves -/

lemma move_nil_of_next? {d : Descriptor} {a : Agenda} (h : s.agenda.next? = some (d, a)) :
    s.move p [] = .goOn ({ s with agenda := a }.record
      (.processing d.slot d.index (s.calls.name d.call))) [.execute d] := by
  simp only [move, State.handOut, h]

lemma exists_next? (h : s.move p [] = .goOn s' tasks) : ∃ d a, s.agenda.next? = some (d, a) := by
  cases hnext : s.agenda.next? with
  | none => simp [move, State.handOut, hnext] at h
  | some next => exact ⟨_, _, rfl⟩

lemma move_cons_eq_goOn_iff {task : Task} {rest : List Task} :
    s.move p (task :: rest) = .goOn s' tasks ↔
      ∃ new, task.run p s = (s', .ok new) ∧ new ++ rest = tasks := by
  obtain ⟨s₁, r, hrun⟩ : ∃ s₁ r, task.run p s = (s₁, r) := ⟨_, _, rfl⟩
  simp only [move, hrun]
  cases r <;> simp

lemma move_cons_eq_fail_iff {task : Task} {rest : List Task} {e : Failure} :
    s.move p (task :: rest) = .fail s' e ↔ task.run p s = (s', .error e) := by
  obtain ⟨s₁, r, hrun⟩ : ∃ s₁ r, task.run p s = (s₁, r) := ⟨_, _, rfl⟩
  simp only [move, hrun]
  cases r <;> simp

omit [PatternEngine] in
/-- Handing out a descriptor changes nothing but the agenda and the log. -/
lemma le_handOut {d : Descriptor} {a : Agenda} {e : Event} (ha : s.agenda.HandedOut d a) :
    s.Le ({ s with agenda := a }.record e) :=
  ⟨.refl _, .refl _, fun hi => by simpa [ha.seen] using hi, fun ho => ⟨_, ho, Nat.le_refl _⟩⟩

/-- A descriptor that is handed out is to be executed. -/
lemma Steady.handOut (h : Steady p s []) {d : Descriptor} {a : Agenda} {e : Event}
    (ha : s.agenda.HandedOut d a) : Steady p ({ s with agenda := a }.record e) [.execute d] := by
  have hs := h.sound
  have hle := le_handOut (e := e) ha
  refine ⟨hs.grow hle hs.calls hs.forest ha.wellFormed Or.inl Or.inl Or.inl
    (fun hi => Or.inl (ha.seen ▸ hi)) Or.inl, ?_, ?_⟩
  · intro t ht
    obtain rfl := List.mem_singleton.mp ht
    have hmem : d ∈ s.agenda.waiting := ha.waiting.mem_iff.mpr List.mem_cons_self
    exact ⟨Or.inl ((hs.item (hs.agenda.seen hmem)).mono hle), Nat.le_of_eq ha.drained⟩
  · intro limit hlimit
    have hsize : a.size = s.agenda.size := congrArg Std.ExtTreeMap.size ha.seen
    exact hsize ▸ h.within limit hlimit

/-- Handing out a descriptor forgets nothing. -/
lemma Running.handOut (h : Running p s []) {d : Descriptor} {a : Agenda} {e : Event}
    (ha : s.agenda.HandedOut d a) : Running p ({ s with agenda := a }.record e) [.execute d] := by
  have hle := le_handOut (e := e) ha
  have hcar : Carries p.setting s [] ({ s with agenda := a }.record e) [.execute d] :=
    ⟨hle, .refl h.sound.forest, by simp⟩
  have hhandled {d' : Descriptor} (hd : s.Handled p.setting [] d') :
      ({ s with agenda := a }.record e).Handled p.setting [.execute d] d' := by
    refine hcar.handled ?_ hd
    intro d' hd
    rcases List.mem_cons.mp (ha.waiting.mem_iff.mp hd) with rfl | hd
    · exact Or.inr (by simp)
    · exact Or.inl hd
  refine ⟨h.toSteady.handOut ha, hle.seen h.closed.seed,
    fun hi => hhandled (h.closed.item (ha.seen ▸ hi)), fun hc => hhandled (h.closed.entry hc), ?_⟩
  intro c e r he hr
  obtain ⟨n, i, j, hn, hspan, harr⟩ := h.closed.pair he hr
  exact ⟨n, i, j, hn, hspan, hcar.arrived harr⟩

/-- What a step leaves to be done relies on facts again. -/
lemma Steady.step (hS : p.setting.Valid) {task : Task} {rest : List Task}
    (h : Steady p s (task :: rest)) (hstep : Step p s task s' tasks') (hw : s'.Within p) :
    Steady p s' (tasks' ++ rest) := by
  have ht := h.task List.mem_cons_self
  refine ⟨hstep.sound hS h.sound ht, ?_, hw⟩
  intro t hmem
  rcases List.mem_append.mp hmem with hmem | hmem
  · exact hstep.sound_of_mem hS h.sound ht hmem
  · exact (h.task (List.mem_cons_of_mem _ hmem)).step h.sound hstep

/-- A step leads from one moment of a run to another. -/
lemma Running.step (hS : p.setting.Valid) {task : Task} {rest : List Task}
    (h : Running p s (task :: rest)) (hstep : Step p s task s' tasks') (hw : s'.Within p) :
    Running p s' (tasks' ++ rest) :=
  ⟨h.toSteady.step hS hstep hw,
    hstep.closed hS h.sound (h.task List.mem_cons_self) h.closed⟩

/-- What a move comes to. -/
inductive Moves (p : Problem) (s : State) : List Task → Move → Prop
  | handOut {d : Descriptor} {a : Agenda} {e : Event} : s.agenda.HandedOut d a →
    Moves p s [] (.goOn ({ s with agenda := a }.record e) [.execute d])
  | finish : s.agenda.waiting = [] → Moves p s [] (.finish s)
  | step {task : Task} {new rest : List Task} {s' : State} : Step p s task s' new →
    s'.Within p → Moves p s (task :: rest) (.goOn s' (new ++ rest))
  | abort {tasks : List Task} {s' : State} {e : Failure} : Aborted p s' e →
    Moves p s tasks (.fail s' e)

/-- Every move is of one of these kinds. -/
lemma Steady.moves (hS : p.setting.Valid) (h : Steady p s tasks) :
    Moves p s tasks (s.move p tasks) := by
  cases tasks with
  | nil =>
    rw [show s.move p [] = s.handOut from rfl]
    rw [State.handOut]
    cases hnext : s.agenda.next? with
    | none => exact .finish (Agenda.next?_eq_none_iff.mp hnext)
    | some next =>
      obtain ⟨d, a⟩ := next
      exact .handOut (Agenda.next?_ok h.sound.agenda hnext)
  | cons task rest =>
    have ht := h.task List.mem_cons_self
    obtain ⟨s', r, hrun⟩ : ∃ s' r, task.run p s = (s', r) := ⟨_, _, rfl⟩
    have hgoes := Task.run_goes hS h.sound ht
    rw [hrun] at hgoes
    simp only [State.move, hrun]
    rcases hgoes with ⟨new, hstep, ⟨hr, hw⟩ | ⟨limit, hlimit, hlt, hr⟩⟩ | ⟨hr, hfun⟩ |
      ⟨fault, hr, ht⟩
    · obtain rfl : r = .ok new := hr
      exact .step hstep (hw h.within)
    · obtain rfl : r = .error (.overLimit limit) := hr
      exact .abort (.overLimit hlimit hlt (hstep.sound hS h.sound ht))
    · obtain rfl : r = .error (.broken .conflictingResults) := hr
      exact .abort (.conflict hfun)
    · obtain rfl : r = .error (.broken fault) := hr
      exact .abort (.unreadable ht)

lemma Running.goOn (hS : p.setting.Valid) (h : Running p s tasks)
    (hmove : s.move p tasks = .goOn s' tasks') : Running p s' tasks' := by
  have hm := h.moves hS
  rw [hmove] at hm
  cases hm with
  | handOut ha => exact h.handOut ha
  | step hstep hw => exact h.step hS hstep hw

/-- The invariant holds all the way. -/
theorem Reachable.running (hS : p.setting.Valid) (h : Reachable p s tasks) :
    Running p s tasks := by
  induction h with
  | start hs => exact .start hs
  | move _ hmove ih => exact ih.goOn hS hmove

/-! ### The end -/

/-- What a parse returns is what it has stored. -/
lemma eq_of_finish {r : Success} (h : (s.finish p).2 = .ok r) :
    ∃ root, r = ⟨root, s.forest, s.statistics⟩ := by
  rw [finish] at h
  split at h
  · cases h
  · split at h
    · exact ⟨_, (Except.ok.inj h).symm⟩
    · cases h

end State

end GeneralParser
