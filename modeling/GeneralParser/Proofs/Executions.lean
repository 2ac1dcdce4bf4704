import GeneralParser.Proofs.Lookups

/-!
# Executions

Every descriptor that was ever offered is executed exactly once: either it is handed out, or it is
new to the task that claims it, which then goes on with it at once. However often it is offered in
either way, and whether or not it still waits then, nothing is lost and nothing done twice. Besides
these descriptors only calls are entered.
-/

namespace GeneralParser

open Slots (role?)

/-! ### Accounts of the agenda -/

namespace Agenda

/-- All that was offered was taken or waits, and nothing is there twice. -/
structure Books (a : Agenda) (offered : List Item) (taken : List Descriptor) : Prop where
  seen {i : Item} : i ∈ offered ↔ ∃ o, a.seen[i]? = some o
  mem {i : Item} : i ∈ offered ↔ i ∈ (taken ++ a.waiting).map (·.toItem)
  nodup : ((taken ++ a.waiting).map (·.toItem)).Nodup

variable {a a' : Agenda} {offered : List Item} {taken taken' : List Descriptor} {d : Descriptor}
  {new : Bool}

lemma books_empty (order : DrainOrder) : Books (empty order) [] [] := by
  refine ⟨?_, ?_, ?_⟩ <;> simp [empty, waiting]

/-- Descriptors may be moved about. -/
lemma Books.perm (h : a.Books offered taken) (hseen : a'.seen = a.seen)
    (hperm : (taken' ++ a'.waiting).Perm (taken ++ a.waiting)) : a'.Books offered taken' := by
  have hkeys := hperm.map (·.toItem)
  exact ⟨hseen ▸ h.seen, h.mem.trans hkeys.mem_iff.symm, hkeys.nodup_iff.mpr h.nodup⟩

/-- What was seen may be offered again. -/
lemma Books.again (h : a.Books offered taken) {i : Item} (hi : ∃ o, a.seen[i]? = some o) :
    a.Books (i :: offered) taken := by
  have hoffered {j : Item} : j ∈ i :: offered ↔ j ∈ offered := by
    rw [List.mem_cons]
    exact or_iff_right_of_imp fun hj => hj ▸ h.seen.mpr hi
  exact ⟨hoffered.trans h.seen, hoffered.trans h.mem, h.nodup⟩

/-- A descriptor that was offered is taken or waits if it is new. -/
lemma Books.offer (h : a.Books offered taken) (hc : Claimed a d new a')
    (hperm : (taken' ++ a'.waiting).Perm
      (if new = true then d :: (taken ++ a.waiting) else taken ++ a.waiting)) :
    a'.Books (d.toItem :: offered) taken' := by
  cases new with
  | false =>
    obtain rfl := hc.same rfl
    exact (h.perm rfl hperm).again ⟨_, hc.seen⟩
  | true =>
    have hd : d.toItem ∉ offered := by
      rw [h.seen, hc.new_iff.mp rfl]
      simp
    have hkeys := hperm.map (·.toItem)
    simp only [if_pos, List.map_cons] at hkeys
    refine ⟨?_, ?_, hkeys.nodup_iff.mpr (List.nodup_cons.mpr ⟨h.mem.not.mp hd, h.nodup⟩)⟩
    · intro i
      rw [List.mem_cons, h.seen, hc.seen_iff]
    · intro i
      rw [List.mem_cons, h.mem, hkeys.mem_iff, List.mem_cons]

lemma Books.size (h : a.Books offered taken) : a.size = (taken ++ a.waiting).length := by
  have hitems : a.items = ((taken ++ a.waiting).map (·.toItem)).toFinset := by
    ext i
    rw [mem_items, List.mem_toFinset, ← h.mem, h.seen]
  rw [← card_items, hitems, List.toFinset_card_of_nodup h.nodup, List.length_map]

end Agenda

/-! ### Histories -/

namespace Task

/-- The descriptor that a task executes. -/
def executed? : Task → Option Descriptor
  | .execute d => some d
  | _ => none

/-- The descriptors that are executed by a list of tasks. -/
def executing (tasks : List Task) : List Descriptor := tasks.filterMap executed?

/-- Whether a task claims the descriptor at which it arrives, to go on with it at once. -/
def claims : Task → Bool
  | .arrive _ _ _ _ _ direct => direct
  | _ => false

@[simp] lemma executing_nil : executing [] = [] := rfl

@[simp] lemma executing_cons (task : Task) (tasks : List Task) :
    executing (task :: tasks) = task.executed?.toList ++ executing tasks := by
  rw [executing, List.filterMap_cons]
  cases task.executed? <;> rfl

@[simp] lemma executing_append (tasks tasks' : List Task) :
    executing (tasks ++ tasks') = executing tasks ++ executing tasks' :=
  List.filterMap_append

end Task

/-- What has happened to descriptors in a run, the latest first. -/
structure History where
  /-- The items that were claimed or scheduled, as often as they were. -/
  offered : List Item
  handedOut : List Descriptor
  /-- The descriptors that were new to those who claimed them. -/
  chained : List Descriptor
  /-- All descriptors that were executed, those with which calls were entered among them. -/
  executed : List Descriptor

section

variable [PatternEngine]

/-- The history after a task was done in state `s` and has left the tasks `new`. -/
def History.after (h : History) (p : Problem) (s : State) (task : Task) (new : List Task) :
    History where
  offered := ((task.offer? p s).map (·.2.toItem)).toList ++ h.offered
  handedOut := h.handedOut
  chained := (if task.claims then Task.executing new else []) ++ h.chained
  executed := task.executed?.toList ++ h.executed

/-- The states that a parse goes through, with their histories. A descriptor that is met with
another partial result is passed over like one that is known, or else the parse ends there. -/
inductive State.Doing (p : Problem) : History → State → List Task → Prop
  | start {s : State} : State.start p = (s, .ok ()) →
    Doing p ⟨[⟨p.start, rootCall, 0⟩], [], [], []⟩ s []
  | handOut {h : History} {s s' : State} {d : Descriptor} {a : Agenda} {tasks : List Task} :
    Doing p h s [] → s.agenda.next? = some (d, a) → s.move p [] = .goOn s' tasks →
    Doing p { h with handedOut := d :: h.handedOut } s' tasks
  | work {h : History} {s s' : State} {task : Task} {new rest : List Task} :
    Doing p h s (task :: rest) → task.run p s = (s', .ok new) →
    Doing p (h.after p s task new) s' (new ++ rest)
  | pass {h : History} {s s' : State} {task : Task} {rest : List Task} :
    Doing p h s (task :: rest) → task.run p s = (s', .error (.broken .conflictingResults)) →
    Doing p (h.after p s task []) s' rest

/-- With descriptor `d` a call is entered, other than the one with which the parse starts. -/
def State.Entry (s : State) (d : Descriptor) : Prop :=
  ∃ site, d.call ≠ rootCall ∧ s.calls.site? d.call = some site ∧ d = site.entry d.call

/-! ### What tasks do with descriptors -/

section

variable {p : Problem} {s s' : State} {task : Task} {new : List Task} {d : Descriptor}

omit [PatternEngine] in
lemma State.Entry.mono (hle : s.Le s') (h : s.Entry d) : s'.Entry d := by
  obtain ⟨site, hne, hc, hd⟩ := h
  exact ⟨site, hne, hle.calls.site hc, hd⟩

/-- The descriptor with which a call is entered is never offered. -/
lemma State.Entry.not_seen (hS : p.setting.Valid) (hs : s.Sound p.setting) (h : s.Entry d) :
    s.agenda.seen[d.toItem]? = none := by
  obtain ⟨site, hne, hc, hd⟩ := h
  rw [Option.eq_none_iff_forall_ne_some]
  intro l hl
  obtain ⟨site', o, hc', -, hf⟩ := hs.item hl
  obtain rfl : site = site' := Option.mem_unique hc hc'
  obtain ⟨name, hn⟩ := ((hs.call hc).placed hS).1
  have hslot : d.slot = site.slot := congrArg (·.slot) hd
  -- only the first descriptor of all is for a nonterminal, and it belongs to the first call
  obtain ⟨-, rfl, -, -⟩ := hf.item_seed hS (hslot ▸ hn)
  exact hne (hs.calls.unique hc hs.root)

namespace Task

/-- What a task does with descriptors: it makes no offer, and at most leaves a call to be entered;
or it schedules a descriptor; or it claims one, and executes it if it is new. -/
inductive Deals (p : Problem) (s : State) (task : Task) (s' : State) (new : List Task) : Prop
  | work : task.offer? p s = none → task.claims = false → s'.agenda = s.agenda →
    (∀ d ∈ executing new, s'.Entry d) → Deals p s task s' new
  | schedule {d : Descriptor} {b : Bool} :
    (task.offer? p s).map (·.2.toItem) = some d.toItem → task.executed? = none →
    task.claims = false → executing new = [] → s.agenda.Scheduled d b s'.agenda →
    Deals p s task s' new
  | claim {d : Descriptor} {b : Bool} :
    (task.offer? p s).map (·.2.toItem) = some d.toItem → task.executed? = none →
    task.claims = true → executing new = (if b = true then [d] else []) →
    s.agenda.Claimed d b s'.agenda → s'.agenda.pending = s.agenda.pending →
    Deals p s task s' new

lemma offer?_arrive (hS : p.setting.Valid) (hs : s.Sound p.setting) {dest : SlotId} {c : CallId}
    {j : Nat} {l : Option NodeId} {r : NodeId} {direct : Bool}
    (ht : (Task.arrive dest c j l r direct).Sound p.setting s) :
    ((Task.arrive dest c j l r direct).offer? p s).map (·.2.toItem) = some ⟨dest, c, j⟩ := by
  obtain ⟨next, f', site, k, o, n, hcombine, -⟩ := arrive_item hS hs ht.fact
  simp [offer?, State.onForest_eq, hcombine]

omit [PatternEngine] in
lemma executing_map {α : Type} {f : α → Task} (hf : ∀ a, (f a).executed? = none) (as : List α) :
    executing (as.map f) = [] := by
  simp [executing, hf]

/-- Every task deals with descriptors in one of these ways. -/
lemma deals_of_step (hS : p.setting.Valid) (hs : s.Sound p.setting)
    (ht : task.Sound p.setting s) (h : Step p s task s' new) : Deals p s task s' new := by
  cases h with
  | openCall | advance =>
    refine .work rfl rfl rfl ?_
    rw [executing_map fun _ => rfl]
    simp
  | @close d e r new _ _ _ _ _ hagenda =>
    refine .work rfl rfl hagenda ?_
    cases new with
    | true =>
      rw [if_pos rfl, executing_map fun _ => rfl]
      simp
    | false => simp
  | @enter f c i new _ hadm hsch =>
    refine .schedule (d := ⟨⟨f, c, i⟩, none⟩) ?_ rfl rfl rfl hsch
    have hanswer : (if p.config.lookahead then p.graph.admits p.text f i else .ok true) =
        .ok true := by
      split
      next hl => exact hadm hl
      next => rfl
    simp only [offer?, hanswer]
    rfl
  | refuse hl hadm _ _ _ _ hagenda =>
    refine .work ?_ rfl hagenda (by simp)
    simp only [offer?, hl, if_true, hadm]
  | mismatch _ _ _ _ _ hagenda => exact .work rfl rfl hagenda (by simp)
  | scan _ _ _ _ hagenda =>
    refine .work rfl rfl hagenda ?_
    simp [executed?]
  | @call d t _ _ c newCall newEdge _ _ _ hcalled hlinked _ hagenda =>
    refine .work rfl rfl hagenda ?_
    intro e he
    rw [executing_append, List.mem_append] at he
    rcases he with he | he
    · split at he
      · rw [executing_map fun _ => rfl] at he
        cases he
      · cases he
    · split at he
      next hnew =>
        obtain rfl : e = CallSite.entry ⟨t.symbol, d.index⟩ c := by simpa [executed?] using he
        subst hnew
        refine ⟨_, ?_, hlinked.le.site hcalled.called, rfl⟩
        intro hroot
        have hfresh := hcalled.fresh
        rw [show c = rootCall from hroot, hs.root] at hfresh
        cases hfresh
      next => cases he
  | claim hnode hclaimed hpending =>
    refine .claim (offer?_arrive hS hs ht) rfl rfl ?_ hclaimed hpending
    split <;> rfl
  | schedule hnode hsch => exact .schedule (offer?_arrive hS hs ht) rfl rfl rfl hsch

/-- Executing a descriptor breaks no assumption; only later tasks may. -/
lemma executed?_of_broken {fault : Fault} (h : (task.run p s).2 = .error (.broken fault)) :
    task.executed? = none := by
  cases task with
  | execute d =>
    simp only [run, runExecute] at h
    split at h
    · cases h
    · cases h
    · cases h
    · cases h
    · cases h
  | enter | cross | arrive => rfl

/-- What is passed over was seen before. -/
lemma seen_of_conflict {s₁ : State} (hoffer : task.offer? p s = some (s₁, d))
    (h : (task.run p s).2 = .error (.broken .conflictingResults)) :
    ∃ o, s₁.agenda.seen[d.toItem]? = some o := by
  have hclaim : s₁.agenda.claim d = .error .conflictingResults := by
    rcases run_of_offer? hoffer with ⟨left, hrun⟩ | ⟨left, hrun⟩
    · rw [hrun] at h
      exact State.claim_eq_of_broken (State.eq_error_of_map h)
    · rw [hrun] at h
      exact Agenda.claim_of_schedule_error (State.schedule_eq_of_broken (State.eq_error_of_map h))
  rcases Agenda.claim_ok (a := s₁.agenda) d with ⟨b, a, hok, -⟩ | ⟨-, o, ho, -⟩ | ⟨hlate, -⟩
  · cases hok.symm.trans hclaim
  · exact ⟨o, ho⟩
  · cases hlate.symm.trans hclaim

end Task

/-! ### Runs -/

/-- What was executed or is about to be are the descriptors that were taken from the agenda, and
besides them only entries of calls. -/
structure History.Kept (h : History) (s : State) (tasks : List Task) : Prop where
  books : s.agenda.Books h.offered (h.handedOut ++ h.chained)
  executed : ∃ entered, (h.executed ++ Task.executing tasks).Perm
    (h.handedOut ++ h.chained ++ entered) ∧ ∀ d ∈ entered, s.Entry d

namespace History.Kept

variable {h : History} {tasks rest : List Task}

omit [PatternEngine] in
lemma handOut (hk : h.Kept s []) {a : Agenda} {e : Event} (ha : s.agenda.HandedOut d a) :
    History.Kept { h with handedOut := d :: h.handedOut }
      ({ s with agenda := a }.record e) [.execute d] := by
  obtain ⟨hbooks, entered, hperm, hentered⟩ := hk
  refine ⟨hbooks.perm ha.seen ?_, entered, ?_, hentered⟩
  · rw [List.cons_append, List.cons_append]
    exact List.perm_middle.symm.trans (ha.waiting.symm.append_left _)
  · have hperm : h.executed.Perm (h.handedOut ++ h.chained ++ entered) := by simpa using hperm
    exact List.perm_append_comm.trans (hperm.cons d)

lemma work (hS : p.setting.Valid) (hs : s.Sound p.setting) (ht : task.Sound p.setting s)
    (hk : h.Kept s (task :: rest)) (hstep : Step p s task s' new) :
    (h.after p s task new).Kept s' (new ++ rest) := by
  obtain ⟨hbooks, entered, hperm, hentered⟩ := hk
  have hle := hstep.le hs
  rw [Task.executing_cons] at hperm
  cases Task.deals_of_step hS hs ht hstep with
  | work hoffer hclaims hagenda hnew =>
    refine ⟨?_, Task.executing new ++ entered, ?_, ?_⟩
    · simpa [after, hoffer, hclaims, hagenda] using hbooks
    · refine List.perm_iff_count.mpr fun e => ?_
      have hcount := hperm.count_eq e
      simp only [after, hclaims, Task.executing_append, List.count_append, List.count_nil,
        Bool.false_eq_true, if_false] at hcount ⊢
      omega
    · intro e he
      rcases List.mem_append.mp he with he | he
      · exact hnew e he
      · exact (hentered e he).mono hle
  | @schedule d b hoffer hexecuted hclaims hnew hsch =>
    refine ⟨?_, entered, ?_, fun e he => (hentered e he).mono hle⟩
    · simp only [after, hoffer, hclaims, Option.toList_some, List.singleton_append,
        Bool.false_eq_true, if_false, List.nil_append]
      apply hbooks.offer hsch.claimed
      cases b with
      | true => exact (hsch.waiting.append_left _).trans List.perm_middle
      | false => exact hsch.waiting.append_left _
    · simpa [after, hexecuted, hclaims, hnew] using hperm
  | @claim d b hoffer hexecuted hclaims hnew hclaimed hpending =>
    have hwaiting : s'.agenda.waiting = s.agenda.waiting := by
      rw [Agenda.waiting, hpending, Agenda.waiting]
    refine ⟨?_, entered, ?_, fun e he => (hentered e he).mono hle⟩
    · simp only [after, hoffer, hclaims, hnew, if_true, Option.toList_some, List.singleton_append]
      apply hbooks.offer hclaimed
      rw [hwaiting]
      cases b with
      | true =>
        simp only [if_true, List.singleton_append, ← List.cons_append]
        exact List.perm_middle.append_right _
      | false => exact .refl _
    · refine List.perm_iff_count.mpr fun e => ?_
      have hcount := hperm.count_eq e
      simp only [after, hclaims, hexecuted, Task.executing_append, List.count_append,
        List.count_nil, Option.toList_none, if_true] at hcount ⊢
      omega

lemma pass (hS : p.setting.Valid) (hs : s.Sound p.setting) (ht : task.Sound p.setting s)
    (hk : h.Kept s (task :: rest))
    (hrun : task.run p s = (s', .error (.broken .conflictingResults))) :
    (h.after p s task []).Kept s' rest := by
  obtain ⟨hbooks, entered, hperm, hentered⟩ := hk
  obtain ⟨hle, hagenda⟩ := State.le_of_broken hS hs ht hrun
  have hexecuted : task.executed? = none := Task.executed?_of_broken (congrArg Prod.snd hrun)
  refine ⟨?_, entered, ?_, fun e he => (hentered e he).mono hle⟩
  · simp only [after, Task.executing_nil, ite_self, List.nil_append, hagenda]
    cases hoffer : task.offer? p s with
    | none => exact hbooks
    | some offer =>
      obtain ⟨s₁, d⟩ := offer
      obtain ⟨o, ho⟩ := Task.seen_of_conflict hoffer (congrArg Prod.snd hrun)
      rw [Task.agenda_of_offer? hoffer] at ho
      exact hbooks.again ⟨o, ho⟩
  · simpa [after, hexecuted] using hperm

end History.Kept

namespace State

variable {h : History} {tasks : List Task}

/-- Every state that a parse goes through has such a history. -/
theorem Tolerated.exists_doing (ht : Tolerated p s tasks) : ∃ h, Doing p h s tasks := by
  induction ht with
  | start hs => exact ⟨_, .start hs⟩
  | @move s s' tasks tasks' _ hmove ih =>
    obtain ⟨h, hh⟩ := ih
    cases tasks with
    | nil =>
      obtain ⟨d, a, hnext⟩ := exists_next? hmove
      exact ⟨_, hh.handOut hnext hmove⟩
    | cons task rest =>
      obtain ⟨new, hrun, rfl⟩ := move_cons_eq_goOn_iff.mp hmove
      exact ⟨_, hh.work hrun⟩
  | pass _ hmove ih =>
    obtain ⟨h, hh⟩ := ih
    exact ⟨_, hh.pass (move_cons_eq_fail_iff.mp hmove)⟩

namespace Doing

lemma tolerated (hh : Doing p h s tasks) : Tolerated p s tasks := by
  induction hh with
  | start hs => exact .start hs
  | handOut _ _ hmove ih => exact ih.move hmove
  | work _ hrun ih => exact ih.move (move_cons_eq_goOn_iff.mpr ⟨_, hrun, rfl⟩)
  | pass _ hrun ih => exact ih.pass (move_cons_eq_fail_iff.mpr hrun)

/-- The history of a run accounts for all descriptors. -/
theorem kept (hS : p.setting.Valid) (hh : Doing p h s tasks) : h.Kept s tasks := by
  induction hh with
  | start hs =>
    obtain ⟨s', r, hs', hsch, -⟩ := start_scheduled p
    obtain rfl := congrArg Prod.fst (hs.symm.trans hs')
    refine ⟨(Agenda.books_empty _).offer hsch.claimed hsch.waiting, [], by simp, by simp⟩
  | @handOut h s s' d a tasks hh hnext hmove ih =>
    obtain ⟨rfl, rfl⟩ := Move.goOn.inj ((move_nil_of_next? hnext).symm.trans hmove)
    exact ih.handOut (Agenda.next?_ok (hh.tolerated.steady hS).sound.agenda hnext)
  | @work h s s' task new rest hh hrun ih =>
    have hsteady := hh.tolerated.steady hS
    have ht := hsteady.task List.mem_cons_self
    exact ih.work hS hsteady.sound ht (Task.step_of_run hS hsteady.sound ht hrun)
  | pass hh hrun ih =>
    have hsteady := hh.tolerated.steady hS
    exact ih.pass hS hsteady.sound (hsteady.task List.mem_cons_self) hrun

end Doing

/-- Moves until nothing is left to do or a move fails, at most `fuel` times, and keeps the
history. -/
def recordFor (p : Problem) :
    Nat → History × State × List Task → History × State × List Task
  | fuel + 1, (h, s, []) =>
    match s.agenda.next?, s.move p [] with
    | some (d, _), .goOn s' tasks =>
      recordFor p fuel ({ h with handedOut := d :: h.handedOut }, s', tasks)
    | _, _ => (h, s, [])
  | fuel + 1, (h, s, task :: rest) =>
    match task.run p s with
    | (s', .ok new) => recordFor p fuel (h.after p s task new, s', new ++ rest)
    | (_, .error _) => (h, s, task :: rest)
  | 0, stage => stage

lemma Doing.recordFor (hh : Doing p h s tasks) (fuel : Nat) :
    Doing p (State.recordFor p fuel (h, s, tasks)).1 (State.recordFor p fuel (h, s, tasks)).2.1
      (State.recordFor p fuel (h, s, tasks)).2.2 := by
  induction fuel generalizing h s tasks with
  | zero => exact hh
  | succ fuel ih =>
    cases tasks with
    | nil =>
      rw [State.recordFor]
      split
      next hnext hmove => exact ih (hh.handOut hnext hmove)
      next => exact hh
    | cons task rest =>
      rw [State.recordFor]
      split
      next hrun => exact ih (hh.work hrun)
      next => exact hh

end State

end

/-! ### The end of a run -/

/-- Every descriptor that was offered was executed exactly once. -/
structure History.Settled (h : History) (s : State) : Prop where
  once {i : Item} : i ∈ h.offered → (h.executed.map (·.toItem)).count i = 1
  /-- What was offered was handed out, or claimed as new, -/
  taken {i : Item} : i ∈ h.offered ↔ i ∈ (h.handedOut ++ h.chained).map (·.toItem)
  /-- but never both, and neither of them twice. -/
  nodup : ((h.handedOut ++ h.chained).map (·.toItem)).Nodup
  executed : (h.executed.filter (·.toItem ∈ h.offered)).Perm (h.handedOut ++ h.chained)
  /-- Besides these, only calls were entered. -/
  entered {d : Descriptor} : d ∈ h.executed → d.toItem ∉ h.offered → s.Entry d
  descriptors : s.statistics.descriptors = (h.executed.filter (·.toItem ∈ h.offered)).length

theorem History.Kept.settled {p : Problem} (hS : p.setting.Valid) {h : History} {s : State}
    (hs : s.Sound p.setting) (hk : h.Kept s []) (hwaiting : s.agenda.waiting = []) :
    h.Settled s := by
  obtain ⟨hbooks, entered, hperm, hentered⟩ := hk
  have hsize := hbooks.size
  obtain ⟨hseen, hmem, hnodup⟩ := hbooks
  rw [hwaiting, List.append_nil] at hsize hmem hnodup
  rw [Task.executing_nil, List.append_nil] at hperm
  have htaken {d : Descriptor} (hd : d ∈ h.handedOut ++ h.chained) : d.toItem ∈ h.offered :=
    hmem.mpr (List.mem_map_of_mem hd)
  have hother {d : Descriptor} (hd : d ∈ entered) : d.toItem ∉ h.offered := by
    rw [hseen, (hentered d hd).not_seen hS hs]
    simp
  have hexecuted : (h.executed.filter (·.toItem ∈ h.offered)).Perm
      (h.handedOut ++ h.chained) := by
    have hall : (h.handedOut ++ h.chained).filter (·.toItem ∈ h.offered) =
        h.handedOut ++ h.chained :=
      List.filter_eq_self.mpr fun d hd => decide_eq_true (htaken hd)
    have hnone : entered.filter (·.toItem ∈ h.offered) = [] :=
      List.filter_eq_nil_iff.mpr fun d hd => by simpa using hother hd
    have hfilter := hperm.filter (·.toItem ∈ h.offered)
    rwa [List.filter_append, hall, hnone, List.append_nil] at hfilter
  refine ⟨?_, hmem, hnodup, hexecuted, ?_, ?_⟩
  · intro i hi
    have hno : i ∉ entered.map (·.toItem) := by
      intro hentry
      obtain ⟨d, hd, rfl⟩ := List.mem_map.mp hentry
      exact hother hd hi
    rw [(hperm.map (·.toItem)).count_eq, List.map_append, List.count_append,
      List.count_eq_one_of_mem hnodup (hmem.mp hi), List.count_eq_zero.mpr hno]
  · intro d hd hno
    rcases List.mem_append.mp (hperm.mem_iff.mp hd) with hd | hd
    · exact absurd (htaken hd) hno
    · exact hentered d hd
  · rw [hexecuted.length_eq]
    exact hsize

/-- On a valid graph, whatever the text and the configuration, every run that comes to an end has a
history, and whatever happened in it, every descriptor that was ever offered was executed exactly
once. -/
theorem run_settled {g : Graph} (hg : g.validate = .ok ()) {start : String} {id : SlotId}
    (hstart : g.nonterminal? start = some id) {t : Text} (ht : t.Made) (config : Config) :
    let p : Problem := ⟨g, t, id, config⟩
    (∀ s, p.run = (s, .ok ()) → (∃ h, State.Doing p h s []) ∧ s.agenda.next? = none) ∧
    ∀ h s, State.Doing p h s [] → s.agenda.next? = none → h.Settled s := by
  intro p
  have hvalid := Graph.validate_eq_ok_iff.mp hg
  have hS : p.setting.Valid := ⟨hvalid, ht.bounded, hvalid.exists_role? hstart⟩
  refine ⟨?_, ?_⟩
  · intro s hrun
    rcases Problem.run_ok hS with ⟨s', hrun', hreach, hsat⟩ | ⟨s', e, hrun', -⟩
    · obtain rfl : s = s' := congrArg Prod.fst (hrun.symm.trans hrun')
      exact ⟨hreach.tolerated.exists_doing, Agenda.next?_eq_none_iff.mpr hsat.waiting⟩
    · cases congrArg Prod.snd (hrun.symm.trans hrun')
  · intro h s hh hnext
    exact (hh.kept hS).settled hS (hh.tolerated.steady hS).sound
      (Agenda.next?_eq_none_iff.mp hnext)

end

/-- So it is when two nested pairs of letters are parsed. That run does come to an end, and of its 13
descriptors four are chained, one behind each letter. -/
theorem run_settled_nested : Graph.nested.validate = .ok () ∧
    Graph.nested.nonterminal? "S" = some 0 ∧ (Text.ofString "aabb").Made ∧
    Problem.nested.run = (Problem.nested.run.1, .ok ()) ∧
    ∃ h, State.Doing Problem.nested h Problem.nested.run.1 [] ∧ h.handedOut.length = 9 ∧
      h.chained.map (·.toItem) = [⟨6, 0, 4⟩, ⟨6, 1, 3⟩, ⟨3, 1, 2⟩, ⟨3, 0, 1⟩] ∧
      h.Settled Problem.nested.run.1 := by
  have hvalid : Graph.nested.validate = .ok () :=
    Graph.validate_eq_ok_iff.mpr (Graph.spells_of_build Graph.build_nested).valid
  obtain ⟨hends, hsettled⟩ := run_settled hvalid Graph.nonterminal?_nested (.ofString "aabb") {}
  obtain ⟨-, hnext⟩ := hends Problem.nested.run.1 Problem.run_nested
  have hstart : (State.start Problem.nested).2 = .ok () := by decide +kernel
  have hdoing := (State.Doing.start (Prod.ext rfl hstart)).recordFor 60
  set stage := State.recordFor Problem.nested 60
    (⟨[⟨Problem.nested.start, rootCall, 0⟩], [], [], []⟩, (State.start Problem.nested).1, [])
  have hlast : stage.2 = (Problem.nested.run.1, []) := by decide +kernel
  rw [hlast] at hdoing
  exact ⟨hvalid, Graph.nonterminal?_nested, .ofString "aabb", Problem.run_nested, _, hdoing,
    by decide +kernel, by decide +kernel, hsettled _ _ hdoing hnext⟩

end GeneralParser
