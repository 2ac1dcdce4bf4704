import GeneralParser.Proofs.Executions
import GeneralParser.Proofs.Grammar.Spelling

/-!
# Chains

A descriptor that is handed out may be followed by others that are executed at once. That is so if
only one transition leads on, over a terminal that matches: then the descriptor behind it is claimed
instead of being put on the agenda. Such a chain stays in one call and in one alternative, and each
descriptor in it stands one symbol further on than the one before. So no chain is longer than the
longest alternative. Where alternatives start, where they part, and where calls return to,
descriptors are only executed when they are handed out.
-/

namespace GeneralParser

section

variable [PatternEngine]

open Slots (role? head? Leads Starts Path Route)

/-! ### Slots -/

namespace Slots

variable {slots : Array Slot} {b c x : SlotId}

/-- The only transition from position `b` leads over the symbol `x` to `c`. -/
def Single (slots : Array Slot) (b x c : SlotId) : Prop :=
  ∃ s, slots[b]? = some (.body s) ∧ s.transitions = [⟨x, c⟩]

/-- The slots whose descriptors are put on the agenda: where an alternative starts, where a
transition leads that is not the only one, and where a call returns to. -/
inductive Queued (slots : Array Slot) : SlotId → Prop
  | start {a f : SlotId} : Starts slots a f → Queued slots f
  | branch {b : SlotId} {s : BodySlot} {t : Transition} : slots[b]? = some (.body s) →
    2 ≤ s.transitions.length → t ∈ s.transitions → Queued slots t.dest
  | resume {b x c : SlotId} {name : String} : Leads slots b x c →
    role? slots x = some (.nonterminal name) → Queued slots c

lemma Single.leads (h : Single slots b x c) : Leads slots b x c := by
  obtain ⟨s, hs, ht⟩ := h
  exact ⟨s, hs, ht ▸ List.mem_singleton_self _⟩

namespace Wired

variable (hw : Wired slots)
include hw

lemma exists_head (h : Queued slots c) : ∃ a, head? slots c = some a := by
  have hleads {b x c : SlotId} (hl : Leads slots b x c) : ∃ a, head? slots c = some a := by
    obtain ⟨s, hs, -⟩ := id hl
    exact ⟨_, (hw.leads_head hl).trans (head?_body hs)⟩
  cases h with
  | start hf => exact ⟨_, hw.starts_head hf⟩
  | branch hs _ ht => exact hleads ⟨_, hs, ht⟩
  | resume hl => exact hleads hl

/-- Behind a terminal to which the only transition leads, no descriptor is put on the agenda. -/
lemma not_queued (h : Single slots b x c) {τ : Terminal} (hx : role? slots x = some (.terminal τ)) :
    ¬ Queued slots c := by
  intro hq
  have hl := h.leads
  obtain ⟨s, hs, hsingle⟩ := h
  cases hq with
  | start hf => exact hw.not_leads_start hf hl
  | @branch b' s' t hs' htwo ht =>
    obtain ⟨rfl, -⟩ := hw.leads_unique hl ⟨s', hs', ht⟩
    obtain rfl : s = s' := by simpa using hs.symm.trans hs'
    rw [hsingle] at htwo
    exact absurd htwo (by simp)
  | resume hl' hx' =>
    obtain ⟨-, rfl⟩ := hw.leads_unique hl hl'
    cases hx.symm.trans hx'

end Wired

end Slots

/-! ### Links -/

/-- Descriptor `e'` follows on `e` at once: the only transition from there matches and leads to
it. -/
structure Descriptor.Links (p : Problem) (e e' : Descriptor) : Prop where
  call : e'.call = e.call
  transition : ∃ x, Slots.Single p.graph.slots e.slot x e'.slot ∧
    (p.graph.spans p.text).scan x e.index e'.index

lemma Descriptor.Links.index_le {p : Problem} {e e' : Descriptor} (h : e.Links p e') :
    e.index ≤ e'.index := by
  obtain ⟨x, -, τ, n, -, -, hindex⟩ := h.transition
  exact hindex ▸ Nat.le_add_right _ n

/-- From descriptor `d` on, the descriptors of the list follow one on the other, up to `last`. -/
inductive Descriptor.Chained (p : Problem) (d : Descriptor) : List Descriptor → Descriptor → Prop
  | nil : Chained p d [] d
  | concat {chain : List Descriptor} {last e : Descriptor} : Chained p d chain last →
    last.Links p e → Chained p d (chain ++ [e]) e

namespace Descriptor.Chained

variable {p : Problem} {d last : Descriptor} {chain : List Descriptor} (h : d.Chained p chain last)
include h

lemma getLast? : (d :: chain).getLast? = some last := by
  cases h with
  | nil => rfl
  | concat => rw [← List.cons_append, List.getLast?_concat]

lemma isChain : (d :: chain).IsChain (Links p) := by
  induction h with
  | nil => exact .singleton d
  | concat h hlink ih =>
    rw [← List.cons_append]
    refine List.isChain_append.mpr ⟨ih, .singleton _, ?_⟩
    intro e he e' he'
    obtain rfl := Option.mem_unique he h.getLast?
    obtain rfl : _ = e' := Option.some.inj he'
    exact hlink

lemma call_eq : ∀ e ∈ d :: chain, e.call = d.call := by
  induction h with
  | nil => simp
  | concat h hlink ih =>
    intro e he
    rw [← List.cons_append] at he
    rcases List.mem_append.mp he with he | he
    · exact ih e he
    · rw [List.mem_singleton.mp he, hlink.call]
      exact ih _ (List.mem_of_getLast? h.getLast?)

lemma sorted : (d :: chain).Pairwise fun e e' => e.index ≤ e'.index := by
  have hstep := h.isChain.imp fun _ _ hlink => hlink.index_le
  have htrans : IsTrans Descriptor fun e e' => e.index ≤ e'.index := ⟨fun _ _ _ => Nat.le_trans⟩
  exact List.isChain_iff_pairwise.mp hstep

/-- The slots of a chain are passed on a route. -/
lemma exists_route : ∃ ts, Route p.graph.slots d.slot ts last.slot ∧
    ts.map Transition.dest = chain.map (·.slot) := by
  induction h with
  | nil => exact ⟨[], .nil _, rfl⟩
  | concat _ hlink ih =>
    obtain ⟨ts, hr, hts⟩ := ih
    obtain ⟨x, hsingle, -⟩ := hlink.transition
    refine ⟨ts ++ [⟨x, _⟩], hr.append (.cons hsingle.leads (.nil _)), ?_⟩
    rw [List.map_append, hts, List.map_append]
    rfl

end Descriptor.Chained

/-! ### Tasks -/

namespace Task

/-- The descriptors that a task adds to a chain, if it leaves the tasks `new`. -/
def chained (task : Task) (new : List Task) : List Descriptor :=
  if task.claims then executing new else []

omit [PatternEngine] in
lemma chained_eq_nil {task : Task} (h : task.claims = false) (new : List Task) :
    task.chained new = [] :=
  if_neg (Bool.eq_false_iff.mp h)

/-- A task that does not go on with a chain. At most a call is entered by it, and what is arrived at
is put on the agenda. -/
def Plain (slots : Array Slot) : Task → Prop
  | .execute e => ∃ name, role? slots e.slot = some (.nonterminal name)
  | .enter .. => True
  | .cross _ t direct => direct = false ∨ ∃ name, role? slots t.symbol = some (.nonterminal name)
  | .arrive _ _ _ _ _ direct => direct = false

lemma claims_of_plain {slots : Array Slot} {task : Task} (h : task.Plain slots) :
    task.claims = false := by
  cases task with
  | execute | enter | cross => rfl
  | arrive => exact h

end Task

section

variable {p : Problem} {s s' : State} {task : Task} {new rest tasks : List Task}
  {d last : Descriptor} {chain : List Descriptor}

/-- What a plain task leaves is plain. -/
lemma Step.plain (h : Step p s task s' new) (ht : task.Plain p.graph.slots) :
    ∀ t ∈ new, t.Plain p.graph.slots := by
  intro t hmem
  cases h with
  | openCall =>
    obtain ⟨f, -, rfl⟩ := List.mem_map.mp hmem
    trivial
  | advance hb =>
    obtain ⟨name, hn⟩ := ht
    obtain ⟨n, hn, -⟩ := Slots.role?_nonterminal.mp hn
    cases hb.symm.trans hn
  | close he =>
    obtain ⟨name, hn⟩ := ht
    obtain ⟨n, hn, -⟩ := Slots.role?_nonterminal.mp hn
    cases he.symm.trans hn
  | enter | refuse | mismatch | schedule => cases hmem
  | scan hscan =>
    obtain rfl := List.mem_singleton.mp hmem
    apply ht.resolve_right
    rintro ⟨name, hn⟩
    obtain ⟨τ, -, hτ, -⟩ := hscan
    cases hτ.symm.trans hn
  | call hn =>
    rcases List.mem_append.mp hmem with hmem | hmem
    · split at hmem
      · obtain ⟨r, -, rfl⟩ := List.mem_map.mp hmem
        rfl
      · cases hmem
    · split at hmem
      · obtain rfl := List.mem_singleton.mp hmem
        exact ⟨_, hn⟩
      · cases hmem
  | claim => cases ht

namespace State

/-! ### Executions -/

/-- The states that a parse goes through after descriptor `d` was handed out and before the next
one is, with the descriptors that were claimed since, to be executed at once. -/
inductive Executing (p : Problem) (d : Descriptor) : List Descriptor → State → List Task → Prop
  | handOut {s s' : State} {a : Agenda} {tasks : List Task} : Reachable p s [] →
    s.agenda.next? = some (d, a) → s.move p [] = .goOn s' tasks → Executing p d [] s' tasks
  | work {chain : List Descriptor} {s s' : State} {task : Task} {new rest : List Task} :
    Executing p d chain s (task :: rest) → task.run p s = (s', .ok new) →
    Executing p d (chain ++ task.chained new) s' (new ++ rest)

/-- Descriptor `d` has just been handed out. -/
def HandedOut (p : Problem) (d : Descriptor) (s : State) (tasks : List Task) : Prop :=
  tasks = [.execute d] ∧ ∃ s₀ a, Reachable p s₀ [] ∧ s₀.agenda.next? = some (d, a) ∧
    s₀.move p [] = .goOn s tasks

/-- What is on the stack while a chain is executed that has come to the descriptor `last`. -/
inductive Stage (p : Problem) (d : Descriptor) :
    List Descriptor → Descriptor → State → List Task → Prop
  | handedOut {s : State} : HandedOut p d s [.execute d] → Stage p d [] d s [.execute d]
  | claimed {chain : List Descriptor} {last e : Descriptor} {s : State} : last.Links p e →
    Stage p d (chain ++ [e]) e s [.execute e]
  | crossing {chain : List Descriptor} {last : Descriptor} {x c : SlotId} {s : State} :
    Slots.Single p.graph.slots last.slot x c →
    Stage p d chain last s [.cross last ⟨x, c⟩ true]
  | arriving {chain : List Descriptor} {last : Descriptor} {x c : SlotId} {j : Nat} {r : NodeId}
      {s : State} : Slots.Single p.graph.slots last.slot x c →
    (p.graph.spans p.text).scan x last.index j →
    Stage p d chain last s [.arrive c last.call j last.soFar r true]
  /-- The chain is over. -/
  | ended {chain : List Descriptor} {last : Descriptor} {s : State} {tasks : List Task} :
    (∀ t ∈ tasks, t.Plain p.graph.slots) → Stage p d chain last s tasks

lemma Executing.reachable (h : Executing p d chain s tasks) : Reachable p s tasks := by
  induction h with
  | handOut hreach _ hmove => exact hreach.move hmove
  | work _ hrun ih => exact ih.move (move_cons_eq_goOn_iff.mpr ⟨_, hrun, rfl⟩)

/-- Every moment with something to do belongs to the execution of a descriptor. -/
lemma Reachable.executing (h : Reachable p s tasks) :
    tasks = [] ∨ ∃ d chain, Executing p d chain s tasks := by
  induction h with
  | start => exact Or.inl rfl
  | @move s s' tasks tasks' hreach hmove ih =>
    cases tasks with
    | nil =>
      obtain ⟨d, a, hnext⟩ := exists_next? hmove
      exact Or.inr ⟨_, _, .handOut hreach hnext hmove⟩
    | cons task rest =>
      obtain ⟨d, chain, hd⟩ := ih.resolve_left (List.cons_ne_nil _ _)
      obtain ⟨new, hrun, rfl⟩ := move_cons_eq_goOn_iff.mp hmove
      exact Or.inr ⟨_, _, hd.work hrun⟩

/-- A descriptor of the chain is executed: it leads on to one other, or the chain is over. -/
lemma Stage.execute (h : Step p s (.execute last) s' new) : Stage p d chain last s' new := by
  cases h with
  | openCall =>
    refine .ended fun t hmem => ?_
    obtain ⟨f, -, rfl⟩ := List.mem_map.mp hmem
    trivial
  | @advance _ b hb =>
    by_cases hdirect : p.config.chaining = true ∧ b.transitions.length = 1
    · obtain ⟨t, ht⟩ := List.length_eq_one_iff.mp hdirect.2
      simp only [ht, hdirect.1, List.map_cons, List.map_nil, List.length_singleton,
        Bool.true_and, decide_true]
      exact .crossing ⟨b, hb, ht⟩
    · refine .ended fun t hmem => ?_
      obtain ⟨t, -, rfl⟩ := List.mem_map.mp hmem
      exact Or.inl (by simpa using hdirect)
  | close =>
    refine .ended fun t hmem => ?_
    split at hmem
    · obtain ⟨e, -, rfl⟩ := List.mem_map.mp hmem
      rfl
    · cases hmem

/-- A task goes on with the chain, adds a descriptor to it, or ends it. -/
lemma Stage.step (hchain : d.Chained p chain last) (hstage : Stage p d chain last s (task :: rest))
    (hstep : Step p s task s' new) : ∃ last', d.Chained p (chain ++ task.chained new) last' ∧
      Stage p d (chain ++ task.chained new) last' s' (new ++ rest) := by
  have hkeep (hclaims : task.claims = false) (h : Stage p d chain last s' (new ++ rest)) :
      ∃ last', d.Chained p (chain ++ task.chained new) last' ∧
        Stage p d (chain ++ task.chained new) last' s' (new ++ rest) := by
    rw [Task.chained_eq_nil hclaims, List.append_nil]
    exact ⟨last, hchain, h⟩
  have hplain := hstep.plain
  cases hstage with
  | handedOut | claimed =>
    apply hkeep rfl
    rw [List.append_nil]
    exact .execute hstep
  | crossing hsingle =>
    cases hstep with
    | mismatch => exact hkeep rfl (.ended (by simp))
    | scan hscan => exact hkeep rfl (.arriving hsingle hscan)
    | call hn =>
      apply hkeep rfl
      rw [List.append_nil]
      exact .ended (hplain (Or.inr ⟨_, hn⟩))
  | @arriving _ _ x c j r _ hsingle hscan =>
    cases hstep with
    | @claim _ _ _ _ _ _ next _ _ _ isNew =>
      cases isNew with
      | true =>
        have hlink : last.Links p ⟨⟨c, last.call, j⟩, some next⟩ := ⟨rfl, x, hsingle, hscan⟩
        exact ⟨_, hchain.concat hlink, .claimed hlink⟩
      | false => exact ⟨last, (List.append_nil chain).symm ▸ hchain, .ended (by simp)⟩
  | ended hall =>
    have htask := hall task List.mem_cons_self
    refine hkeep (Task.claims_of_plain htask) (.ended fun t hmem => ?_)
    rcases List.mem_append.mp hmem with hmem | hmem
    · exact hplain htask t hmem
    · exact hall t (List.mem_cons_of_mem _ hmem)

/-- Whatever is executed after a descriptor was handed out is a chain. -/
theorem Executing.stage (hS : p.setting.Valid) (h : Executing p d chain s tasks) :
    ∃ last, d.Chained p chain last ∧ Stage p d chain last s tasks := by
  induction h with
  | @handOut s s' a tasks hreach hnext hmove =>
    obtain ⟨-, rfl⟩ := Move.goOn.inj ((move_nil_of_next? hnext).symm.trans hmove)
    exact ⟨d, .nil, .handedOut ⟨rfl, s, a, hreach, hnext, hmove⟩⟩
  | work h hrun ih =>
    obtain ⟨last, hchain, hstage⟩ := ih
    have hrunning := h.reachable.running hS
    have hstep := Task.step_of_run hS hrunning.sound (hrunning.task List.mem_cons_self) hrun
    exact hstage.step hchain hstep

/-- What is executed belongs to the chain, but for calls that are entered. -/
lemma Stage.mem_of_execute (h : Stage p d chain last s tasks) {e : Descriptor}
    (he : .execute e ∈ tasks) :
    e ∈ d :: chain ∨ ∃ name, role? p.graph.slots e.slot = some (.nonterminal name) := by
  cases h with
  | handedOut =>
    obtain rfl := Task.execute.inj (List.mem_singleton.mp he)
    exact Or.inl List.mem_cons_self
  | claimed =>
    obtain rfl := Task.execute.inj (List.mem_singleton.mp he)
    exact Or.inl (by simp)
  | crossing | arriving => cases List.mem_singleton.mp he
  | ended hall => exact Or.inr (hall _ he)

/-- Only what is handed out is executed where descriptors are put on the agenda. -/
theorem Reachable.handedOut (hS : p.setting.Valid) (hw : Slots.Wired p.graph.slots)
    (h : Reachable p s (.execute d :: rest)) (hq : Slots.Queued p.graph.slots d.slot) :
    HandedOut p d s (.execute d :: rest) := by
  obtain ⟨d₀, chain, hexec⟩ := h.executing.resolve_left (List.cons_ne_nil _ _)
  obtain ⟨last, -, hstage⟩ := hexec.stage hS
  cases hstage with
  | handedOut hd => exact hd
  | claimed hlink =>
    obtain ⟨x, hsingle, τ, n, hτ, -⟩ := hlink.transition
    exact absurd hq (hw.not_queued hsingle hτ)
  | ended hplain =>
    obtain ⟨name, hn⟩ := hplain _ List.mem_cons_self
    obtain ⟨a, ha⟩ := hw.exists_head hq
    cases (Slots.head?_eq_none (Or.inr ⟨name, hn⟩)).symm.trans ha

/-- What a descriptor relies on when it is handed out stays a fact. -/
lemma Executing.fact (hS : p.setting.Valid) (h : Executing p d chain s tasks) :
    (Task.execute d).Fact p.setting s := by
  induction h with
  | handOut hreach hnext hmove =>
    have hrunning := (hreach.move hmove).running hS
    obtain ⟨-, rfl⟩ := Move.goOn.inj ((move_nil_of_next? hnext).symm.trans hmove)
    exact (hrunning.task List.mem_cons_self).fact
  | work h hrun ih =>
    have hrunning := h.reachable.running hS
    have hstep := Task.step_of_run hS hrunning.sound (hrunning.task List.mem_cons_self) hrun
    exact ih.mono (hstep.le hrunning.sound)

end State

end

/-! ### Alternatives -/

/-- The slots are passed one after the other on the way of one of the alternatives `bodies` of
nonterminal `a`. -/
def Slots.Along (slots : Array Slot) (a : SlotId) (bodies : List (List Symbol))
    (ids : List SlotId) : Prop :=
  ∃ k body f ts e, bodies[k]? = some body ∧ Way slots a k f ts e ∧
    Spelled slots (ts.map Transition.symbol) body ∧ ids <:+: f :: ts.map Transition.dest

/-- The number of symbols of the longest rule for `A`. -/
def Rules.longest (rules : List (String × List Symbol)) (A : String) : Nat :=
  (alternatives rules A).toFinset.sup List.length

/-- On the way of an alternative there is one slot more than it has symbols. -/
lemma Slots.Along.length_le {slots : Array Slot} {a : SlotId} {rules : List (String × List Symbol)}
    {A : String} {ids : List SlotId} (h : Along slots a (Rules.alternatives rules A) ids) :
    ids.length ≤ Rules.longest rules A + 1 := by
  obtain ⟨k, body, f, ts, e, hk, -, hspelled, hinfix⟩ := h
  have hbody : body ∈ (Rules.alternatives rules A).toFinset :=
    List.mem_toFinset.mpr (List.mem_of_getElem? hk)
  calc ids.length ≤ (f :: ts.map Transition.dest).length := hinfix.length_le
    _ = body.length + 1 := by rw [← hspelled.length_eq]; simp
    _ ≤ Rules.longest rules A + 1 := Nat.succ_le_succ (Finset.le_sup hbody)

section

variable {share : Bool} {rules : List (String × List Symbol)} {p : Problem} {s : State}
  {d last : Descriptor} {chain : List Descriptor}
  (hbuild : (Rules.ofList share rules).build = .ok p.graph) (hS : p.setting.Valid)
include hbuild hS

/-- A chain stays in one alternative. -/
lemma Descriptor.Chained.along (h : d.Chained p chain last) (hs : s.Sound p.setting)
    (hd : (Task.execute d).Fact p.setting s) {site : CallSite}
    (hsite : s.calls.site? d.call = some site) {A : String}
    (hA : role? p.graph.slots site.slot = some (.nonterminal A)) (hne : chain ≠ []) :
    Slots.Along p.graph.slots site.slot (Rules.alternatives rules A)
      ((d :: chain).map (·.slot)) := by
  have hg := Graph.spells_of_build hbuild
  obtain ⟨e, rest, rfl⟩ := List.exists_cons_of_ne_nil hne
  obtain ⟨x, hsingle, -⟩ := (List.isChain_cons_cons.mp h.isChain).1.transition
  obtain ⟨b, hb, -⟩ := id hsingle
  obtain ⟨site', o, hsite', -, hitem⟩ := hd.item hS hs ⟨_, Slots.head?_body hb⟩
  obtain rfl : site = site' := Option.mem_unique hsite hsite'
  have hmeans := hitem.means ⟨hS, hg.wired⟩
  obtain ⟨f, xs, hreads, -⟩ := Setting.readsItem_of_leads hS hmeans hsingle.leads
  -- the way leads to the first slot, along the chain, and on to an end
  obtain ⟨before, hbefore, -⟩ := hreads.path.exists_route
  obtain ⟨along, halong, hslots⟩ := h.exists_route
  have hlast : head? p.graph.slots last.slot = some site.slot :=
    (hg.wired.path_head halong.path).trans (hreads.head ⟨hS, hg.wired⟩)
  obtain ⟨ys, stop, k, hon, hdone⟩ := Graph.exists_path_end hbuild hlast
  obtain ⟨after, hafter, -⟩ := hon.exists_route
  have hroute := hbefore.append (halong.append hafter)
  obtain ⟨body, hbody, hspelled⟩ := hg.path_iff hA hdone hreads.starts hroute.path
  obtain ⟨front, hfront⟩ := hbefore.exists_passed_eq
  refine ⟨k, body, f, _, stop, hbody, ⟨hreads.starts, hroute, hdone⟩, hspelled, front,
    after.map Transition.dest, ?_⟩
  rw [List.map_append, List.map_append, hslots, ← List.cons_append, hfront]
  simp

end

/-- What is executed at once after descriptor `d` was handed out. -/
structure State.Confined (p : Problem) (rules : List (String × List Symbol)) (d : Descriptor)
    (chain : List Descriptor) (s : State) (tasks : List Task) : Prop where
  /-- Besides the descriptors of the chain only calls are entered. -/
  executed : ∀ e, .execute e ∈ tasks →
    e ∈ d :: chain ∨ ∃ name, role? p.graph.slots e.slot = some (.nonterminal name)
  /-- All of them are in the same call, -/
  call : ∀ e ∈ chain, e.call = d.call
  sorted : (d :: chain).Pairwise fun e e' => e.index ≤ e'.index
  links : (d :: chain).IsChain (Descriptor.Links p)
  /-- and along one alternative of the nonterminal that is called there. -/
  along : ∃ site A, s.calls.site? d.call = some site ∧
    role? p.graph.slots site.slot = some (.nonterminal A) ∧
    chain.length ≤ Rules.longest rules A ∧
    (chain ≠ [] → Slots.Along p.graph.slots site.slot (Rules.alternatives rules A)
      ((d :: chain).map (·.slot)))

theorem State.Executing.confined {share : Bool} {rules : List (String × List Symbol)} {p : Problem}
    (hbuild : (Rules.ofList share rules).build = .ok p.graph) (hS : p.setting.Valid)
    {d : Descriptor} {chain : List Descriptor} {s : State} {tasks : List Task}
    (h : Executing p d chain s tasks) : Confined p rules d chain s tasks := by
  obtain ⟨last, hchain, hstage⟩ := h.stage hS
  have hs := (h.reachable.running hS).sound
  have hfact := h.fact hS
  obtain ⟨site, hsite⟩ : ∃ site, s.calls.site? d.call = some site := by
    rcases hfact with ⟨site, o, hsite, -⟩ | ⟨site, hsite, -⟩ <;> exact ⟨site, hsite⟩
  obtain ⟨⟨A, hA⟩, -⟩ := (hs.call hsite).placed hS
  have halong := hchain.along hbuild hS hs hfact hsite hA
  refine ⟨fun e he => hstage.mem_of_execute he,
    fun e he => hchain.call_eq e (List.mem_cons_of_mem _ he), hchain.sorted, hchain.isChain,
    site, A, hsite, hA, ?_, halong⟩
  by_cases hne : chain = []
  · simp [hne]
  · simpa using (halong hne).length_le

/-- In every parse with a graph that is built from rules, each moment with something to do belongs
to the execution of a descriptor that was handed out. What is executed at once after it is confined
to its call and to one alternative. Where descriptors are put on the agenda, only what has just been
handed out is executed. -/
theorem parse_chains {share : Bool} {rules : List (String × List Symbol)} {g : Graph}
    (hbuild : (Rules.ofList share rules).build = .ok g) {start : String} {id : SlotId}
    (hstart : g.nonterminal? start = some id) {t : Text} (ht : t.Made) (config : Config) :
    let p : Problem := ⟨g, t, id, config⟩
    (∀ s tasks, State.Reachable p s tasks → tasks ≠ [] →
      ∃ d chain, State.Executing p d chain s tasks) ∧
    (∀ d chain s tasks, State.Executing p d chain s tasks →
      State.Confined p rules d chain s tasks) ∧
    ∀ d s rest, State.Reachable p s (.execute d :: rest) → Slots.Queued g.slots d.slot →
      State.HandedOut p d s (.execute d :: rest) := by
  intro p
  have hg := Graph.spells_of_build hbuild
  have hS : p.setting.Valid := ⟨hg.valid, ht.bounded, hg.valid.exists_role? hstart⟩
  refine ⟨?_, ?_, ?_⟩
  · intro s tasks hreach hne
    exact hreach.executing.resolve_left hne
  · intro d chain s tasks hexec
    exact hexec.confined hbuild hS
  · intro d s rest hreach hq
    exact hreach.handedOut hS hg.wired hq

/-! ### A longest chain -/

namespace State

/-- Does tasks, at most `n` of them, and adds to the chain what they add. -/
def proceed (p : Problem) :
    Nat → List Descriptor × State × List Task → List Descriptor × State × List Task
  | n + 1, (chain, s, task :: rest) =>
    match task.run p s with
    | (s', .ok new) => proceed p n (chain ++ task.chained new, s', new ++ rest)
    | (_, .error _) => (chain, s, task :: rest)
  | _, stage => stage

variable {p : Problem} {s : State} {d : Descriptor} {chain : List Descriptor} {tasks : List Task}

lemma Executing.proceed (h : Executing p d chain s tasks) (n : Nat) :
    Executing p d (proceed p n (chain, s, tasks)).1 (proceed p n (chain, s, tasks)).2.1
      (proceed p n (chain, s, tasks)).2.2 := by
  induction n generalizing chain s tasks with
  | zero => exact h
  | succ n ih =>
    cases tasks with
    | nil => exact h
    | cons task rest =>
      rw [State.proceed]
      split
      next hrun => exact ih (h.work hrun)
      next => exact h

lemma Reachable.handOut (h : Reachable p s []) (hd : s.agenda.next?.map Prod.fst = some d) :
    Executing p d [] (s.move p []).state [.execute d] := by
  obtain ⟨⟨d, a⟩, hnext, rfl⟩ := Option.map_eq_some_iff.mp hd
  rw [move_nil_of_next? hnext]
  exact .handOut h hnext (move_nil_of_next? hnext)

end State

end

/-- A grammar with one alternative, of two terminals. -/
def Rules.pair : List (String × List Symbol) :=
  [("S", [.terminal (.char 'a'), .terminal (.char 'b')])]

def Graph.pair : Graph := ((Rules.ofList true Rules.pair).build.toOption).getD .empty

lemma Graph.build_pair : (Rules.ofList true Rules.pair).build = .ok Graph.pair := by
  decide +kernel

def Problem.pair : Problem := ⟨Graph.pair, .ofString "ab", 0, {}⟩

/-- When its two letters are parsed, one chain is as long as its alternative. -/
theorem parse_pair_chains : (Rules.ofList true Rules.pair).build = .ok Graph.pair ∧
    Graph.pair.nonterminal? "S" = some 0 ∧ (Text.ofString "ab").Made ∧
    ∃ d chain s tasks, State.Executing Problem.pair d chain s tasks ∧
      chain.length = Rules.longest Rules.pair "S" ∧
      State.Confined Problem.pair Rules.pair d chain s tasks := by
  have hstart : Graph.pair.nonterminal? "S" = some 0 := by decide +kernel
  have hinit : State.start Problem.pair = ((State.start Problem.pair).1, .ok ()) :=
    Prod.ext rfl (by decide +kernel)
  -- first the nonterminal is handed out, and its alternative is scheduled
  have hentry : State.Executing Problem.pair ⟨⟨0, 0, 0⟩, none⟩ [] _ _ :=
    (State.Reachable.start hinit).handOut (by decide +kernel)
  have hentered := (hentry.proceed 2).reachable
  rw [show (State.proceed Problem.pair 2 _).2.2 = [] by decide +kernel] at hentered
  -- then the alternative is, and the rest of it follows at once
  have hfirst : State.Executing Problem.pair ⟨⟨1, 0, 0⟩, none⟩ [] _ _ :=
    hentered.handOut (by decide +kernel)
  have hrest := hfirst.proceed 6
  refine ⟨Graph.build_pair, hstart, .ofString "ab", _, _, _, _, hrest, by decide +kernel, ?_⟩
  exact (parse_chains Graph.build_pair hstart (.ofString "ab") {}).2.1 _ _ _ _ hrest

end GeneralParser
