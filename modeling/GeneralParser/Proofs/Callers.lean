import GeneralParser.Proofs.Executions
import Mathlib.Logic.Relation

/-!
# Callers

No call is lost. A call is made by a caller that was there before, and the edge to that caller is
added with it. So from every call one can return from caller to caller to the call with which the
parse started, although there may be cycles: a call may well be one of its own callers. On the way
the offsets never increase.
-/

namespace GeneralParser

namespace CallGraph

variable {g g' : CallGraph} {c : CallId} {site : CallSite}

/-- Call `c` returns to call `c'`. -/
def Returns (g : CallGraph) (c c' : CallId) : Prop := ∃ e ∈ g.edges c, e.caller = c'

/-- Every call but the first returns to one with a smaller number. -/
def Attached (g : CallGraph) : Prop :=
  ∀ c < g.size, c ≠ rootCall → ∃ e ∈ g.edges c, e.caller < c

/-- From every call one can return to the first. -/
theorem Attached.reaches (h : g.Attached) (hc : c < g.size) :
    Relation.ReflTransGen g.Returns c rootCall := by
  induction c using Nat.strong_induction_on with
  | _ c ih =>
    by_cases hroot : c = rootCall
    · exact hroot ▸ .refl
    · obtain ⟨e, he, hlt⟩ := h c hc hroot
      exact .head ⟨e, he, rfl⟩ (ih e.caller hlt (hlt.trans hc))

lemma site?_eq_none (h : g.size ≤ c) : g.site? c = none := by
  rw [site?, Array.getElem?_eq_none h]
  rfl

/-- A new call gets the next number. -/
lemma Called.eq_size (h : g.Called site c true g') : c = g.size := by
  obtain ⟨site', hsite'⟩ := exists_site? (g := g') (c := g.size) (by simp [h.size])
  rcases h.back hsite' with hold | ⟨-, hc, -⟩
  · exact absurd (lt_size_of_site? hold) (Nat.lt_irrefl _)
  · exact hc.symm

end CallGraph

section

variable [PatternEngine]

/-! ### Steps -/

namespace State

/-- A task leaves the calls as they are, but for completions; or it calls, and then the caller is
known. -/
inductive CallsOn (s s' : State) : Prop
  | keep : s'.calls.size = s.calls.size → (∀ c, s'.calls.edges c = s.calls.edges c) → CallsOn s s'
  | call {site : CallSite} {c : CallId} {newCall newEdge : Bool} {calls : CallGraph} {e : Edge} :
    s.calls.Called site c newCall calls → calls.Linked c e newEdge s'.calls →
    e.caller < s.calls.size → CallsOn s s'

end State

section

variable {p : Problem} {s s' : State} {task : Task} {tasks new : List Task}

lemma Step.callsOn (ht : task.Sound p.setting s) (h : Step p s task s' new) : s.CallsOn s' := by
  have hkeep {s' : State} (hcalls : s'.calls = s.calls) : s.CallsOn s' :=
    .keep (hcalls ▸ rfl) fun c => hcalls ▸ rfl
  cases h with
  | openCall | advance => exact hkeep rfl
  | close _ _ _ _ _ hcompl => exact .keep hcompl.size fun c => hcompl.edges
  | enter _ _ hsame => exact hkeep hsame.calls
  | refuse _ _ _ _ hcalls => exact hkeep hcalls
  | mismatch _ _ _ hcalls => exact hkeep hcalls
  | scan _ _ _ hcalls => exact hkeep hcalls
  | claim _ _ _ hcalls => exact hkeep hcalls
  | schedule _ _ hcalls => exact hkeep hcalls
  | call _ hcalled hlinked =>
    obtain ⟨⟨site, o, hcaller, -⟩, -⟩ := ht.fact
    exact .call hcalled hlinked (CallGraph.lt_size_of_site? hcaller)

/-- A task that breaks an assumption leaves the calls alone. -/
lemma Task.calls_of_broken {fault : Fault} (h : (task.run p s).2 = .error (.broken fault)) :
    (task.run p s).1.calls = s.calls := by
  cases hoffer : task.offer? p s with
  | none => rw [state_of_error hoffer h]
  | some offer =>
    obtain ⟨s₁, d⟩ := offer
    rw [← calls_of_offer? hoffer]
    rcases run_of_offer? hoffer with ⟨left, hrun⟩ | ⟨left, hrun⟩
    · rw [hrun] at h ⊢
      exact congrArg State.calls (State.claim_of_broken (State.eq_error_of_map h))
    · rw [hrun] at h ⊢
      exact congrArg State.calls (State.schedule_of_broken (State.eq_error_of_map h))

namespace State

omit [PatternEngine] in
lemma CallsOn.size_le (h : s.CallsOn s') : s'.calls.size ≤ s.calls.size + 1 := by
  cases h with
  | keep hsize => exact Nat.le_succ_of_le hsize.le
  | @call _ _ newCall _ _ _ hcalled hlinked =>
    rw [hlinked.size, hcalled.size]
    cases newCall <;> simp

omit [PatternEngine] in
lemma CallsOn.attached (h : s.CallsOn s') (ha : s.calls.Attached) : s'.calls.Attached := by
  intro c hc hroot
  cases h with
  | keep hsize hedges =>
    rw [hedges]
    exact ha c (hsize ▸ hc) hroot
  | @call site callee newCall newEdge calls e hcalled hlinked hcaller =>
    have hle := hcalled.le.trans hlinked.le
    rw [hlinked.size, hcalled.size] at hc
    by_cases hold : c < s.calls.size
    · obtain ⟨e', he', hlt⟩ := ha c hold hroot
      exact ⟨e', hle.edges he', hlt⟩
    · -- the call is new, and its caller was there before
      cases newCall with
      | false => exact absurd hc hold
      | true =>
        obtain rfl : callee = c :=
          hcalled.eq_size.trans (Nat.le_antisymm (Nat.not_lt.mp hold) (Nat.le_of_lt_succ hc))
        exact ⟨e, hlinked.edge, hcalled.eq_size ▸ hcaller⟩

/-! ### Runs -/

/-- One turn of a parse: a move, or a descriptor that is met with another partial result is passed
over. -/
inductive Turn (p : Problem) (s : State) : List Task → State → List Task → Prop
  | move {tasks new : List Task} {s' : State} : s.move p tasks = .goOn s' new →
    Turn p s tasks s' new
  | pass {task : Task} {rest : List Task} {s' : State} :
    s.move p (task :: rest) = .fail s' (.broken .conflictingResults) →
    Turn p s (task :: rest) s' rest

/-- The moments of a parse from one moment on. -/
inductive Onward (p : Problem) (s₀ : State) (tasks₀ : List Task) : State → List Task → Prop
  | refl : Onward p s₀ tasks₀ s₀ tasks₀
  | turn {s s' : State} {tasks new : List Task} : Onward p s₀ tasks₀ s tasks →
    Turn p s tasks s' new → Onward p s₀ tasks₀ s' new

/-- At some moment of the parse call `c` had been made, but not yet call `c'`. -/
def MadeBefore (p : Problem) (s : State) (tasks : List Task) (c c' : CallId) : Prop :=
  ∃ s₀ tasks₀, Tolerated p s₀ tasks₀ ∧ Onward p s₀ tasks₀ s tasks ∧
    (∃ site, s₀.calls.site? c = some site) ∧ s₀.calls.site? c' = none

/-- A parse goes from turn to turn. -/
lemma Tolerated.turns {motive : ∀ s tasks, Tolerated p s tasks → Prop}
    (start : ∀ {s} (hs : State.start p = (s, .ok ())), motive s [] (.start hs))
    (turn : ∀ {s tasks s' new} (h : Tolerated p s tasks) (h' : Tolerated p s' new),
      Turn p s tasks s' new → motive s tasks h → motive s' new h')
    {s : State} {tasks : List Task} (h : Tolerated p s tasks) : motive s tasks h := by
  induction h with
  | start hs => exact start hs
  | move h hmove ih => exact turn h (h.move hmove) (.move hmove) ih
  | pass h hmove ih => exact turn h (h.pass hmove) (.pass hmove) ih

/-- What a turn does to the calls. -/
lemma Turn.callsOn (hS : p.setting.Valid) (h : Steady p s tasks) (ht : Turn p s tasks s' new) :
    s.CallsOn s' := by
  cases ht with
  | move hmove =>
    have hm := h.moves hS
    rw [hmove] at hm
    cases hm with
    | handOut => exact .keep rfl fun c => rfl
    | step hstep => exact hstep.callsOn (h.task List.mem_cons_self)
  | pass hmove =>
    have hrun := move_cons_eq_fail_iff.mp hmove
    have hcalls := Task.calls_of_broken (congrArg Prod.snd hrun)
    rw [hrun] at hcalls
    exact .keep (hcalls ▸ rfl) fun c => hcalls ▸ rfl

/-- At the start there is only the first call. -/
lemma size_of_start (h : State.start p = (s, .ok ())) : s.calls.size = 1 := by
  obtain ⟨s', r, hs', -, hsame, -⟩ := start_scheduled p
  obtain rfl : s = s' := congrArg Prod.fst (h.symm.trans hs')
  rw [hsame.calls, called_root.size]
  rfl

variable (hS : p.setting.Valid)
include hS

/-- At all times every call but the first has a caller with a smaller number. -/
theorem Tolerated.attached (h : Tolerated p s tasks) : s.calls.Attached := by
  induction h using Tolerated.turns with
  | start hs =>
    intro c hc hroot
    rw [size_of_start hs] at hc
    exact absurd (Nat.lt_one_iff.mp hc) hroot
  | turn h _ hturn ih => exact (hturn.callsOn hS (h.steady hS)).attached ih

/-- Calls are numbered in the order in which they are made. -/
theorem Tolerated.madeBefore {c c' : CallId} (h : Tolerated p s tasks) (hlt : c < c')
    (hc' : c' < s.calls.size) : MadeBefore p s tasks c c' := by
  induction h using Tolerated.turns with
  | start hs =>
    rw [size_of_start hs] at hc'
    exact absurd hlt (Nat.lt_one_iff.mp hc' ▸ Nat.not_lt_zero c)
  | @turn s tasks s' new h _ hturn ih =>
    by_cases hold : c' < s.calls.size
    · obtain ⟨s₀, tasks₀, h₀, honward, hmade⟩ := ih hold
      exact ⟨s₀, tasks₀, h₀, honward.turn hturn, hmade⟩
    · -- it is made in this turn, when the calls with smaller numbers are there
      have hsize := (hturn.callsOn hS (h.steady hS)).size_le
      have hc : c < s.calls.size := hlt.trans_le (Nat.le_of_lt_succ (hc'.trans_le hsize))
      exact ⟨s, tasks, h, Onward.refl.turn hturn, CallGraph.exists_site? hc,
        CallGraph.site?_eq_none (Nat.not_lt.mp hold)⟩

end State

end

/-! ### All calls -/

namespace State

/-- What holds of calls and their callers at a moment of a parse. -/
structure Rooted (p : Problem) (s : State) (tasks : List Task) : Prop where
  root : s.calls.site? rootCall = some p.rootSite
  /-- No two calls are of the same nonterminal at the same offset. -/
  unique {c c' : CallId} {site : CallSite} : s.calls.site? c = some site →
    s.calls.site? c' = some site → c = c'
  /-- Every call but the first has a caller that was made before it. -/
  caller {c : CallId} {site : CallSite} : s.calls.site? c = some site → site ≠ p.rootSite →
    ∃ e ∈ s.calls.edges c, MadeBefore p s tasks e.caller c
  reaches {c : CallId} {site : CallSite} : s.calls.site? c = some site →
    Relation.ReflTransGen s.calls.Returns c rootCall
  /-- Callers do not lie further on than what they call. -/
  index {c : CallId} {e : Edge} : e ∈ s.calls.edges c → ∃ callee caller,
    s.calls.site? c = some callee ∧ s.calls.site? e.caller = some caller ∧
      caller.index ≤ callee.index

theorem Tolerated.rooted {p : Problem} (hS : p.setting.Valid) {s : State} {tasks : List Task}
    (h : Tolerated p s tasks) : Rooted p s tasks := by
  have hs := (h.steady hS).sound
  have hattached := h.attached hS
  refine ⟨hs.root, hs.calls.unique, ?_, ?_, ?_⟩
  · intro c site hc hne
    have hroot : c ≠ rootCall := by
      rintro rfl
      exact hne (Option.some.inj (hc.symm.trans hs.root))
    have hsize := CallGraph.lt_size_of_site? hc
    obtain ⟨e, he, hlt⟩ := hattached c hsize hroot
    exact ⟨e, he, h.madeBefore hS hlt hsize⟩
  · intro c site hc
    exact hattached.reaches (CallGraph.lt_size_of_site? hc)
  · intro c e he
    obtain ⟨callee, caller, o, hc, hcaller, -, hf⟩ := hs.edge he
    obtain ⟨-, -, -, hindex, -⟩ := hf.placed hS
    exact ⟨callee, caller, hc, hcaller, hindex⟩

end State

/-- On every graph that passes validation, whatever the text and the configuration, at every moment
of a parse all calls go back to the first. -/
theorem parse_rooted {g : Graph} (hg : g.validate = .ok ()) {start : String} {id : SlotId}
    (hstart : g.nonterminal? start = some id) {t : Text} (ht : t.Made) (config : Config)
    {s : State} {tasks : List Task} (h : State.Tolerated ⟨g, t, id, config⟩ s tasks) :
    State.Rooted ⟨g, t, id, config⟩ s tasks := by
  have hvalid := Graph.validate_eq_ok_iff.mp hg
  have hS : (Problem.setting ⟨g, t, id, config⟩).Valid :=
    ⟨hvalid, ht.bounded, hvalid.exists_role? hstart⟩
  exact h.rooted hS

end

/-- So it is after two letters were parsed. A call at the second of them is one of its own callers,
but goes back to the first all the same. -/
theorem parse_letters_rooted : Graph.letters.validate = .ok () ∧
    Graph.letters.nonterminal? "S" = some 0 ∧ (Text.ofString "aa").Made ∧
    State.Tolerated Problem.letters Problem.letters.run.1 [] ∧
    Problem.letters.run.1.calls.site? 1 = some ⟨0, 1⟩ ∧
    Problem.letters.run.1.calls.Returns 1 1 ∧
    State.Rooted Problem.letters Problem.letters.run.1 [] := by
  have hg := Graph.spells_of_build Graph.build_letters
  have hvalid : Graph.letters.validate = .ok () := Graph.validate_eq_ok_iff.mpr hg.valid
  have hwell := hg.setting_wellBuilt Graph.nonterminal?_letters "aa" {}
  have htolerated : State.Tolerated Problem.letters Problem.letters.run.1 [] :=
    (Problem.reachable_of_run hwell Problem.run_letters).tolerated
  have hcalled : Problem.letters.run.1.calls.site? 1 = some ⟨0, 1⟩ := by decide +kernel
  have hself : ⟨2, none, 1⟩ ∈ Problem.letters.run.1.calls.edges 1 := by decide +kernel
  exact ⟨hvalid, Graph.nonterminal?_letters, .ofString "aa", htolerated, hcalled,
    ⟨_, hself, rfl⟩,
    parse_rooted hvalid Graph.nonterminal?_letters (.ofString "aa") {} htolerated⟩

end GeneralParser
