import GeneralParser.Proofs.Engine.Run
import Mathlib.Algebra.Order.BigOperators.Group.Finset
import Mathlib.Data.Finset.Option
import Mathlib.Data.Finset.Prod
import Mathlib.Tactic.GCongr
import Mathlib.Tactic.Ring

/-!
# Runs come to an end

A sound state can only store so much: its calls, nodes, edges and descriptors are each determined by
a few slots and offsets. Every move either makes one of them or takes a task from the stack, so a
potential in which everything that may still be made counts for the tasks it can cause goes down
with each move. It starts below the number of moves that a parse is given.
-/

namespace GeneralParser

open Slots (role? head? Leads)

/-! ### What can be stored -/

lemma Node.eq_of_fields {m n : Node} (h : m.rank = n.rank) (h₁ : m.first = n.first)
    (h₂ : m.second = n.second) (h₃ : m.third = n.third) : m = n := by
  cases m <;> cases n <;> simp_all [rank, first, second, third]

/-- The numbers of the nodes that are not packed. -/
def Forest.unpacked (f : Forest) : Finset NodeId :=
  (Finset.range f.size).filter fun i => (f.node? i).any fun n => !n.isPacked

lemma Forest.mem_unpacked {f : Forest} {i : NodeId} :
    i ∈ f.unpacked ↔ ∃ n, f.node? i = some n ∧ n.isPacked = false := by
  simp only [unpacked, Finset.mem_filter, Finset.mem_range, Option.any_eq_true,
    Bool.not_eq_true']
  exact ⟨And.right, fun h => ⟨lt_size_of_node? h.choose_spec.1, h⟩⟩

variable [PatternEngine]

namespace Problem

variable {p : Problem}

/-- The number of references in the graph. -/
def references (p : Problem) : Nat := p.graph.slots.foldl (fun n s => n + s.width) 0

/-- A bound for slots, references and offsets. -/
def scale (p : Problem) : Nat := p.graph.size + p.references + p.text.length + 6

/-- How many moves the execution of a descriptor can take, but for what it makes. -/
def effort (p : Problem) : Nat := 1 + 2 * p.references

lemma size_le_scale : p.graph.size ≤ p.scale := by
  rw [scale]
  omega

lemma lt_scale {i : Nat} (hi : i ≤ p.text.length) : i < p.scale := by
  rw [scale]
  omega

lemma four_lt_scale : 4 < p.scale := by
  rw [scale]
  omega

lemma foldl_add_width (slots : List Slot) (n : Nat) :
    slots.foldl (fun n s => n + s.width) n = n + (slots.map Slot.width).sum := by
  induction slots generalizing n with
  | nil => rfl
  | cons s slots ih => simp [ih, Nat.add_assoc]

lemma width_le {id : SlotId} {s : Slot} (h : p.graph.slots[id]? = some s) :
    s.width ≤ p.references := by
  have hmem : s.width ∈ p.graph.slots.toList.map Slot.width :=
    List.mem_map_of_mem (Array.mem_toList_iff.mpr (Array.mem_of_getElem? h))
  rw [references, ← Array.foldl_toList, foldl_add_width, Nat.zero_add]
  exact List.single_le_sum (fun _ _ => Nat.zero_le _) _ hmem

end Problem

namespace State.Sound

variable {p : Problem} {s : State} (hS : p.setting.Valid) (hs : s.Sound p.setting)
include hS hs

lemma site_mem {c : CallId} {site : CallSite} (hc : s.calls.site? c = some site) :
    site.slot < p.scale ∧ site.index < p.scale := by
  obtain ⟨⟨name, hn⟩, hi⟩ := (hs.call hc).placed hS
  exact ⟨Nat.lt_of_lt_of_le (Slots.lt_size_of_role? hn) Problem.size_le_scale,
    Problem.lt_scale hi⟩

/-- There is one call for each nonterminal and offset. -/
lemma calls_size_le : s.calls.size ≤ p.scale ^ 2 := by
  have hsite (c : CallId) (hc : c ∈ Finset.range s.calls.size) :
      ∃ site, s.calls.site? c = some site := CallGraph.exists_site? (Finset.mem_range.mp hc)
  have hcard : (Finset.range s.calls.size).card ≤
      (Finset.range p.scale ×ˢ Finset.range p.scale).card := by
    refine Finset.card_le_card_of_injOn
      (fun c => ((s.calls.site? c).elim 0 (·.slot), (s.calls.site? c).elim 0 (·.index))) ?_ ?_
    · intro c hc
      obtain ⟨site, hsc⟩ := hsite c hc
      obtain ⟨hslot, hindex⟩ := hs.site_mem hS hsc
      simp [hsc, hslot, hindex]
    · intro c hc c' hc' heq
      obtain ⟨⟨x, i⟩, hsc⟩ := hsite c hc
      obtain ⟨⟨x', i'⟩, hsc'⟩ := hsite c' hc'
      simp only [hsc, hsc', Option.elim_some, Prod.mk.injEq] at heq
      obtain ⟨rfl, rfl⟩ := heq
      exact hs.calls.unique hsc hsc'
  simpa [Finset.card_product, pow_two] using hcard

/-- There is one node for each kind, slot and stretch of the text. -/
lemma card_unpacked_lt : s.forest.unpacked.card < p.scale ^ 4 := by
  let r := Finset.range p.scale
  have hcard : s.forest.unpacked.card ≤ (Finset.range 4 ×ˢ r ×ˢ r ×ˢ r).card := by
    refine Finset.card_le_card_of_injOn (fun i => (s.forest.node? i).elim (0, 0, 0, 0)
      fun n => (n.rank, n.first, n.second, n.third)) ?_ ?_
    · intro i hi
      obtain ⟨n, hn, hk⟩ := Forest.mem_unpacked.mp hi
      obtain ⟨i, j, hover⟩ := (hs.forest.node hn hk).placed hS
      have hspan := hover.span
      have hi' : i < p.scale := Problem.lt_scale (Nat.le_trans hover.le hover.le_length)
      have hj' : j < p.scale := Problem.lt_scale hover.le_length
      have hslot {x : SlotId} (hx : n.slot? = some x) : x < p.scale :=
        Nat.lt_of_lt_of_le (hover.slot_lt hx) Problem.size_le_scale
      have hpos : 0 < p.scale := Nat.zero_lt_of_lt hi'
      simp only [hn, Option.elim_some, Finset.coe_product, r]
      cases n with
      | packed => cases hk
      | terminal x l r | nonterminal x l r | intermediate x l r =>
        obtain ⟨rfl, rfl⟩ : l = i ∧ r = j := by simpa [Node.span?] using hspan
        simp [Node.rank, Node.first, Node.second, Node.third, hslot rfl, hi', hj']
      | epsilon l =>
        obtain ⟨rfl, -⟩ : l = i ∧ l = j := by simpa [Node.span?] using hspan
        simp [Node.rank, Node.first, Node.second, Node.third, hi', hpos]
    · intro i hi j hj heq
      obtain ⟨m, hm, hmk⟩ := Forest.mem_unpacked.mp hi
      obtain ⟨n, hn, -⟩ := Forest.mem_unpacked.mp hj
      simp only [hm, hn, Option.elim_some, Prod.mk.injEq] at heq
      obtain ⟨h, h₁, h₂, h₃⟩ := heq
      obtain rfl := Node.eq_of_fields h h₁ h₂ h₃
      exact hs.forest.wellFormed.unique hm hn hmk
  have hpos : 0 < p.scale ^ 3 := Nat.pow_pos (Nat.zero_lt_of_lt Problem.four_lt_scale)
  calc s.forest.unpacked.card ≤ 4 * p.scale ^ 3 := by
        simpa [r, Finset.card_product, pow_succ, Nat.mul_assoc] using hcard
    _ < p.scale * p.scale ^ 3 := Nat.mul_lt_mul_of_pos_right Problem.four_lt_scale hpos
    _ = p.scale ^ 4 := by rw [Nat.pow_succ p.scale 3, Nat.mul_comm]

lemma completions_length_le (c : CallId) : (s.calls.completions c).length ≤ p.scale ^ 4 := by
  rw [← List.toFinset_card_of_nodup hs.calls.completions_nodup]
  refine Nat.le_trans (Finset.card_le_card ?_) (Nat.le_of_lt (hs.card_unpacked_lt hS))
  intro i hi
  obtain ⟨callee, j, n, -, hn, hf⟩ := hs.completion (List.mem_toFinset.mp hi)
  obtain ⟨-, hover⟩ := hf.placed hS
  exact Forest.mem_unpacked.mpr ⟨n, hn, Forest.isPacked_eq_false hover.span⟩

/-- An edge is determined by a slot, a node or none, and a caller. -/
lemma edges_length_le (c : CallId) : (s.calls.edges c).length ≤ p.scale ^ 7 := by
  rw [← List.toFinset_card_of_nodup hs.calls.edges_nodup]
  have hcard : (s.calls.edges c).toFinset.card ≤ (Finset.range p.scale ×ˢ
      Finset.insertNone s.forest.unpacked ×ˢ Finset.range s.calls.size).card := by
    apply Finset.card_le_card_of_injOn (fun e => (e.returnSlot, e.soFar, e.caller))
    · intro e he
      obtain ⟨callee, caller, o, -, hcaller, ho, hf⟩ := hs.edge (List.mem_toFinset.mp he)
      obtain ⟨-, -, ⟨h, hh⟩, -, hcov⟩ := hf.placed hS
      have hlt : e.returnSlot < p.scale :=
        Nat.lt_of_lt_of_le (Slots.lt_size_of_head? hh) Problem.size_le_scale
      have hsoFar : e.soFar ∈ Finset.insertNone s.forest.unpacked := by
        apply Finset.mem_insertNone.mpr
        intro i hi
        rw [Option.mem_def.mp hi] at ho
        obtain ⟨n, hn, rfl⟩ := Forest.denotes_some_iff.mp ho
        exact Forest.mem_unpacked.mpr ⟨n, hn, Forest.isPacked_of_covers hcov n rfl⟩
      simp only [Finset.coe_product, Set.mem_prod, Finset.mem_coe, Finset.mem_range]
      exact ⟨hlt, hsoFar, CallGraph.lt_size_of_site? hcaller⟩
    · rintro ⟨r, l, c⟩ _ ⟨r', l', c'⟩ _ heq
      simpa using heq
  calc (s.calls.edges c).toFinset.card ≤
        p.scale * ((s.forest.unpacked.card + 1) * s.calls.size) := by
        simpa [Finset.card_product, Finset.card_insertNone] using hcard
    _ ≤ p.scale * (p.scale ^ 4 * p.scale ^ 2) := Nat.mul_le_mul_left _
        (Nat.mul_le_mul (hs.card_unpacked_lt hS) (hs.calls_size_le hS))
    _ = p.scale ^ 7 := by ring

lemma edgeCount_le : s.calls.edgeCount ≤ p.scale ^ 9 := by
  rw [CallGraph.edgeCount_eq]
  calc _ ≤ (Finset.range s.calls.size).card • p.scale ^ 7 :=
        Finset.sum_le_card_nsmul _ _ _ fun c _ => hs.edges_length_le hS c
    _ = s.calls.size * p.scale ^ 7 := by simp
    _ ≤ p.scale ^ 2 * p.scale ^ 7 := Nat.mul_le_mul_right _ (hs.calls_size_le hS)
    _ = p.scale ^ 9 := by ring

lemma completionCount_le : s.calls.completionCount ≤ p.scale ^ 6 := by
  calc s.calls.completionCount ≤ (Finset.range s.calls.size).card • p.scale ^ 4 :=
        Finset.sum_le_card_nsmul _ _ _ fun c _ => hs.completions_length_le hS c
    _ = s.calls.size * p.scale ^ 4 := by simp
    _ ≤ p.scale ^ 2 * p.scale ^ 4 := Nat.mul_le_mul_right _ (hs.calls_size_le hS)
    _ = p.scale ^ 6 := by ring

/-- A descriptor is determined by a slot, a call and an offset. -/
lemma agenda_size_le : s.agenda.size ≤ p.scale ^ 4 := by
  have hcard : s.agenda.items.card ≤ (Finset.range p.scale ×ˢ
      Finset.range s.calls.size ×ˢ Finset.range p.scale).card := by
    apply Finset.card_le_card_of_injOn (fun i => (i.slot, i.call, i.index))
    · intro i hi
      obtain ⟨l, hl⟩ := Agenda.mem_items.mp hi
      obtain ⟨site, o, hc, -, hf⟩ := hs.item hl
      obtain ⟨-, hcont, -, hi, -⟩ := hf.placed hS
      have hslot : i.slot < p.graph.size := by
        rcases hcont with ⟨h, hh⟩ | ⟨name, hn⟩
        · exact Slots.lt_size_of_head? hh
        · exact Slots.lt_size_of_role? hn
      simp only [Finset.coe_product, Set.mem_prod, Finset.mem_coe, Finset.mem_range]
      exact ⟨Nat.lt_of_lt_of_le hslot Problem.size_le_scale, CallGraph.lt_size_of_site? hc,
        Problem.lt_scale hi⟩
    · rintro ⟨x, c, i⟩ _ ⟨x', c', i'⟩ _ heq
      simpa using heq
  calc s.agenda.size ≤ p.scale * (s.calls.size * p.scale) := by
        simpa [Agenda.card_items, Finset.card_product] using hcard
    _ ≤ p.scale * (p.scale ^ 2 * p.scale) :=
        Nat.mul_le_mul_left _ (Nat.mul_le_mul_right _ (hs.calls_size_le hS))
    _ = p.scale ^ 4 := by ring

end State.Sound

/-! ### The potential -/

/-- How many moves a task takes, but for what it makes. -/
def Task.weight (p : Problem) : Task → Nat
  | .execute _ => p.effort
  | .enter .. | .arrive .. => 1
  | .cross .. => 2

def weights (p : Problem) (tasks : List Task) : Nat := (tasks.map (Task.weight p)).sum

namespace State

/-- A bound for the moves that are left. A descriptor that may still be seen counts for its
execution, a call for the one with which it is entered, and an edge or a completion for all it may
be combined with. -/
def potential (p : Problem) (s : State) (tasks : List Task) : Nat :=
  weights p tasks + s.agenda.waiting.length * (p.effort + 1) +
    (p.scale ^ 4 - s.agenda.size) * (p.effort + 1) + (p.scale ^ 2 - s.calls.size) * p.effort +
    (p.scale ^ 9 - s.calls.edgeCount) * p.scale ^ 4 +
    (p.scale ^ 6 - s.calls.completionCount) * p.scale ^ 7

end State

section weights

variable {p : Problem}

@[simp] lemma weights_nil : weights p [] = 0 := rfl

@[simp] lemma weights_cons (t : Task) (tasks : List Task) :
    weights p (t :: tasks) = t.weight p + weights p tasks := by
  simp [weights]

@[simp] lemma weights_append (tasks tasks' : List Task) :
    weights p (tasks ++ tasks') = weights p tasks + weights p tasks' := by
  simp [weights]

lemma weights_map {α : Type} (f : α → Task) (as : List α) (w : Nat)
    (hw : ∀ a, (f a).weight p = w) : weights p (as.map f) = as.length * w := by
  induction as with
  | nil => simp
  | cons a as ih => rw [List.map_cons, weights_cons, ih, hw, List.length_cons]; ring

end weights

/-- What a step makes, and what it leaves to be done. -/
structure Step.Effect (p : Problem) (s : State) (task : Task) (s' : State) (tasks : List Task)
    (i c e k : Nat) : Prop where
  items : s'.agenda.size = s.agenda.size + i
  calls : s'.calls.size = s.calls.size + c
  edges : s'.calls.edgeCount = s.calls.edgeCount + e
  completions : s'.calls.completionCount = s.calls.completionCount + k
  weights : weights p tasks + s'.agenda.waiting.length * (p.effort + 1) <
    task.weight p + s.agenda.waiting.length * (p.effort + 1) + i * (p.effort + 1) +
      c * p.effort + e * p.scale ^ 4 + k * p.scale ^ 7

namespace Step

variable {p : Problem} {s s' : State} {task : Task} {tasks : List Task}

/-- Scheduling makes at most a descriptor. -/
lemma effect_schedule {d : Descriptor} {new : Bool} (hsch : s.agenda.Scheduled d new s'.agenda)
    (hcalls : s'.calls = s.calls) (ht : task.weight p = 1) :
    Effect p s task s' [] new.toNat 0 0 0 := by
  refine ⟨hsch.claimed.size, by rw [hcalls]; rfl, by rw [hcalls]; rfl, by rw [hcalls]; rfl, ?_⟩
  have hlen := hsch.waiting.length_eq
  cases new with
  | false =>
    simp only [Bool.false_eq_true, if_false] at hlen
    simp [hlen, ht]
  | true =>
    simp only [if_true, List.length_cons] at hlen
    simp [hlen, ht, Nat.add_mul]

/-- A step leaves no more to be done than what it makes accounts for. -/
lemma effect (hS : p.setting.Valid) (hs : s.Sound p.setting) (hs' : s'.Sound p.setting)
    (h : Step p s task s' tasks) : ∃ i c e k, Effect p s task s' tasks i c e k := by
  cases h with
  | @openCall d n hn =>
    refine ⟨0, 0, 0, 0, rfl, rfl, rfl, rfl, ?_⟩
    have hw : n.firstSlots.length ≤ p.references := p.width_le hn
    rw [weights_map _ _ 1 fun _ => rfl]
    simp only [Task.weight, Problem.effort]
    omega
  | @advance d b hb =>
    refine ⟨0, 0, 0, 0, rfl, rfl, rfl, rfl, ?_⟩
    have hw : b.transitions.length ≤ p.references := p.width_le hb
    rw [weights_map _ _ 2 fun _ => rfl]
    simp only [Task.weight, Problem.effort]
    omega
  | @close d e r new site _ he hc hparsed hagenda hobstacle hcompl =>
    refine ⟨0, 0, 0, new.toNat, by rw [hagenda]; rfl, hcompl.size, hcompl.edgeCount,
      hcompl.completionCount, ?_⟩
    have hedges := hs.edges_length_le hS d.call
    rw [hagenda]
    cases new with
    | false => simp [Task.weight, Problem.effort]
    | true =>
      rw [if_pos rfl, weights_map _ _ 1 fun _ => rfl]
      simp only [Task.weight, Problem.effort, Bool.toNat_true]
      omega
  | enter _ hsch hsame => exact ⟨_, 0, 0, 0, effect_schedule hsch hsame.calls rfl⟩
  | refuse _ _ _ _ hcalls _ hagenda _ =>
    exact ⟨0, 0, 0, 0, by rw [hagenda]; rfl, by rw [hcalls]; rfl, by rw [hcalls]; rfl,
      by rw [hcalls]; rfl, by simp [hagenda, Task.weight]⟩
  | mismatch _ _ _ hcalls _ hagenda _ =>
    exact ⟨0, 0, 0, 0, by rw [hagenda]; rfl, by rw [hcalls]; rfl, by rw [hcalls]; rfl,
      by rw [hcalls]; rfl, by simp [hagenda, Task.weight]⟩
  | scan _ _ _ hcalls hagenda _ =>
    exact ⟨0, 0, 0, 0, by rw [hagenda]; rfl, by rw [hcalls]; rfl, by rw [hcalls]; rfl,
      by rw [hcalls]; rfl, by simp [hagenda, Task.weight]⟩
  | @call d t direct name c newCall newEdge calls₁ _ hn hcalled hlinked hforest hagenda hfur =>
    refine ⟨0, newCall.toNat, newEdge.toNat, 0, by rw [hagenda]; rfl, ?_, ?_, ?_, ?_⟩
    · rw [hlinked.size, hcalled.size]
    · rw [hlinked.edgeCount, hcalled.edgeCount]
    · rw [hlinked.completionCount, hcalled.completionCount]
      rfl
    · have hcompletions := hs'.completions_length_le hS c
      have hreplay : weights p (if newEdge = true then (s'.calls.completions c).map fun r =>
          .arrive t.dest d.call ((s.forest.span? r).elim 0 Prod.snd) d.soFar r false else []) ≤
          newEdge.toNat * p.scale ^ 4 := by
        cases newEdge with
        | false => simp
        | true =>
          rw [if_pos rfl, weights_map _ _ 1 fun _ => rfl]
          simpa using hcompletions
      have hentry : weights p (if newCall = true then
          [.execute (CallSite.entry ⟨t.symbol, d.index⟩ c)] else []) =
          newCall.toNat * p.effort := by
        cases newCall <;> simp [Task.weight]
      rw [weights_append, hentry, hagenda]
      simp only [Task.weight]
      omega
  | @claim dest c j k l r next site o n new _ hnode hclaimed hpending hcalls hfur =>
    refine ⟨new.toNat, 0, 0, 0, hclaimed.size, by rw [hcalls]; rfl, by rw [hcalls]; rfl,
      by rw [hcalls]; rfl, ?_⟩
    have hw : s'.agenda.waiting = s.agenda.waiting := by
      rw [Agenda.waiting, Agenda.waiting, hpending]
    rw [hw]
    cases new <;> simp [Task.weight]
    omega
  | schedule hnode hsch hcalls hfur => exact ⟨_, 0, 0, 0, effect_schedule hsch hcalls rfl⟩

end Step

omit [PatternEngine] in
/-- What is made is taken from what may still be made. -/
lemma spend {cap n b w : Nat} (h : n + b ≤ cap) : (cap - (n + b)) * w + b * w = (cap - n) * w := by
  rw [← Nat.add_mul]
  congr 1
  omega

namespace State

variable {p : Problem} {s s' : State} {tasks tasks' : List Task}

/-- Every move lowers the potential. -/
lemma Running.potential_lt (hS : p.setting.Valid) (h : Running p s tasks)
    (hmove : s.move p tasks = .goOn s' tasks') : s'.potential p tasks' < s.potential p tasks := by
  have hs' := (h.goOn hS hmove).sound
  have hm := h.moves hS
  rw [hmove] at hm
  cases hm with
  | @handOut d a e ha =>
    have hlen : s.agenda.waiting.length = a.waiting.length + 1 := by
      simpa using ha.waiting.length_eq
    have hsize : a.size = s.agenda.size := congrArg Std.ExtTreeMap.size ha.seen
    simp [potential, hlen, hsize, Task.weight, Nat.add_mul]
    omega
  | @step task new rest _ hstep hw =>
    obtain ⟨i, c, e, k, heff⟩ := hstep.effect hS h.sound hs'
    have hi := spend (w := p.effort + 1) (heff.items ▸ hs'.agenda_size_le hS)
    have hc := spend (w := p.effort) (heff.calls ▸ hs'.calls_size_le hS)
    have he := spend (w := p.scale ^ 4) (heff.edges ▸ hs'.edgeCount_le hS)
    have hk := spend (w := p.scale ^ 7) (heff.completions ▸ hs'.completionCount_le hS)
    have hweights := heff.weights
    simp only [potential]
    rw [weights_append, weights_cons, heff.items, heff.calls, heff.edges, heff.completions]
    omega

/-- At the start the potential is below the number of moves that a parse is given. -/
lemma potential_start (hstart : State.start p = (s, .ok ())) :
    s.potential p [] < p.moves s [] := by
  obtain ⟨s', r, hs', hsch, hsame, -⟩ := start_scheduled p
  rw [hstart] at hs'
  obtain ⟨rfl, -⟩ : s = s' ∧ _ := by simpa using hs'
  have hwaiting : s.agenda.waiting.length = 1 := by
    simpa [root, empty, Agenda.empty, Agenda.waiting] using hsch.waiting.length_eq
  have hsize : s.agenda.size = 1 := by
    simpa [root, empty, Agenda.empty, Agenda.size] using hsch.claimed.size
  have hcalls : s.calls.size = 1 := by
    rw [hsame.calls, called_root.size]
    rfl
  have heffort : p.effort + 1 ≤ p.scale ^ 2 := by
    calc p.effort + 1 ≤ 2 * p.scale := by
          rw [Problem.effort, Problem.scale]
          omega
      _ ≤ p.scale * p.scale := Nat.mul_le_mul_right _ (by have := p.four_lt_scale; omega)
      _ = p.scale ^ 2 := (pow_two _).symm
  have hpow {a b : Nat} (h : a ≤ b) : p.scale ^ a ≤ p.scale ^ b :=
    Nat.pow_le_pow_right (Nat.zero_lt_of_lt p.four_lt_scale) h
  calc s.potential p [] ≤ 1 * p.scale ^ 2 + p.scale ^ 4 * p.scale ^ 2 + p.scale ^ 2 * p.scale ^ 2 +
          p.scale ^ 9 * p.scale ^ 4 + p.scale ^ 6 * p.scale ^ 7 := by
        rw [potential]
        rw [weights_nil, Nat.zero_add, hwaiting]
        gcongr <;> omega
    _ = p.scale ^ 2 + p.scale ^ 6 + p.scale ^ 4 + 2 * p.scale ^ 13 := by ring
    _ ≤ 5 * p.scale ^ 13 := by
        have h₁ := hpow (show 2 ≤ 13 by decide)
        have h₂ := hpow (show 6 ≤ 13 by decide)
        have h₃ := hpow (show 4 ≤ 13 by decide)
        omega
    _ < p.scale * p.scale ^ 13 := Nat.mul_lt_mul_of_pos_right
        (by rw [Problem.scale]; omega) (Nat.pow_pos (Nat.zero_lt_of_lt p.four_lt_scale))
    _ = p.scale ^ 14 := by ring
    _ ≤ p.scale ^ 24 := hpow (by decide)
    _ ≤ p.moves s [] := by
        refine Nat.pow_le_pow_left ?_ 24
        simp only [Problem.scale, Problem.extent, Problem.references, hsize, hcalls,
          List.length_nil]
        omega

/-! ### What comes of a run -/

/-- A run ends: nothing is left to do, or it was given up early. -/
lemma Reachable.drainFor (hS : p.setting.Valid) {fuel : Nat} (h : Reachable p s tasks)
    (hfuel : s.potential p tasks < fuel) :
    (∃ s', State.drainFor p fuel s tasks = (s', .ok ()) ∧ Reachable p s' [] ∧
        s'.agenda.waiting = []) ∨
      ∃ s' e, State.drainFor p fuel s tasks = (s', .error e) ∧ Aborted p s' e := by
  induction fuel generalizing s tasks with
  | zero => exact absurd hfuel (Nat.not_lt_zero _)
  | succ fuel ih =>
    have hrun := h.running hS
    have hm := hrun.moves hS
    rw [State.drainFor]
    cases hmove : s.move p tasks with
    | goOn s' tasks' =>
      have hlt := hrun.potential_lt hS hmove
      exact ih (h.move hmove) (by omega)
    | finish s' =>
      rw [hmove] at hm
      cases hm with
      | finish hw => exact Or.inl ⟨s, rfl, h, hw⟩
    | fail s' e =>
      rw [hmove] at hm
      cases hm with
      | abort he => exact Or.inr ⟨s', e, rfl, he⟩

end State

namespace Problem

variable {p : Problem} {s : State}

/-- Takes up descriptors until none is left. -/
def run (p : Problem) : State × Except Failure Unit :=
  match State.start p with
  | (s, .error e) => (s, .error e)
  | (s, .ok ()) => s.drain p

lemma solve_eq (p : Problem) : p.solve =
    match p.run with
    | (s, .error e) => (s, .error e)
    | (s, .ok ()) => s.finish p := by
  rw [solve, run]
  obtain ⟨s, r⟩ := State.start p
  cases r with
  | error e => rfl
  | ok =>
    rcases hd : s.drain p with ⟨s', r⟩
    cases r <;> simp [hd]

/-- A parse that is not given up early ends in a state that knows all facts. -/
theorem run_ok (hS : p.setting.Valid) :
    (∃ s, p.run = (s, .ok ()) ∧ State.Reachable p s [] ∧ s.Saturated p.setting) ∨
      ∃ s e, p.run = (s, .error e) ∧ State.Aborted p s e := by
  rw [run]
  rcases State.start_ok p with ⟨s, hs, -⟩ | ⟨s, e, hs, he⟩
  · have hreach : State.Reachable p s [] := .start hs
    rw [hs]
    refine (hreach.drainFor hS (State.potential_start hs)).imp ?_ id
    rintro ⟨s', hs', hr, hw⟩
    exact ⟨s', hs', hr, (hr.running hS).closed, hw⟩
  · rw [hs]
    exact Or.inr ⟨s, e, rfl, he⟩

end Problem

end GeneralParser
