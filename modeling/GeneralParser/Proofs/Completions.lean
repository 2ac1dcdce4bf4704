import GeneralParser.Proofs.Recognition

/-!
# Completions reach all callers

A call can be completed before it gets a caller, and it can get a caller before it is completed. In
both cases the completion is returned to the caller. Whenever the stack is empty, the caller has
been told to go on, with the node that joins the completion to what it had parsed before.
-/

namespace GeneralParser

section

variable [PatternEngine]

variable {p : Problem} {s : State}

/-- Completion `r`, which lies between the offsets `i` and `j`, has been returned over edge `e`: the
descriptor that goes on after it was seen, with the node `next`. -/
structure State.Delivered (p : Problem) (s : State) (e : Edge) (r : NodeId) (i j : Nat)
    (next : NodeId) : Prop where
  span : s.forest.span? r = some (i, j)
  seen : s.agenda.find? ⟨e.returnSlot, e.caller, j⟩ =
    some ⟨⟨e.returnSlot, e.caller, j⟩, some next⟩
  /-- The node is the one for both parts, and making it once more changes nothing. -/
  combine : s.forest.combine p.graph e.returnSlot e.soFar r = (.ok next, s.forest)
  /-- After the first symbol of a rule that goes on, the completion is all there is. -/
  first : e.soFar = none → (∃ b, p.graph.slots[e.returnSlot]? = some (.body b)) → next = r
  /-- Elsewhere the node has a packed node with both parts. -/
  packed : (e.soFar ≠ none ∨ ∃ d, p.graph.slots[e.returnSlot]? = some (.done d)) →
    ∃ q ∈ s.forest.children next, s.forest.node? q = some (.packed e.returnSlot i) ∧
      s.forest.children q = e.soFar.toList ++ [r]

/-! ### What has been returned -/

/-- The packed node that is there after arriving has the parts with which it was arrived. -/
lemma ArrivedNode.exists_packed {S : Setting} (hS : S.Valid) (hfun : S.Functional)
    (hs : s.Sound S) {dest : SlotId} {c : CallId} {j k : Nat} {l : Option NodeId} {r next : NodeId}
    {site : CallSite} {o : Option Node} {n m : Node}
    (h : ArrivedNode S s dest c j l r next s.forest site k o n)
    (hm : S.joined? dest site j o = some m) :
    ∃ q ∈ s.forest.children next, s.forest.node? q = some (.packed dest k) ∧
      s.forest.children q = l.toList ++ [r] := by
  have hwf := hs.forest.wellFormed
  obtain ⟨-, -, -, hcov, hover⟩ := h.arrival.placed hS
  have hmk := Forest.isPacked_eq_false (Setting.span?_joined hm)
  have hnext : s.forest.node? next = some m := by simpa [hm] using h.node
  obtain ⟨i, q, l', r', hi, hq, hqn, hparts, hl', hr'⟩ :=
    hs.knows_packed hfun hnext (h.packed hm) (.packed h.arrival hm)
  obtain rfl := hwf.unique hnext hi hmk
  obtain rfl := h.soFar.inj hwf hl' (Forest.isPacked_of_covers hcov)
  obtain rfl := hwf.unique h.part hr' (Forest.isPacked_eq_false hover.span)
  refine ⟨q, ?_, hqn, ?_⟩
  · rwa [hwf.children_eq_packedUnder hnext hmk]
  · rw [hwf.children_eq_parts hqn, hparts]

namespace State

/-- Where the return slot of an edge was arrived at after a completion, this one is returned. -/
lemma Arrived.delivered (hS : p.setting.Valid) (hfun : p.setting.Functional)
    (hs : s.Sound p.setting) {e : Edge} {r : NodeId} {j : Nat}
    (h : s.Arrived p.setting e.returnSlot e.caller j e.soFar r) :
    ∃ i next, s.Delivered p e r i j next := by
  obtain ⟨site, k, o, n, next, hnode, hseen⟩ := h
  have hwf := hs.forest.wellFormed
  obtain ⟨-, ⟨a, ha⟩, -, -, hover⟩ := hnode.arrival.placed hS
  have hcombine : s.forest.combine p.graph e.returnSlot e.soFar r = (.ok next, s.forest) :=
    Forest.combine_again hS hwf hnode.arrival hnode.soFar hnode.part hnode.node
      fun _ hm => hnode.packed hm
  refine ⟨k, next, ?_, ?_, hcombine, ?_, ?_⟩
  · simp [Forest.span?, hnode.part, hover.span]
  · simp [Agenda.find?, hseen]
  · rintro hnone ⟨b, hb⟩
    -- no node is made, so what was arrived with is the completion
    obtain rfl : o = none := by simpa [hnone, Forest.denotes_none_iff] using hnode.soFar
    have hjoined : p.setting.joined? e.returnSlot site j none = none := by
      simp [Setting.joined?, Problem.setting, hb]
    have hnext := hnode.node
    rw [hjoined] at hnext
    exact hwf.unique hnext hnode.part (Forest.isPacked_eq_false hover.span)
  · intro hlater
    cases hm : p.setting.joined? e.returnSlot site j o with
    | some m => exact hnode.exists_packed hS hfun hs hm
    | none =>
      obtain rfl := Setting.eq_none_of_joined? ha hm
      rcases hlater with hne | ⟨d, hd⟩
      · obtain ⟨v, hv⟩ := Option.ne_none_iff_exists'.mp hne
        simpa [hv, Forest.denotes_some_iff] using hnode.soFar
      · simp [Setting.joined?, Problem.setting, hd] at hm

/-- While no task is left, every completion of a call has been returned to all its callers. -/
theorem Running.delivered (hS : p.setting.Valid) (hfun : p.setting.Functional)
    (h : Running p s []) {c : CallId} {e : Edge} {r : NodeId} (he : e ∈ s.calls.edges c)
    (hr : r ∈ s.calls.completions c) : ∃ i j next, s.Delivered p e r i j next := by
  obtain ⟨-, -, j, -, -, ⟨direct, hmem⟩ | harr⟩ := h.closed.pair he hr
  · cases hmem
  · obtain ⟨i, next, hd⟩ := harr.delivered hS hfun h.sound
    exact ⟨i, j, next, hd⟩

end State

/-! ### Runs -/

/-- In every state between two descriptors, and at the end of a run, every completion of a call has
been returned to every caller, whichever of the two came first. -/
theorem completion_delivered {share : Bool} {rules : List (String × List Symbol)} {g : Graph}
    (hbuild : (Rules.ofList share rules).build = .ok g) {start : String} {id : SlotId}
    (hstart : g.nonterminal? start = some id) (text : String) (config : Config) {s : State}
    (hs : State.Reachable ⟨g, .ofString text, id, config⟩ s [] ∨
      Problem.run ⟨g, .ofString text, id, config⟩ = (s, .ok ())) :
    ∀ {c e r}, e ∈ s.calls.edges c → r ∈ s.calls.completions c →
      ∃ i j next, s.Delivered ⟨g, .ofString text, id, config⟩ e r i j next := by
  have hg := Graph.spells_of_build hbuild
  have hwell := hg.setting_wellBuilt hstart text config
  have hreach : State.Reachable ⟨g, .ofString text, id, config⟩ s [] := by
    rcases hs with hs | hrun
    · exact hs
    · exact Problem.reachable_of_run hwell hrun
  intro c e r he hr
  exact (hreach.running hwell.toValid).delivered hwell.toValid hwell.functional he hr

end

/-- In a cyclic grammar a call returns to itself, also with what it was completed with before. -/
theorem completion_delivered_letters :
    ∃ s, Problem.letters.run = (s, .ok ()) ∧ ⟨3, some 0, 0⟩ ∈ s.calls.edges 0 ∧
      17 ∈ s.calls.completions 0 ∧
      ∃ i j next, s.Delivered Problem.letters ⟨3, some 0, 0⟩ 17 i j next := by
  have he : ⟨3, some 0, 0⟩ ∈ Problem.letters.run.1.calls.edges 0 := by decide +kernel
  have hr : 17 ∈ Problem.letters.run.1.calls.completions 0 := by decide +kernel
  exact ⟨_, Problem.run_letters, he, hr, completion_delivered Graph.build_letters
    Graph.nonterminal?_letters "aa" {} (Or.inr Problem.run_letters) he hr⟩

end GeneralParser
