import GeneralParser.Proofs.Engine.Step

/-!
# Soundness

Every step keeps a state sound, and what it leaves to be done relies on facts again. So all that a
parse ever stores is a fact.
-/

namespace GeneralParser

variable [PatternEngine]

open Slots (role? head? Leads)

variable {p : Problem} {s s' : State} {task : Task} {tasks : List Task}

/-! ### Growth -/

lemma ParsedNode.extended {S : Setting} {f f' : Forest} {d : Descriptor} {e : EndSlot}
    {r : NodeId} (h : ParsedNode S f d e r f') (hf : f.Sound S) : f.Extended S f' := by
  cases h with
  | whole _ => exact .refl hf
  | empty _ hext _ _ _ => exact hext

namespace Step

/-- States only grow. -/
lemma le (hs : s.Sound p.setting) (h : Step p s task s' tasks) : s.Le s' := by
  have hfurthest {s' : State} (h : s'.furthest = s.furthest) {o : Obstacle}
      (ho : s.furthest = some o) : ∃ o', s'.furthest = some o' ∧ o.index ≤ o'.index :=
    ⟨o, h ▸ ho, Nat.le_refl _⟩
  cases h with
  | openCall | advance => exact .refl s
  | close he hc hparsed hagenda hobstacle hcompl =>
    refine ⟨hcompl.le, (hparsed.extended hs.forest).le, fun h => hagenda ▸ h, ?_⟩
    split at hobstacle
    · exact hobstacle.mono
    · exact hfurthest hobstacle
  | enter _ hsch hsame =>
    exact ⟨hsame.calls ▸ .refl _, hsame.forest ▸ .refl _, hsch.claimed.mono,
      hfurthest hsame.furthest⟩
  | refuse _ _ _ _ hcalls hforest hagenda hobstacle =>
    exact ⟨hcalls ▸ .refl _, hforest ▸ .refl _, fun h => hagenda ▸ h, hobstacle.mono⟩
  | mismatch _ _ _ hcalls hforest hagenda hobstacle =>
    exact ⟨hcalls ▸ .refl _, hforest ▸ .refl _, fun h => hagenda ▸ h, hobstacle.mono⟩
  | scan _ hext _ hcalls hagenda hfur =>
    exact ⟨hcalls ▸ .refl _, hext.le, fun h => hagenda ▸ h, hfurthest hfur⟩
  | call _ hcalled hlinked hforest hagenda hfur =>
    exact ⟨hcalled.le.trans hlinked.le, hforest ▸ .refl _, fun h => hagenda ▸ h, hfurthest hfur⟩
  | claim hnode hclaimed _ hcalls hfur =>
    exact ⟨hcalls ▸ .refl _, hnode.forest.le, hclaimed.mono, hfurthest hfur⟩
  | schedule hnode hsch hcalls hfur =>
    exact ⟨hcalls ▸ .refl _, hnode.forest.le, hsch.claimed.mono, hfurthest hfur⟩

/-- Tasks do not move the agenda on. -/
lemma drained_eq (h : Step p s task s' tasks) : s'.agenda.drained = s.agenda.drained := by
  cases h with
  | openCall | advance => rfl
  | close _ _ _ hagenda => rw [hagenda]
  | refuse _ _ _ _ _ _ hagenda => rw [hagenda]
  | mismatch _ _ _ _ _ hagenda => rw [hagenda]
  | scan _ _ _ _ hagenda => rw [hagenda]
  | call _ _ _ _ hagenda => rw [hagenda]
  | enter _ hsch => exact hsch.claimed.drained
  | claim _ hclaimed => exact hclaimed.drained
  | schedule _ hsch => exact hsch.claimed.drained

end Step

/-! ### Facts -/

/-- Only a nonterminal is entered; elsewhere a descriptor is executed because its item is a fact. -/
lemma Task.Fact.item {S : Setting} (hS : S.Valid) (hs : s.Sound S) {d : Descriptor}
    (hd : (Task.execute d).Fact S s) (hslot : ∃ a, head? S.graph.slots d.slot = some a) :
    s.ItemFact S d := by
  apply hd.resolve_right
  rintro ⟨site, hc, hd⟩
  obtain ⟨a, ha⟩ := hslot
  obtain ⟨name, hn⟩ := ((hs.call hc).placed hS).1
  rw [hd, show (site.entry d.call).slot = site.slot from rfl, head?, hn] at ha
  cases ha

/-- The node of a rule is a completion. -/
lemma completionFact_of_close {S : Setting} (hle : s.Le s') {d : Descriptor} {e : EndSlot}
    {r : NodeId} (he : S.graph.slots[d.slot]? = some (.done e)) (hd : s.ItemFact S d)
    (hparsed : ParsedNode S s.forest d e r s'.forest) :
    ∃ callee n, s'.calls.site? d.call = some callee ∧ s'.forest.node? r = some n ∧
      S.Derivable (.completion callee d.index n) := by
  have hrole := Slots.role?_done.mpr ⟨e, he, rfl, rfl⟩
  obtain ⟨site, o, hc, ho, hf⟩ := hd
  generalize hforest : s'.forest = f' at hparsed
  cases hparsed with
  | whole hl =>
    rw [hl] at ho
    obtain ⟨n, hn, rfl⟩ := Forest.denotes_some_iff.mp ho
    exact ⟨site, n, hle.calls.site hc, hforest ▸ hn, .complete hf hrole⟩
  | empty hl _ hr _ _ =>
    rw [hl] at ho
    obtain rfl := Forest.denotes_none_iff.mp ho
    exact ⟨site, _, hle.calls.site hc, hr, .complete hf hrole⟩

/-- A completed call returns to all its callers. -/
lemma arrive_fact {S : Setting} {c : CallId} {e : Edge} {r : NodeId} {j : Nat}
    {callee : CallSite} {n : Node} (he : s.EdgeFact S c e) (hc : s.calls.site? c = some callee)
    (hr : s.forest.node? r = some n) (hf : S.Derivable (.completion callee j n)) {direct : Bool} :
    (Task.arrive e.returnSlot e.caller j e.soFar r direct).Fact S s := by
  obtain ⟨callee', caller, o, hc', hcaller, ho, hedge⟩ := he
  obtain rfl : callee = callee' := Option.mem_unique hc hc'
  exact ⟨caller, callee.index, o, n, hcaller, ho, hr, .resume hedge hf⟩

namespace Step

lemma sound_close {d : Descriptor} {e : EndSlot} {r : NodeId} {new : Bool} {site : CallSite}
    (hs : s.Sound p.setting) (hle : s.Le s') (he : p.graph.slots[d.slot]? = some (.done e))
    (hc : s.calls.site? d.call = some site)
    (hparsed : ParsedNode p.setting s.forest d e r s'.forest) (hagenda : s'.agenda = s.agenda)
    (hobstacle : if d.call = rootCall ∧ d.index < p.text.length then
      Obstacle.Reported ⟨d.slot, d.index, site⟩ s.furthest s'.furthest
      else s'.furthest = s.furthest)
    (hcompl : s.calls.Completed d.call r new s'.calls) (hd : s.ItemFact p.setting d) :
    s'.Sound p.setting := by
  obtain ⟨callee, n, hcallee, hr, hf⟩ := completionFact_of_close hle he hd hparsed
  refine hs.grow hle hcompl.wellFormed (hparsed.extended hs.forest).sound (hagenda ▸ hs.agenda)
    (fun h => Or.inl (hcompl.site ▸ h)) (fun h => Or.inl (hcompl.edges ▸ h)) ?_
    (fun h => Or.inl (hagenda ▸ h)) ?_
  · intro c r h
    rcases hcompl.back h with h | ⟨-, rfl, rfl⟩
    · exact Or.inl h
    · exact Or.inr ⟨callee, d.index, n, hcallee, hr, hf⟩
  · intro o h
    split at hobstacle
    next hcond =>
      apply (hobstacle.back h).imp id
      rintro rfl
      -- the end of a rule in the first call, before the end of the text
      obtain ⟨site', o, hc', -, hitem⟩ := hd
      obtain rfl : site = p.setting.rootSite := by
        rw [hcond.1, hs.root] at hc
        exact (Option.some.inj hc).symm
      obtain rfl : p.setting.rootSite = site' := Option.mem_unique hc hc'
      exact .early hitem (Slots.role?_done.mpr ⟨e, he, rfl, rfl⟩) hcond.2
    next => exact Or.inl (hobstacle ▸ h)

variable (hS : p.setting.Valid) (hs : s.Sound p.setting)
include hS hs

/-- A step keeps a state sound. -/
theorem sound (ht : task.Sound p.setting s) (h : Step p s task s' tasks) :
    s'.Sound p.setting := by
  have hle := h.le hs
  cases h with
  | openCall | advance => exact hs
  | close he hc hparsed hagenda hobstacle hcompl =>
    exact sound_close hs hle he hc hparsed hagenda hobstacle hcompl
      (ht.fact.item hS hs ⟨_, Slots.head?_done he⟩)
  | enter hadm hsch hsame =>
    obtain ⟨site, hc, rfl, hf⟩ := ht.fact
    refine hs.grow hle (hsame.calls ▸ hs.calls) (hsame.forest ▸ hs.forest) hsch.wellFormed
      (fun h => Or.inl (hsame.calls ▸ h)) (fun h => Or.inl (hsame.calls ▸ h))
      (fun h => Or.inl (hsame.calls ▸ h)) ?_ (fun h => Or.inl (hsame.furthest ▸ h))
    intro i l h
    apply (hsch.claimed.back h).imp id
    rintro ⟨-, rfl, rfl⟩
    exact ⟨site, none, hle.calls.site hc, .none, .enter (hs.call hc) hf hadm⟩
  | refuse hl hadm hb hc hcalls hforest hagenda hobstacle =>
    obtain ⟨site, hc', rfl, hf⟩ := ht.fact
    refine hs.grow hle (hcalls ▸ hs.calls) (hforest ▸ hs.forest) (hagenda ▸ hs.agenda)
      (fun h => Or.inl (hcalls ▸ h)) (fun h => Or.inl (hcalls ▸ h))
      (fun h => Or.inl (hcalls ▸ h)) (fun h => Or.inl (hagenda ▸ h)) ?_
    intro o h
    apply (hobstacle.back h).imp id
    rintro rfl
    obtain rfl := Option.mem_unique hc' hc
    exact .refuse (hs.call hc) hf hl hadm hb
  | mismatch hτ hm hc hcalls hforest hagenda hobstacle =>
    obtain ⟨⟨site, o, hc', -, hitem⟩, hlead⟩ := ht.fact
    refine hs.grow hle (hcalls ▸ hs.calls) (hforest ▸ hs.forest) (hagenda ▸ hs.agenda)
      (fun h => Or.inl (hcalls ▸ h)) (fun h => Or.inl (hcalls ▸ h))
      (fun h => Or.inl (hcalls ▸ h)) (fun h => Or.inl (hagenda ▸ h)) (fun h => ?_)
    apply (hobstacle.back h).imp id
    rintro rfl
    obtain rfl := Option.mem_unique hc' hc
    exact .mismatch hitem hlead hτ hm
  | scan hscan hext hr hcalls hagenda hfur =>
    exact hs.grow hle (hcalls ▸ hs.calls) hext.sound (hagenda ▸ hs.agenda)
      (fun h => Or.inl (hcalls ▸ h)) (fun h => Or.inl (hcalls ▸ h))
      (fun h => Or.inl (hcalls ▸ h)) (fun h => Or.inl (hagenda ▸ h))
      (fun h => Or.inl (hfur ▸ h))
  | call hn hcalled hlinked hforest hagenda hfur =>
    obtain ⟨⟨site, o, hc, ho, hitem⟩, hlead⟩ := ht.fact
    refine hs.grow hle hlinked.wellFormed (hforest ▸ hs.forest) (hagenda ▸ hs.agenda)
      ?_ ?_ ?_ (fun h => Or.inl (hagenda ▸ h)) (fun h => Or.inl (hfur ▸ h))
    · intro c' site' h
      rw [hlinked.site] at h
      apply (hcalled.back h).imp id
      rintro ⟨-, -, rfl⟩
      exact .call hitem hlead hn
    · intro c' e h
      rcases hlinked.back h with h | ⟨-, rfl, rfl⟩
      · exact Or.inl (hcalled.edges ▸ h)
      · exact Or.inr ⟨_, site, o, hlinked.le.site hcalled.called, hle.calls.site hc,
          ho.mono hle.forest, .edge hitem hlead hn⟩
    · intro c' r h
      rw [hlinked.completions, hcalled.completions] at h
      exact Or.inl h
  | claim hnode hclaimed hpending hcalls hfur =>
    refine hs.grow hle (hcalls ▸ hs.calls) hnode.forest.sound
      (hclaimed.wellFormed hs.agenda hpending) (fun h => Or.inl (hcalls ▸ h))
      (fun h => Or.inl (hcalls ▸ h)) (fun h => Or.inl (hcalls ▸ h)) ?_
      (fun h => Or.inl (hfur ▸ h))
    intro i l h
    apply (hclaimed.back h).imp id
    rintro ⟨-, rfl, rfl⟩
    exact ⟨_, _, hle.calls.site hnode.call, .some hnode.node, .arrive hnode.arrival⟩
  | schedule hnode hsch hcalls hfur =>
    refine hs.grow hle (hcalls ▸ hs.calls) hnode.forest.sound hsch.wellFormed
      (fun h => Or.inl (hcalls ▸ h)) (fun h => Or.inl (hcalls ▸ h))
      (fun h => Or.inl (hcalls ▸ h)) ?_ (fun h => Or.inl (hfur ▸ h))
    intro i l h
    apply (hsch.claimed.back h).imp id
    rintro ⟨-, rfl, rfl⟩
    exact ⟨_, _, hle.calls.site hnode.call, .some hnode.node, .arrive hnode.arrival⟩

/-- The tasks that a step leaves rely on facts, at its offset or beyond. -/
lemma fact_of_mem (ht : task.Sound p.setting s) (h : Step p s task s' tasks) {t : Task}
    (hmem : t ∈ tasks) : t.Fact p.setting s' ∧ task.index ≤ t.index := by
  have hs' := h.sound hS hs ht
  have hle := h.le hs
  cases h with
  | @openCall d n hn =>
    obtain ⟨f, hf, rfl⟩ := List.mem_map.mp hmem
    obtain ⟨site, hc, hslot, hi⟩ : ∃ site, s.calls.site? d.call = some site ∧
        d.slot = site.slot ∧ d.index = site.index := by
      rcases ht.fact with ⟨site, o, hc, -, hitem⟩ | ⟨site, hc, hd⟩
      · obtain ⟨hslot, hi, -⟩ :=
          hitem.item_nonterminal hS (Slots.role?_nonterminal.mpr ⟨n, hn, rfl⟩)
        exact ⟨site, hc, hslot, hi⟩
      · exact ⟨site, hc, congrArg (·.slot) hd, congrArg (·.index) hd⟩
    exact ⟨⟨site, hc, hi, ⟨n, hslot ▸ hn, hf⟩⟩, Nat.le_refl _⟩
  | @advance d b hb =>
    obtain ⟨t, ht', rfl⟩ := List.mem_map.mp hmem
    exact ⟨⟨ht.fact.item hS hs ⟨_, Slots.head?_body hb⟩, ⟨b, hb, ht'⟩⟩, Nat.le_refl _⟩
  | close he hc hparsed hagenda hobstacle hcompl =>
    split at hmem
    · obtain ⟨e', he', rfl⟩ := List.mem_map.mp hmem
      obtain ⟨callee, n, hcallee, hr, hf⟩ := completionFact_of_close hle he
        (ht.fact.item hS hs ⟨_, Slots.head?_done he⟩) hparsed
      exact ⟨arrive_fact (hs'.edge (hle.calls.edges he')) hcallee hr hf, Nat.le_refl _⟩
    · cases hmem
  | enter | refuse | mismatch | schedule => cases hmem
  | scan hscan hext hr hcalls hagenda hfur =>
    obtain rfl := List.mem_singleton.mp hmem
    obtain ⟨⟨site, o, hc, ho, hitem⟩, hlead⟩ := ht.fact
    exact ⟨⟨site, _, o, _, hle.calls.site hc, ho.mono hle.forest, hr, .scan hitem hlead hscan⟩,
      (hS.scan_le hscan).1⟩
  | call hn hcalled hlinked hforest hagenda hfur =>
    have hcallee := hlinked.le.site hcalled.called
    rcases List.mem_append.mp hmem with hmem | hmem
    · split at hmem
      · obtain ⟨r, hr, rfl⟩ := List.mem_map.mp hmem
        obtain ⟨callee, j, n, hc, hn', hf⟩ := hs'.completion hr
        obtain rfl := Option.mem_unique hcallee hc
        obtain ⟨-, hover⟩ := hf.placed hS
        rw [hforest] at hn'
        have hj : (s.forest.span? r).elim 0 Prod.snd = j := by
          simp [Forest.span?, hn', hover.span]
        rw [hj]
        refine ⟨arrive_fact (hs'.edge hlinked.edge) hcallee (by rw [hforest]; exact hn') hf,
          hover.le⟩
      · cases hmem
    · split at hmem
      · obtain rfl := List.mem_singleton.mp hmem
        exact ⟨Or.inr ⟨_, hcallee, rfl⟩, Nat.le_refl _⟩
      · cases hmem
  | claim hnode hclaimed hpending hcalls hfur =>
    split at hmem
    · obtain rfl := List.mem_singleton.mp hmem
      exact ⟨Or.inl (hs'.item hclaimed.seen), Nat.le_refl _⟩
    · cases hmem

/-- The tasks that a step leaves are sound. -/
theorem sound_of_mem (ht : task.Sound p.setting s) (h : Step p s task s' tasks) {t : Task}
    (hmem : t ∈ tasks) : t.Sound p.setting s' := by
  obtain ⟨hfact, hindex⟩ := h.fact_of_mem hS hs ht hmem
  exact ⟨hfact, h.drained_eq ▸ Nat.le_trans ht.drained_le hindex⟩

end Step

lemma Task.Sound.step {t : Task} (hs : s.Sound p.setting) (ht : t.Sound p.setting s)
    (h : Step p s task s' tasks) : t.Sound p.setting s' :=
  ⟨ht.fact.mono (h.le hs), h.drained_eq ▸ ht.drained_le⟩

end GeneralParser
