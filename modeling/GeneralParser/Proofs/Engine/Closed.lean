import GeneralParser.Proofs.Engine.Sound

/-!
# Completeness

Between two steps, whatever follows from what is stored is stored as well, or a task on the stack or
a descriptor on the agenda is going to take care of it. A parse that has nothing left to do
therefore knows every fact.
-/

namespace GeneralParser

variable [PatternEngine]

open Slots (role? head? Leads)

namespace State

variable {S : Setting} {s s' : State} {tasks tasks' : List Task}

/-! ### What has been done -/

/-- Arriving at `dest` after `r` has been done. -/
def Arrived (S : Setting) (s : State) (dest : SlotId) (c : CallId) (j : Nat) (l : Option NodeId)
    (r : NodeId) : Prop :=
  ∃ site k o n next, ArrivedNode S s dest c j l r next s.forest site k o n ∧
    s.agenda.seen[(⟨dest, c, j⟩ : Item)]? = some (some next)

/-- Trying the alternative that starts in `f` has been done. -/
def Entered (S : Setting) (s : State) (f : SlotId) (c : CallId) (i : Nat) : Prop :=
  (S.Admits f i → s.agenda.seen[(⟨f, c, i⟩ : Item)]? = some none) ∧
    (¬ S.Admits f i → s.Covered i)

/-- Going over a transition has been done, up to what the tasks still do. -/
structure Crossed (S : Setting) (s : State) (tasks : List Task) (d : Descriptor)
    (t : Transition) : Prop where
  scan {j : Nat} : (S.graph.spans S.text).scan t.symbol d.index j →
    ∃ r, s.forest.node? r = some (.terminal t.symbol d.index j) ∧
      ((∃ direct, .arrive t.dest d.call j d.soFar r direct ∈ tasks) ∨
        s.Arrived S t.dest d.call j d.soFar r)
  mismatch {τ : Terminal} : role? S.graph.slots t.symbol = some (.terminal τ) →
    τ.matchAt S.text d.index = .ok none → s.Covered d.index
  call {name : String} : role? S.graph.slots t.symbol = some (.nonterminal name) →
    ∃ c, s.calls.site? c = some ⟨t.symbol, d.index⟩ ∧
      ⟨t.dest, d.soFar, d.call⟩ ∈ s.calls.edges c

/-- The node of a rule is there. -/
def Parsed (s : State) (d : Descriptor) (a : SlotId) (r : NodeId) : Prop :=
  d.soFar = some r ∨ (d.soFar = none ∧
    s.forest.node? r = some (.nonterminal a d.index d.index) ∧
    (∃ q, s.forest.node? q = some (.epsilon d.index)) ∧
    s.forest.hasPacked r d.slot d.index = true)

/-- Executing a descriptor has been done, up to what the tasks still do. -/
structure Executed (S : Setting) (s : State) (tasks : List Task) (d : Descriptor) : Prop where
  enter {f : SlotId} : Slots.Starts S.graph.slots d.slot f →
    .enter f d.call d.index ∈ tasks ∨ s.Entered S f d.call d.index
  cross {x dest : SlotId} : Leads S.graph.slots d.slot x dest →
    (∃ direct, .cross d ⟨x, dest⟩ direct ∈ tasks) ∨ s.Crossed S tasks d ⟨x, dest⟩
  close {a : SlotId} {k : Nat} : role? S.graph.slots d.slot = some (.done a k) →
    (∃ r ∈ s.calls.completions d.call, s.Parsed d a r) ∧
      (d.call = rootCall → d.index < S.text.length → s.Covered d.index)

/-- What a task is for has been done, up to what the other tasks still do. -/
def Done (S : Setting) (s : State) (tasks : List Task) : Task → Prop
  | .execute d => s.Executed S tasks d
  | .enter f c i => s.Entered S f c i
  | .cross d t _ => s.Crossed S tasks d t
  | .arrive dest c j l r _ => s.Arrived S dest c j l r

/-- A descriptor waits, or is about to be executed, or has been. -/
def Handled (S : Setting) (s : State) (tasks : List Task) (d : Descriptor) : Prop :=
  d ∈ s.agenda.waiting ∨ .execute d ∈ tasks ∨ s.Executed S tasks d

/-- Nothing is forgotten: every descriptor and every call is handled, and every completion is
returned to every caller. -/
structure Closed (S : Setting) (s : State) (tasks : List Task) : Prop where
  seed : s.agenda.seen[(⟨S.start, rootCall, 0⟩ : Item)]? = some none
  item {i : Item} {l : Option NodeId} : s.agenda.seen[i]? = some l → s.Handled S tasks ⟨i, l⟩
  entry {c : CallId} {site : CallSite} : s.calls.site? c = some site →
    s.Handled S tasks (site.entry c)
  pair {c : CallId} {e : Edge} {r : NodeId} : e ∈ s.calls.edges c →
    r ∈ s.calls.completions c → ∃ n i j, s.forest.node? r = some n ∧ n.span? = some (i, j) ∧
      ((∃ direct, .arrive e.returnSlot e.caller j e.soFar r direct ∈ tasks) ∨
        s.Arrived S e.returnSlot e.caller j e.soFar r)

/-! ### When something is done -/

section kinds

variable {d : Descriptor} {t : Transition}

lemma executed_of_nonterminal {n : NonterminalSlot}
    (hslot : S.graph.slots[d.slot]? = some (.nonterminal n))
    (h : ∀ f ∈ n.firstSlots, .enter f d.call d.index ∈ tasks ∨ s.Entered S f d.call d.index) :
    s.Executed S tasks d := by
  refine ⟨?_, ?_, ?_⟩
  · intro f hf
    exact h f ((Slots.starts_iff_of_nonterminal hslot).mp hf)
  · rintro x dest ⟨b, hb, -⟩
    rw [hslot] at hb
    cases hb
  · intro a k hd
    obtain ⟨e, he, -⟩ := Slots.role?_done.mp hd
    rw [hslot] at he
    cases he

lemma executed_of_body {b : BodySlot} (hslot : S.graph.slots[d.slot]? = some (.body b))
    (h : ∀ t ∈ b.transitions, (∃ direct, .cross d t direct ∈ tasks) ∨ s.Crossed S tasks d t) :
    s.Executed S tasks d := by
  refine ⟨?_, ?_, ?_⟩
  · rintro f ⟨n, hn, -⟩
    rw [hslot] at hn
    cases hn
  · intro x dest hl
    exact h _ ((Slots.leads_iff_of_body hslot).mp hl)
  · intro a k hd
    obtain ⟨e, he, -⟩ := Slots.role?_done.mp hd
    rw [hslot] at he
    cases he

lemma executed_of_done {e : EndSlot} (hslot : S.graph.slots[d.slot]? = some (.done e))
    {r : NodeId} (hr : r ∈ s.calls.completions d.call) (hp : s.Parsed d e.head r)
    (hearly : d.call = rootCall → d.index < S.text.length → s.Covered d.index) :
    s.Executed S tasks d := by
  refine ⟨?_, ?_, ?_⟩
  · rintro f ⟨n, hn, -⟩
    rw [hslot] at hn
    cases hn
  · rintro x dest ⟨b, hb, -⟩
    rw [hslot] at hb
    cases hb
  · intro a k hd
    obtain ⟨e', he', rfl, -⟩ := Slots.role?_done.mp hd
    obtain rfl : e = e' := by simpa [hslot] using he'
    exact ⟨⟨r, hr, hp⟩, hearly⟩

lemma crossed_of_match {τ : Terminal} {n : Nat} {r : NodeId}
    (hτ : role? S.graph.slots t.symbol = some (.terminal τ))
    (hm : τ.matchAt S.text d.index = .ok (some n))
    (hr : s.forest.node? r = some (.terminal t.symbol d.index (d.index + n)))
    (ha : (∃ direct, .arrive t.dest d.call (d.index + n) d.soFar r direct ∈ tasks) ∨
      s.Arrived S t.dest d.call (d.index + n) d.soFar r) : s.Crossed S tasks d t := by
  refine ⟨?_, ?_, ?_⟩
  · rintro j ⟨τ', n', hτ', hm', rfl⟩
    obtain rfl : τ = τ' := by simpa [hτ] using hτ'
    obtain rfl : n = n' := by simpa [hm] using hm'
    exact ⟨r, hr, ha⟩
  · intro τ' hτ' hm'
    obtain rfl : τ = τ' := by simpa [hτ] using hτ'
    simp [hm] at hm'
  · intro name hn
    simp [hτ] at hn

lemma crossed_of_mismatch {τ : Terminal}
    (hτ : role? S.graph.slots t.symbol = some (.terminal τ))
    (hm : τ.matchAt S.text d.index = .ok none) (hc : s.Covered d.index) :
    s.Crossed S tasks d t := by
  refine ⟨?_, fun _ _ => hc, ?_⟩
  · rintro j ⟨τ', n', hτ', hm', -⟩
    obtain rfl : τ = τ' := by simpa [hτ] using hτ'
    simp [hm] at hm'
  · intro name hn
    simp [hτ] at hn

lemma crossed_of_call {name : String} {c : CallId}
    (hn : role? S.graph.slots t.symbol = some (.nonterminal name))
    (hc : s.calls.site? c = some ⟨t.symbol, d.index⟩)
    (he : ⟨t.dest, d.soFar, d.call⟩ ∈ s.calls.edges c) : s.Crossed S tasks d t := by
  refine ⟨?_, ?_, fun _ => ⟨c, hc, he⟩⟩
  · rintro j ⟨τ, n, hτ, -, -⟩
    simp [hn] at hτ
  · intro τ hτ
    simp [hn] at hτ

end kinds

/-! ### Nothing done is undone -/

lemma Arrived.mono (h : s.Le s') (hx : s.forest.Extended S s'.forest) {dest : SlotId}
    {c : CallId} {j : Nat} {l : Option NodeId} {r : NodeId} (ha : s.Arrived S dest c j l r) :
    s'.Arrived S dest c j l r := by
  obtain ⟨site, k, o, n, next, hnode, hseen⟩ := ha
  exact ⟨site, k, o, n, next, ⟨h.calls.site hnode.call, hnode.soFar.mono h.forest,
    h.forest.node hnode.part, hnode.arrival, .refl hx.sound, h.forest.node hnode.node,
    fun hm => h.forest.hasPacked (hnode.packed hm)⟩, h.seen hseen⟩

lemma Entered.mono (h : s.Le s') {f : SlotId} {c : CallId} {i : Nat}
    (he : s.Entered S f c i) : s'.Entered S f c i :=
  ⟨fun ha => h.seen (he.1 ha), fun ha => (he.2 ha).mono h⟩

omit [PatternEngine] in
lemma Parsed.mono (h : s.Le s') {d : Descriptor} {a : SlotId} {r : NodeId}
    (hr : s.Parsed d a r) : s'.Parsed d a r := by
  rcases hr with hl | ⟨hl, hn, ⟨q, hq⟩, hp⟩
  · exact Or.inl hl
  · exact Or.inr ⟨hl, h.forest.node hn, ⟨q, h.forest.node hq⟩, h.forest.hasPacked hp⟩

/-- From one moment to a later one, every task stays or has been done. -/
structure Carries (S : Setting) (s : State) (tasks : List Task) (s' : State)
    (tasks' : List Task) : Prop where
  le : s.Le s'
  extended : s.forest.Extended S s'.forest
  task {t : Task} : t ∈ tasks → t ∈ tasks' ∨ s'.Done S tasks' t

section Carries

variable (h : Carries S s tasks s' tasks')
include h

lemma Carries.arrived {dest : SlotId} {c : CallId} {j : Nat} {l : Option NodeId} {r : NodeId}
    (ha : (∃ direct, .arrive dest c j l r direct ∈ tasks) ∨ s.Arrived S dest c j l r) :
    (∃ direct, .arrive dest c j l r direct ∈ tasks') ∨ s'.Arrived S dest c j l r := by
  rcases ha with ⟨direct, ha⟩ | ha
  · rcases h.task ha with ha | ha
    · exact Or.inl ⟨direct, ha⟩
    · exact Or.inr ha
  · exact Or.inr (ha.mono h.le h.extended)

lemma Carries.crossed {d : Descriptor} {t : Transition} (hc : s.Crossed S tasks d t) :
    s'.Crossed S tasks' d t := by
  refine ⟨?_, fun hτ hm => (hc.mismatch hτ hm).mono h.le, ?_⟩
  · intro j hj
    obtain ⟨r, hr, ha⟩ := hc.scan hj
    exact ⟨r, h.le.forest.node hr, h.arrived ha⟩
  · intro name hn
    obtain ⟨c, hs, he⟩ := hc.call hn
    exact ⟨c, h.le.calls.site hs, h.le.calls.edges he⟩

lemma Carries.executed {d : Descriptor} (he : s.Executed S tasks d) :
    s'.Executed S tasks' d := by
  refine ⟨?_, ?_, ?_⟩
  · intro f hf
    rcases he.enter hf with he | he
    · exact h.task he
    · exact Or.inr (he.mono h.le)
  · intro x dest hl
    rcases he.cross hl with ⟨direct, hc⟩ | hc
    · exact (h.task hc).imp (fun hc => ⟨direct, hc⟩) id
    · exact Or.inr (h.crossed hc)
  · intro a k hd
    obtain ⟨⟨r, hr, hp⟩, hcov⟩ := he.close hd
    exact ⟨⟨r, h.le.calls.completions hr, hp.mono h.le⟩, fun hc hi => (hcov hc hi).mono h.le⟩

lemma Carries.handled (hw : ∀ {d}, d ∈ s.agenda.waiting →
    d ∈ s'.agenda.waiting ∨ .execute d ∈ tasks') {d : Descriptor} (hd : s.Handled S tasks d) :
    s'.Handled S tasks' d := by
  rcases hd with hd | hd | hd
  · rcases hw hd with hd | hd
    · exact Or.inl hd
    · exact Or.inr (Or.inl hd)
  · exact Or.inr (h.task hd)
  · exact Or.inr (Or.inr (h.executed hd))

end Carries

end State

/-! ### Steps -/

namespace Step

variable {p : Problem} {s s' : State} {task : Task} {tasks : List Task}

lemma extended (hs : s.Sound p.setting) (hs' : s'.Sound p.setting)
    (h : Step p s task s' tasks) : s.forest.Extended p.setting s'.forest :=
  ⟨hs'.forest, (h.le hs).forest⟩

/-- Only handing out takes descriptors from the agenda. -/
lemma waiting (h : Step p s task s' tasks) {d : Descriptor} (hd : d ∈ s.agenda.waiting) :
    d ∈ s'.agenda.waiting := by
  have hsch {d' : Descriptor} {new : Bool} (h : s.agenda.Scheduled d' new s'.agenda) :
      d ∈ s'.agenda.waiting := by
    apply h.waiting.mem_iff.mpr
    split
    · exact List.mem_cons_of_mem _ hd
    · exact hd
  cases h with
  | openCall | advance => exact hd
  | close _ _ _ hagenda => rwa [hagenda]
  | refuse _ _ _ _ _ _ hagenda => rwa [hagenda]
  | mismatch _ _ _ _ _ hagenda => rwa [hagenda]
  | scan _ _ _ _ hagenda => rwa [hagenda]
  | call _ _ _ _ hagenda => rwa [hagenda]
  | enter _ h => exact hsch h
  | claim _ _ hpending => rwa [Agenda.waiting, hpending]
  | schedule _ h => exact hsch h

lemma parsed {S : Setting} {d : Descriptor} {e : EndSlot} {r : NodeId}
    (h : ParsedNode S s.forest d e r s'.forest) : s'.Parsed d e.head r := by
  generalize hforest : s'.forest = f' at h
  cases h with
  | whole hl => exact Or.inl hl
  | empty hl _ hr hq hp =>
    subst hforest
    exact Or.inr ⟨hl, hr, ⟨_, hq⟩, hp⟩

lemma arrived {S : Setting} {dest : SlotId} {c : CallId} {j k : Nat} {l : Option NodeId}
    {r next : NodeId} {site : CallSite} {o : Option Node} {n : Node} (hle : s.Le s')
    (hnode : ArrivedNode S s dest c j l r next s'.forest site k o n)
    (hseen : s'.agenda.seen[(⟨dest, c, j⟩ : Item)]? = some (some next)) :
    s'.Arrived S dest c j l r :=
  ⟨site, k, o, n, next, ⟨hle.calls.site hnode.call, hnode.soFar.mono hle.forest,
    hle.forest.node hnode.part, hnode.arrival, .refl hnode.forest.sound, hnode.node,
    hnode.packed⟩, hseen⟩

/-- A task does what it is for. -/
lemma done (hs : s.Sound p.setting) (h : Step p s task s' tasks) (rest : List Task) :
    s'.Done p.setting (tasks ++ rest) task := by
  have hle := h.le hs
  cases h with
  | openCall hn =>
    apply State.executed_of_nonterminal hn
    intro f hf
    exact Or.inl (List.mem_append_left _ (List.mem_map.mpr ⟨f, hf, rfl⟩))
  | advance hb =>
    apply State.executed_of_body hb
    intro t ht
    exact Or.inl ⟨_, List.mem_append_left _ (List.mem_map.mpr ⟨t, ht, rfl⟩)⟩
  | close he hc hparsed hagenda hobstacle hcompl =>
    apply State.executed_of_done he hcompl.completion (parsed hparsed)
    intro hroot hi
    rw [if_pos ⟨hroot, hi⟩] at hobstacle
    exact hobstacle.covered
  | enter hadm hsch hsame => exact ⟨fun _ => hsch.claimed.seen, fun h => absurd hadm h⟩
  | refuse hl hadm hb hc hcalls hforest hagenda hobstacle =>
    refine ⟨?_, fun _ => hobstacle.covered⟩
    intro ha
    have hadm' := ha hl
    rw [show p.setting.graph.admits p.setting.text _ _ = .ok false from hadm] at hadm'
    cases hadm'
  | mismatch hτ hm hc hcalls hforest hagenda hobstacle =>
    exact State.crossed_of_mismatch hτ hm hobstacle.covered
  | scan hscan hext hr hcalls hagenda hfur =>
    obtain ⟨τ, n, hτ, hm, rfl⟩ := hscan
    exact State.crossed_of_match hτ hm hr (Or.inl ⟨_, List.mem_cons_self⟩)
  | call hn hcalled hlinked hforest hagenda hfur =>
    exact State.crossed_of_call hn (hlinked.le.site hcalled.called) hlinked.edge
  | claim hnode hclaimed hpending hcalls hfur => exact arrived hle hnode hclaimed.seen
  | schedule hnode hsch hcalls hfur => exact arrived hle hnode hsch.claimed.seen

lemma carries (hs : s.Sound p.setting) (hs' : s'.Sound p.setting) (rest : List Task)
    (h : Step p s task s' tasks) :
    State.Carries p.setting s (task :: rest) s' (tasks ++ rest) := by
  refine ⟨h.le hs, h.extended hs hs', ?_⟩
  intro t ht
  rcases List.mem_cons.mp ht with rfl | ht
  · exact Or.inr (h.done hs rest)
  · exact Or.inl (List.mem_append_right _ ht)

/-- What is newly seen waits or is executed next. -/
lemma seen_new (h : Step p s task s' tasks) {i : Item} {l : Option NodeId}
    (hi : s'.agenda.seen[i]? = some l) :
    s.agenda.seen[i]? = some l ∨ ⟨i, l⟩ ∈ s'.agenda.waiting ∨ .execute ⟨i, l⟩ ∈ tasks := by
  have hsch {d' : Descriptor} {new : Bool} (h : s.agenda.Scheduled d' new s'.agenda) :
      s.agenda.seen[i]? = some l ∨ ⟨i, l⟩ ∈ s'.agenda.waiting ∨ .execute ⟨i, l⟩ ∈ tasks := by
    apply (h.claimed.back hi).imp id
    rintro ⟨rfl, rfl, rfl⟩
    exact Or.inl (h.waiting.mem_iff.mpr (by simp))
  cases h with
  | openCall | advance => exact Or.inl hi
  | close _ _ _ hagenda => exact Or.inl (hagenda ▸ hi)
  | refuse _ _ _ _ _ _ hagenda => exact Or.inl (hagenda ▸ hi)
  | mismatch _ _ _ _ _ hagenda => exact Or.inl (hagenda ▸ hi)
  | scan _ _ _ _ hagenda => exact Or.inl (hagenda ▸ hi)
  | call _ _ _ _ hagenda => exact Or.inl (hagenda ▸ hi)
  | enter _ h => exact hsch h
  | claim _ hclaimed =>
    apply (hclaimed.back hi).imp id
    rintro ⟨rfl, rfl, rfl⟩
    exact Or.inr (by simp)
  | schedule _ h => exact hsch h

/-- A new call is entered next. -/
lemma site_new (h : Step p s task s' tasks) {c : CallId} {site : CallSite}
    (hc : s'.calls.site? c = some site) :
    s.calls.site? c = some site ∨ .execute (site.entry c) ∈ tasks := by
  cases h with
  | openCall | advance => exact Or.inl hc
  | close _ _ _ _ _ hcompl => exact Or.inl (hcompl.site ▸ hc)
  | refuse _ _ _ _ hcalls => exact Or.inl (hcalls ▸ hc)
  | mismatch _ _ _ hcalls => exact Or.inl (hcalls ▸ hc)
  | scan _ _ _ hcalls => exact Or.inl (hcalls ▸ hc)
  | enter _ _ hsame => exact Or.inl (hsame.calls ▸ hc)
  | claim _ _ _ hcalls => exact Or.inl (hcalls ▸ hc)
  | schedule _ _ hcalls => exact Or.inl (hcalls ▸ hc)
  | call _ hcalled hlinked =>
    rw [hlinked.site] at hc
    apply (hcalled.back hc).imp id
    rintro ⟨rfl, rfl, rfl⟩
    simp

/-- A new edge gets the completions that are there, and a new completion goes along the edges that
are there. -/
lemma pair_new (hS : p.setting.Valid) (hs : s.Sound p.setting) (ht : task.Sound p.setting s)
    (h : Step p s task s' tasks) {c : CallId} {e : Edge} {r : NodeId}
    (he : e ∈ s'.calls.edges c) (hr : r ∈ s'.calls.completions c) :
    (e ∈ s.calls.edges c ∧ r ∈ s.calls.completions c) ∨
      ∃ n i j, s'.forest.node? r = some n ∧ n.span? = some (i, j) ∧
        ∃ direct, .arrive e.returnSlot e.caller j e.soFar r direct ∈ tasks := by
  have hle := h.le hs
  have hsame {calls : CallGraph} (hcalls : calls = s.calls) (he : e ∈ calls.edges c)
      (hr : r ∈ calls.completions c) : e ∈ s.calls.edges c ∧ r ∈ s.calls.completions c :=
    ⟨hcalls ▸ he, hcalls ▸ hr⟩
  cases h with
  | openCall | advance => exact Or.inl ⟨he, hr⟩
  | refuse _ _ _ _ hcalls => exact Or.inl (hsame hcalls he hr)
  | mismatch _ _ _ hcalls => exact Or.inl (hsame hcalls he hr)
  | scan _ _ _ hcalls => exact Or.inl (hsame hcalls he hr)
  | enter _ _ h => exact Or.inl (hsame h.calls he hr)
  | claim _ _ _ hcalls => exact Or.inl (hsame hcalls he hr)
  | schedule _ _ hcalls => exact Or.inl (hsame hcalls he hr)
  | close hend _ hparsed _ _ hcompl =>
    rw [hcompl.edges] at he
    rcases hcompl.back hr with hr | ⟨rfl, rfl, rfl⟩
    · exact Or.inl ⟨he, hr⟩
    · obtain ⟨callee, n, -, hn, hf⟩ := completionFact_of_close hle hend
        (ht.fact.item hS hs ⟨_, Slots.head?_done hend⟩) hparsed
      obtain ⟨-, hover⟩ := hf.placed hS
      refine Or.inr ⟨n, _, _, hn, hover.span, false, ?_⟩
      rw [if_pos rfl]
      exact List.mem_map.mpr ⟨e, he, rfl⟩
  | call _ hcalled hlinked hforest =>
    rw [hlinked.completions, hcalled.completions] at hr
    rcases hlinked.back he with he | ⟨rfl, rfl, rfl⟩
    · rw [hcalled.edges] at he
      exact Or.inl ⟨he, hr⟩
    · obtain ⟨callee, j, n, -, hn, hf⟩ := hs.completion hr
      obtain ⟨-, hover⟩ := hf.placed hS
      refine Or.inr ⟨n, _, j, hforest ▸ hn, hover.span, false, List.mem_append_left _ ?_⟩
      rw [if_pos rfl]
      refine List.mem_map.mpr ⟨r, ?_, ?_⟩
      · rwa [hlinked.completions, hcalled.completions]
      · simp [Forest.span?, hn, hover.span]

/-- A step forgets nothing. -/
theorem closed (hS : p.setting.Valid) (hs : s.Sound p.setting) (ht : task.Sound p.setting s)
    {rest : List Task} (hclosed : s.Closed p.setting (task :: rest))
    (h : Step p s task s' tasks) : s'.Closed p.setting (tasks ++ rest) := by
  have hs' := h.sound hS hs ht
  have hcar := h.carries hs hs' rest
  have hhandled {d : Descriptor} (hd : s.Handled p.setting (task :: rest) d) :
      s'.Handled p.setting (tasks ++ rest) d :=
    hcar.handled (fun hw => Or.inl (h.waiting hw)) hd
  refine ⟨hcar.le.seen hclosed.seed, ?_, ?_, ?_⟩
  · intro i l hi
    rcases h.seen_new hi with hi | hi | hi
    · exact hhandled (hclosed.item hi)
    · exact Or.inl hi
    · exact Or.inr (Or.inl (List.mem_append_left _ hi))
  · intro c site hc
    rcases h.site_new hc with hc | hc
    · exact hhandled (hclosed.entry hc)
    · exact Or.inr (Or.inl (List.mem_append_left _ hc))
  · intro c e r he hr
    rcases h.pair_new hS hs ht he hr with ⟨he, hr⟩ | ⟨n, i, j, hn, hspan, direct, hmem⟩
    · obtain ⟨n, i, j, hn, hspan, ha⟩ := hclosed.pair he hr
      exact ⟨n, i, j, hcar.le.forest.node hn, hspan, hcar.arrived ha⟩
    · exact ⟨n, i, j, hn, hspan, Or.inl ⟨direct, List.mem_append_left _ hmem⟩⟩

end Step

end GeneralParser
