import GeneralParser.Proofs.Grammar.Construction

/-!
# References to slots

The positions and ends of a layout are what its transitions lead to and its nonterminals start in,
each of them just once. While a layout is under construction, this holds if the starts that are not
listed yet are counted, too.
-/

namespace GeneralParser

variable [PatternEngine]

open Slots (role? head? Leads)

/-- The positions and ends that a slot refers to, as often as it does. -/
def Slot.targets : Slot → List SlotId
  | .nonterminal s => s.firstSlots
  | .body s => s.transitions.map Transition.dest
  | .terminal _ | .done _ => []

lemma Slot.targets_addTransition (s : BodySlot) (t : Transition) :
    (Slot.body { s with transitions := s.transitions ++ [t] }).targets =
      (Slot.body s).targets ++ [t.dest] := by
  simp [targets]

omit [PatternEngine] in
lemma perm_flatMap_modify {α β : Type} {g : α → List β} {f : α → α} {xs : List α} {i : Nat} {x : α}
    {extra : List β} (hx : xs[i]? = some x) (hf : g (f x) = g x ++ extra) :
    ((xs.modify i f).flatMap g).Perm (xs.flatMap g ++ extra) := by
  induction xs generalizing i with
  | nil => simp at hx
  | cons y ys ih =>
    cases i with
    | zero =>
      obtain rfl : y = x := by simpa using hx
      simp only [List.modify_zero_cons, List.flatMap_cons, hf, List.append_assoc]
      exact List.perm_append_comm.append_left _
    | succ i =>
      simp only [List.modify_succ_cons, List.flatMap_cons, List.append_assoc]
      exact (ih (by simpa using hx)).append_left _

omit [PatternEngine] in
lemma flatMap_modify_of_eq {α β : Type} {g : α → List β} {f : α → α} (hf : ∀ x, g (f x) = g x)
    (xs : List α) (i : Nat) : (xs.modify i f).flatMap g = xs.flatMap g := by
  induction xs generalizing i with
  | nil => simp
  | cons x xs ih => cases i <;> simp [hf, ih]

namespace Slots

variable {slots slots' : Array Slot}

/-- All references to positions and ends. -/
def targets (slots : Array Slot) : List SlotId := slots.toList.flatMap Slot.targets

/-- The number of references to a slot: of transitions to it, and of entries for it in the lists of
where alternatives start. -/
def references (slots : Array Slot) (id : SlotId) : Nat := (targets slots).count id

/-- The positions and ends. -/
def places (slots : Array Slot) : List SlotId :=
  (List.range slots.size).filter fun id => (head? slots id).isSome

lemma mem_places {id : SlotId} : id ∈ places slots ↔ ∃ a, head? slots id = some a := by
  rw [places, List.mem_filter, List.mem_range, Option.isSome_iff_exists]
  exact and_iff_right_of_imp fun ⟨_, ha⟩ => lt_size_of_head? ha

lemma nodup_places : (places slots).Nodup := List.nodup_range.filter _

lemma mem_targets {id : SlotId} :
    id ∈ targets slots ↔ (∃ b x, Leads slots b x id) ∨ ∃ a, Starts slots a id := by
  simp only [targets, List.mem_flatMap, Array.mem_toList_iff, Array.mem_iff_getElem?]
  constructor
  · rintro ⟨s, ⟨i, hs⟩, hid⟩
    cases s with
    | nonterminal s => exact Or.inr ⟨i, s, hs, hid⟩
    | body s =>
      obtain ⟨t, ht, rfl⟩ := List.mem_map.mp hid
      exact Or.inl ⟨i, t.symbol, s, hs, ht⟩
    | terminal _ | done _ => cases hid
  · rintro (⟨b, x, s, hs, ht⟩ | ⟨a, s, hs, hid⟩)
    · exact ⟨_, ⟨b, hs⟩, List.mem_map.mpr ⟨_, ht, rfl⟩⟩
    · exact ⟨_, ⟨a, hs⟩, hid⟩

/-! ### Single changes -/

lemma targets_push {s : Slot} : targets (slots.push s) = targets slots ++ s.targets := by
  simp [targets]

lemma places_push {s : Slot} : places (slots.push s) =
    places slots ++ if s.role.head?.isSome then [slots.size] else [] := by
  have hhead (id : SlotId) : head? (slots.push s) id =
      if id = slots.size then s.role.head? else head? slots id := by
    rw [head?, role?_push]
    split <;> rfl
  have hold : (List.range slots.size).filter (fun id => (head? (slots.push s) id).isSome) =
      places slots := by
    apply List.filter_congr
    intro id hid
    rw [hhead, if_neg (Nat.ne_of_lt (List.mem_range.mp hid))]
  rw [places, Array.size_push, List.range_succ, List.filter_append, hold]
  simp [hhead, List.filter_cons]

lemma places_congr (hsize : slots'.size = slots.size)
    (hrole : ∀ id, role? slots' id = role? slots id) : places slots' = places slots := by
  simp only [places, hsize, head?, hrole]

lemma targets_modify {i : SlotId} {f : Slot → Slot} {s : Slot} {extra : List SlotId}
    (hs : slots[i]? = some s) (hf : (f s).targets = s.targets ++ extra) :
    (targets (slots.modify i f)).Perm (targets slots ++ extra) := by
  rw [targets, Array.toList_modify]
  exact perm_flatMap_modify (by simpa using hs) hf

end Slots

namespace Layout

variable {l : Layout}

lemma grown_push_fresh {s : Slot} (hs : s.targets = []) : Grown l s.role none (l.push s).2 := by
  apply grown_push
  rintro b rfl
  exact List.map_eq_nil_iff.mp hs

lemma grown_append_fresh {b x h : SlotId} {n : Nat} {s : Slot} (hs : s.targets = [])
    (hb : role? l.slots b = some (.body h n)) :
    Grown l s.role (some (b, x)) (l.append b x s) := by
  apply grown_append hb
  rintro c rfl
  exact List.map_eq_nil_iff.mp hs

lemma targets_push {s : Slot} (hs : s.targets = []) :
    Slots.targets (l.push s).2.slots = Slots.targets l.slots :=
  Slots.targets_push.trans (by rw [hs, List.append_nil])

lemma places_push {s : Slot} : Slots.places (l.push s).2.slots =
    Slots.places l.slots ++ if s.role.head?.isSome then [l.slots.size] else [] :=
  Slots.places_push

lemma targets_append {b x h : SlotId} {n : Nat} {s : Slot} (hs : s.targets = [])
    (hb : role? l.slots b = some (.body h n)) :
    (Slots.targets (l.append b x s).slots).Perm (Slots.targets l.slots ++ [l.slots.size]) := by
  obtain ⟨c, hc, -, -⟩ := Slots.role?_body.mp hb
  have hc' : (l.slots.push s)[b]? = some (.body c) := by
    rw [Array.getElem?_push, if_neg, hc]
    exact Nat.ne_of_lt (Slots.lt_size_of_role? hb)
  rw [append, addTransition, modifyBody, ← targets_push (l := l) hs]
  apply Slots.targets_modify hc'
  exact Slot.targets_addTransition c _

lemma places_append {b x : SlotId} {s : Slot} : Slots.places (l.append b x s).slots =
    Slots.places l.slots ++ if s.role.head?.isSome then [l.slots.size] else [] := by
  rw [← Slots.places_push]
  refine Slots.places_congr ?_ fun id => ?_
  · simp [append, addTransition, modifyBody, push]
  · rw [append, role?_addTransition]
    rfl

@[simp] lemma targets_markShared {a : Alternative} {d : SlotId} {n : Nat} :
    Slots.targets (l.markShared a d n).slots = Slots.targets l.slots := by
  rw [Slots.targets, markShared, modifyBody, Array.toList_modify]
  apply flatMap_modify_of_eq
  intro s
  cases s <;> rfl

@[simp] lemma places_markShared {a : Alternative} {d : SlotId} {n : Nat} :
    Slots.places (l.markShared a d n).slots = Slots.places l.slots :=
  Slots.places_congr (by simp [markShared, modifyBody]) fun _ => role?_markShared

lemma targets_setFirstSlots {h : SlotId} {s : NonterminalSlot} {fs : List SlotId}
    (hs : l.slots[h]? = some (.nonterminal s)) (hempty : s.firstSlots = []) :
    (Slots.targets (l.setFirstSlots h fs).slots).Perm (Slots.targets l.slots ++ fs) :=
  Slots.targets_modify hs (by simp [Slot.targets, hempty])

@[simp] lemma places_setFirstSlots {h : SlotId} {fs : List SlotId} :
    Slots.places (l.setFirstSlots h fs).slots = Slots.places l.slots :=
  Slots.places_congr (by simp [setFirstSlots]) fun _ => role?_setFirstSlots

end Layout

/-! ### Drafts -/

namespace Draft

/-- What is referred to, or listed as a start later, are the positions and ends of the draft. The
alternative at hand has come to a position. -/
structure Fits (d : Draft) : Prop where
  references : (Slots.targets d.layout.slots ++ d.starts.firstSlots).Perm
    (Slots.places d.layout.slots)
  pending {b : SlotId} {n : Nat} : d.pending = some (b, n) →
    ∃ h m, role? d.layout.slots b = some (.body h m)
  root {f : SlotId} : d.starts.root = some f →
    f ∈ d.starts.firstSlots ∧ ∃ h m, role? d.layout.slots f = some (.body h m)

variable {r : Rules} {d d' : Draft}

omit [PatternEngine] in
/-- One more place, and one more reference to it. -/
lemma perm_grow {ts ts' fs ps : List SlotId} {x : SlotId} (h : (ts ++ fs).Perm ps)
    (hts : ts'.Perm (ts ++ [x])) : (ts' ++ fs).Perm (ps ++ [x]) := by
  have hswap : (ts ++ [x] ++ fs).Perm (ts ++ fs ++ [x]) := by
    rw [List.append_assoc, List.append_assoc]
    exact List.perm_append_comm.append_left _
  exact ((hts.append_right _).trans hswap).trans (h.append_right _)

lemma isBody_iff {l : Layout} {id : SlotId} :
    l.isBody id = true ↔ ∃ h m, role? l.slots id = some (.body h m) := by
  rw [Layout.isBody]
  constructor
  · intro h
    split at h
    next s hs => exact ⟨_, _, Slots.role?_body.mpr ⟨s, hs, rfl, rfl⟩⟩
    next => cases h
  · rintro ⟨h, m, hr⟩
    obtain ⟨s, hs, -, -⟩ := Slots.role?_body.mp hr
    rw [hs]

/-- A step keeps the references right. -/
lemma Fits.step (h : Fits d) (hs : Step r d d') : Fits d' := by
  have hrole {id : SlotId} (hid : ∃ h m, role? d.layout.slots id = some (.body h m)) :
      ∃ h m, role? d'.layout.slots id = some (.body h m) := by
    obtain ⟨h, m, hr⟩ := hid
    exact ⟨h, m, hs.role hr⟩
  obtain ⟨href, hpending, hroot⟩ := h
  have hold {f : SlotId} (hf : d.starts.root = some f) :=
    (hroot hf).imp id hrole
  cases hs with
  | terminal =>
    refine ⟨?_, fun hb => hrole (hpending hb), hold⟩
    rw [Layout.targets_push rfl, Layout.places_push]
    exact href.trans (.of_eq (List.append_nil _).symm)
  | empty a =>
    refine ⟨?_, by simp, fun hf => (hold hf).imp (List.mem_append_left _) id⟩
    rw [Layout.targets_push rfl, Layout.places_push, ← List.append_assoc]
    exact href.append_right _
  | @root l fs a =>
    have hnew : role? (l.push (a.bodySlot 0)).2.slots l.slots.size = some (.body a.headId 0) :=
      Slots.role?_push.trans (if_pos rfl)
    refine ⟨?_, ?_, ?_⟩
    · rw [Layout.targets_push rfl, Layout.places_push, ← List.append_assoc]
      exact href.append_right _
    · intro b n hb
      obtain ⟨rfl, -⟩ : l.slots.size = b ∧ 0 = n := by simpa using hb
      exact ⟨_, _, hnew⟩
    · intro f hf
      simp only at hf
      split at hf
      · obtain rfl := Option.some.inj hf
        exact ⟨by simp, _, _, hnew⟩
      · cases hf
  | @again l fs f a =>
    refine ⟨by simpa using href, ?_, hold⟩
    intro b n hb
    obtain ⟨rfl, -⟩ : f = b ∧ 0 = n := by simpa using hb
    exact (hold rfl).2
  | @extend l starts b x n a =>
    obtain ⟨h, m, hb⟩ := hpending rfl
    refine ⟨?_, ?_, hold⟩
    · rw [Layout.places_append]
      exact perm_grow href (Layout.targets_append rfl hb)
    · intro b' n' hb'
      obtain ⟨rfl, -⟩ : l.slots.size = b' ∧ n + 1 = n' := by simpa using hb'
      exact ⟨_, _, Layout.role?_append.trans (if_pos rfl)⟩
  | @follow l starts b x dest n a _ hshared =>
    refine ⟨by simpa using href, ?_, hold⟩
    intro b' n' hb'
    obtain ⟨rfl, -⟩ : dest = b' ∧ n + 1 = n' := by simpa using hb'
    exact hrole (isBody_iff.mp (Layout.sharedDest?_ok hshared).2)
  | finish a =>
    obtain ⟨h, m, hb⟩ := hpending rfl
    refine ⟨?_, by simp, hold⟩
    rw [Layout.places_append]
    exact perm_grow href (Layout.targets_append rfl hb)
  | list hs hempty =>
    refine ⟨?_, by simp, by simp⟩
    rw [Layout.places_setFirstSlots, List.append_nil]
    exact (Layout.targets_setFirstSlots hs hempty).trans href

/-- The references of all drafts are right. -/
theorem Built.fits (hnodup : r.heads.Nodup) (h : Built r d) : Fits d := by
  induction h with
  | declared =>
    have hd := Rules.declared_heads hnodup
    refine ⟨?_, by simp, by simp⟩
    have htargets : Slots.targets (r.heads.foldl Layout.declare ⟨#[], []⟩).slots = [] := by
      apply List.eq_nil_iff_forall_not_mem.mpr
      intro id hid
      rcases Slots.mem_targets.mp hid with ⟨b, x, hl⟩ | ⟨a, hf⟩
      · exact hd.not_leads b x id hl
      · exact hd.not_starts a id hf
    have hplaces : Slots.places (r.heads.foldl Layout.declare ⟨#[], []⟩).slots = [] := by
      apply List.eq_nil_iff_forall_not_mem.mpr
      intro id hid
      obtain ⟨a, ha⟩ := Slots.mem_places.mp hid
      exact hd.not_head id a ha
    rw [htargets, hplaces]
    exact .nil
  | step _ hs ih => exact ih.step hs

/-! ### What a step does -/

/-- An alternative starts in slot `f`, whether it is listed yet or not. -/
def Start (d : Draft) (f : SlotId) : Prop :=
  (∃ a, Slots.Starts d.layout.slots a f) ∨ f ∈ d.starts.firstSlots

/-- What is led to is a position or an end. -/
lemma Fits.head_of_leads (h : Fits d) {b x c : SlotId} (hl : Leads d.layout.slots b x c) :
    ∃ a, head? d.layout.slots c = some a := by
  apply Slots.mem_places.mp (h.references.mem_iff.mp _)
  exact List.mem_append_left _ (Slots.mem_targets.mpr (Or.inl ⟨b, x, hl⟩))

lemma Fits.head_of_start (h : Fits d) {f : SlotId} (hf : d.Start f) :
    ∃ a, head? d.layout.slots f = some a := by
  apply Slots.mem_places.mp (h.references.mem_iff.mp _)
  rcases hf with ⟨a, hf⟩ | hf
  · exact List.mem_append_left _ (Slots.mem_targets.mpr (Or.inr ⟨a, hf⟩))
  · exact List.mem_append_right _ hf

namespace Step

/-- The role of a slot that was there is as before. -/
lemma role_old (hs : Step r d d') {id : SlotId} (hid : ∃ a, head? d.layout.slots id = some a) :
    role? d'.layout.slots id = role? d.layout.slots id := by
  obtain ⟨a, ha⟩ := hid
  obtain ⟨ρ, hρ, -⟩ := Option.bind_eq_some_iff.mp ha
  rw [hρ, hs.role hρ]

section

variable (hf : Fits d) (hs : Step r d d')
include hf hs

/-- At most one slot is new. If it is a position, the alternative at hand has come to it. -/
lemma role_back {c : SlotId} {ρ : Slot.Role} (hr : role? d'.layout.slots c = some ρ) :
    role? d.layout.slots c = some ρ ∨ (c = d.layout.slots.size ∧
      (∀ h n, ρ = .body h n → d'.pending = some (c, n)) ∧
      (∀ t, ρ = .terminal t → r.Uses (.terminal t)) ∧ ∀ A, ρ ≠ .nonterminal A) := by
  obtain ⟨-, hpending, -⟩ := hf
  cases hs with
  | terminal hX =>
    refine ((Layout.grown_push_fresh rfl).back hr).imp id ?_
    rintro ⟨rfl, rfl⟩
    exact ⟨rfl, by simp [Slot.role], by rintro t ⟨⟩; exact hX, by simp [Slot.role]⟩
  | empty a =>
    refine ((Layout.grown_push_fresh rfl).back hr).imp id ?_
    rintro ⟨rfl, rfl⟩
    exact ⟨rfl, by simp [Layout.Alternative.endSlot, Slot.role]⟩
  | root a =>
    refine ((Layout.grown_push_fresh rfl).back hr).imp id ?_
    rintro ⟨rfl, rfl⟩
    exact ⟨rfl, by simp [Layout.Alternative.bodySlot, Slot.role]⟩
  | again | follow => exact Or.inl (by rwa [Layout.role?_markShared] at hr)
  | extend a =>
    obtain ⟨h, m, hb⟩ := hpending rfl
    refine ((Layout.grown_append_fresh rfl hb).back hr).imp id ?_
    rintro ⟨rfl, rfl⟩
    exact ⟨rfl, by simp [Layout.Alternative.bodySlot, Slot.role]⟩
  | finish a =>
    obtain ⟨h, m, hb⟩ := hpending rfl
    refine ((Layout.grown_append_fresh rfl hb).back hr).imp id ?_
    rintro ⟨rfl, rfl⟩
    exact ⟨rfl, by simp [Layout.Alternative.endSlot, Slot.role]⟩
  | list => exact Or.inl (by rwa [Layout.role?_setFirstSlots] at hr)

lemma leads {b x c : SlotId} (hl : Leads d.layout.slots b x c) :
    Leads d'.layout.slots b x c := by
  obtain ⟨-, hpending, -⟩ := hf
  cases hs with
  | terminal | empty | root => exact (Layout.grown_push_fresh rfl).leads.mpr (Or.inl hl)
  | again | follow => exact Layout.leads_markShared.mpr hl
  | extend | finish =>
    obtain ⟨h, m, hb⟩ := hpending rfl
    exact (Layout.grown_append_fresh rfl hb).leads.mpr (Or.inl hl)
  | list => exact Layout.leads_setFirstSlots.mpr hl

/-- A transition that is new leads from where the alternative at hand has come to, to a new slot:
to the next position or to an end. -/
lemma leads_back {b x c : SlotId} (hl : Leads d'.layout.slots b x c) :
    Leads d.layout.slots b x c ∨ ∃ n, d.pending = some (b, n) ∧ c = d.layout.slots.size ∧
      (((∃ h, role? d'.layout.slots c = some (.body h (n + 1))) ∧
          (r.sharePrefixes = true → d.layout.sharedDest? b x = none)) ∨
        ∃ h k, role? d'.layout.slots c = some (.done h k)) := by
  obtain ⟨-, hpending, -⟩ := hf
  cases hs with
  | terminal | empty | root =>
    exact Or.inl (((Layout.grown_push_fresh rfl).leads.mp hl).resolve_right (by simp))
  | again | follow => exact Or.inl (Layout.leads_markShared.mp hl)
  | @extend _ _ _ y n a hshare =>
    obtain ⟨h, m, hb⟩ := hpending rfl
    have hg := Layout.grown_append_fresh (x := y) (s := a.bodySlot (n + 1)) rfl hb
    refine (hg.leads.mp hl).imp id ?_
    rintro ⟨⟨⟩, rfl⟩
    exact ⟨_, rfl, rfl, Or.inl ⟨⟨_, hg.self⟩, hshare⟩⟩
  | @finish _ _ _ y n a =>
    obtain ⟨h, m, hb⟩ := hpending rfl
    have hg := Layout.grown_append_fresh (x := y) (s := a.endSlot (n + 1)) rfl hb
    refine (hg.leads.mp hl).imp id ?_
    rintro ⟨⟨⟩, rfl⟩
    exact ⟨_, rfl, rfl, Or.inr ⟨_, _, hg.self⟩⟩
  | list => exact Or.inl (Layout.leads_setFirstSlots.mp hl)

/-- The position that the alternative at hand had come to leads on, unless it stays there. -/
lemma pending_kept {b : SlotId} {n : Nat} (hb : d.pending = some (b, n)) :
    d'.pending = some (b, n) ∨ ∃ x c, Leads d'.layout.slots b x c := by
  obtain ⟨-, hpending, -⟩ := hf
  cases hs with
  | terminal => exact Or.inl hb
  | empty | root | again | list => cases hb
  | extend | finish =>
    obtain ⟨h, m, hb'⟩ := hpending rfl
    cases hb
    exact Or.inr ⟨_, _, (Layout.grown_append_fresh rfl hb').leads.mpr (Or.inr ⟨rfl, rfl⟩)⟩
  | follow a _ hshared =>
    cases hb
    exact Or.inr ⟨_, _, Layout.leads_markShared.mpr (Layout.sharedDest?_ok hshared).1⟩

end

/-- A start that is new is a new slot: position 0 of an alternative, or the end of an empty one. -/
lemma start_back (hs : Step r d d') {f : SlotId} (hf : d'.Start f) :
    d.Start f ∨ (f = d.layout.slots.size ∧
      ((∃ h, role? d'.layout.slots f = some (.body h 0)) ∨
        ∃ h k, role? d'.layout.slots f = some (.done h k))) := by
  cases hs with
  | terminal =>
    refine Or.inl (hf.imp ?_ id)
    rintro ⟨a, hf⟩
    exact ⟨a, (Slots.starts_push (by simp)).mp hf⟩
  | empty a =>
    rcases hf with ⟨a', hf⟩ | hf
    · exact Or.inl (Or.inl ⟨a', (Slots.starts_push (by simp [Layout.Alternative.endSlot])).mp hf⟩)
    · rcases List.mem_append.mp hf with hf | hf
      · exact Or.inl (Or.inr hf)
      · obtain rfl := List.mem_singleton.mp hf
        exact Or.inr ⟨rfl, Or.inr ⟨_, _, (Layout.grown_push_fresh rfl).self⟩⟩
  | root a =>
    rcases hf with ⟨a', hf⟩ | hf
    · exact Or.inl (Or.inl ⟨a', (Slots.starts_push (by simp [Layout.Alternative.bodySlot])).mp hf⟩)
    · rcases List.mem_append.mp hf with hf | hf
      · exact Or.inl (Or.inr hf)
      · obtain rfl := List.mem_singleton.mp hf
        exact Or.inr ⟨rfl, Or.inl ⟨_, (Layout.grown_push_fresh rfl).self⟩⟩
  | again | follow =>
    refine Or.inl (hf.imp ?_ id)
    rintro ⟨a, hf⟩
    exact ⟨a, Layout.starts_modifyBody.mp hf⟩
  | extend a =>
    refine Or.inl (hf.imp ?_ id)
    rintro ⟨a', hf⟩
    exact ⟨a', (Layout.starts_append (by simp [Layout.Alternative.bodySlot])).mp hf⟩
  | finish a =>
    refine Or.inl (hf.imp ?_ id)
    rintro ⟨a', hf⟩
    exact ⟨a', (Layout.starts_append (by simp [Layout.Alternative.endSlot])).mp hf⟩
  | list hh =>
    refine Or.inl ?_
    rcases hf with ⟨a, hf⟩ | hf
    · rw [Layout.starts_setFirstSlots (Slots.role?_nonterminal.mpr ⟨_, hh, rfl⟩)] at hf
      split at hf
      · exact Or.inr hf
      · exact Or.inl ⟨a, hf⟩
    · cases hf

/-- The alternative at hand comes to where it starts, or to what follows. -/
lemma pending_back (hf : Fits d) (hs : Step r d d') {b : SlotId} {n : Nat}
    (hb : d'.pending = some (b, n)) : d.pending = some (b, n) ∨ (d'.Start b ∧ n = 0) ∨
      ∃ b₀ n₀ x, d.pending = some (b₀, n₀) ∧ Leads d'.layout.slots b₀ x b ∧ n = n₀ + 1 := by
  obtain ⟨-, hpending, hroot⟩ := hf
  cases hs with
  | terminal => exact Or.inl hb
  | empty | finish | list => cases hb
  | root =>
    cases hb
    exact Or.inr (Or.inl ⟨Or.inr (by simp), rfl⟩)
  | again =>
    cases hb
    exact Or.inr (Or.inl ⟨Or.inr (hroot rfl).1, rfl⟩)
  | extend =>
    obtain ⟨h, m, hb'⟩ := hpending rfl
    cases hb
    exact Or.inr (Or.inr ⟨_, _, _, rfl,
      (Layout.grown_append_fresh rfl hb').leads.mpr (Or.inr ⟨rfl, rfl⟩), rfl⟩)
  | follow a _ hshared =>
    cases hb
    exact Or.inr (Or.inr ⟨_, _, _, rfl,
      Layout.leads_markShared.mpr (Layout.sharedDest?_ok hshared).1, rfl⟩)

end Step

end Draft

/-! ### Built graphs -/

lemma Slots.targets_fillIn {slots : Array Slot} :
    Slots.targets (Summary.fillIn slots) = Slots.targets slots := by
  have htargets (s : Summary) (x : Slot) : (x.withSummary s).targets = x.targets := by
    cases x <;> rfl
  rw [Slots.targets, Slots.targets, Summary.fillIn, Array.toList_mapIdx, List.flatMap_def,
    List.flatMap_def]
  congr 1
  apply List.ext_getElem
  · simp
  · intro i hi hi'
    simp [htargets]

/-- In a graph that is built from rules there is one reference to every position and to every end,
and none to other slots. -/
theorem Graph.references_of_build {share : Bool} {rules : List (String × List Symbol)} {g : Graph}
    (h : (Rules.ofList share rules).build = .ok g) (id : SlotId) :
    Slots.references g.slots id = if (head? g.slots id).isSome then 1 else 0 := by
  obtain ⟨l, hl, rfl⟩ := exists_built h
  have href := (hl.fits (Rules.gathered_ofList share rules).nodup).references
  rw [List.append_nil] at href
  simp only [Slots.references, Slots.targets_fillIn, href.count_eq, head?, Summary.role?_fillIn]
  have hmem : id ∈ Slots.places l.slots ↔ (head? l.slots id).isSome := by
    rw [Slots.mem_places, Option.isSome_iff_exists]
  split
  next hid => exact List.count_eq_one_of_mem Slots.nodup_places (hmem.mpr hid)
  next hid => exact List.count_eq_zero_of_not_mem fun h => hid (hmem.mp h)

end GeneralParser
