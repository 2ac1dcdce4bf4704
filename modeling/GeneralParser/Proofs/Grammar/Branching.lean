import GeneralParser.Proofs.Grammar.Onward

/-!
# Where ways part

If prefixes are shared, the alternatives of a nonterminal only part where they differ: they start in
one position, and no two transitions lead from a position to others over the same symbol. If not,
they part at once: no position is left in two ways. Symbols have slots only as far as the rules
call for them.
-/

namespace GeneralParser

variable [PatternEngine]

open Slots (role? head? Leads Path)

namespace Slots

variable {slots : Array Slot}

/-- The slot is a position in the body of a rule. -/
def IsPosition (slots : Array Slot) (id : SlotId) : Prop :=
  ∃ a n, role? slots id = some (.body a n)

lemma IsPosition.head {id : SlotId} (h : IsPosition slots id) :
    ∃ a, head? slots id = some a := by
  obtain ⟨a, n, hr⟩ := h
  exact ⟨a, head?_of_role_body hr⟩

lemma IsPosition.role {b a : SlotId} (h : IsPosition slots b) (ha : head? slots b = some a) :
    ∃ n, role? slots b = some (.body a n) := by
  obtain ⟨a', n, hr⟩ := h
  obtain rfl : a' = a := Option.some.inj ((head?_of_role_body hr).symm.trans ha)
  exact ⟨n, hr⟩

lemma isPosition_of_leads {b x c : SlotId} (h : Leads slots b x c) : IsPosition slots b := by
  obtain ⟨s, hs, -⟩ := h
  exact ⟨_, _, role?_body.mpr ⟨s, hs, rfl, rfl⟩⟩

/-- Alternatives share their prefixes: no two transitions over one symbol lead from a position to
different ones, and the alternatives of a nonterminal start in at most one. -/
structure Merged (slots : Array Slot) : Prop where
  fork {b x c c' : SlotId} : Leads slots b x c → Leads slots b x c' → IsPosition slots c →
    IsPosition slots c' → c = c'
  listed {a f f' : SlotId} : Starts slots a f → Starts slots a f' → IsPosition slots f →
    IsPosition slots f' → f = f'

end Slots

open Slots (IsPosition)

lemma Layout.not_isPosition_of_sharedDest? {l : Layout} {b x c : SlotId}
    (h : l.sharedDest? b x = none) (hl : Leads l.slots b x c) : ¬ IsPosition l.slots c := by
  intro hc
  obtain ⟨s, hs, hmem⟩ := hl
  rw [sharedDest?, hs] at h
  have hno := List.find?_eq_none.mp h c (List.mem_map.mpr ⟨⟨x, c⟩, by simpa using hmem, rfl⟩)
  exact hno (Draft.isBody_iff.mpr hc)

namespace Draft

variable {r : Rules} {d d' : Draft}

/-- A position that was there is one before the step. -/
lemma Step.isPosition_old (hs : Step r d d') {id : SlotId}
    (hid : ∃ a, head? d.layout.slots id = some a) (h : IsPosition d'.layout.slots id) :
    IsPosition d.layout.slots id := by
  rwa [IsPosition, hs.role_old hid] at h

/-- A new transition only leads to a position if there was none for the symbol. -/
lemma Step.leads_position (hf : Fits d) (hs : Step r d d') {b x c : SlotId}
    (hl : Leads d'.layout.slots b x c) (hc : IsPosition d'.layout.slots c) :
    (Leads d.layout.slots b x c ∧ IsPosition d.layout.slots c) ∨ (c = d.layout.slots.size ∧
      (r.sharePrefixes = true → ∀ c', Leads d.layout.slots b x c' →
        ¬ IsPosition d.layout.slots c')) := by
  rcases hs.leads_back hf hl with hl | ⟨n, -, rfl, ⟨-, hnone⟩ | ⟨h, k, hr⟩⟩
  · exact Or.inl ⟨hl, hs.isPosition_old (hf.head_of_leads hl) hc⟩
  · exact Or.inr ⟨rfl, fun hshare c' hl' =>
      Layout.not_isPosition_of_sharedDest? (hnone hshare) hl'⟩
  · obtain ⟨a, m, hr'⟩ := hc
    cases hr.symm.trans hr'

/-! ### Shared prefixes -/

/-- The alternatives laid out so far share their prefixes, also those that are not listed yet. -/
structure Merged (d : Draft) : Prop extends Slots.Merged d.layout.slots where
  root {f : SlotId} : f ∈ d.starts.firstSlots → IsPosition d.layout.slots f →
    d.starts.root = some f

lemma Merged.fork_step (hshare : r.sharePrefixes = true) (hf : Fits d) (hm : Merged d)
    (hs : Step r d d') {b x c c' : SlotId} (hl : Leads d'.layout.slots b x c)
    (hl' : Leads d'.layout.slots b x c') (hc : IsPosition d'.layout.slots c)
    (hc' : IsPosition d'.layout.slots c') : c = c' := by
  rcases hs.leads_position hf hl hc with ⟨hl, hc⟩ | ⟨rfl, hno⟩
  · rcases hs.leads_position hf hl' hc' with ⟨hl', hc'⟩ | ⟨-, hno⟩
    · exact hm.fork hl hl' hc hc'
    · exact absurd hc (hno hshare c hl)
  · rcases hs.leads_position hf hl' hc' with ⟨hl', hc'⟩ | ⟨rfl, -⟩
    · exact absurd hc' (hno hshare c' hl')
    · rfl

/-- Only listing the starts of a nonterminal changes what is listed. -/
lemma Step.starts_back (hs : Step r d d') {a : SlotId} :
    (∀ f, Slots.Starts d'.layout.slots a f ↔ Slots.Starts d.layout.slots a f) ∨
      ∀ f, Slots.Starts d'.layout.slots a f ↔ f ∈ d.starts.firstSlots := by
  cases hs with
  | terminal => exact Or.inl fun f => Slots.starts_push (by simp)
  | empty a => exact Or.inl fun f => Slots.starts_push (by simp [Layout.Alternative.endSlot])
  | root a => exact Or.inl fun f => Slots.starts_push (by simp [Layout.Alternative.bodySlot])
  | again | follow => exact Or.inl fun f => Layout.starts_modifyBody
  | extend a => exact Or.inl fun f => Layout.starts_append (by simp [Layout.Alternative.bodySlot])
  | finish a => exact Or.inl fun f => Layout.starts_append (by simp [Layout.Alternative.endSlot])
  | @list l starts h s hh =>
    have hh := Slots.role?_nonterminal.mpr ⟨_, hh, rfl⟩
    by_cases ha : a = h
    · exact Or.inr fun f => by rw [Layout.starts_setFirstSlots hh, if_pos ha]
    · exact Or.inl fun f => by rw [Layout.starts_setFirstSlots hh, if_neg ha]

lemma Merged.root_step (hshare : r.sharePrefixes = true) (hf : Fits d) (hm : Merged d)
    (hs : Step r d d') {f : SlotId} (hmem : f ∈ d'.starts.firstSlots)
    (hpos : IsPosition d'.layout.slots f) : d'.starts.root = some f := by
  have hold (hmem : f ∈ d.starts.firstSlots) : d.starts.root = some f :=
    hm.root hmem (hs.isPosition_old (hf.head_of_start (Or.inr hmem)) hpos)
  cases hs with
  | terminal | again | extend | follow | finish => exact hold hmem
  | empty a =>
    rcases List.mem_append.mp hmem with hmem | hmem
    · exact hold hmem
    · obtain rfl := List.mem_singleton.mp hmem
      obtain ⟨h, n, hr⟩ := hpos
      cases hr.symm.trans (Layout.grown_push_fresh rfl).self
  | root a =>
    rcases List.mem_append.mp hmem with hmem | hmem
    · cases hold hmem
    · obtain rfl := List.mem_singleton.mp hmem
      simp [hshare]
  | list => cases hmem

lemma Merged.step (hshare : r.sharePrefixes = true) (hf : Fits d) (hm : Merged d)
    (hs : Step r d d') : Merged d' := by
  refine ⟨⟨hm.fork_step hshare hf hs, ?_⟩, hm.root_step hshare hf hs⟩
  intro a f f' hst hst' hpos hpos'
  rcases hs.starts_back (a := a) with hiff | hiff
  · have hst := (hiff f).mp hst
    have hst' := (hiff f').mp hst'
    exact hm.listed hst hst' (hs.isPosition_old (hf.head_of_start (Or.inl ⟨a, hst⟩)) hpos)
      (hs.isPosition_old (hf.head_of_start (Or.inl ⟨a, hst'⟩)) hpos')
  · have hmem := (hiff f).mp hst
    have hmem' := (hiff f').mp hst'
    have hroot := hm.root hmem (hs.isPosition_old (hf.head_of_start (Or.inr hmem)) hpos)
    have hroot' := hm.root hmem' (hs.isPosition_old (hf.head_of_start (Or.inr hmem')) hpos')
    exact Option.some.inj (hroot.symm.trans hroot')

theorem Built.merged (hnodup : r.heads.Nodup) (hshare : r.sharePrefixes = true)
    (h : Built r d) : Merged d := by
  induction h with
  | declared =>
    have hd := Rules.declared_heads hnodup
    exact ⟨⟨fun hl => absurd hl (hd.not_leads _ _ _), fun hf => absurd hf (hd.not_starts _ _)⟩,
      by simp⟩
  | step hb hs ih => exact ih.step hshare (hb.fits hnodup) hs

/-! ### Separate alternatives -/

/-- No position is left in two ways, and the one that is pending not at all. -/
structure Separate (d : Draft) : Prop where
  single {b x x' c c' : SlotId} : Leads d.layout.slots b x c → Leads d.layout.slots b x' c' →
    c = c'
  pending {b x c : SlotId} {n : Nat} : d.pending = some (b, n) → ¬ Leads d.layout.slots b x c
  root : d.starts.root = none

lemma Separate.pending_step (hshare : r.sharePrefixes = false) (hf : Fits d) (hm : Separate d)
    (hs : Step r d d') {b x c : SlotId} {n : Nat} (hb : d'.pending = some (b, n)) :
    ¬ Leads d'.layout.slots b x c := by
  intro hl
  cases hs with
  | terminal =>
    exact hm.pending hb (((Layout.grown_push_fresh rfl).leads.mp hl).resolve_right (by simp))
  | empty | finish | list => cases hb
  | root =>
    cases hb
    obtain ⟨a, ha⟩ := (Slots.isPosition_of_leads
      (((Layout.grown_push_fresh rfl).leads.mp hl).resolve_right (by simp))).head
    exact absurd (Slots.lt_size_of_head? ha) (Nat.lt_irrefl _)
  | again => cases hm.root
  | @extend l _ b₀ =>
    cases hb
    obtain ⟨h, m, hb₀⟩ := hf.pending rfl
    rcases (Layout.grown_append_fresh rfl hb₀).leads.mp hl with hl | ⟨heq, -⟩
    · obtain ⟨a, ha⟩ := (Slots.isPosition_of_leads hl).head
      exact absurd (Slots.lt_size_of_head? ha) (Nat.lt_irrefl _)
    · cases heq
      exact absurd (Slots.lt_size_of_role? hb₀) (Nat.lt_irrefl _)
  | follow _ htrue => simp [hshare] at htrue

lemma Separate.step (hshare : r.sharePrefixes = false) (hf : Fits d) (hm : Separate d)
    (hs : Step r d d') : Separate d' := by
  refine ⟨?_, hm.pending_step hshare hf hs, ?_⟩
  · intro b x x' c c' hl hl'
    rcases hs.leads_back hf hl with hl | ⟨n, hn, rfl, -⟩
    · rcases hs.leads_back hf hl' with hl' | ⟨n, hn, rfl, -⟩
      · exact hm.single hl hl'
      · exact absurd hl (hm.pending hn)
    · rcases hs.leads_back hf hl' with hl' | ⟨-, -, rfl, -⟩
      · exact absurd hl' (hm.pending hn)
      · rfl
  · obtain ⟨-, -, hroot⟩ := hm
    cases hs with
    | terminal | empty | extend | follow | finish => exact hroot
    | root => simp [hshare]
    | again => cases hroot
    | list => rfl

theorem Built.separate (hnodup : r.heads.Nodup) (hshare : r.sharePrefixes = false)
    (h : Built r d) : Separate d := by
  induction h with
  | declared =>
    exact ⟨fun hl => absurd hl ((Rules.declared_heads hnodup).not_leads _ _ _), by simp, rfl⟩
  | step hb hs ih => exact ih.step hshare (hb.fits hnodup) hs

/-! ### Symbols -/

/-- There are only slots for terminals that are used, and for nonterminals that have rules. -/
structure Sparing (r : Rules) (d : Draft) : Prop where
  terminal {x : SlotId} {t : Terminal} : role? d.layout.slots x = some (.terminal t) →
    r.Uses (.terminal t)
  nonterminal {x : SlotId} {A : String} : role? d.layout.slots x = some (.nonterminal A) →
    A ∈ r.heads

lemma Sparing.step (hf : Fits d) (h : Sparing r d) (hs : Step r d d') : Sparing r d' := by
  constructor
  · intro x t hx
    rcases hs.role_back hf hx with hx | ⟨-, -, hX, -⟩
    · exact h.terminal hx
    · exact hX t rfl
  · intro x A hx
    rcases hs.role_back hf hx with hx | ⟨-, -, -, hno⟩
    · exact h.nonterminal hx
    · exact absurd rfl (hno A)

theorem Built.sparing (hnodup : r.heads.Nodup) (h : Built r d) : Sparing r d := by
  induction h with
  | declared =>
    have hd := Rules.declared_heads hnodup
    constructor
    · intro x t hx
      obtain ⟨name, -, hr⟩ := hd.role hx
      cases hr
    · intro x A hx
      obtain ⟨name, hmem, hr⟩ := hd.role hx
      obtain rfl : A = name := by simpa using hr
      exact hmem
  | step hb hs ih => exact ih.step (hb.fits hnodup) hs

end Draft

/-! ### Built graphs -/

namespace Rules

lemma sharePrefixes_foldl_add (rules : List (String × List Symbol)) (r : Rules) :
    (rules.foldl (fun r e => r.add e.1 e.2) r).sharePrefixes = r.sharePrefixes := by
  induction rules generalizing r with
  | nil => rfl
  | cons e rules ih => exact ih (r.add e.1 e.2)

lemma sharePrefixes_ofList (share : Bool) (rules : List (String × List Symbol)) :
    (ofList share rules).sharePrefixes = share :=
  sharePrefixes_foldl_add rules ⟨[], share⟩

lemma mem_rules_of_uses {share : Bool} {rules : List (String × List Symbol)} {X : Symbol}
    (h : (ofList share rules).Uses X) : ∃ A body, (A, body) ∈ rules ∧ X ∈ body := by
  obtain ⟨p, hp, body, hbody, hX⟩ := h
  rw [((gathered_ofList share rules).mem_iff.mp hp).1] at hbody
  exact ⟨p.head, body, mem_alternatives.mp hbody, hX⟩

lemma alternatives_ne_nil_of_mem_heads {share : Bool} {rules : List (String × List Symbol)}
    {A : String} (h : A ∈ (ofList share rules).heads) : alternatives rules A ≠ [] := by
  obtain ⟨p, hp, rfl⟩ := List.mem_map.mp h
  obtain ⟨heq, hne⟩ := (gathered_ofList share rules).mem_iff.mp hp
  rwa [← heq]

end Rules

namespace Graph

variable {share : Bool} {rules : List (String × List Symbol)} {g : Graph}

/-- A graph that is built with shared prefixes shares them all. -/
theorem merged_of_build (h : (Rules.ofList true rules).build = .ok g) : Slots.Merged g.slots := by
  obtain ⟨l, hl, rfl⟩ := exists_built h
  have hm := hl.merged (Rules.gathered_ofList true rules).nodup (Rules.sharePrefixes_ofList _ _)
  have hpos {id : SlotId} (hid : IsPosition (Summary.fillIn l.slots) id) :
      IsPosition l.slots id := by
    simpa only [IsPosition, Summary.role?_fillIn] using hid
  constructor
  · intro b x c c' hlead hlead' hc hc'
    exact hm.fork (Summary.leads_fillIn.mp hlead) (Summary.leads_fillIn.mp hlead') (hpos hc)
      (hpos hc')
  · intro a f f' hf hf' hpf hpf'
    exact hm.listed (Summary.starts_fillIn.mp hf) (Summary.starts_fillIn.mp hf') (hpos hpf)
      (hpos hpf')

/-- Without shared prefixes, there is one transition from every position. -/
theorem transitions_of_build (h : (Rules.ofList false rules).build = .ok g) {b : SlotId}
    {s : BodySlot} (hb : g.slots[b]? = some (.body s)) : s.transitions.length = 1 := by
  have hnodup : (Slots.targets g.slots).Nodup := by
    rw [List.nodup_iff_count_le_one]
    intro id
    rw [← Slots.references, references_of_build h]
    split <;> omega
  have hmem : Slot.body s ∈ g.slots.toList := by simpa using Array.mem_of_getElem? hb
  have hdest : (s.transitions.map Transition.dest).Nodup :=
    (List.nodup_flatMap.mp hnodup).1 _ hmem
  have hsingle {t t' : Transition} (ht : t ∈ s.transitions) (ht' : t' ∈ s.transitions) :
      t.dest = t'.dest := by
    obtain ⟨l, hl, rfl⟩ := exists_built h
    have hm := hl.separate (Rules.gathered_ofList false rules).nodup
      (Rules.sharePrefixes_ofList _ _)
    exact hm.single (Summary.leads_fillIn.mp ⟨s, hb, ht⟩) (Summary.leads_fillIn.mp ⟨s, hb, ht'⟩)
  obtain ⟨x, d, hlead⟩ := onward_of_build h hb
  have hne := List.ne_nil_of_mem ((Slots.leads_iff_of_body hb).mp hlead)
  cases htrans : s.transitions with
  | nil => exact absurd htrans hne
  | cons t ts =>
    cases ts with
    | nil => rfl
    | cons t' ts =>
      have heq : t.dest = t'.dest := hsingle (by simp [htrans]) (by simp [htrans])
      rw [htrans] at hdest
      refine absurd ?_ (List.nodup_cons.mp hdest).1
      simp [heq]

/-- There are slots for the terminals in the rules only. -/
theorem mem_rules_of_terminal (h : (Rules.ofList share rules).build = .ok g) {x : SlotId}
    {t : Terminal} (hx : role? g.slots x = some (.terminal t)) :
    ∃ A body, (A, body) ∈ rules ∧ .terminal t ∈ body := by
  obtain ⟨l, hl, rfl⟩ := exists_built h
  rw [Summary.role?_fillIn] at hx
  have hs := hl.sparing (Rules.gathered_ofList share rules).nodup
  exact Rules.mem_rules_of_uses (hs.terminal hx)

/-- There are slots for the nonterminals with rules only. -/
theorem alternatives_ne_nil_of_nonterminal (h : (Rules.ofList share rules).build = .ok g)
    {a : SlotId} {A : String} (ha : role? g.slots a = some (.nonterminal A)) :
    Rules.alternatives rules A ≠ [] := by
  obtain ⟨l, hl, rfl⟩ := exists_built h
  rw [Summary.role?_fillIn] at ha
  have hs := hl.sparing (Rules.gathered_ofList share rules).nodup
  exact Rules.alternatives_ne_nil_of_mem_heads (hs.nonterminal ha)

end Graph

end GeneralParser
