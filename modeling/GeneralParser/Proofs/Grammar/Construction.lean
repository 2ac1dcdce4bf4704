import GeneralParser.Proofs.Grammar.Rules

/-!
# How a layout comes about

Laying out a grammar consists of a few kinds of steps: a slot is pushed for a terminal or for the
start of an alternative, one is appended to the position that the alternative has come to, that of
an earlier alternative is followed, or the starts are listed. A draft is a layout between two steps.
What holds of all drafts is shown for one step at a time.
-/

namespace GeneralParser

variable [PatternEngine]

open Slots (role? head? Leads)

/-- A symbol occurs in one of the rules. -/
def Rules.Uses (r : Rules) (X : Symbol) : Prop :=
  ∃ p ∈ r.productions, ∃ body ∈ p.bodies, X ∈ body

/-- A layout under construction, between two steps. -/
structure Draft where
  layout : Layout
  /-- Where the alternatives of the nonterminal at hand start, which are not listed in its slot yet.
  -/
  starts : Layout.Starts
  /-- The position that the alternative at hand has come to, and the symbols before it. -/
  pending : Option (SlotId × Nat)

namespace Draft

/-- The steps in which the rules are laid out. -/
inductive Step (r : Rules) : Draft → Draft → Prop
  /-- A terminal is met for the first time. -/
  | terminal {l : Layout} {starts : Layout.Starts} {pending : Option (SlotId × Nat)}
      {t : Terminal} : r.Uses (.terminal t) →
    Step r ⟨l, starts, pending⟩ ⟨(l.push (.terminal (.ofTerminal t))).2, starts, pending⟩
  /-- An alternative is empty. -/
  | empty {l : Layout} {starts : Layout.Starts} (a : Layout.Alternative) :
    Step r ⟨l, starts, none⟩ ⟨(l.push (a.endSlot 0)).2,
      { starts with firstSlots := starts.firstSlots ++ [l.slots.size] }, none⟩
  /-- An alternative starts in a slot of its own. -/
  | root {l : Layout} {fs : List SlotId} (a : Layout.Alternative) :
    Step r ⟨l, ⟨fs, none⟩, none⟩ ⟨(l.push (a.bodySlot 0)).2, ⟨fs ++ [l.slots.size],
      if r.sharePrefixes then some l.slots.size else none⟩, some (l.slots.size, 0)⟩
  /-- An alternative starts where the earlier ones do. -/
  | again {l : Layout} {fs : List SlotId} {f : SlotId} (a : Layout.Alternative) :
    Step r ⟨l, ⟨fs, some f⟩, none⟩ ⟨l.markShared a f 0, ⟨fs, some f⟩, some (f, 0)⟩
  /-- A symbol leads to a new position. -/
  | extend {l : Layout} {starts : Layout.Starts} {b x : SlotId} {n : Nat}
      (a : Layout.Alternative) : (r.sharePrefixes = true → l.sharedDest? b x = none) →
    Step r ⟨l, starts, some (b, n)⟩
      ⟨l.append b x (a.bodySlot (n + 1)), starts, some (l.slots.size, n + 1)⟩
  /-- A symbol leads to a position of an earlier alternative. -/
  | follow {l : Layout} {starts : Layout.Starts} {b x d : SlotId} {n : Nat}
      (a : Layout.Alternative) : r.sharePrefixes = true → l.sharedDest? b x = some d →
    Step r ⟨l, starts, some (b, n)⟩ ⟨l.markShared a d (n + 1), starts, some (d, n + 1)⟩
  /-- The last symbol leads to the end. -/
  | finish {l : Layout} {starts : Layout.Starts} {b x : SlotId} {n : Nat}
      (a : Layout.Alternative) :
    Step r ⟨l, starts, some (b, n)⟩ ⟨l.append b x (a.endSlot (n + 1)), starts, none⟩
  /-- All alternatives of a nonterminal are laid out. -/
  | list {l : Layout} {starts : Layout.Starts} {h : SlotId} {s : NonterminalSlot} :
    l.slots[h]? = some (.nonterminal s) → s.firstSlots = [] →
    Step r ⟨l, starts, none⟩ ⟨l.setFirstSlots h starts.firstSlots, ⟨[], none⟩, none⟩

/-- No step changes what a slot is for. -/
lemma Step.role {r : Rules} {d d' : Draft} (h : Step r d d') {id : SlotId} {ρ : Slot.Role}
    (hr : role? d.layout.slots id = some ρ) : role? d'.layout.slots id = some ρ := by
  have hne := Nat.ne_of_lt (Slots.lt_size_of_role? hr)
  cases h with
  | terminal | empty | root =>
    rw [← hr]
    exact Slots.role?_push.trans (if_neg hne)
  | again | follow => rwa [Layout.role?_markShared]
  | extend | finish => rwa [Layout.role?_append, if_neg hne]
  | list => rwa [Layout.role?_setFirstSlots]

/-- The drafts on the way to the layout of the rules. -/
inductive Built (r : Rules) : Draft → Prop
  | declared : Built r ⟨r.heads.foldl Layout.declare ⟨#[], []⟩, ⟨[], none⟩, none⟩
  | step {d d' : Draft} : Built r d → Step r d d' → Built r d'

end Draft

/-! ### Laying out in steps -/

namespace Layout

open Draft (Built)

variable {r : Rules} {l l' : Layout} {starts starts' : Starts}

lemma resolve_built {pending : Option (SlotId × Nat)} (hb : Built r ⟨l, starts, pending⟩)
    {head : String} {X : Symbol} (hX : r.Uses X) {x : SlotId}
    (h : l.resolve head X = .ok (x, l')) : Built r ⟨l', starts, pending⟩ := by
  cases X with
  | nonterminal name =>
    simp only [resolve] at h
    split at h
    · obtain ⟨-, rfl⟩ : _ ∧ l = l' := by simpa using h
      exact hb
    · cases h
  | terminal t =>
    simp only [resolve] at h
    split at h
    · obtain ⟨-, rfl⟩ : _ ∧ l = l' := by simpa using h
      exact hb
    · obtain ⟨-, rfl⟩ : l.slots.size = x ∧ (l.push (.terminal (.ofTerminal t))).2 = l' := by
        simpa [push] using h
      exact hb.step (.terminal hX)

lemma advance_built {a : Alternative} (ha : a.share = r.sharePrefixes) {b x dest : SlotId}
    {n : Nat} (hb : Built r ⟨l, starts, some (b, n)⟩)
    (h : l.advance a b x (n + 1) = (dest, l')) : Built r ⟨l', starts, some (dest, n + 1)⟩ := by
  rw [advance, ha] at h
  split at h
  next d hd =>
    obtain ⟨rfl, rfl⟩ : d = dest ∧ l.markShared a d (n + 1) = l' := by simpa using h
    split at hd
    next hshare => exact hb.step (.follow a hshare hd)
    next => cases hd
  next hd =>
    obtain ⟨rfl, rfl⟩ : l.slots.size = dest ∧ l.append b x (a.bodySlot (n + 1)) = l' := by
      simpa [push, append] using h
    refine hb.step (.extend a ?_)
    intro hshare
    rwa [if_pos hshare] at hd

lemma addSymbols_built {a : Alternative} (ha : a.share = r.sharePrefixes) {b : SlotId} {n : Nat}
    {X : Symbol} {rest : List Symbol} (hrest : ∀ Y ∈ X :: rest, r.Uses Y)
    (hb : Built r ⟨l, starts, some (b, n)⟩) (h : addSymbols a l b n (X :: rest) = .ok l') :
    Built r ⟨l', starts, none⟩ := by
  induction rest generalizing l b n X with
  | nil =>
    obtain ⟨⟨x, l₁⟩, hx, h⟩ := bind_eq_ok_iff.mp h
    obtain rfl : l₁.append b x (a.endSlot (n + 1)) = l' := by
      simpa [push, append, pure, Except.pure] using h
    exact (resolve_built hb (hrest X List.mem_cons_self) hx).step (.finish a)
  | cons Y rest ih =>
    obtain ⟨⟨x, l₁⟩, hx, h⟩ := bind_eq_ok_iff.mp h
    have hb₁ := resolve_built hb (hrest X List.mem_cons_self) hx
    exact ih (fun Z hZ => hrest Z (List.mem_cons_of_mem _ hZ)) (advance_built ha hb₁ rfl) h

lemma addAlternative_built {a : Alternative} (ha : a.share = r.sharePrefixes)
    {body : List Symbol} (hbody : ∀ X ∈ body, r.Uses X) (hb : Built r ⟨l, starts, none⟩)
    (h : l.addAlternative starts a body = .ok (starts', l')) : Built r ⟨l', starts', none⟩ := by
  cases body with
  | nil =>
    obtain ⟨rfl, rfl⟩ :
        { starts with firstSlots := starts.firstSlots ++ [l.slots.size] } = starts' ∧
          (l.push (a.endSlot 0)).2 = l' := by simpa [addAlternative, push] using h
    exact hb.step (.empty a)
  | cons X body =>
    obtain ⟨fs, root⟩ := starts
    cases root with
    | some f =>
      obtain ⟨l₁, hl₁, h⟩ := bind_eq_ok_iff.mp h
      obtain ⟨rfl, rfl⟩ : (⟨fs, some f⟩ : Starts) = starts' ∧ l₁ = l' := by
        simpa [pure, Except.pure] using h
      exact addSymbols_built ha hbody (hb.step (.again a)) hl₁
    | none =>
      obtain ⟨l₁, hl₁, h⟩ := bind_eq_ok_iff.mp h
      obtain ⟨rfl, rfl⟩ : (⟨fs ++ [l.slots.size],
          if r.sharePrefixes then some l.slots.size else none⟩ : Starts) = starts' ∧ l₁ = l' := by
        simpa [push, pure, Except.pure, ha] using h
      exact addSymbols_built ha hbody (hb.step (.root a)) hl₁

lemma addAlternatives_built {head : String} {a : SlotId} {n : Nat} {bodies : List (List Symbol)}
    (hbodies : ∀ body ∈ bodies, ∀ X ∈ body, r.Uses X) (hb : Built r ⟨l, starts, none⟩)
    (h : addAlternatives r.sharePrefixes head a l starts n bodies = .ok (starts', l')) :
    Built r ⟨l', starts', none⟩ := by
  induction bodies generalizing l starts n with
  | nil =>
    obtain ⟨rfl, rfl⟩ : starts = starts' ∧ l = l' := by simpa [addAlternatives] using h
    exact hb
  | cons body bodies ih =>
    obtain ⟨⟨starts₁, l₁⟩, h₁, h⟩ := bind_eq_ok_iff.mp h
    have hb₁ := addAlternative_built rfl (hbodies body List.mem_cons_self) hb h₁
    exact ih (fun body' hmem => hbodies body' (List.mem_cons_of_mem _ hmem)) hb₁ h

/-- The slot of a nonterminal lists no starts before its alternatives are laid out. -/
lemma Holds.not_starts {ps : List Production} (h : Holds ps l) {p : Production} {a : SlotId}
    (hnew : p.head ∉ ps.map Production.head) (ha : l.registry.lookup p.head = some a)
    (f : SlotId) : ¬ Slots.Starts l.slots a f := by
  intro hf
  obtain ⟨q, hq, hqa⟩ := h.starts hf
  exact h.head_new hnew ha hq hqa

lemma addProduction_built {ps : List Production} {p : Production} (hp : p ∈ r.productions)
    (hl : Holds ps l) (hnew : p.head ∉ ps.map Production.head)
    (hb : Built r ⟨l, ⟨[], none⟩, none⟩) (h : l.addProduction r.sharePrefixes p = .ok l') :
    Built r ⟨l', ⟨[], none⟩, none⟩ := by
  obtain ⟨a, starts, l₁, ha, halts, rfl, -, hext⟩ := addProduction_produced hl hnew h
  have hb₁ := addAlternatives_built (fun body hbody X hX => ⟨p, hp, body, hbody, hX⟩) hb halts
  obtain ⟨s, hs, -⟩ := Slots.role?_nonterminal.mp (hext.role (hl.laid.lookup_iff.mp ha))
  refine hb₁.step (.list hs (List.eq_nil_iff_forall_not_mem.mpr ?_))
  intro f hf
  exact hl.not_starts hnew ha f (hext.starts.mp ⟨s, hs, hf⟩)

lemma addProductions_built {done rest : List Production} (hrest : ∀ p ∈ rest, p ∈ r.productions)
    (hl : Holds done l) (hnodup : ((done ++ rest).map Production.head).Nodup)
    (hb : Built r ⟨l, ⟨[], none⟩, none⟩)
    (h : rest.foldlM (addProduction r.sharePrefixes) l = .ok l') :
    Built r ⟨l', ⟨[], none⟩, none⟩ := by
  induction rest generalizing l done with
  | nil =>
    obtain rfl : l = l' := by simpa [pure, Except.pure] using h
    exact hb
  | cons p rest ih =>
    obtain ⟨l₁, h₁, h⟩ := bind_eq_ok_iff.mp h
    have hnew : p.head ∉ done.map Production.head := by
      rw [List.map_append, List.map_cons, List.nodup_append] at hnodup
      exact fun hmem => hnodup.2.2 _ hmem _ List.mem_cons_self rfl
    obtain ⟨hl₁, -⟩ := addProduction_ok hl hnew h₁
    have hb₁ := addProduction_built (hrest p List.mem_cons_self) hl hnew hb h₁
    exact ih (fun q hq => hrest q (List.mem_cons_of_mem _ hq)) hl₁ (by simpa using hnodup) hb₁ h

end Layout

/-- The layout of the rules is reached by these steps. -/
theorem Rules.layout_built {r : Rules} {l : Layout} (hnodup : r.heads.Nodup)
    (h : r.layout = .ok l) : Draft.Built r ⟨l, ⟨[], none⟩, none⟩ :=
  Layout.addProductions_built (fun _ => id) (declared_heads hnodup).holds hnodup .declared h

/-- A graph that is built from rules is a layout that is reached by these steps, with summaries
filled in. -/
theorem Graph.exists_built {share : Bool} {rules : List (String × List Symbol)} {g : Graph}
    (h : (Rules.ofList share rules).build = .ok g) :
    ∃ l, Draft.Built (Rules.ofList share rules) ⟨l, ⟨[], none⟩, none⟩ ∧
      g = ⟨Summary.fillIn l.slots, l.registry⟩ := by
  obtain ⟨l, hl, hg⟩ := bind_eq_ok_iff.mp h
  exact ⟨l, Rules.layout_built (Rules.gathered_ofList share rules).nodup hl,
    by simpa [pure, Except.pure] using hg.symm⟩

end GeneralParser
