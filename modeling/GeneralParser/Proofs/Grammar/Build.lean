import GeneralParser.Proofs.Grammar.Derivation
import GeneralParser.Proofs.Grammar.Layout
import GeneralParser.Proofs.Grammar.Validation

/-!
# What a built graph spells

A graph that is built from rules is wired, and its paths from the start of an alternative to an end
spell the alternatives of the rules: each at an end of its own, and nothing else.
-/

namespace GeneralParser

open Slots (role? head? Leads Path)

/-- What comes out of two steps in a row came out of both. -/
lemma bind_eq_ok_iff {ε α β : Type} {x : Except ε α} {f : α → Except ε β} {b : β} :
    (x >>= f) = .ok b ↔ ∃ a, x = .ok a ∧ f a = .ok b := by
  cases x <;> simp [bind, Except.bind]

variable [PatternEngine]

namespace Layout

variable {l l' : Layout} {laid : SlotId → Nat → List Symbol → Prop}
  {root : SlotId → SlotId → Prop}

/-! ### Symbols -/

lemma role?_of_terminal? {t : Terminal} {id : SlotId} (h : l.terminal? t = some id) :
    role? l.slots id = some (.terminal t) := by
  obtain ⟨hlt, hp, -⟩ := Array.findIdx?_eq_some_iff_getElem.mp h
  rw [Slots.role?_terminal]
  split at hp
  next s hs => exact ⟨s, by rw [Array.getElem?_eq_getElem hlt, hs], by simpa using hp⟩
  next => simp at hp

lemma role?_ne_of_terminal?_eq_none {t : Terminal} (h : l.terminal? t = none) (x : SlotId) :
    role? l.slots x ≠ some (.terminal t) := by
  intro hx
  obtain ⟨s, hs, rfl⟩ := Slots.role?_terminal.mp hx
  have := Array.findIdx?_eq_none_iff.mp h _ (Array.mem_of_getElem? hs)
  simp at this

/-- A slot that is pushed is entered from nowhere. -/
lemma grown_push {s : Slot} (hs : ∀ b, s = .body b → b.transitions = []) :
    Grown l s.role none (l.push s).2 := by
  have hleads {b x d : SlotId} : Leads (l.push s).2.slots b x d ↔ Leads l.slots b x d :=
    Slots.leads_push hs
  exact ⟨rfl, Slots.role?_push, by simp [hleads]⟩

/-- Resolving a symbol finds its slot, or makes one. -/
lemma resolve_ok (hl : Laid laid root l) {head : String} {X : Symbol} {x : SlotId}
    (h : l.resolve head X = .ok (x, l')) :
    Laid laid root l' ∧ Extends l l' ∧ role? l'.slots x = some X.role := by
  cases X with
  | nonterminal name =>
    simp only [resolve] at h
    split at h
    next id hid =>
      obtain ⟨rfl, rfl⟩ : id = x ∧ l = l' := by simpa using h
      exact ⟨hl, .refl l, hl.lookup_iff.mp hid⟩
    next => cases h
  | terminal t =>
    simp only [resolve] at h
    split at h
    next id hid =>
      obtain ⟨rfl, rfl⟩ : id = x ∧ l = l' := by simpa using h
      exact ⟨hl, .refl l, role?_of_terminal? hid⟩
    next hnone =>
      obtain ⟨rfl, rfl⟩ : l.slots.size = x ∧ (l.push (.terminal (.ofTerminal t))).2 = l' := by
        simpa [push] using h
      have hrole (id : SlotId) : role? (l.push (.terminal (.ofTerminal t))).2.slots id =
          if id = l.slots.size then some (.terminal t) else role? l.slots id := Slots.role?_push
      have hleads {b x d : SlotId} : Leads (l.push (.terminal (.ofTerminal t))).2.slots b x d ↔
          Leads l.slots b x d := Slots.leads_push (by simp)
      have hgrown : Grown l (.terminal t) none (l.push (.terminal (.ofTerminal t))).2 :=
        grown_push (s := .terminal (.ofTerminal t)) (by simp)
      refine ⟨hl.grow hgrown (by simp [Slot.Role.head?]) (by simp) (by simp) ?_
        (by simp [Slot.Role.head?]) id Or.inl (by simp), ?_, ?_⟩
      · rintro t' ⟨⟩ x
        exact role?_ne_of_terminal?_eq_none hnone x
      · refine ⟨rfl, ?_, hleads.mpr, Slots.starts_push (by simp)⟩
        intro id r hr
        rwa [hrole, if_neg (Nat.ne_of_lt (Slots.lt_size_of_role? hr))]
      · rw [hrole, if_pos rfl]
        rfl

/-! ### Positions and ends -/

/-- A slot behind position `current`, to be entered over `x`. -/
def append (l : Layout) (current x : SlotId) (s : Slot) : Layout :=
  (l.push s).2.addTransition current ⟨x, l.slots.size⟩

lemma role?_append {current x id : SlotId} {s : Slot} :
    role? (l.append current x s).slots id =
      if id = l.slots.size then some s.role else role? l.slots id := by
  rw [append, role?_addTransition]
  exact Slots.role?_push

lemma leads_append {current x b y d h : SlotId} {n : Nat} {s : Slot}
    (hcur : role? l.slots current = some (.body h n))
    (hs : ∀ b, s = .body b → b.transitions = []) :
    Leads (l.append current x s).slots b y d ↔
      Leads l.slots b y d ∨ (some (current, x) = some (b, y) ∧ d = l.slots.size) := by
  obtain ⟨c, hc, -, -⟩ := Slots.role?_body.mp hcur
  have hc' : (l.push s).2.slots[current]? = some (.body c) := by
    rw [push, Array.getElem?_push, if_neg, hc]
    exact Nat.ne_of_lt (Slots.lt_size_of_role? hcur)
  rw [append, leads_addTransition hc', show (l.push s).2.slots = l.slots.push s from rfl,
    Slots.leads_push hs]
  simp only [Transition.mk.injEq, Option.some.injEq, Prod.mk.injEq]
  constructor
  · rintro (h | ⟨rfl, rfl, rfl⟩)
    · exact Or.inl h
    · exact Or.inr ⟨⟨rfl, rfl⟩, rfl⟩
  · rintro (h | ⟨⟨rfl, rfl⟩, rfl⟩)
    · exact Or.inl h
    · exact Or.inr ⟨rfl, rfl, rfl⟩

/-- A slot that is appended is entered from the current position. -/
lemma grown_append {current x h : SlotId} {n : Nat} {s : Slot}
    (hcur : role? l.slots current = some (.body h n))
    (hs : ∀ b, s = .body b → b.transitions = []) :
    Grown l s.role (some (current, x)) (l.append current x s) :=
  ⟨rfl, role?_append, leads_append hcur hs⟩

lemma starts_append {current x a f : SlotId} {s : Slot}
    (hs : ∀ n, s = .nonterminal n → n.firstSlots = []) :
    Slots.Starts (l.append current x s).slots a f ↔ Slots.Starts l.slots a f := by
  rw [append, addTransition, starts_modifyBody]
  exact Slots.starts_push hs

lemma extends_append {current x h : SlotId} {n : Nat} {s : Slot}
    (hcur : role? l.slots current = some (.body h n))
    (hs : ∀ b, s = .body b → b.transitions = [])
    (hs' : ∀ n, s = .nonterminal n → n.firstSlots = []) :
    Extends l (l.append current x s) := by
  refine ⟨rfl, ?_, fun hb => (leads_append hcur hs).mpr (Or.inl hb),
    starts_append hs'⟩
  intro id r hr
  rwa [role?_append, if_neg (Nat.ne_of_lt (Slots.lt_size_of_role? hr))]

lemma sharedDest?_ok {current x dest : SlotId} (h : l.sharedDest? current x = some dest) :
    Leads l.slots current x dest ∧ l.isBody dest := by
  rw [sharedDest?] at h
  split at h
  next b hb =>
    have hmem := List.mem_of_find?_eq_some h
    simp only [List.mem_map, List.mem_filter, decide_eq_true_eq] at hmem
    obtain ⟨t, ⟨ht, rfl⟩, rfl⟩ := hmem
    exact ⟨⟨b, hb, ht⟩, List.find?_some h⟩
  next => cases h

/-- Labels do not matter. -/
lemma markShared_ok (hl : Laid laid root l) (a : Alternative) (id : SlotId) (n : Nat) :
    Laid laid root (l.markShared a id n) ∧ Extends l (l.markShared a id n) :=
  ⟨hl.congr rfl (fun _ => role?_markShared) leads_markShared (fun _ _ => .rfl) fun _ _ _ => .rfl,
    rfl, fun hr => by rwa [role?_markShared], leads_markShared.mpr, starts_modifyBody⟩

/-- Advancing over a symbol leads to a position, an old one or a new one. -/
lemma advance_ok (hl : Laid laid root l) {a : Alternative} {current x dest : SlotId} {m n : Nat}
    {X : Symbol} (hcur : role? l.slots current = some (.body a.headId m))
    (hx : role? l.slots x = some X.role) (h : l.advance a current x n = (dest, l')) :
    Laid laid root l' ∧ Extends l l' ∧ Leads l'.slots current x dest ∧
      ∃ m, role? l'.slots dest = some (.body a.headId m) := by
  rw [advance] at h
  split at h
  next d hd =>
    obtain ⟨rfl, rfl⟩ : d = dest ∧ l.markShared a d n = l' := by simpa using h
    have hshared : l.sharedDest? current x = some d := by
      split at hd
      · exact hd
      · cases hd
    obtain ⟨hlead, hbody⟩ := sharedDest?_ok hshared
    obtain ⟨hlm, hext⟩ := markShared_ok hl a d n
    refine ⟨hlm, hext, leads_markShared.mpr hlead, ?_⟩
    rw [isBody] at hbody
    split at hbody
    next s hs =>
      have hhead : head? l.slots d = some a.headId := by
        rw [hl.leads_head hlead, head?, hcur]
        rfl
      rw [Slots.head?_body hs] at hhead
      exact ⟨s.position, by
        rw [role?_markShared, Slots.role?_body]
        exact ⟨s, hs, by simpa using hhead, rfl⟩⟩
    next => cases hbody
  next =>
    obtain ⟨rfl, rfl⟩ : l.slots.size = dest ∧ l.append current x (a.bodySlot n) = l' := by
      simpa [push, append] using h
    have hs : ∀ b, a.bodySlot n = .body b → b.transitions = [] := by
      rintro b ⟨⟩
      rfl
    have hroot : head? l.slots current = some a.headId := by rw [head?, hcur]; rfl
    have hgrown : Grown l (.body a.headId n) (some (current, x))
        (l.append current x (a.bodySlot n)) := grown_append hcur hs
    refine ⟨hl.grow hgrown (by simp) ?_ (by simp) (by simp) ?_ id Or.inl
      (by simp), extends_append hcur hs (by simp [Alternative.bodySlot]),
      (leads_append hcur hs).mpr (Or.inr ⟨rfl, rfl⟩), n, ?_⟩
    · rintro b y ⟨⟩
      exact ⟨⟨_, rfl⟩, hroot, X, hx⟩
    · rintro b ⟨⟩
      exact hl.head_nonterminal hroot
    · rw [role?_append, if_pos rfl]
      rfl

/-- The alternatives laid out once another one, `k` of nonterminal `a`, is. -/
def Adding (laid : SlotId → Nat → List Symbol → Prop) (a : SlotId) (k : Nat) (body : List Symbol) :
    SlotId → Nat → List Symbol → Prop :=
  fun a' k' body' => laid a' k' body' ∨ (a' = a ∧ k' = k ∧ body' = body)

lemma Laid.not_done (hl : Laid laid root l) {a : SlotId} {k : Nat}
    (hnew : ∀ body, ¬ laid a k body) (e : SlotId) : role? l.slots e ≠ some (.done a k) := by
  intro he
  obtain ⟨-, -, body, hb, -⟩ := hl.ended he
  exact hnew body hb

/-- The symbols of an alternative are laid out behind the position that its beginning leads to. -/
lemma addSymbols_ok {a : Alternative} {f : SlotId}
    (hnew : ∀ body, ¬ laid a.headId a.number body) (before rest : List Symbol)
    (pre : List SlotId) {current : SlotId} {n m : Nat} (hrest : rest ≠ [])
    (hl : Laid laid root l) (hf : root a.headId f) (hp : Path l.slots f pre current)
    (hs : Slots.Spelled l.slots pre before)
    (hcur : role? l.slots current = some (.body a.headId m))
    (h : addSymbols a l current n rest = .ok l') :
    Laid (Adding laid a.headId a.number (before ++ rest)) root l' ∧ Extends l l' := by
  induction rest generalizing l current n m before pre with
  | nil => exact absurd rfl hrest
  | cons X rest ih =>
    cases rest with
    | nil =>
      obtain ⟨⟨x, l₁⟩, hx, h⟩ := bind_eq_ok_iff.mp h
      obtain ⟨hl₁, hext, hrx⟩ := resolve_ok hl hx
      obtain rfl : l₁.append current x (a.endSlot (n + 1)) = l' := by
        simpa [push, append, pure, Except.pure] using h
      have hcur₁ := hext.role hcur
      have hs' : ∀ b, a.endSlot (n + 1) = .body b → b.transitions = [] := by
        simp [Alternative.endSlot]
      have hext' : Extends l₁ (l₁.append current x (a.endSlot (n + 1))) :=
        extends_append hcur₁ hs' (by simp [Alternative.endSlot])
      have hroot : head? l₁.slots current = some a.headId := by rw [head?, hcur₁]; rfl
      have hlead := (leads_append (x := x) (s := a.endSlot (n + 1)) hcur₁ hs').mpr
        (Or.inr ⟨rfl, rfl⟩)
      have hgrown : Grown l₁ (.done a.headId a.number) (some (current, x))
          (l₁.append current x (a.endSlot (n + 1))) := grown_append hcur₁ hs'
      refine ⟨hl₁.grow hgrown (by simp) ?_ (by simp) (by simp) ?_
        Or.inl ?_ ?_, hext.trans hext'⟩
      · rintro b y ⟨⟩
        exact ⟨⟨_, rfl⟩, hroot, X, hrx⟩
      · rintro b ⟨⟩
        exact hl₁.head_nonterminal hroot
      · rintro a' k' body' (h | ⟨rfl, rfl, -⟩)
        · exact Or.inl h
        · exact Or.inr rfl
      · rintro a' k' ⟨⟩
        refine ⟨hl₁.not_done hnew, f, pre ++ [x], before ++ [X], Or.inr ⟨rfl, rfl, rfl⟩, hf,
          ((hext.trans hext').path hp).concat hlead, ?_⟩
        exact ((hext.trans hext').spelled hs).concat (hext'.role hrx)
    | cons Y rest =>
      obtain ⟨⟨x, l₁⟩, hx, h⟩ := bind_eq_ok_iff.mp h
      obtain ⟨hl₁, hext, hrx⟩ := resolve_ok hl hx
      obtain ⟨hl₂, hext', hlead, m', hdest⟩ :=
        advance_ok (n := n + 1) hl₁ (hext.role hcur) hrx rfl
      obtain ⟨hl', hext''⟩ := ih (before ++ [X]) (pre ++ [x]) (by simp) hl₂
        (((hext.trans hext').path hp).concat hlead)
        (((hext.trans hext').spelled hs).concat (hext'.role hrx)) hdest h
      rw [List.append_assoc] at hl'
      exact ⟨hl', (hext.trans hext').trans hext''⟩

/-! ### Alternatives -/

/-- Where alternatives start while those of `a` are laid out: `fs` is not listed yet. -/
def Rooting (listed : SlotId → SlotId → Prop) (a : SlotId) (fs : List SlotId) :
    SlotId → SlotId → Prop :=
  fun a' f => listed a' f ∨ (a' = a ∧ f ∈ fs)

omit [PatternEngine] in
lemma rooting_concat_iff {listed : SlotId → SlotId → Prop} {a a' f r : SlotId}
    {fs : List SlotId} :
    Rooting listed a (fs ++ [r]) a' f ↔ Rooting listed a fs a' f ∨ (a' = a ∧ f = r) := by
  simp only [Rooting, List.mem_append, List.mem_singleton]
  constructor
  · rintro (h | ⟨ha, hf | hf⟩)
    · exact Or.inl (Or.inl h)
    · exact Or.inl (Or.inr ⟨ha, hf⟩)
    · exact Or.inr ⟨ha, hf⟩
  · rintro ((h | ⟨ha, hf⟩) | ⟨ha, hf⟩)
    · exact Or.inl h
    · exact Or.inr ⟨ha, Or.inl hf⟩
    · exact Or.inr ⟨ha, Or.inr hf⟩

/-- The slots in which alternatives of `a` start are listed, a shared one first of all. -/
def Starts.Rooted (starts : Starts) (l : Layout) (a : SlotId) : Prop :=
  ∀ r, starts.root = some r → r ∈ starts.firstSlots ∧ ∃ m, role? l.slots r = some (.body a m)

/-- A slot pushed as the start of an alternative. -/
lemma push_root_ok {listed : SlotId → SlotId → Prop} {a : SlotId} {fs : List SlotId} {s : Slot}
    (laid' : SlotId → Nat → List Symbol → Prop) (hl : Laid laid (Rooting listed a fs) l)
    (hname : ∃ name, role? l.slots a = some (.nonterminal name)) (hhead : s.role.head? = some a)
    (hs : ∀ b, s = .body b → b.transitions = [])
    (hmono : ∀ {a k body}, laid a k body → laid' a k body)
    (hlaid : ∀ {a k body}, laid' a k body → laid a k body ∨ s.role = .done a k)
    (hdone : ∀ {a' k}, s.role = .done a' k → (∀ body, ¬ laid a' k body) ∧ laid' a' k []) :
    Laid laid' (Rooting listed a (fs ++ [l.slots.size])) (l.push s).2 ∧ Extends l (l.push s).2 := by
  have hrole (id : SlotId) : role? (l.push s).2.slots id =
      if id = l.slots.size then some s.role else role? l.slots id := Slots.role?_push
  have hleads {b x d : SlotId} : Leads (l.push s).2.slots b x d ↔ Leads l.slots b x d :=
    Slots.leads_push hs
  have hkind : (∀ name, s.role ≠ .nonterminal name) ∧ ∀ t, s.role ≠ .terminal t := by
    constructor <;>
    · intro _ h
      rw [h] at hhead
      cases hhead
  refine ⟨hl.grow (grown_push hs) ?_ (by simp) hkind.1 ?_ ?_ hmono hlaid
    ?_, ⟨rfl, ?_, hleads.mpr, Slots.starts_push ?_⟩⟩
  · intro a' f
    rw [rooting_concat_iff, hhead]
    simp [eq_comm]
  · exact fun t ht => absurd ht (hkind.2 t)
  · intro a' ha'
    obtain rfl : a = a' := by simpa [hhead] using ha'
    exact hname
  · intro a' k hk
    obtain ⟨hnew, hlaid'⟩ := hdone hk
    have ha : a' = a := by simpa [hk, Slot.Role.head?] using hhead
    exact ⟨hl.not_done hnew, l.slots.size, [], [], hlaid',
      rooting_concat_iff.mpr (Or.inr ⟨ha, rfl⟩), .nil _, rfl⟩
  · intro id r hr
    rwa [hrole, if_neg (Nat.ne_of_lt (Slots.lt_size_of_role? hr))]
  · rintro n rfl
    exact absurd rfl (hkind.1 n.name)

/-- Laying out an alternative adds just that one. -/
lemma addAlternative_ok {listed : SlotId → SlotId → Prop} {starts starts' : Starts}
    {a : Alternative} {body : List Symbol}
    (hl : Laid laid (Rooting listed a.headId starts.firstSlots) l)
    (hroot : starts.Rooted l a.headId)
    (hname : ∃ name, role? l.slots a.headId = some (.nonterminal name))
    (hnew : ∀ body, ¬ laid a.headId a.number body)
    (h : l.addAlternative starts a body = .ok (starts', l')) :
    Laid (Adding laid a.headId a.number body) (Rooting listed a.headId starts'.firstSlots) l' ∧
      Extends l l' ∧ starts'.Rooted l' a.headId := by
  cases body with
  | nil =>
    obtain ⟨rfl, rfl⟩ :
        { starts with firstSlots := starts.firstSlots ++ [l.slots.size] } = starts' ∧
          (l.push (a.endSlot 0)).2 = l' := by simpa [addAlternative, push] using h
    obtain ⟨hl', hext⟩ := push_root_ok (s := a.endSlot 0)
      (Adding laid a.headId a.number []) hl hname rfl (by simp [Alternative.endSlot])
      Or.inl (by
        rintro a' k body (h | ⟨rfl, rfl, rfl⟩)
        · exact Or.inl h
        · exact Or.inr rfl)
      (by
        rintro a' k ⟨⟩
        exact ⟨hnew, Or.inr ⟨rfl, rfl, rfl⟩⟩)
    refine ⟨hl', hext, ?_⟩
    intro r hr
    obtain ⟨hmem, m, hm⟩ := hroot r hr
    exact ⟨List.mem_append_left _ hmem, m, hext.role hm⟩
  | cons X body =>
    simp only [addAlternative] at h
    split at h
    next r hr =>
      obtain ⟨l₁, hl₁, h⟩ := bind_eq_ok_iff.mp h
      obtain ⟨rfl, rfl⟩ : starts = starts' ∧ l₁ = l' := by simpa [pure, Except.pure] using h
      obtain ⟨hmem, m, hm⟩ := hroot r hr
      obtain ⟨hlm, hext⟩ := markShared_ok hl a r 0
      obtain ⟨hl', hext'⟩ := addSymbols_ok hnew [] (X :: body) [] (by simp) hlm
        (Or.inr ⟨rfl, hmem⟩) (.nil r) rfl (hext.role hm) hl₁
      refine ⟨hl', hext.trans hext', ?_⟩
      intro r' hr'
      obtain ⟨hmem', m', hm'⟩ := hroot r' hr'
      exact ⟨hmem', m', (hext.trans hext').role hm'⟩
    next hr =>
      obtain ⟨l₁, hl₁, h⟩ := bind_eq_ok_iff.mp h
      obtain ⟨rfl, rfl⟩ : (⟨starts.firstSlots ++ [l.slots.size],
          if a.share then some l.slots.size else none⟩ : Starts) = starts' ∧ l₁ = l' := by
        simpa [push, pure, Except.pure] using h
      obtain ⟨hlr, hext⟩ := push_root_ok (s := a.bodySlot 0) laid hl hname rfl
        (by rintro b ⟨⟩; rfl) id Or.inl (by simp [Alternative.bodySlot, Slot.role])
      have hnewRole : role? (l.push (a.bodySlot 0)).2.slots l.slots.size =
          some (.body a.headId 0) := by
        rw [show (l.push (a.bodySlot 0)).2.slots = l.slots.push (a.bodySlot 0) from rfl,
          Slots.role?_push, if_pos rfl]
        rfl
      obtain ⟨hl', hext'⟩ := addSymbols_ok hnew [] (X :: body) [] (by simp) hlr
        (rooting_concat_iff.mpr (Or.inr ⟨rfl, rfl⟩)) (.nil _) rfl hnewRole hl₁
      refine ⟨hl', hext.trans hext', fun r' hr' => ?_⟩
      split at hr'
      · obtain rfl : l.slots.size = r' := by simpa using hr'
        exact ⟨by simp, 0, hext'.role hnewRole⟩
      · cases hr'

/-- The alternatives laid out once those of nonterminal `a` from the `n`-th on are. -/
def AddingAll (laid : SlotId → Nat → List Symbol → Prop) (a : SlotId) (n : Nat)
    (bodies : List (List Symbol)) : SlotId → Nat → List Symbol → Prop :=
  fun a' k body => laid a' k body ∨ (a' = a ∧ ∃ m, k = n + m ∧ bodies[m]? = some body)

lemma addingAll_cons {a a' : SlotId} {n k : Nat} {body body' : List Symbol}
    {bodies : List (List Symbol)} :
    AddingAll laid a n (body :: bodies) a' k body' ↔
      AddingAll (Adding laid a n body) a (n + 1) bodies a' k body' := by
  simp only [AddingAll, Adding]
  constructor
  · rintro (h | ⟨rfl, m, rfl, hm⟩)
    · exact Or.inl (Or.inl h)
    · cases m with
      | zero => exact Or.inl (Or.inr ⟨rfl, rfl, by simpa using hm.symm⟩)
      | succ m => exact Or.inr ⟨rfl, m, by omega, by simpa using hm⟩
  · rintro ((h | ⟨rfl, rfl, rfl⟩) | ⟨rfl, m, rfl, hm⟩)
    · exact Or.inl h
    · exact Or.inr ⟨rfl, 0, rfl, rfl⟩
    · exact Or.inr ⟨rfl, m + 1, by omega, by simpa using hm⟩

lemma addAlternatives_ok {listed : SlotId → SlotId → Prop} {share : Bool} {head : String}
    {a : SlotId} {starts starts' : Starts} {n : Nat} {bodies : List (List Symbol)}
    (hl : Laid laid (Rooting listed a starts.firstSlots) l) (hroot : starts.Rooted l a)
    (hname : ∃ name, role? l.slots a = some (.nonterminal name))
    (hnew : ∀ k, n ≤ k → ∀ body, ¬ laid a k body)
    (h : addAlternatives share head a l starts n bodies = .ok (starts', l')) :
    Laid (AddingAll laid a n bodies) (Rooting listed a starts'.firstSlots) l' ∧ Extends l l' := by
  induction bodies generalizing l laid starts n with
  | nil =>
    obtain ⟨rfl, rfl⟩ : starts = starts' ∧ l = l' := by simpa [addAlternatives] using h
    exact ⟨hl.congr rfl (fun _ => rfl) .rfl (fun _ _ => .rfl) (by simp [AddingAll]), .refl l⟩
  | cons body bodies ih =>
    obtain ⟨⟨starts₁, l₁⟩, h₁, h⟩ := bind_eq_ok_iff.mp h
    obtain ⟨hl₁, hext, hroot₁⟩ := addAlternative_ok hl hroot hname (hnew n (Nat.le_refl n)) h₁
    obtain ⟨name, hname⟩ := hname
    obtain ⟨hl', hext'⟩ := ih hl₁ hroot₁ ⟨name, hext.role hname⟩
      (by
        rintro k hk body' (hb | ⟨-, rfl, -⟩)
        · exact hnew k (by omega) body' hb
        · exact absurd hk (by simp)) h
    exact ⟨hl'.congr rfl (fun _ => rfl) .rfl (fun _ _ => .rfl) (fun _ _ _ => addingAll_cons),
      hext.trans hext'⟩

/-! ### Productions -/

/-- The alternatives that the productions `ps` give to the nonterminals of a registry. -/
def Given (registry : List (String × SlotId)) (ps : List Production) :
    SlotId → Nat → List Symbol → Prop :=
  fun a k body => ∃ p ∈ ps, registry.lookup p.head = some a ∧ p.bodies[k]? = some body

/-- The alternatives of the productions `ps`, and no other, are laid out and listed. -/
structure Holds (ps : List Production) (l : Layout) : Prop where
  laid : Laid (Given l.registry ps) (Slots.Starts l.slots) l
  starts {a f : SlotId} : Slots.Starts l.slots a f → ∃ p ∈ ps, l.registry.lookup p.head = some a

/-- A nonterminal whose production is still to come has nothing laid out. -/
lemma Holds.head_new {ps : List Production} (h : Holds ps l) {p q : Production} {a : SlotId}
    (hnew : p.head ∉ ps.map Production.head) (ha : l.registry.lookup p.head = some a)
    (hq : q ∈ ps) : l.registry.lookup q.head ≠ some a := by
  intro hqa
  have hp := h.laid.lookup_iff.mp ha
  rw [h.laid.lookup_iff.mp hqa] at hp
  exact hnew (List.mem_map.mpr ⟨q, hq, by simpa using hp⟩)

/-- How a production is laid out: its alternatives, starting from no slot, and then the list of the
slots in which they start. -/
structure Produced (share : Bool) (ps : List Production) (p : Production) (l : Layout) (a : SlotId)
    (starts : Starts) (l₁ l' : Layout) : Prop where
  lookup : l.registry.lookup p.head = some a
  added : addAlternatives share p.head a l ⟨[], none⟩ 0 p.bodies = .ok (starts, l₁)
  eq : l₁.setFirstSlots a starts.firstSlots = l'
  laid : Laid (AddingAll (Given l.registry ps) a 0 p.bodies)
    (Rooting (Slots.Starts l.slots) a starts.firstSlots) l₁
  kept : Extends l l₁

lemma addProduction_produced {share : Bool} {ps : List Production} {p : Production}
    (h : Holds ps l) (hnew : p.head ∉ ps.map Production.head)
    (hp : l.addProduction share p = .ok l') :
    ∃ a starts l₁, Produced share ps p l a starts l₁ l' := by
  obtain ⟨⟨a, l₀⟩, hres, hp⟩ := bind_eq_ok_iff.mp hp
  obtain ⟨⟨starts, l₁⟩, halts, hp⟩ := bind_eq_ok_iff.mp hp
  obtain rfl : l₁.setFirstSlots a starts.firstSlots = l' := by simpa [pure, Except.pure] using hp
  obtain ⟨ha, rfl⟩ : l.registry.lookup p.head = some a ∧ l = l₀ := by
    simp only [resolve] at hres
    split at hres
    next id hid =>
      obtain ⟨rfl, rfl⟩ : id = a ∧ l = l₀ := by simpa using hres
      exact ⟨hid, rfl⟩
    next => cases hres
  have hl : Laid (Given l.registry ps) (Rooting (Slots.Starts l.slots) a []) l :=
    h.laid.congr rfl (fun _ => rfl) .rfl (fun _ _ => by simp [Rooting]) (fun _ _ _ => .rfl)
  have hfresh (k : Nat) (body : List Symbol) : ¬ Given l.registry ps a k body := by
    rintro ⟨q, hq, hqa, -⟩
    exact h.head_new hnew ha hq hqa
  obtain ⟨hl₁, hext⟩ := addAlternatives_ok hl (by rintro r ⟨⟩) ⟨_, h.laid.lookup_iff.mp ha⟩
    (fun k _ => hfresh k) halts
  exact ⟨a, starts, l₁, ha, halts, rfl, hl₁, hext⟩

/-- Where the alternatives of a production start is listed in the end. -/
lemma Produced.starts_iff {share : Bool} {ps : List Production} {p : Production} {a b f : SlotId}
    {starts : Starts} {l₁ : Layout} (hp : Produced share ps p l a starts l₁ l') (h : Holds ps l)
    (hnew : p.head ∉ ps.map Production.head) :
    Slots.Starts l'.slots b f ↔ Rooting (Slots.Starts l.slots) a starts.firstSlots b f := by
  rw [← hp.eq, starts_setFirstSlots (hp.kept.role (h.laid.lookup_iff.mp hp.lookup)), Rooting]
  split
  next haa =>
    subst haa
    constructor
    · exact fun hf => Or.inr ⟨rfl, hf⟩
    · rintro (hf | ⟨-, hf⟩)
      · obtain ⟨q, hq, hqa⟩ := h.starts hf
        exact absurd hqa (h.head_new hnew hp.lookup hq)
      · exact hf
  next haa => simp [haa, hp.kept.starts]

lemma addProduction_ok {share : Bool} {ps : List Production} {p : Production} (h : Holds ps l)
    (hnew : p.head ∉ ps.map Production.head) (hp : l.addProduction share p = .ok l') :
    Holds (ps ++ [p]) l' ∧ l'.registry = l.registry ∧
      ∀ {id r}, role? l.slots id = some r → role? l'.slots id = some r := by
  obtain ⟨a, starts, l₁, hp⟩ := addProduction_produced h hnew hp
  have hstarts {b f : SlotId} := hp.starts_iff (b := b) (f := f) h hnew
  obtain ⟨ha, -, rfl, hl₁, hext⟩ := hp
  have hreg : l₁.registry = l.registry := hext.registry
  refine ⟨⟨?_, ?_⟩, hreg, fun hr => by rw [role?_setFirstSlots]; exact hext.role hr⟩
  · refine hl₁.congr rfl (fun _ => role?_setFirstSlots) leads_setFirstSlots (fun _ _ => hstarts) ?_
    intro a' k body
    change Given l₁.registry _ _ _ _ ↔ _
    simp only [Given, AddingAll, hreg, List.mem_append, List.mem_singleton]
    constructor
    · rintro ⟨q, hq | rfl, hqa, hk⟩
      · exact Or.inl ⟨q, hq, hqa, hk⟩
      · exact Or.inr ⟨by simpa [ha] using hqa.symm, k, by simp, hk⟩
    · rintro (⟨q, hq, hqa, hk⟩ | ⟨rfl, m, rfl, hk⟩)
      · exact ⟨q, Or.inl hq, hqa, hk⟩
      · exact ⟨p, Or.inr rfl, ha, by simpa using hk⟩
  · intro a' f hf
    change ∃ q ∈ ps ++ [p], l₁.registry.lookup q.head = some a'
    rw [hreg]
    rcases hstarts.mp hf with hf | ⟨rfl, -⟩
    · obtain ⟨q, hq, hqa⟩ := h.starts hf
      exact ⟨q, by simp [hq], hqa⟩
    · exact ⟨p, by simp, ha⟩

lemma addProductions_ok {share : Bool} {done rest : List Production} (h : Holds done l)
    (hnodup : ((done ++ rest).map Production.head).Nodup)
    (hp : rest.foldlM (addProduction share) l = .ok l') :
    Holds (done ++ rest) l' ∧ l'.registry = l.registry ∧
      ∀ {id r}, role? l.slots id = some r → role? l'.slots id = some r := by
  induction rest generalizing l done with
  | nil =>
    obtain rfl : l = l' := by simpa [pure, Except.pure] using hp
    exact ⟨by simpa using h, rfl, id⟩
  | cons p rest ih =>
    obtain ⟨l₁, h₁, hp⟩ := bind_eq_ok_iff.mp hp
    have hnew : p.head ∉ done.map Production.head := by
      rw [List.map_append, List.map_cons, List.nodup_append] at hnodup
      exact fun hmem => hnodup.2.2 _ hmem _ List.mem_cons_self rfl
    obtain ⟨h₁, hreg, hrole⟩ := addProduction_ok h hnew h₁
    obtain ⟨h', hreg', hrole'⟩ := ih h₁ (by simpa using hnodup) hp
    exact ⟨by simpa using h', hreg'.trans hreg, fun hr => hrole' (hrole hr)⟩

/-! ### Declarations -/

/-- Only nonterminals without alternatives are there, each registered under its name. -/
structure Declared (names : List String) (l : Layout) : Prop where
  slot {id : SlotId} {s : Slot} : l.slots[id]? = some s →
    ∃ name ∈ names, s = .nonterminal ⟨name, [], false, ∅⟩
  lookup_iff {name : String} {a : SlotId} :
    l.registry.lookup name = some a ↔ role? l.slots a = some (.nonterminal name)
  mem {name : String} {a : SlotId} : (name, a) ∈ l.registry →
    role? l.slots a = some (.nonterminal name)
  lookup {name : String} : name ∈ names → ∃ a, l.registry.lookup name = some a

lemma declared_empty : Declared [] ⟨#[], []⟩ :=
  ⟨by simp, by simp [role?], by simp, by simp⟩

lemma Declared.concat {names : List String} {name : String} (h : Declared names l)
    (hnew : name ∉ names) : Declared (names ++ [name]) (l.declare name) := by
  have hslots : (l.declare name).slots = l.slots.push (.nonterminal ⟨name, [], false, ∅⟩) := rfl
  have hreg : (l.declare name).registry = l.registry ++ [(name, l.slots.size)] := rfl
  have hrole (id : SlotId) : role? (l.declare name).slots id =
      if id = l.slots.size then some (.nonterminal name) else role? l.slots id :=
    Slots.role?_push
  have hfree (a : SlotId) : role? l.slots a ≠ some (.nonterminal name) := by
    intro ha
    obtain ⟨s, hs, rfl⟩ := Slots.role?_nonterminal.mp ha
    obtain ⟨name, hmem, ⟨⟩⟩ := h.slot hs
    exact hnew hmem
  have hnone : l.registry.lookup name = none := by
    cases hl : l.registry.lookup name with
    | none => rfl
    | some a => exact absurd (h.lookup_iff.mp hl) (hfree a)
  have hend (r : Slot.Role) : role? l.slots l.slots.size ≠ some r := by simp [role?]
  refine ⟨?_, ?_, ?_, ?_⟩
  · intro id s hs
    rw [hslots, Array.getElem?_push] at hs
    split at hs
    · exact ⟨name, by simp, by simpa using hs.symm⟩
    · obtain ⟨name', hmem, rfl⟩ := h.slot hs
      exact ⟨name', by simp [hmem], rfl⟩
  · intro name' a
    rw [hreg, List.lookup_append, Option.or_eq_some_iff, hrole]
    split
    next ha =>
      subst ha
      constructor
      · rintro (hl | ⟨-, hl⟩)
        · exact absurd (h.lookup_iff.mp hl) (hend _)
        · rw [List.lookup_cons] at hl
          split at hl
          next heq => simpa using (beq_iff_eq.mp heq).symm
          next => cases hl
      · intro heq
        obtain rfl : name = name' := by simpa using heq
        exact Or.inr ⟨hnone, by simp⟩
    next ha =>
      rw [← h.lookup_iff]
      constructor
      · rintro (hl | ⟨-, hl⟩)
        · exact hl
        · rw [List.lookup_cons] at hl
          split at hl
          · exact absurd (by simpa using hl.symm) ha
          · cases hl
      · exact Or.inl
  · intro name' a hmem
    rw [hreg, List.mem_append, List.mem_singleton] at hmem
    rw [hrole]
    rcases hmem with hmem | heq
    · have hr := h.mem hmem
      rw [if_neg (Nat.ne_of_lt (Slots.lt_size_of_role? hr)), hr]
    · obtain ⟨rfl, rfl⟩ : name' = name ∧ a = l.slots.size := by simpa using heq
      rw [if_pos rfl]
  · intro name' hmem
    rw [hreg, List.lookup_append]
    rcases List.mem_append.mp hmem with hmem | hmem
    · obtain ⟨a, ha⟩ := h.lookup hmem
      exact ⟨a, by simp [ha]⟩
    · obtain rfl : name' = name := by simpa using hmem
      exact ⟨l.slots.size, by simp [hnone]⟩

lemma Declared.foldl {done : List String} (h : Declared done l) (rest : List String)
    (hnodup : (done ++ rest).Nodup) : Declared (done ++ rest) (rest.foldl declare l) := by
  induction rest generalizing l done with
  | nil => simpa using h
  | cons name rest ih =>
    have hnew : name ∉ done := fun hmem =>
      (List.nodup_append.mp hnodup).2.2 _ hmem _ List.mem_cons_self rfl
    simpa using ih (h.concat hnew) (by simpa using hnodup)

section declared

variable {names : List String} (h : Declared names l)
include h

lemma Declared.role {id : SlotId} {r : Slot.Role} (hr : role? l.slots id = some r) :
    ∃ name ∈ names, r = .nonterminal name := by
  obtain ⟨s, hs, rfl⟩ := Slots.role?_eq_some.mp hr
  obtain ⟨name, hmem, rfl⟩ := h.slot hs
  exact ⟨name, hmem, rfl⟩

lemma Declared.not_head (id a : SlotId) : head? l.slots id ≠ some a := by
  intro ha
  obtain ⟨r, hr, ha⟩ := Option.bind_eq_some_iff.mp ha
  obtain ⟨name, -, rfl⟩ := h.role hr
  cases ha

lemma Declared.not_leads (b x d : SlotId) : ¬ Leads l.slots b x d := by
  rintro ⟨s, hs, -⟩
  exact h.not_head b _ (Slots.head?_body hs)

lemma Declared.not_starts (a f : SlotId) : ¬ Slots.Starts l.slots a f := by
  rintro ⟨s, hs, hf⟩
  obtain ⟨name, -, ⟨⟩⟩ := h.slot hs
  cases hf

/-- What is only declared holds no alternatives. -/
lemma Declared.holds : Holds [] l := by
  have hdone (e a : SlotId) (k : Nat) : role? l.slots e ≠ some (.done a k) := by
    intro he
    obtain ⟨name, -, hr⟩ := h.role he
    cases hr
  refine ⟨⟨?_, ?_, ?_, ?_, ?_, ?_, h.lookup_iff, ?_, ?_, ?_, ?_⟩, ?_⟩
  · exact fun hl => absurd hl (h.not_leads _ _ _)
  · exact fun hl => absurd hl (h.not_leads _ _ _)
  · exact fun hf => absurd hf (h.not_starts _ _)
  · exact fun ha => absurd ha (h.not_head _ _)
  · exact fun hl => absurd hl (h.not_leads _ _ _)
  · exact fun hf => absurd hf (h.not_starts _ _)
  · intro t x y hx
    obtain ⟨name, -, hr⟩ := h.role hx
    cases hr
  · exact fun he => absurd he (hdone _ _ _)
  · exact fun he => absurd he (hdone _ _ _)
  · rintro a k body ⟨p, hp, -⟩
    cases hp
  · exact fun hf => absurd hf (h.not_starts _ _)

end declared

end Layout

/-! ### Whole grammars -/

namespace Rules

open Layout

lemma declared_heads {r : Rules} (hnodup : r.heads.Nodup) :
    Declared r.heads (r.heads.foldl Layout.declare ⟨#[], []⟩) := by
  simpa using declared_empty.foldl r.heads (by simpa using hnodup)

/-- The slots of a grammar hold its productions. -/
lemma layout_ok {r : Rules} {l : Layout} (hnodup : r.heads.Nodup) (h : r.layout = .ok l) :
    Holds r.productions l ∧ (∀ p ∈ r.productions, ∃ a, l.registry.lookup p.head = some a) ∧
      ∀ {name a}, (name, a) ∈ l.registry → role? l.slots a = some (.nonterminal name) := by
  have hd := declared_heads hnodup
  obtain ⟨hl, hreg, hrole⟩ := addProductions_ok hd.holds hnodup h
  refine ⟨hl, ?_, ?_⟩
  · intro p hp
    rw [hreg]
    exact hd.lookup (List.mem_map.mpr ⟨p, hp, rfl⟩)
  · intro name a hmem
    rw [hreg] at hmem
    exact hrole (hd.mem hmem)

end Rules

end GeneralParser
