import Mathlib.Data.Set.Function
import GeneralParser.Proofs.Grammar.Branching

/-!
# What a graph spells

The routes through a graph that is built from rules are the alternatives of these rules, one for
each. Along the way the positions are numbered, and what they have behind them is what the symbols
of the route say: if prefixes are shared, there is one position for each prefix.
-/

namespace GeneralParser

section

variable [PatternEngine]

open Slots (role? head? Leads Path Route Spelled IsPosition)

/-! ### Symbols -/

lemma Symbol.role_injective : Function.Injective Symbol.role := by
  intro X Y h
  cases X <;> cases Y <;> simp_all [Symbol.role]

namespace Slots

variable {slots : Array Slot}

lemma Spelled.length_eq {xs : List SlotId} {p : List Symbol} (h : Spelled slots xs p) :
    xs.length = p.length := by
  simpa using congrArg List.length h

lemma Spelled.unique {xs : List SlotId} {p q : List Symbol} (hp : Spelled slots xs p)
    (hq : Spelled slots xs q) : p = q := by
  have hinj : Function.Injective fun X : Symbol => some X.role :=
    (Option.some_injective _).comp Symbol.role_injective
  exact List.map_injective_iff.mpr hinj (hp.symm.trans hq)

lemma spelled_append_left {xs ys : List SlotId} {body : List Symbol} :
    Spelled slots (xs ++ ys) body ↔
      ∃ p q, body = p ++ q ∧ Spelled slots xs p ∧ Spelled slots ys q := by
  rw [Spelled, List.map_append, eq_comm, List.map_eq_append_iff]
  simp only [Spelled, eq_comm]

lemma spelled_append_right {xs : List SlotId} {p q : List Symbol} :
    Spelled slots xs (p ++ q) ↔
      ∃ ys zs, xs = ys ++ zs ∧ Spelled slots ys p ∧ Spelled slots zs q := by
  rw [Spelled, List.map_append, List.map_eq_append_iff]
  rfl

/-! ### Ways -/

/-- From slot `f`, where an alternative of nonterminal `a` starts, transitions lead to the end of
the `k`-th. -/
structure Way (slots : Array Slot) (a : SlotId) (k : Nat) (f : SlotId) (ts : List Transition)
    (e : SlotId) : Prop where
  starts : Starts slots a f
  route : Route slots f ts e
  done : role? slots e = some (.done a k)

/-- What is passed on a route are positions of one nonterminal, numbered along the way. -/
lemma Numbered.role_of_route (hn : Numbered slots) (hw : Wired slots) {a f e b : SlotId}
    {ts : List Transition} {n : Nat} (hf : Starts slots a f) (hr : Route slots f ts e)
    (hb : (f :: ts.map Transition.dest)[n]? = some b) (hlt : n < ts.length) :
    role? slots b = some (.body a n) := by
  obtain ⟨hto, hfrom⟩ := hr.split hb
  -- a transition leads on, so there is a position
  rw [← List.getElem_cons_drop hlt] at hfrom
  have hpos : IsPosition slots b := by
    cases hfrom with
    | cons hl _ => exact isPosition_of_leads hl
  obtain ⟨m, hrole⟩ := hpos.role ((hw.path_head hto.path).trans (hw.starts_head hf))
  obtain rfl : m = n := by simpa [hlt.le] using hn.eq_length hf hto.path hrole
  exact hrole

/-- The ways of nonterminal `a` are those of the alternatives `bodies`. -/
structure SpellsOut (slots : Array Slot) (a : SlotId) (bodies : List (List Symbol)) : Prop where
  /-- Every alternative has a way, on which its symbols are. -/
  way {k : Nat} {body : List Symbol} : bodies[k]? = some body →
    ∃ f ts e, Way slots a k f ts e ∧ Spelled slots (ts.map Transition.symbol) body
  /-- It has no other way. -/
  unique {k : Nat} {f f' e e' : SlotId} {ts ts' : List Transition} : Way slots a k f ts e →
    Way slots a k f' ts' e' → f = f' ∧ ts = ts' ∧ e = e'
  /-- There are no ways to other ends. -/
  done {k : Nat} {f e h : SlotId} {ts : List Transition} : Starts slots a f →
    Route slots f ts e → role? slots e = some (.done h k) → h = a ∧ ∃ body, bodies[k]? = some body
  /-- The slots before the end are the positions of the alternative. -/
  position {k n : Nat} {f e b : SlotId} {ts : List Transition} : Way slots a k f ts e →
    (f :: ts.map Transition.dest)[n]? = some b → n < ts.length →
    role? slots b = some (.body a n)

/-! ### What is behind a position -/

/-- A position is reached from where an alternative starts, if all positions are referred to. -/
lemma Numbered.exists_path (hn : Numbered slots) (hw : Wired slots)
    (ht : ∀ {id a}, head? slots id = some a → id ∈ targets slots) {a b : SlotId} {n : Nat}
    (hb : role? slots b = some (.body a n)) :
    ∃ f xs, Starts slots a f ∧ Path slots f xs b := by
  induction n using Nat.strong_induction_on generalizing b with
  | _ n ih =>
    have hhead := head?_of_role_body hb
    rcases mem_targets.mp (ht hhead) with ⟨c, x, hl⟩ | ⟨a', hf⟩
    · obtain ⟨m, hc⟩ := (isPosition_of_leads hl).role ((hw.leads_head hl).symm.trans hhead)
      have hnext := hn.step hl hc hb
      obtain ⟨f, xs, hf, hp⟩ := ih m (by omega) hc
      exact ⟨f, xs ++ [x], hf, hp.concat hl⟩
    · obtain rfl : a' = a := Option.some.inj ((hw.starts_head hf).symm.trans hhead)
      exact ⟨b, [], hf, .nil b⟩

/-- The symbols `p` lead from where an alternative of nonterminal `a` starts to slot `b`. -/
def Reads (slots : Array Slot) (a : SlotId) (p : List Symbol) (b : SlotId) : Prop :=
  ∃ f xs, Starts slots a f ∧ Path slots f xs b ∧ Spelled slots xs p

lemma Wired.reads_unique (hw : Wired slots) {a b : SlotId} {p q : List Symbol}
    (hp : Reads slots a p b) (hq : Reads slots a q b) : p = q := by
  obtain ⟨f, xs, hf, hpath, hs⟩ := hp
  obtain ⟨f', xs', hf', hpath', hs'⟩ := hq
  obtain ⟨rfl, rfl⟩ := hw.path_unique hf hf' hpath hpath'
  exact hs.unique hs'

/-- The last of the symbols leads on from a position that the others lead to. -/
lemma Reads.last {a c : SlotId} {p : List Symbol} {X : Symbol} (h : Reads slots a (p ++ [X]) c) :
    ∃ m x, Reads slots a p m ∧ Leads slots m x c ∧ role? slots x = some X.role := by
  obtain ⟨f, xs, hf, hp, hs⟩ := h
  obtain ⟨ys, zs, rfl, hys, hzs⟩ := spelled_append_right.mp hs
  obtain ⟨x, rfl⟩ := List.length_eq_one_iff.mp hzs.length_eq
  obtain ⟨m, hp, hl⟩ := path_concat_iff.mp hp
  exact ⟨m, x, ⟨f, ys, hf, hp, hys⟩, hl, by simpa [Spelled] using hzs⟩

/-- If prefixes are shared, no two positions of a nonterminal have the same symbols behind them. -/
lemma Merged.reads_inj (hm : Merged slots)
    (hsymbol : ∀ {X : Symbol} {x y : SlotId}, role? slots x = some X.role →
      role? slots y = some X.role → x = y)
    {a b b' : SlotId} {p : List Symbol} (hb : Reads slots a p b) (hb' : Reads slots a p b')
    (hpos : IsPosition slots b) (hpos' : IsPosition slots b') : b = b' := by
  induction p using List.reverseRecOn generalizing b b' with
  | nil =>
    obtain ⟨f, xs, hf, hp, hs⟩ := hb
    obtain ⟨f', xs', hf', hp', hs'⟩ := hb'
    obtain rfl := List.length_eq_zero_iff.mp hs.length_eq
    obtain rfl := List.length_eq_zero_iff.mp hs'.length_eq
    obtain rfl := path_nil_iff.mp hp
    obtain rfl := path_nil_iff.mp hp'
    exact hm.listed hf hf' hpos hpos'
  | append_singleton p X ih =>
    obtain ⟨m, x, hbefore, hl, hx⟩ := hb.last
    obtain ⟨m', x', hbefore', hl', hx'⟩ := hb'.last
    obtain rfl := hsymbol hx hx'
    obtain rfl := ih hbefore hbefore' (isPosition_of_leads hl) (isPosition_of_leads hl')
    exact hm.fork hl hl' hpos hpos'

/-- What the alternatives `bodies` begin with, short of all their symbols. -/
def prefixes (bodies : List (List Symbol)) : Set (List Symbol) :=
  {p | ∃ body ∈ bodies, p <+: body ∧ p ≠ body}

/-- The positions of nonterminal `a` correspond to what the alternatives `bodies` begin with: each
to what it has behind it. -/
def PerPrefix (slots : Array Slot) (a : SlotId) (bodies : List (List Symbol)) : Prop :=
  ∃ behind : SlotId → List Symbol,
    Set.BijOn behind {b | ∃ n, role? slots b = some (.body a n)} (prefixes bodies) ∧
      ∀ b n, role? slots b = some (.body a n) → Reads slots a (behind b) b

end Slots

/-! ### Graphs of rules -/

namespace Graph

namespace Spells

variable {g : Graph} {rules : List (String × List Symbol)} (h : g.Spells rules) {A : String}
  {a : SlotId} (ha : role? g.slots a = some (.nonterminal A))
include h

/-- A symbol has one slot. -/
lemma symbol_unique {X : Symbol} {x y : SlotId} (hx : role? g.slots x = some X.role)
    (hy : role? g.slots y = some X.role) : x = y := by
  cases X with
  | terminal t => exact h.terminal_unique hx hy
  | nonterminal A => exact h.nonterminal_unique hx hy

/-- Every symbol of an alternative has a slot. -/
lemma exists_symbol {body : List Symbol} {X : Symbol} (hbody : (A, body) ∈ rules)
    (hX : X ∈ body) : ∃ x, role? g.slots x = some X.role := by
  obtain ⟨k, hk⟩ := List.mem_iff_getElem?.mp (Rules.mem_alternatives.mpr hbody)
  obtain ⟨a, -, ha, -⟩ := h.reached hk
  obtain ⟨e, f, xs, -, -, -, hs⟩ := h.exists_path ha hk
  have hmem : some X.role ∈ xs.map (role? g.slots) := by
    rw [hs]
    exact List.mem_map_of_mem hX
  obtain ⟨x, -, hx⟩ := List.mem_map.mp hmem
  exact ⟨x, hx⟩

include ha

lemma spellsOut (hn : Slots.Numbered g.slots) :
    Slots.SpellsOut g.slots a (Rules.alternatives rules A) := by
  constructor
  · intro k body hk
    obtain ⟨e, f, xs, he, hf, hp, hs⟩ := h.exists_path ha hk
    obtain ⟨ts, hr, rfl⟩ := hp.exists_route
    exact ⟨f, ts, e, ⟨hf, hr, he⟩, hs⟩
  · intro k f f' e e' ts ts' hway hway'
    obtain rfl := h.ended_unique hway.done hway'.done
    obtain ⟨rfl, rfl⟩ := h.wired.route_unique hway.starts hway'.starts hway.route hway'.route
    exact ⟨rfl, rfl, rfl⟩
  · intro k f e b ts hf hr he
    have hhead := (h.wired.path_head hr.path).trans (h.wired.starts_head hf)
    obtain rfl : b = a := Option.some.inj ((Slots.head?_of_role_done he).symm.trans hhead)
    obtain ⟨body, hk, -⟩ := h.path_iff ha he hf hr.path
    exact ⟨rfl, body, hk⟩
  · intro k n f e b ts hway hb hlt
    exact hn.role_of_route h.wired hway.starts hway.route hb hlt

/-- What is behind a position is what an alternative begins with, if the position leads to an end.
-/
lemma mem_prefixes {b e f : SlotId} {k n : Nat} {xs ys : List SlotId}
    (hb : role? g.slots b = some (.body a n)) (hf : Slots.Starts g.slots a f)
    (hp : Path g.slots f xs b) (hq : Path g.slots b ys e)
    (he : role? g.slots e = some (.done a k)) :
    ∃ p ∈ Slots.prefixes (Rules.alternatives rules A), Spelled g.slots xs p := by
  obtain ⟨body, hk, hs⟩ := h.path_iff ha he hf (hp.append hq)
  obtain ⟨p, q, rfl, hxs, hys⟩ := Slots.spelled_append_left.mp hs
  refine ⟨p, ⟨p ++ q, List.mem_of_getElem? hk, List.prefix_append p q, ?_⟩, hxs⟩
  intro hpq
  obtain rfl : q = [] := by simpa using hpq
  obtain rfl := List.length_eq_zero_iff.mp hys.length_eq
  obtain rfl := Slots.path_nil_iff.mp hq
  cases hb.symm.trans he

/-- What an alternative begins with leads to a position. -/
lemma exists_position {p : List Symbol}
    (hp : p ∈ Slots.prefixes (Rules.alternatives rules A)) :
    ∃ b n, role? g.slots b = some (.body a n) ∧ Slots.Reads g.slots a p b := by
  obtain ⟨body, hbody, ⟨q, rfl⟩, hne⟩ := hp
  obtain ⟨k, hk⟩ := List.mem_iff_getElem?.mp hbody
  obtain ⟨e, f, xs, he, hf, hpath, hs⟩ := h.exists_path ha hk
  obtain ⟨ys, zs, rfl, hys, hzs⟩ := Slots.spelled_append_right.mp hs
  obtain ⟨b, hto, hfrom⟩ := Slots.path_append_iff.mp hpath
  have hpos : IsPosition g.slots b := by
    cases hfrom with
    | nil =>
      obtain rfl := List.length_eq_zero_iff.mp hzs.length_eq.symm
      simp at hne
    | cons hl _ => exact Slots.isPosition_of_leads hl
  obtain ⟨n, hr⟩ := hpos.role ((h.wired.path_head hto).trans (h.wired.starts_head hf))
  exact ⟨b, n, hr, f, ys, hf, hto, hys⟩

lemma perPrefix (hm : Slots.Merged g.slots)
    (hreads : ∀ b n, role? g.slots b = some (.body a n) →
      ∃ p ∈ Slots.prefixes (Rules.alternatives rules A), Slots.Reads g.slots a p b) :
    Slots.PerPrefix g.slots a (Rules.alternatives rules A) := by
  have hchoice (b : SlotId) : ∃ p, ∀ n, role? g.slots b = some (.body a n) →
      p ∈ Slots.prefixes (Rules.alternatives rules A) ∧ Slots.Reads g.slots a p b := by
    by_cases hb : ∃ n, role? g.slots b = some (.body a n)
    · obtain ⟨n, hb⟩ := hb
      obtain ⟨p, hp⟩ := hreads b n hb
      exact ⟨p, fun _ _ => hp⟩
    · exact ⟨[], fun n hn => absurd ⟨n, hn⟩ hb⟩
  choose behind hbehind using hchoice
  refine ⟨behind, ⟨?_, ?_, ?_⟩, fun b n hb => (hbehind b n hb).2⟩
  · rintro b ⟨n, hb⟩
    exact (hbehind b n hb).1
  · rintro b ⟨n, hb⟩ b' ⟨n', hb'⟩ heq
    have hread := (hbehind b n hb).2
    rw [heq] at hread
    exact hm.reads_inj h.symbol_unique hread (hbehind b' n' hb').2 ⟨a, n, hb⟩ ⟨a, n', hb'⟩
  · intro p hp
    obtain ⟨b, n, hb, hread⟩ := h.exists_position ha hp
    exact ⟨b, ⟨n, hb⟩, h.wired.reads_unique (hbehind b n hb).2 hread⟩

end Spells

/-- The graph consists of what the rules say, and of nothing else. -/
structure SpellsExactly (g : Graph) (share : Bool) (rules : List (String × List Symbol)) :
    Prop where
  valid : g.validate = .ok ()
  /-- A nonterminal with rules has one slot, by its name. From there its alternatives are
  spelled. -/
  nonterminal {A : String} : Rules.alternatives rules A ≠ [] →
    ∃ a, g.nonterminal? A = some a ∧ (∀ b, role? g.slots b = some (.nonterminal A) ↔ b = a) ∧
      Slots.SpellsOut g.slots a (Rules.alternatives rules A)
  nonterminal_only {A : String} {a : SlotId} : role? g.slots a = some (.nonterminal A) →
    Rules.alternatives rules A ≠ []
  /-- A terminal in the rules has one slot. -/
  terminal {A : String} {body : List Symbol} {t : Terminal} : (A, body) ∈ rules →
    .terminal t ∈ body → ∃! x, role? g.slots x = some (.terminal t)
  terminal_only {t : Terminal} {x : SlotId} : role? g.slots x = some (.terminal t) →
    ∃ A body, (A, body) ∈ rules ∧ .terminal t ∈ body
  /-- There is one reference to each position and to each end. -/
  references {id a : SlotId} : head? g.slots id = some a → Slots.references g.slots id = 1
  onward {b : SlotId} {s : BodySlot} : g.slots[b]? = some (.body s) → s.transitions ≠ []
  /-- If prefixes are not shared, no position is left in two ways. -/
  single {b : SlotId} {s : BodySlot} : share = false → g.slots[b]? = some (.body s) →
    s.transitions.length = 1
  /-- If they are shared, there is one position for each. -/
  shared {A : String} {a : SlotId} : share = true → role? g.slots a = some (.nonterminal A) →
    Slots.PerPrefix g.slots a (Rules.alternatives rules A)

section

variable {share : Bool} {rules : List (String × List Symbol)} {g : Graph}
  (h : (Rules.ofList share rules).build = .ok g)
include h

lemma references_eq_one {id a : SlotId} (ha : head? g.slots id = some a) :
    Slots.references g.slots id = 1 := by
  rw [references_of_build h, ha, Option.isSome_some, if_pos rfl]

/-- What is behind a position of a graph that is built from rules is what an alternative begins
with. -/
lemma exists_reads {A : String} {a b : SlotId} {n : Nat}
    (ha : role? g.slots a = some (.nonterminal A)) (hb : role? g.slots b = some (.body a n)) :
    ∃ p ∈ Slots.prefixes (Rules.alternatives rules A), Slots.Reads g.slots a p b := by
  have hspells := spells_of_build h
  have hreferred {id a : SlotId} (hid : head? g.slots id = some a) :
      id ∈ Slots.targets g.slots := by
    apply List.count_pos_iff.mp
    rw [← Slots.references, references_eq_one h hid]
    exact Nat.one_pos
  obtain ⟨f, xs, hf, hp⟩ := (numbered_of_build h).exists_path hspells.wired hreferred hb
  obtain ⟨ys, e, k, hq, he⟩ := exists_path_end h (Slots.head?_of_role_body hb)
  obtain ⟨p, hmem, hs⟩ := hspells.mem_prefixes ha hb hf hp hq he
  exact ⟨p, hmem, f, xs, hf, hp, hs⟩

end

/-- The graph that is built from rules spells them exactly. -/
theorem spellsExactly_of_build {share : Bool} {rules : List (String × List Symbol)} {g : Graph}
    (h : (Rules.ofList share rules).build = .ok g) : g.SpellsExactly share rules := by
  have hspells := spells_of_build h
  refine ⟨validate_eq_ok_iff.mpr hspells.valid, ?_, alternatives_ne_nil_of_nonterminal h, ?_,
    mem_rules_of_terminal h, references_eq_one h, ?_, ?_, ?_⟩
  · intro A hne
    obtain ⟨body, hbody⟩ := List.exists_mem_of_ne_nil _ hne
    obtain ⟨k, hk⟩ := List.mem_iff_getElem?.mp hbody
    obtain ⟨a, -, ha, -⟩ := hspells.reached hk
    refine ⟨a, hspells.lookup_iff.mpr ha, ?_, hspells.spellsOut ha (numbered_of_build h)⟩
    intro b
    refine ⟨fun hb => hspells.nonterminal_unique hb ha, ?_⟩
    rintro rfl
    exact ha
  · intro A body t hbody ht
    obtain ⟨x, hx⟩ := hspells.exists_symbol hbody ht
    exact ⟨x, hx, fun y hy => hspells.terminal_unique hy hx⟩
  · intro b s hb
    obtain ⟨x, d, hl⟩ := onward_of_build h hb
    exact List.ne_nil_of_mem ((Slots.leads_iff_of_body hb).mp hl)
  · rintro b s rfl hb
    exact transitions_of_build h hb
  · rintro A a rfl ha
    exact hspells.perPrefix ha (merged_of_build h) fun b n => exists_reads h ha

end Graph

end

theorem Graph.spellsExactly_letters :
    (Rules.ofList true Rules.letters).build = .ok letters ∧
      letters.SpellsExactly true Rules.letters :=
  ⟨build_letters, spellsExactly_of_build build_letters⟩

end GeneralParser
