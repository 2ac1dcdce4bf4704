import GeneralParser.Engine.Run
import GeneralParser.Proofs.Grammar.Lookahead

/-!
# What a parse finds out

Whatever a parse stores is a fact: that a call is made, that parsing can go on somewhere, that a
node belongs to the forest. The rules below derive facts from facts. They name calls by their sites
and nodes by what they are, and leave open in which order they are applied, so they are the same for
all drain orders, with and without chaining, and whatever the limit.
-/

namespace GeneralParser

variable [PatternEngine]

open Slots (role? head? Leads)

/-- What is to be parsed, without the choices that only concern the order of the steps. -/
structure Setting where
  graph : Graph
  text : Text
  start : SlotId
  lookahead : Bool

def Problem.setting (p : Problem) : Setting := ⟨p.graph, p.text, p.start, p.config.lookahead⟩

inductive Fact where
  | call (site : CallSite)
  /-- Parsing goes on at a slot in a call, at an offset, with what has been parsed of the rule. -/
  | item (slot : SlotId) (site : CallSite) (index : Nat) (soFar : Option Node)
  /-- The call `callee` returns to a slot in `caller`, which had parsed `soFar` of its rule. -/
  | edge (callee : CallSite) (returnSlot : SlotId) (caller : CallSite) (soFar : Option Node)
  | completion (callee : CallSite) (index : Nat) (node : Node)
  /-- A slot in a call is arrived at, after a node from `pivot` to `index` with `soFar` before it.
  -/
  | arrival (dest : SlotId) (site : CallSite) (pivot index : Nat) (soFar : Option Node)
      (node : Node)
  | node (n : Node)
  /-- A node has a packed node, with one or two parts. -/
  | packed (parent : Node) (slot : SlotId) (pivot : Nat) (left : Option Node) (right : Node)
  | obstacle (o : Obstacle)
  deriving DecidableEq

namespace Setting

variable {S : Setting}

def rootSite (S : Setting) : CallSite := ⟨S.start, 0⟩

/-- Lookahead does not rule out that parsing goes on at slot `f`. -/
def Admits (S : Setting) (f : SlotId) (i : Nat) : Prop :=
  S.lookahead = true → S.graph.admits S.text f i = .ok true

/-- The node that is made on arriving at `dest`, with `soFar` before the last part of the rule.
After the first symbol none is made. -/
def joined? (S : Setting) (dest : SlotId) (site : CallSite) (index : Nat) (soFar : Option Node) :
    Option Node :=
  match S.graph.slots[dest]?, soFar with
  | some (.done e), _ => some (.nonterminal e.head site.index index)
  | some (.body _), some _ => some (.intermediate dest site.index index)
  | _, _ => none

/-- The facts that a parse finds out. -/
inductive Derivable (S : Setting) : Fact → Prop
  | root : Derivable S (.call S.rootSite)
  | seed : Derivable S (.item S.start S.rootSite 0 none)
  | enter {site : CallSite} {f : SlotId} : Derivable S (.call site) →
    Slots.Starts S.graph.slots site.slot f → S.Admits f site.index →
    Derivable S (.item f site site.index none)
  | refuse {site : CallSite} {f : SlotId} {b : BodySlot} : Derivable S (.call site) →
    Slots.Starts S.graph.slots site.slot f → S.lookahead = true →
    S.graph.admits S.text f site.index = .ok false → S.graph.slots[f]? = some (.body b) →
    Derivable S (.obstacle ⟨(S.graph.expectedTerminal? b).getD f, site.index, site⟩)
  | scan {b x d : SlotId} {site : CallSite} {i j : Nat} {o : Option Node} :
    Derivable S (.item b site i o) → Leads S.graph.slots b x d →
    (S.graph.spans S.text).scan x i j → Derivable S (.arrival d site i j o (.terminal x i j))
  | mismatch {b x d : SlotId} {site : CallSite} {i : Nat} {o : Option Node} {τ : Terminal} :
    Derivable S (.item b site i o) → Leads S.graph.slots b x d →
    role? S.graph.slots x = some (.terminal τ) → τ.matchAt S.text i = .ok none →
    Derivable S (.obstacle ⟨x, i, site⟩)
  | call {b x d : SlotId} {site : CallSite} {i : Nat} {o : Option Node} {name : String} :
    Derivable S (.item b site i o) → Leads S.graph.slots b x d →
    role? S.graph.slots x = some (.nonterminal name) → Derivable S (.call ⟨x, i⟩)
  | edge {b x d : SlotId} {site : CallSite} {i : Nat} {o : Option Node} {name : String} :
    Derivable S (.item b site i o) → Leads S.graph.slots b x d →
    role? S.graph.slots x = some (.nonterminal name) → Derivable S (.edge ⟨x, i⟩ d site o)
  | resume {callee site : CallSite} {d : SlotId} {j : Nat} {o : Option Node} {n : Node} :
    Derivable S (.edge callee d site o) → Derivable S (.completion callee j n) →
    Derivable S (.arrival d site callee.index j o n)
  | arrive {d : SlotId} {site : CallSite} {k j : Nat} {o : Option Node} {n : Node} :
    Derivable S (.arrival d site k j o n) →
    Derivable S (.item d site j (some ((S.joined? d site j o).getD n)))
  | part {d : SlotId} {site : CallSite} {k j : Nat} {o : Option Node} {n : Node} :
    Derivable S (.arrival d site k j o n) → Derivable S (.node n)
  | joined {d : SlotId} {site : CallSite} {k j : Nat} {o : Option Node} {n m : Node} :
    Derivable S (.arrival d site k j o n) → S.joined? d site j o = some m →
    Derivable S (.node m)
  | packed {d : SlotId} {site : CallSite} {k j : Nat} {o : Option Node} {n m : Node} :
    Derivable S (.arrival d site k j o n) → S.joined? d site j o = some m →
    Derivable S (.packed m d k o n)
  | empty {e a : SlotId} {k i : Nat} {site : CallSite} : Derivable S (.item e site i none) →
    role? S.graph.slots e = some (.done a k) → Derivable S (.node (.nonterminal a i i))
  | epsilon {e a : SlotId} {k i : Nat} {site : CallSite} : Derivable S (.item e site i none) →
    role? S.graph.slots e = some (.done a k) → Derivable S (.node (.epsilon i))
  | emptyPacked {e a : SlotId} {k i : Nat} {site : CallSite} :
    Derivable S (.item e site i none) → role? S.graph.slots e = some (.done a k) →
    Derivable S (.packed (.nonterminal a i i) e i none (.epsilon i))
  | complete {e a : SlotId} {k i : Nat} {site : CallSite} {o : Option Node} :
    Derivable S (.item e site i o) → role? S.graph.slots e = some (.done a k) →
    Derivable S (.completion site i (o.getD (.nonterminal a i i)))
  | early {e a : SlotId} {k i : Nat} {o : Option Node} : Derivable S (.item e S.rootSite i o) →
    role? S.graph.slots e = some (.done a k) → i < S.text.length →
    Derivable S (.obstacle ⟨e, i, S.rootSite⟩)

/-! ### Where facts lie -/

/-- The graph is valid, nothing matches beyond the end of the text, and the start symbol is a
nonterminal. -/
structure Valid (S : Setting) : Prop where
  graph : S.graph.Valid
  text : S.text.Bounded
  start : ∃ name, role? S.graph.slots S.start = some (.nonterminal name)

/-- A node over a stretch of the text. -/
structure Over (S : Setting) (n : Node) (i j : Nat) : Prop where
  span : n.span? = some (i, j)
  le : i ≤ j
  le_length : j ≤ S.text.length
  slot_lt {x : SlotId} : n.slot? = some x → x < S.graph.size

/-- What has been parsed of a rule, if anything, is a node between two offsets. -/
def Covers (S : Setting) (i j : Nat) : Option Node → Prop
  | none => i = j
  | some n => S.Over n i j

/-- A slot in which parsing can go on. -/
def Continues (S : Setting) (slot : SlotId) : Prop :=
  (∃ h, head? S.graph.slots slot = some h) ∨
    ∃ name, role? S.graph.slots slot = some (.nonterminal name)

/-- A nonterminal and an offset within the text. -/
def IsSite (S : Setting) (site : CallSite) : Prop :=
  (∃ name, role? S.graph.slots site.slot = some (.nonterminal name)) ∧
    site.index ≤ S.text.length

/-- What a fact says lies within the text and fits together. -/
def Placed (S : Setting) : Fact → Prop
  | .call site => S.IsSite site
  | .item slot site i o =>
    S.IsSite site ∧ S.Continues slot ∧ site.index ≤ i ∧ i ≤ S.text.length ∧
      S.Covers site.index i o
  | .edge callee r caller o =>
    S.IsSite callee ∧ S.IsSite caller ∧ (∃ h, head? S.graph.slots r = some h) ∧
      caller.index ≤ callee.index ∧ S.Covers caller.index callee.index o
  | .completion callee j n => S.IsSite callee ∧ S.Over n callee.index j
  | .arrival d site k j o n =>
    S.IsSite site ∧ (∃ h, head? S.graph.slots d = some h) ∧ site.index ≤ k ∧
      S.Covers site.index k o ∧ S.Over n k j
  | .node n => ∃ i j, S.Over n i j
  | .packed m _ k o n => ∃ i j, m.span? = some (i, j) ∧ i ≤ k ∧ S.Covers i k o ∧ S.Over n k j
  | .obstacle o =>
    S.IsSite o.context ∧ o.context.index ≤ o.index ∧ o.index ≤ S.text.length

lemma span?_joined {d : SlotId} {site : CallSite} {j : Nat} {o : Option Node} {m : Node}
    (h : S.joined? d site j o = some m) : m.span? = some (site.index, j) := by
  simp only [joined?] at h
  split at h <;> simp at h <;> subst h <;> rfl

/-- Which nodes are made on arriving at a slot. -/
lemma joined?_cases {d : SlotId} {site : CallSite} {j : Nat} {o : Option Node} {m : Node}
    (h : S.joined? d site j o = some m) :
    (∃ a l, role? S.graph.slots d = some (.done a l) ∧ m = .nonterminal a site.index j) ∨
      m = .intermediate d site.index j := by
  simp only [joined?] at h
  split at h
  next e he =>
    cases h
    exact Or.inl ⟨_, _, Slots.role?_done.mpr ⟨e, he, rfl, rfl⟩, rfl⟩
  next =>
    cases h
    exact Or.inr rfl
  next => cases h

/-- Only nonterminals and the beginnings of rules have packed nodes. -/
lemma Derivable.packed_cases {m n : Node} {slot : SlotId} {k : Nat} {o : Option Node}
    (h : S.Derivable (.packed m slot k o n)) :
    (∃ a i j, m = .nonterminal a i j) ∨ ∃ i j, m = .intermediate slot i j := by
  cases h with
  | packed _ hm =>
    rcases joined?_cases hm with ⟨a, l, -, rfl⟩ | rfl
    · exact Or.inl ⟨_, _, _, rfl⟩
    · exact Or.inr ⟨_, _, rfl⟩
  | emptyPacked => exact Or.inl ⟨_, _, _, rfl⟩

/-- If no node is made, the last part is the first. -/
lemma eq_none_of_joined? {d h : SlotId} {site : CallSite} {j : Nat} {o : Option Node}
    (hd : head? S.graph.slots d = some h) (hj : S.joined? d site j o = none) : o = none := by
  simp only [joined?] at hj
  rcases Slots.head?_eq_some.mp hd with ⟨s, hs, -⟩ | ⟨s, hs, -⟩
  · cases o with
    | none => rfl
    | some n => simp [hs] at hj
  · simp [hs] at hj

namespace Valid

variable (hS : S.Valid)
include hS

lemma scan_le {x : SlotId} {i j : Nat} (h : (S.graph.spans S.text).scan x i j) :
    i ≤ j ∧ j ≤ S.text.length := by
  obtain ⟨τ, n, -, hm, rfl⟩ := h
  exact ⟨Nat.le_add_right i n, hS.text τ i n hm⟩

lemma over_terminal {x : SlotId} {i j : Nat} (h : (S.graph.spans S.text).scan x i j) :
    S.Over (.terminal x i j) i j := by
  obtain ⟨hij, hj⟩ := hS.scan_le h
  refine ⟨rfl, hij, hj, ?_⟩
  rintro y ⟨⟩
  obtain ⟨τ, -, hτ, -, -⟩ := h
  exact Slots.lt_size_of_role? hτ

lemma over_nonterminal {e a : SlotId} {k i j : Nat}
    (he : role? S.graph.slots e = some (.done a k)) (hij : i ≤ j) (hj : j ≤ S.text.length) :
    S.Over (.nonterminal a i j) i j := by
  refine ⟨rfl, hij, hj, ?_⟩
  rintro y ⟨⟩
  obtain ⟨name, ha⟩ := hS.graph.head (Slots.head?_of_role_done he)
  exact Slots.lt_size_of_role? ha

lemma over_joined {d : SlotId} {site : CallSite} {j : Nat} {o : Option Node} {m : Node}
    (hm : S.joined? d site j o = some m) (hij : site.index ≤ j) (hj : j ≤ S.text.length) :
    S.Over m site.index j := by
  simp only [joined?] at hm
  split at hm
  next e he =>
    obtain rfl := Option.some.inj hm
    exact hS.over_nonterminal (Slots.role?_done.mpr ⟨e, he, rfl, rfl⟩) hij hj
  next b hb =>
    obtain rfl := Option.some.inj hm
    refine ⟨rfl, hij, hj, ?_⟩
    rintro y ⟨⟩
    exact (Array.getElem?_eq_some_iff.mp hb).1
  next => cases hm

end Valid

/-- All facts that are derived are in place. -/
theorem Derivable.placed (hS : S.Valid) {F : Fact} (h : S.Derivable F) : S.Placed F := by
  induction h with
  | root => exact ⟨hS.start, Nat.zero_le _⟩
  | seed =>
    exact ⟨⟨hS.start, Nat.zero_le _⟩, Or.inr hS.start, Nat.le_refl _, Nat.zero_le _, rfl⟩
  | enter _ hf _ ih =>
    exact ⟨ih, Or.inl (hS.graph.starts hf), Nat.le_refl _, ih.2, rfl⟩
  | refuse _ _ _ _ _ ih => exact ⟨ih, Nat.le_refl _, ih.2⟩
  | scan _ hl hs ih =>
    obtain ⟨hsite, -, hle, -, ho⟩ := ih
    exact ⟨hsite, hS.graph.leads_dest hl, hle, ho, hS.over_terminal hs⟩
  | mismatch _ _ _ _ ih =>
    obtain ⟨hsite, -, hle, hi, -⟩ := ih
    exact ⟨hsite, hle, hi⟩
  | call _ _ hx ih =>
    obtain ⟨-, -, -, hi, -⟩ := ih
    exact ⟨⟨_, hx⟩, hi⟩
  | edge _ hl hx ih =>
    obtain ⟨hsite, -, hle, hi, ho⟩ := ih
    exact ⟨⟨⟨_, hx⟩, hi⟩, hsite, hS.graph.leads_dest hl, hle, ho⟩
  | resume _ _ ih ih' =>
    obtain ⟨-, hsite, hd, hle, ho⟩ := ih
    exact ⟨hsite, hd, hle, ho, ih'.2⟩
  | @arrive d site k j o n _ ih =>
    obtain ⟨hsite, hd, hik, ho, hn⟩ := ih
    have hij := Nat.le_trans hik hn.le
    refine ⟨hsite, Or.inl hd, hij, hn.le_length, ?_⟩
    cases hm : S.joined? d site j o with
    | some m => exact hS.over_joined hm hij hn.le_length
    | none =>
      -- what was parsed is the node alone, which starts where the rule does
      obtain ⟨h, hh⟩ := hd
      obtain rfl := eq_none_of_joined? hh hm
      obtain rfl : site.index = k := ho
      exact hn
  | part _ ih =>
    obtain ⟨-, -, -, -, hn⟩ := ih
    exact ⟨_, _, hn⟩
  | joined _ hm ih =>
    obtain ⟨-, -, hik, -, hn⟩ := ih
    exact ⟨_, _, hS.over_joined hm (Nat.le_trans hik hn.le) hn.le_length⟩
  | packed _ hm ih =>
    obtain ⟨-, -, hik, ho, hn⟩ := ih
    exact ⟨_, _, span?_joined hm, hik, ho, hn⟩
  | empty _ he ih =>
    obtain ⟨-, -, -, hi, -⟩ := ih
    exact ⟨_, _, hS.over_nonterminal he (Nat.le_refl _) hi⟩
  | epsilon _ _ ih =>
    obtain ⟨-, -, -, hi, -⟩ := ih
    exact ⟨_, _, rfl, Nat.le_refl _, hi, by simp [Node.slot?]⟩
  | emptyPacked _ _ ih =>
    obtain ⟨-, -, -, hi, -⟩ := ih
    exact ⟨_, _, rfl, Nat.le_refl _, rfl, rfl, Nat.le_refl _, hi, by simp [Node.slot?]⟩
  | @complete e a k i site o _ he ih =>
    obtain ⟨hsite, -, -, hi, ho⟩ := ih
    refine ⟨hsite, ?_⟩
    cases o with
    | some n => exact ho
    | none =>
      obtain rfl : site.index = i := ho
      exact hS.over_nonterminal he (Nat.le_refl _) hi
  | early _ _ _ ih =>
    obtain ⟨hsite, -, hle, hi, -⟩ := ih
    exact ⟨hsite, hle, hi⟩

/-- Only the first descriptor of all is for a nonterminal as a whole. -/
lemma Derivable.item_seed (hS : S.Valid) {slot : SlotId} {site : CallSite} {i : Nat}
    {o : Option Node} {name : String} (h : S.Derivable (.item slot site i o))
    (hn : role? S.graph.slots slot = some (.nonterminal name)) :
    slot = S.start ∧ site = S.rootSite ∧ i = 0 ∧ o = none := by
  have hhead (a : SlotId) : head? S.graph.slots slot ≠ some a := by
    simp [Slots.head?_eq_none (Or.inr ⟨_, hn⟩)]
  cases h with
  | seed => exact ⟨rfl, rfl, rfl, rfl⟩
  | enter _ hf _ =>
    obtain ⟨a, ha⟩ := hS.graph.starts hf
    exact absurd ha (hhead a)
  | arrive h =>
    obtain ⟨-, ⟨a, ha⟩, -⟩ := h.placed hS
    exact absurd ha (hhead a)

lemma Derivable.item_nonterminal (hS : S.Valid) {slot : SlotId}
    {site : CallSite} {i : Nat} {o : Option Node} {name : String}
    (h : S.Derivable (.item slot site i o))
    (hn : role? S.graph.slots slot = some (.nonterminal name)) :
    slot = site.slot ∧ i = site.index ∧ o = none := by
  obtain ⟨rfl, rfl, rfl, rfl⟩ := h.item_seed hS hn
  exact ⟨rfl, rfl, rfl⟩

/-- The facts of a setting determine what has been parsed of a rule, and the parts of a node. -/
structure Functional (S : Setting) : Prop where
  item {slot : SlotId} {site : CallSite} {i : Nat} {o o' : Option Node} :
    S.Derivable (.item slot site i o) → S.Derivable (.item slot site i o') → o = o'
  packed {m n n' : Node} {slot : SlotId} {k : Nat} {o o' : Option Node} :
    S.Derivable (.packed m slot k o n) → S.Derivable (.packed m slot k o' n') → o = o' ∧ n = n'

end Setting

end GeneralParser
