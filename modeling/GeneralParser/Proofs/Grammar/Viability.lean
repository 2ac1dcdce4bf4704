import Mathlib
import GeneralParser.Proofs.Grammar.Lookahead
import GeneralParser.Proofs.Grammar.Onward

/-!
# Viable slots

Lookahead never rules out a slot from which what is left of the rule can be parsed. Whether a
terminal is nullable is found out on the empty text, and may be wrong at other offsets: a pattern
can match in place without matching the empty text, and the other way round. This does no harm. What
is taken first is taken over a terminal with which the slot can start, even if nothing is taken, and
if there is no such terminal, only empty rules were used.
-/

namespace GeneralParser

section

variable [PatternEngine]

open Slots (role? head? Path)

/-- What is left to be parsed from slot `id` is `ys`: a symbol itself, or what can follow a position
up to the end of an alternative. -/
inductive Graph.Remainder (g : Graph) : SlotId → List Symbol → Prop
  | symbol {x : SlotId} {X : Symbol} : role? g.slots x = some X.role → Remainder g x [X]
  | place {b e a : SlotId} {k : Nat} {xs : List SlotId} {ys : List Symbol} :
    Path g.slots b xs e → role? g.slots e = some (.done a k) → Slots.Spelled g.slots xs ys →
    Remainder g b ys

namespace Graph

variable {g : Graph} {rules : List (String × List Symbol)} {m : Matching} {i j : Nat}

/-- From every slot there is something left to be parsed, be it nothing at an end. -/
theorem exists_remainder {share : Bool} (hbuild : (Rules.ofList share rules).build = .ok g)
    {id : SlotId} (hid : id < g.size) : ∃ ys, g.Remainder id ys := by
  have hg := spells_of_build hbuild
  have hplace {a : SlotId} (ha : head? g.slots id = some a) : ∃ ys, g.Remainder id ys := by
    obtain ⟨xs, e, k, hp, he⟩ := exists_path_end hbuild ha
    obtain ⟨ys, hys⟩ := hg.wired.exists_spelled hp
    exact ⟨ys, .place hp he hys⟩
  obtain ⟨s, hs⟩ : ∃ s, g.slots[id]? = some s := ⟨_, Array.getElem?_eq_getElem hid⟩
  cases s with
  | nonterminal s => exact ⟨[.nonterminal s.name], .symbol (Slots.role?_nonterminal.mpr ⟨s, hs, rfl⟩)⟩
  | terminal s => exact ⟨[.terminal s.terminal], .symbol (Slots.role?_terminal.mpr ⟨s, hs, rfl⟩)⟩
  | body s => exact hplace (Slots.head?_body hs)
  | done s => exact hplace (Slots.head?_done hs)

/-- A terminal that matches is admitted. -/
lemma admitsBy_of_scan {x : SlotId} (h : (SpanGrammar.ofSlotsBy g.slots m).scan x i j) :
    g.admitsBy m x i = .ok true := by
  obtain ⟨τ, n, hτ, hn, -⟩ := h
  obtain ⟨s, hs, rfl⟩ := Slots.role?_terminal.mp hτ
  rw [admitsBy_terminal hs, hn]
  simp

/-- A nonterminal is admitted if one of its alternatives derives something. -/
lemma admitsBy_of_rule (hg : g.Valid) (hsum : g.Summarised) {x : SlotId} {xs : List SlotId}
    (hr : (SpanGrammar.ofSlotsBy g.slots m).rule x xs)
    (h : (SpanGrammar.ofSlotsBy g.slots m).Derives xs i j) : g.admitsBy m x i = .ok true := by
  obtain ⟨f, e, a, k, hf, hp, he⟩ := hr
  obtain ⟨s, hs, -⟩ := id hf
  obtain ⟨r, hr, hiff⟩ := admitsBy_nonterminal (m := m) (i := i) hg hs
  rw [hr, hiff.mpr]
  rcases first_of_derivesBy h hp he with ⟨-, hn⟩ | ⟨y, l, hy, hscan⟩
  · exact Or.inl ((hsum.nonterminal hs).1.mpr (.nonterminal hf hn))
  · exact Or.inr ⟨y, ((hsum.nonterminal hs).2 y).mpr (.nonterminal hf hy), l, hscan⟩

/-- For any way of matching, a slot is admitted if what is left from there derives something. -/
theorem Spells.admitsBy_of_remainder (hg : g.Spells rules) {id : SlotId} {ys : List Symbol}
    (hs : g.Remainder id ys) (h : (SpanGrammar.ofRulesBy rules m).Derives ys i j) :
    g.admitsBy m id i = .ok true := by
  cases hs with
  | symbol hX =>
    have hx : (SpanGrammar.ofSlotsBy g.slots m).Derives [id] i j :=
      (hg.derivesBy_iff (by simp [Slots.Spelled, hX])).mpr h
    rcases SpanGrammar.derives_singleton_iff.mp hx with hscan | ⟨xs, hr, hbody⟩
    · exact admitsBy_of_scan hscan
    · exact admitsBy_of_rule hg.valid hg.summarised hr hbody
  | place hp he hxs =>
    exact admitsBy_of_derivesBy hg.valid hg.summarised ((hg.derivesBy_iff hxs).mpr h) hp he

/-- On a graph that was built from rules, lookahead admits every slot at every offset from which
what is left of the rule derives something. This is so on every text, and also if terminals are
taken to match in any other way. -/
theorem admits_of_remainder {share : Bool} (hbuild : (Rules.ofList share rules).build = .ok g)
    {id : SlotId} {ys : List Symbol} (hs : g.Remainder id ys) (i j : Nat) :
    (∀ text : String, (SpanGrammar.ofRules rules (.ofString text)).Derives ys i j →
      g.admits (.ofString text) id i = .ok true) ∧
    (∀ m : Matching, (SpanGrammar.ofRulesBy rules m).Derives ys i j →
      g.admitsBy m id i = .ok true) ∧
    ∀ text : String, g.admits (.ofString text) id i =
      Failure.ofGraph (g.admitsBy (Text.ofString text).matching id i) := by
  have hg := spells_of_build hbuild
  refine ⟨?_, fun m h => hg.admitsBy_of_remainder hs h,
    fun text => admits_eq (Text.readable_ofString text) id i⟩
  intro text h
  rw [SpanGrammar.ofRules_eq] at h
  rw [admits_eq (Text.readable_ofString text), hg.admitsBy_of_remainder hs h]
  rfl

end Graph

end

/-! ### A small grammar -/

/-- Where words begin and end. This matches in place, but not on the empty text. -/
def Pattern.wordBoundary : Pattern := (ofString? "\\b").get (by decide +kernel)

lemma Pattern.matchesEmpty_wordBoundary : wordBoundary.matchesEmpty = false := by cbv

/-- A letter where a word begins. -/
def Rules.word : List (String × List Symbol) :=
  [("S", [.nonterminal "A", .terminal (.char 'b')]), ("A", [.terminal (.pattern .wordBoundary)])]

/-- The graph of the small grammar. -/
def Graph.word : Graph := ((Rules.ofList true Rules.word).build.toOption).getD .empty

/-- The rules are laid out without running the pattern. -/
lemma Rules.exists_layout_word : ∃ l, (Rules.ofList true word).layout = .ok l := by
  have hsome : (Rules.ofList true word).layout.toOption.isSome := by decide +kernel
  cases hl : (Rules.ofList true word).layout with
  | ok l => exact ⟨l, rfl⟩
  | error e =>
    rw [hl] at hsome
    cases hsome

lemma Graph.build_word : (Rules.ofList true Rules.word).build = .ok Graph.word := by
  obtain ⟨l, hl⟩ := Rules.exists_layout_word
  rw [word, Rules.build, hl]
  rfl

lemma Graph.remainder_word : Graph.word.Remainder 0 [.nonterminal "S"] :=
  .symbol (by decide +kernel)

/-- Nothing is taken over the first symbol, although it is not nullable. -/
lemma Rules.derives_word : (SpanGrammar.ofRules word (.ofString "b")).Derives
    [.nonterminal "S"] 0 1 := by
  let G := SpanGrammar.ofRules word (.ofString "b")
  have hboundary : G.Derives [.terminal (.pattern .wordBoundary)] 0 0 :=
    .scan ⟨_, 0, rfl, by cbv, rfl⟩ (.nil 0)
  have hletter : G.Derives [.terminal (.char 'b')] 0 1 :=
    .scan ⟨_, 1, rfl, by decide +kernel, rfl⟩ (.nil 1)
  have hbody : G.Derives [.nonterminal "A", .terminal (.char 'b')] 0 1 :=
    .rule ⟨"A", rfl, List.mem_cons_of_mem _ List.mem_cons_self⟩ hboundary hletter
  exact .rule ⟨"S", rfl, List.mem_cons_self⟩ hbody (.nil 1)

/-- So lookahead admits the start symbol of the small grammar, although what comes first takes
nothing and is not nullable. -/
theorem Graph.admits_word : (Rules.ofList true Rules.word).build = .ok word ∧
    word.Remainder 0 [.nonterminal "S"] ∧ Pattern.wordBoundary.matchesEmpty = false ∧
    (SpanGrammar.ofRules Rules.word (.ofString "b")).Derives [.nonterminal "S"] 0 1 ∧
    word.admits (.ofString "b") 0 0 = .ok true :=
  ⟨build_word, remainder_word, Pattern.matchesEmpty_wordBoundary, Rules.derives_word,
    (admits_of_remainder build_word remainder_word 0 1).1 "b" Rules.derives_word⟩

end GeneralParser
