import GeneralParser.Proofs.Grammar.Path
import GeneralParser.Grammar.Rules

/-!
# Derivations

A sequence of symbols derives a stretch of the text if the stretch falls into consecutive parts, one
for each symbol, where a terminal derives what it matches and a nonterminal what one of its
alternatives derives. The relation is the same for the symbols of a list of rules and for the slots
of a graph, so it is defined over what the two have in common.
-/

namespace GeneralParser

/-- A grammar over the offsets of one text. -/
structure SpanGrammar (X : Type) where
  /-- The symbol matches the stretch between two offsets directly. -/
  scan : X → Nat → Nat → Prop
  /-- The sequence is an alternative of the symbol. -/
  rule : X → List X → Prop

namespace SpanGrammar

variable {X Y : Type} {G : SpanGrammar X} {H : SpanGrammar Y}

/-- The symbols of a sequence derive consecutive stretches, from the first offset to the second. -/
inductive Derives (G : SpanGrammar X) : List X → Nat → Nat → Prop
  | nil (i : Nat) : Derives G [] i i
  | scan {x : X} {xs : List X} {i k j : Nat} :
    G.scan x i k → Derives G xs k j → Derives G (x :: xs) i j
  | rule {x : X} {body xs : List X} {i k j : Nat} :
    G.rule x body → Derives G body i k → Derives G xs k j → Derives G (x :: xs) i j

@[simp] lemma derives_nil_iff {i j : Nat} : G.Derives [] i j ↔ i = j := by
  constructor
  · intro h
    cases h
    rfl
  · rintro rfl
    exact .nil i

/-- A single symbol derives what it matches, or what one of its alternatives derives. -/
lemma derives_singleton_iff {x : X} {i j : Nat} :
    G.Derives [x] i j ↔ G.scan x i j ∨ ∃ body, G.rule x body ∧ G.Derives body i j := by
  constructor
  · intro h
    cases h with
    | scan hs hrest =>
      obtain rfl := derives_nil_iff.mp hrest
      exact Or.inl hs
    | rule hr hbody hrest =>
      obtain rfl := derives_nil_iff.mp hrest
      exact Or.inr ⟨_, hr, hbody⟩
  · rintro (h | ⟨body, hr, h⟩)
    · exact .scan h (.nil j)
    · exact .rule hr h (.nil j)

lemma derives_append_iff {xs ys : List X} {i j : Nat} :
    G.Derives (xs ++ ys) i j ↔ ∃ k, G.Derives xs i k ∧ G.Derives ys k j := by
  constructor
  · intro h
    induction xs generalizing i with
    | nil => exact ⟨i, .nil i, h⟩
    | cons x xs ih =>
      cases h with
      | scan hs hrest =>
        obtain ⟨k, hxs, hys⟩ := ih hrest
        exact ⟨k, .scan hs hxs, hys⟩
      | rule hr hbody hrest =>
        obtain ⟨k, hxs, hys⟩ := ih hrest
        exact ⟨k, .rule hr hbody hxs, hys⟩
  · rintro ⟨k, hxs, hys⟩
    induction hxs with
    | nil => exact hys
    | scan hs _ ih => exact .scan hs (ih hys)
    | rule hr hbody _ _ ih => exact .rule hr hbody (ih hys)

lemma Derives.append {xs ys : List X} {i k j : Nat} (h : G.Derives xs i k)
    (h' : G.Derives ys k j) : G.Derives (xs ++ ys) i j :=
  derives_append_iff.mpr ⟨k, h, h'⟩

/-- Derivations carry over to a grammar that follows suit, symbol by symbol. -/
lemma Derives.transfer {R : X → Y → Prop}
    (hscan : ∀ {x y i j}, R x y → G.scan x i j → H.scan y i j)
    (hrule : ∀ {x y body}, R x y → G.rule x body → ∃ body', H.rule y body' ∧
      List.Forall₂ R body body')
    {xs : List X} {ys : List Y} {i j : Nat} (h : G.Derives xs i j) (hR : List.Forall₂ R xs ys) :
    H.Derives ys i j := by
  induction h generalizing ys with
  | nil i =>
    cases hR
    exact .nil i
  | scan hs _ ih =>
    cases hR with
    | cons hxy hrest => exact .scan (hscan hxy hs) (ih hrest)
  | rule hr _ _ ih ih' =>
    cases hR with
    | cons hxy hrest =>
      obtain ⟨body', hr', hbody⟩ := hrule hxy hr
      exact .rule hr' (ih hbody) (ih' hrest)

end SpanGrammar

/-! ### Rules -/

variable [PatternEngine]

namespace SpanGrammar

/-- The grammar of a list of rules: a terminal matches as it does on the text, and a nonterminal has
as alternatives the bodies of its rules. -/
def ofRules (rules : List (String × List Symbol)) (t : Text) : SpanGrammar Symbol where
  scan X i j := ∃ τ n, X = .terminal τ ∧ τ.matchAt t i = .ok (some n) ∧ j = i + n
  rule X body := ∃ A, X = .nonterminal A ∧ (A, body) ∈ rules

/-! ### Slots -/

/-- The grammar of a slot graph: an alternative of a nonterminal is spelled by a path from where one
starts to an end. -/
def ofSlots (slots : Array Slot) (t : Text) : SpanGrammar SlotId where
  scan x i j := ∃ τ n, Slots.role? slots x = some (.terminal τ) ∧
    τ.matchAt t i = .ok (some n) ∧ j = i + n
  rule x xs := ∃ f e a k, Slots.Starts slots x f ∧ Slots.Path slots f xs e ∧
    Slots.role? slots e = some (.done a k)

end SpanGrammar

/-! ### Any way of matching -/

/-- How many characters a terminal takes at an offset, if it matches there. It may do so in any way:
what is taken at one offset says nothing about the others. -/
abbrev Matching := Terminal → Nat → Option Nat

/-- The way in which terminals match on a text. -/
def Text.matching (t : Text) : Matching := fun τ i => (τ.matchAt t i).toOption.join

lemma Text.matching_eq_some_iff {t : Text} {τ : Terminal} {i n : Nat} :
    t.matching τ i = some n ↔ τ.matchAt t i = .ok (some n) := by
  rw [matching]
  cases τ.matchAt t i with
  | error fault => simp [Except.toOption]
  | ok r => simp [Except.toOption]

namespace SpanGrammar

/-- The grammar of a list of rules, for any way of matching. -/
def ofRulesBy (rules : List (String × List Symbol)) (m : Matching) : SpanGrammar Symbol where
  scan X i j := ∃ τ n, X = .terminal τ ∧ m τ i = some n ∧ j = i + n
  rule X body := ∃ A, X = .nonterminal A ∧ (A, body) ∈ rules

/-- The grammar of a slot graph, for any way of matching. -/
def ofSlotsBy (slots : Array Slot) (m : Matching) : SpanGrammar SlotId where
  scan x i j := ∃ τ n, Slots.role? slots x = some (.terminal τ) ∧ m τ i = some n ∧ j = i + n
  rule x xs := ∃ f e a k, Slots.Starts slots x f ∧ Slots.Path slots f xs e ∧
    Slots.role? slots e = some (.done a k)

lemma ofRules_eq (rules : List (String × List Symbol)) (t : Text) :
    ofRules rules t = ofRulesBy rules t.matching := by
  simp only [ofRules, ofRulesBy, Text.matching_eq_some_iff]

lemma ofSlots_eq (slots : Array Slot) (t : Text) :
    ofSlots slots t = ofSlotsBy slots t.matching := by
  simp only [ofSlots, ofSlotsBy, Text.matching_eq_some_iff]

end SpanGrammar

end GeneralParser
