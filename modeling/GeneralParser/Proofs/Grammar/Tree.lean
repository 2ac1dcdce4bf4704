import GeneralParser.Proofs.Grammar.Rules

/-!
# Derivation trees

A derivation tree tells for every nonterminal which of its alternatives is taken, and for every
terminal where it matches. A stretch of the text can have many trees, even infinitely many, and it
has one just if it is derived.
-/

namespace GeneralParser

variable [PatternEngine]

/-- A derivation tree over the offsets of a text. -/
inductive Tree where
  /-- A terminal that matches from `left` to `right`. -/
  | leaf (terminal : Terminal) (left right : Nat)
  /-- A nonterminal over the stretch from `left` to `right`, by one of its alternatives. -/
  | node (name : String) (alternative left right : Nat) (children : List Tree)

/-- Where the stretch under a tree starts. -/
def Tree.left : Tree → Nat
  | .leaf _ left _ | .node _ _ left _ _ => left

namespace Rules

/-- The trees `ts`, one for each symbol, are over consecutive stretches of the text, from the first
offset to the second. -/
inductive ParsedAs (rules : List (String × List Symbol)) (t : Text) :
    List Symbol → Nat → Nat → List Tree → Prop
  | nil (i : Nat) : ParsedAs rules t [] i i []
  | scan {body : List Symbol} {i k n : Nat} {ts : List Tree} {τ : Terminal} :
    ParsedAs rules t body i k ts → τ.matchAt t k = .ok (some n) →
    ParsedAs rules t (body ++ [.terminal τ]) i (k + n) (ts ++ [.leaf τ k (k + n)])
  | rule {body alternative : List Symbol} {i k j l : Nat} {ts us : List Tree} {A : String} :
    ParsedAs rules t body i k ts → (alternatives rules A)[l]? = some alternative →
    ParsedAs rules t alternative k j us →
    ParsedAs rules t (body ++ [.nonterminal A]) i j (ts ++ [.node A l k j us])

/-- A derivation tree of the whole text. -/
def ParseTree (rules : List (String × List Symbol)) (t : Text) (start : String) (tree : Tree) :
    Prop :=
  ParsedAs rules t [.nonterminal start] 0 t.length [tree]

variable {rules : List (String × List Symbol)} {t : Text}

@[simp] lemma parsedAs_nil_iff {i j : Nat} {ts : List Tree} :
    ParsedAs rules t [] i j ts ↔ i = j ∧ ts = [] := by
  constructor
  · intro h
    generalize hbody : ([] : List Symbol) = body at h
    cases h with
    | nil => exact ⟨rfl, rfl⟩
    | scan | rule => simp at hbody
  · rintro ⟨rfl, rfl⟩
    exact .nil i

lemma parsedAs_concat_terminal_iff {body : List Symbol} {τ : Terminal} {i j : Nat}
    {ts : List Tree} : ParsedAs rules t (body ++ [.terminal τ]) i j ts ↔
      ∃ k n us, ParsedAs rules t body i k us ∧ τ.matchAt t k = .ok (some n) ∧ j = k + n ∧
        ts = us ++ [.leaf τ k j] := by
  constructor
  · intro h
    generalize hbody : body ++ [.terminal τ] = whole at h
    cases h with
    | nil => simp at hbody
    | scan hfront hm =>
      obtain ⟨rfl, heq⟩ := List.append_inj' hbody rfl
      obtain rfl : τ = _ := by simpa using heq
      exact ⟨_, _, _, hfront, hm, rfl, rfl⟩
    | rule => simp at hbody
  · rintro ⟨k, n, us, hfront, hm, rfl, rfl⟩
    exact .scan hfront hm

lemma parsedAs_concat_nonterminal_iff {body : List Symbol} {A : String} {i j : Nat}
    {ts : List Tree} : ParsedAs rules t (body ++ [.nonterminal A]) i j ts ↔
      ∃ k l alternative us ws, ParsedAs rules t body i k us ∧
        (alternatives rules A)[l]? = some alternative ∧ ParsedAs rules t alternative k j ws ∧
        ts = us ++ [.node A l k j ws] := by
  constructor
  · intro h
    generalize hbody : body ++ [.nonterminal A] = whole at h
    cases h with
    | nil => simp at hbody
    | scan => simp at hbody
    | rule hfront hl halt =>
      obtain ⟨rfl, heq⟩ := List.append_inj' hbody rfl
      obtain rfl : A = _ := by simpa using heq
      exact ⟨_, _, _, _, _, hfront, hl, halt, rfl⟩
  · rintro ⟨k, l, alternative, us, ws, hfront, hl, halt, rfl⟩
    exact .rule hfront hl halt

lemma parsedAs_terminal_iff {τ : Terminal} {i j : Nat} {ts : List Tree} :
    ParsedAs rules t [.terminal τ] i j ts ↔
      ∃ n, τ.matchAt t i = .ok (some n) ∧ j = i + n ∧ ts = [.leaf τ i j] := by
  rw [← List.nil_append [Symbol.terminal τ], parsedAs_concat_terminal_iff]
  simp

lemma parsedAs_nonterminal_iff {A : String} {i j : Nat} {ts : List Tree} :
    ParsedAs rules t [.nonterminal A] i j ts ↔ ∃ l alternative us,
      (alternatives rules A)[l]? = some alternative ∧ ParsedAs rules t alternative i j us ∧
        ts = [.node A l i j us] := by
  rw [← List.nil_append [Symbol.nonterminal A], parsedAs_concat_nonterminal_iff]
  simp

/-- The last symbol has a tree of its own, which comes last. -/
lemma parsedAs_concat_iff {front : List Symbol} {last : Symbol} {i j : Nat} {ts : List Tree} :
    ParsedAs rules t (front ++ [last]) i j ts ↔ ∃ k us u, ParsedAs rules t front i k us ∧
      ParsedAs rules t [last] k j [u] ∧ ts = us ++ [u] := by
  cases last with
  | terminal τ =>
    rw [parsedAs_concat_terminal_iff]
    constructor
    · rintro ⟨k, n, us, hfront, hm, hj, rfl⟩
      exact ⟨k, us, _, hfront, parsedAs_terminal_iff.mpr ⟨n, hm, hj, rfl⟩, rfl⟩
    · rintro ⟨k, us, u, hfront, hlast, rfl⟩
      obtain ⟨n, hm, hj, hu⟩ := parsedAs_terminal_iff.mp hlast
      exact ⟨k, n, us, hfront, hm, hj, by rw [hu]⟩
  | nonterminal A =>
    rw [parsedAs_concat_nonterminal_iff]
    constructor
    · rintro ⟨k, l, alternative, us, ws, hfront, hl, halt, rfl⟩
      exact ⟨k, us, _, hfront, parsedAs_nonterminal_iff.mpr ⟨l, _, ws, hl, halt, rfl⟩, rfl⟩
    · rintro ⟨k, us, u, hfront, hlast, rfl⟩
      obtain ⟨l, alternative, ws, hl, halt, hu⟩ := parsedAs_nonterminal_iff.mp hlast
      exact ⟨k, l, alternative, us, ws, hfront, hl, halt, by rw [hu]⟩

namespace ParsedAs

lemma left_eq {X : Symbol} {i j : Nat} {u : Tree} (h : ParsedAs rules t [X] i j [u]) :
    u.left = i := by
  cases X with
  | terminal τ =>
    obtain ⟨n, -, -, hu⟩ := parsedAs_terminal_iff.mp h
    obtain rfl := List.singleton_inj.mp hu
    rfl
  | nonterminal A =>
    obtain ⟨l, alternative, us, -, -, hu⟩ := parsedAs_nonterminal_iff.mp h
    obtain rfl := List.singleton_inj.mp hu
    rfl

lemma append {xs ys : List Symbol} {i k j : Nat} {ts us : List Tree}
    (h : ParsedAs rules t xs i k ts) (h' : ParsedAs rules t ys k j us) :
    ParsedAs rules t (xs ++ ys) i j (ts ++ us) := by
  induction h' with
  | nil => simpa using h
  | scan _ hm ih =>
    rw [← List.append_assoc, ← List.append_assoc]
    exact .scan (ih h) hm
  | rule _ hl halt ih _ =>
    rw [← List.append_assoc, ← List.append_assoc]
    exact .rule (ih h) hl halt

end ParsedAs

/-- What is derived has a tree, and what has a tree is derived. -/
theorem derives_iff_exists_parsedAs {body : List Symbol} {i j : Nat} :
    (SpanGrammar.ofRules rules t).Derives body i j ↔ ∃ ts, ParsedAs rules t body i j ts := by
  constructor
  · intro h
    induction h with
    | nil i => exact ⟨[], .nil i⟩
    | scan hs _ ih =>
      obtain ⟨τ, n, rfl, hm, rfl⟩ := hs
      obtain ⟨ts, hts⟩ := ih
      exact ⟨_, (parsedAs_terminal_iff.mpr ⟨n, hm, rfl, rfl⟩).append hts⟩
    | rule hr _ _ ih ih' =>
      obtain ⟨A, rfl, hmem⟩ := hr
      obtain ⟨l, hl⟩ := List.mem_iff_getElem?.mp (mem_alternatives.mpr hmem)
      obtain ⟨us, hus⟩ := ih
      obtain ⟨ts, hts⟩ := ih'
      exact ⟨_, (parsedAs_nonterminal_iff.mpr ⟨l, _, us, hl, hus, rfl⟩).append hts⟩
  · rintro ⟨ts, h⟩
    induction h with
    | nil i => exact .nil i
    | @scan _ _ k n _ τ _ hm ih => exact ih.append (.scan ⟨τ, n, rfl, hm, rfl⟩ (.nil _))
    | rule _ hl _ ih ih' =>
      have hmem := mem_alternatives.mp (List.mem_of_getElem? hl)
      exact ih.append (.rule ⟨_, rfl, hmem⟩ ih' (.nil _))

end Rules

end GeneralParser
