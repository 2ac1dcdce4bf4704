import GeneralParser.Proofs.Grammar.Derivation
import GeneralParser.Proofs.Grammar.Summary
import GeneralParser.Proofs.Grammar.Rules
import GeneralParser.Proofs.Terminal

/-!
# Lookahead

On a valid graph lookahead always has an answer. If the summaries are right, it only rules out what
derives nothing: a derivation from a slot takes its first character over one of the terminals with
which the slot can start, unless the slot is nullable and the derivation is empty.
-/

namespace GeneralParser

variable [PatternEngine]

open Slots (role? head? Leads Path)

namespace Graph

variable {g : Graph} {t : Text} {m : Matching}

/-- The stretches over which the slots of a graph take the text. -/
abbrev spans (g : Graph) (t : Text) : SpanGrammar SlotId := .ofSlots g.slots t

/-! ### Any way of matching

Lookahead does not depend on how terminals match: it can be carried out for any way of matching.
-/

/-- Whether one of the terminals `ids` matches at offset `i`. -/
def anyMatchBy (g : Graph) (m : Matching) (i : Nat) : List SlotId → Except Error Bool
  | [] => .ok false
  | id :: ids => do
    let s ← g.terminalSlot id
    if (m s.terminal i).isSome then return true else g.anyMatchBy m i ids

/-- Whether parsing from slot `id` could succeed at offset `i`: the slot is nullable, or one of its
first terminals matches. -/
def admitsBy (g : Graph) (m : Matching) (id : SlotId) (i : Nat) : Except Error Bool := do
  match ← g.slot id with
  | .nonterminal s => if s.nullable then return true else g.anyMatchBy m i s.first.ids
  | .body s => if s.nullable then return true else g.anyMatchBy m i s.first.ids
  | .terminal s => return s.terminal.isNullable || (m s.terminal i).isSome
  | .done _ => return true

lemma ofText_matchAt (ht : t.Readable) (τ : Terminal) (i : Nat) :
    Failure.ofText (τ.matchAt t i) = .ok (t.matching τ i) := by
  obtain ⟨r, hr, -⟩ := ht τ i
  simp [Text.matching, hr, Failure.ofText, Except.toOption]

lemma anyMatch_eq (ht : t.Readable) (i : Nat) (ids : List SlotId) :
    g.anyMatch t i ids = Failure.ofGraph (g.anyMatchBy t.matching i ids) := by
  induction ids with
  | nil => rfl
  | cons id ids ih =>
    rw [anyMatch, anyMatchBy, matchAt, ih]
    cases hs : g.terminalSlot id with
    | error e => simp [Failure.ofGraph, bind, Except.bind]
    | ok s =>
      simp only [Failure.ofGraph, bind, Except.bind, ofText_matchAt ht]
      cases t.matching s.terminal i <;> simp [pure, Except.pure]

/-- On a text that can be read, lookahead is that for the way in which terminals match there. -/
lemma admits_eq (ht : t.Readable) (id : SlotId) (i : Nat) :
    g.admits t id i = Failure.ofGraph (g.admitsBy t.matching id i) := by
  rw [admits, admitsBy]
  cases hs : g.slot id with
  | error e => simp [Failure.ofGraph, bind, Except.bind]
  | ok s =>
    simp only [Failure.ofGraph, bind, Except.bind]
    cases s with
    | nonterminal s | body s =>
      simp only [anyMatch_eq ht]
      split <;> rfl
    | terminal s =>
      simp only [ofText_matchAt ht]
      cases s.terminal.isNullable <;> rfl
    | done s => rfl

/-! ### Answers -/

lemma anyMatchBy_ok {ids : List SlotId} {i : Nat}
    (hids : ∀ y ∈ ids, ∃ τ, role? g.slots y = some (.terminal τ)) :
    ∃ r, g.anyMatchBy m i ids = .ok r ∧
      (r = true ↔ ∃ y ∈ ids, ∃ j, (SpanGrammar.ofSlotsBy g.slots m).scan y i j) := by
  induction ids with
  | nil => exact ⟨false, rfl, by simp⟩
  | cons y ids ih =>
    obtain ⟨r, hr, hrest⟩ := ih fun y hy => hids y (List.mem_cons_of_mem _ hy)
    obtain ⟨τ, hτ⟩ := hids y List.mem_cons_self
    obtain ⟨s, hs, rfl⟩ := Slots.role?_terminal.mp hτ
    have hscan : (∃ j, (SpanGrammar.ofSlotsBy g.slots m).scan y i j) ↔
        (m s.terminal i).isSome = true := by
      simp [SpanGrammar.ofSlotsBy, hτ, Option.isSome_iff_exists]
    rw [anyMatchBy, terminalSlot_eq_ok hs]
    by_cases hm : (m s.terminal i).isSome = true
    · exact ⟨true, by simp [bind, Except.bind, hm, pure, Except.pure], by simp [hscan, hm]⟩
    · refine ⟨r, by simp [bind, Except.bind, hm, hr], ?_⟩
      simp [hscan, hm, hrest]

/-- What is nullable is admitted, and otherwise one of the first terminals has to match. -/
lemma nullable_or_anyMatchBy {nullable : Bool} {first : SlotSet} {i : Nat}
    (hfirst : ∀ y ∈ first, ∃ τ, role? g.slots y = some (.terminal τ)) :
    ∃ r, (if nullable then .ok true else g.anyMatchBy m i first.ids) = .ok r ∧ (r = true ↔
      nullable = true ∨ ∃ y ∈ first, ∃ j, (SpanGrammar.ofSlotsBy g.slots m).scan y i j) := by
  obtain ⟨r, hr, hiff⟩ := anyMatchBy_ok (m := m) (i := i) hfirst
  cases nullable with
  | true => exact ⟨true, rfl, by simp⟩
  | false => exact ⟨r, hr, hiff.trans (or_iff_right Bool.false_ne_true).symm⟩

/-- A position is admitted if it is marked as nullable or one of its first terminals matches. -/
lemma admitsBy_body (hg : g.Valid) {b i : Nat} {s : BodySlot}
    (hs : g.slots[b]? = some (.body s)) : ∃ r, g.admitsBy m b i = .ok r ∧ (r = true ↔
      s.nullable = true ∨ ∃ y ∈ s.first, ∃ j, (SpanGrammar.ofSlotsBy g.slots m).scan y i j) := by
  rw [admitsBy, slot_eq_ok hs]
  exact nullable_or_anyMatchBy fun y hy => hg.first (Or.inr ⟨s, hs, hy⟩)

/-- So is a nonterminal. -/
lemma admitsBy_nonterminal (hg : g.Valid) {a i : Nat} {s : NonterminalSlot}
    (hs : g.slots[a]? = some (.nonterminal s)) : ∃ r, g.admitsBy m a i = .ok r ∧ (r = true ↔
      s.nullable = true ∨ ∃ y ∈ s.first, ∃ j, (SpanGrammar.ofSlotsBy g.slots m).scan y i j) := by
  rw [admitsBy, slot_eq_ok hs]
  exact nullable_or_anyMatchBy fun y hy => hg.first (Or.inl ⟨s, hs, hy⟩)

lemma admitsBy_terminal {x i : Nat} {s : TerminalSlot} (hs : g.slots[x]? = some (.terminal s)) :
    g.admitsBy m x i = .ok (s.terminal.isNullable || (m s.terminal i).isSome) := by
  rw [admitsBy, slot_eq_ok hs]
  rfl

lemma admitsBy_done {e i : Nat} {s : EndSlot} (hs : g.slots[e]? = some (.done s)) :
    g.admitsBy m e i = .ok true := by
  rw [admitsBy, slot_eq_ok hs]
  rfl

lemma admits_done {e i : Nat} {s : EndSlot} (hs : g.slots[e]? = some (.done s)) :
    g.admits t e i = .ok true := by
  simp [admits, slot_eq_ok hs, Failure.ofGraph, bind, Except.bind, pure, Except.pure]

/-- Lookahead has an answer for every slot in which an alternative can go on, if the text can be
read. -/
lemma admits_ok (hg : g.Valid) (ht : t.Readable) {f h : SlotId} {i : Nat}
    (hf : head? g.slots f = some h) : ∃ r, g.admits t f i = .ok r := by
  rcases Slots.head?_eq_some.mp hf with ⟨s, hs, -⟩ | ⟨s, hs, -⟩
  · obtain ⟨r, hr, -⟩ := admitsBy_body (m := t.matching) (i := i) hg hs
    exact ⟨r, by rw [admits_eq ht, hr, Failure.ofGraph]⟩
  · exact ⟨true, admits_done hs⟩

/-! ### Texts that cannot be read -/

lemma matchAt_of_terminalSlot {y : SlotId} {s : TerminalSlot} (hy : g.terminalSlot y = .ok s)
    (i : Nat) : g.matchAt t y i = Failure.ofText (s.terminal.matchAt t i) := by
  simp [matchAt, hy, Failure.ofGraph, bind, Except.bind]

lemma matchAt_eq_ofText {y : SlotId} {τ : Terminal} (i : Nat)
    (hy : role? g.slots y = some (.terminal τ)) :
    g.matchAt t y i = Failure.ofText (τ.matchAt t i) := by
  obtain ⟨s, hs, rfl⟩ := Slots.role?_terminal.mp hy
  exact matchAt_of_terminalSlot (terminalSlot_eq_ok hs) i

lemma anyMatch_ok_or_broken {ids : List SlotId} {i : Nat}
    (hids : ∀ y ∈ ids, ∃ τ, role? g.slots y = some (.terminal τ)) :
    (∃ r, g.anyMatch t i ids = .ok r) ∨
      ∃ fault, g.anyMatch t i ids = .error (.broken fault) ∧ t.Faults fault := by
  induction ids with
  | nil => exact Or.inl ⟨false, rfl⟩
  | cons y ids ih =>
    obtain ⟨τ, hτ⟩ := hids y List.mem_cons_self
    rw [anyMatch, matchAt_eq_ofText i hτ]
    cases hm : τ.matchAt t i with
    | error fault => exact Or.inr ⟨fault, rfl, τ, i, hm⟩
    | ok r =>
      cases r with
      | some n => exact Or.inl ⟨true, rfl⟩
      | none => exact ih fun y hy => hids y (List.mem_cons_of_mem _ hy)

/-- On a valid graph lookahead only fails if it cannot read the text. -/
lemma admits_error (hg : g.Valid) {f h i : Nat} (hf : head? g.slots f = some h) {e : Failure}
    (he : g.admits t f i = .error e) : ∃ fault, e = .broken fault ∧ t.Faults fault := by
  rcases Slots.head?_eq_some.mp hf with ⟨s, hs, -⟩ | ⟨s, hs, -⟩
  · by_cases hn : s.nullable = true
    · simp [admits, slot_eq_ok hs, Failure.ofGraph, bind, Except.bind, hn, pure, Except.pure] at he
    · have hrun : g.anyMatch t i s.first.ids = .error e := by
        simpa [admits, slot_eq_ok hs, Failure.ofGraph, bind, Except.bind, hn] using he
      have hany := anyMatch_ok_or_broken (t := t) (i := i)
        fun y (hy : y ∈ s.first.ids) => hg.first (Or.inr ⟨s, hs, hy⟩)
      simpa [hrun] using hany
  · rw [admits_done hs] at he
    cases he

/-! ### What is ruled out -/

/-- A derivation of what comes after a slot is empty, or one of the terminals with which the slot
can start matches where it starts. This holds for any way of matching, although whether a terminal
is nullable does not depend on it: a terminal that takes nothing is one that matches. -/
lemma first_of_derivesBy {xs : List SlotId} {i j : Nat}
    (h : (SpanGrammar.ofSlotsBy g.slots m).Derives xs i j) {b e a : SlotId} {k : Nat}
    (hp : Path g.slots b xs e) (he : role? g.slots e = some (.done a k)) :
    (j = i ∧ Slots.Nullable g.slots b) ∨
      ∃ y j, Slots.First g.slots b y ∧ (SpanGrammar.ofSlotsBy g.slots m).scan y i j := by
  induction h generalizing b e a k with
  | nil i =>
    obtain rfl := Slots.path_nil_iff.mp hp
    exact Or.inl ⟨rfl, .done he⟩
  | scan hs _ _ =>
    obtain ⟨d, hl, -⟩ := Slots.path_cons_iff.mp hp
    obtain ⟨τ, -, hτ, -, -⟩ := id hs
    exact Or.inr ⟨_, _, .symbol hl (.terminal hτ), hs⟩
  | rule hr _ _ ih ih' =>
    obtain ⟨d, hl, hrest⟩ := Slots.path_cons_iff.mp hp
    obtain ⟨f, e', a', k', hf, hbody, he'⟩ := hr
    rcases ih hbody he' with ⟨rfl, hn⟩ | ⟨y, j, hy, hm⟩
    · -- nothing was taken over the first symbol, so what follows starts at the same offset
      rcases ih' hrest he with ⟨rfl, hn'⟩ | ⟨y, j, hy, hm⟩
      · exact Or.inl ⟨rfl, .body hl (.nonterminal hf hn) hn'⟩
      · exact Or.inr ⟨y, j, .dest hl (.nonterminal hf hn) hy, hm⟩
    · exact Or.inr ⟨y, j, .symbol hl (.nonterminal hf hy), hm⟩

lemma first_of_derives {xs : List SlotId} {i j : Nat} (h : (g.spans t).Derives xs i j)
    {b e a : SlotId} {k : Nat} (hp : Path g.slots b xs e)
    (he : role? g.slots e = some (.done a k)) :
    (j = i ∧ Slots.Nullable g.slots b) ∨
      ∃ y j, Slots.First g.slots b y ∧ (g.spans t).scan y i j := by
  rw [spans, SpanGrammar.ofSlots_eq] at h ⊢
  exact first_of_derivesBy h hp he

/-- Lookahead admits every slot from which something is derived. -/
theorem admitsBy_of_derivesBy (hg : g.Valid) (hsum : g.Summarised) {xs : List SlotId} {i j : Nat}
    (h : (SpanGrammar.ofSlotsBy g.slots m).Derives xs i j) {b e a : SlotId} {k : Nat}
    (hp : Path g.slots b xs e) (he : role? g.slots e = some (.done a k)) :
    g.admitsBy m b i = .ok true := by
  cases xs with
  | nil =>
    obtain rfl := Slots.path_nil_iff.mp hp
    obtain ⟨s, hs, -⟩ := Slots.role?_done.mp he
    exact admitsBy_done hs
  | cons x xs =>
    obtain ⟨d, ⟨s, hs, -⟩, -⟩ := Slots.path_cons_iff.mp hp
    obtain ⟨r, hr, hiff⟩ := admitsBy_body (m := m) (i := i) hg hs
    rw [hr, hiff.mpr]
    rcases first_of_derivesBy h hp he with ⟨-, hn⟩ | ⟨y, j, hy, hm⟩
    · exact Or.inl ((hsum.body hs).1.mpr hn)
    · exact Or.inr ⟨y, ((hsum.body hs).2 y).mpr hy, j, hm⟩

lemma admits_of_derives (hg : g.Valid) (hsum : g.Summarised) (ht : t.Readable)
    {xs : List SlotId} {i j : Nat} (h : (g.spans t).Derives xs i j) {b e a : SlotId} {k : Nat}
    (hp : Path g.slots b xs e) (he : role? g.slots e = some (.done a k)) :
    g.admits t b i = .ok true := by
  rw [spans, SpanGrammar.ofSlots_eq] at h
  rw [admits_eq ht, admitsBy_of_derivesBy hg hsum h hp he]
  rfl

end Graph

end GeneralParser
