import GeneralParser.Parse
import GeneralParser.Proofs.Engine.Bound

/-!
# The text that was never filled in

Two texts with the same characters are the same, but for one pair: the empty text has a double that
was never filled in. It lacks the offset table, so a literal cannot be tried at its only offset, and
a pattern that matches the empty text does not match there. A parse asks nothing of a text but its
length and how terminals match. So it goes the same way on any two texts of one length, until a
terminal is tried that matches differently; and then it may end in a fault on one of them.
-/

namespace GeneralParser

section

variable [PatternEngine]

/-! ### Where texts part -/

/-- Terminal `τ` does not match alike on the texts `t` and `u` at offset `i`. If it cannot be tried
there, that is what comes out: `r` on `t`, and `r'` on `u`. -/
structure Text.Parts {α : Type} (t u : Text) (τ : Terminal) (i : Nat) (r r' : Except Failure α) :
    Prop where
  ne : τ.matchAt t i ≠ τ.matchAt u i
  left {fault : Fault} : τ.matchAt t i = .error fault → r = .error (.broken fault)
  right {fault : Fault} : τ.matchAt u i = .error fault → r' = .error (.broken fault)

/-- What comes out is passed on if it is a failure. -/
lemma Text.Parts.imp {α β : Type} {t u : Text} {τ : Terminal} {i : Nat} {r r' : Except Failure α}
    {q q' : Except Failure β} (h : Parts t u τ i r r') (hq : ∀ e, r = .error e → q = .error e)
    (hq' : ∀ e, r' = .error e → q' = .error e) : Parts t u τ i q q' :=
  ⟨h.ne, fun hf => hq _ (h.left hf), fun hf => hq' _ (h.right hf)⟩

namespace Graph

variable {g : Graph} {t u : Text} {i : Nat}

/-- Terminal `τ` is tried at offset `i` when the terminals of a list are tried in order, up to the
first that matches. -/
inductive Attempt (g : Graph) (t : Text) (i : Nat) : List SlotId → Terminal → Prop
  | here {x : SlotId} {ids : List SlotId} {s : TerminalSlot} :
    g.terminalSlot x = .ok s → Attempt g t i (x :: ids) s.terminal
  | later {x : SlotId} {ids : List SlotId} {τ : Terminal} :
    g.matchAt t x i = .ok none → Attempt g t i ids τ → Attempt g t i (x :: ids) τ

/-- Terminal `τ` is tried by lookahead at slot `id` and offset `i`. -/
inductive Probes (g : Graph) (t : Text) (id : SlotId) (i : Nat) : Terminal → Prop
  | nonterminal {s : NonterminalSlot} {τ : Terminal} : g.slot id = .ok (.nonterminal s) →
    s.nullable = false → g.Attempt t i s.first.ids τ → Probes g t id i τ
  | body {s : BodySlot} {τ : Terminal} : g.slot id = .ok (.body s) →
    s.nullable = false → g.Attempt t i s.first.ids τ → Probes g t id i τ
  | terminal {s : TerminalSlot} : g.slot id = .ok (.terminal s) →
    s.terminal.isNullable = false → Probes g t id i s.terminal

/-- What is tried is in the graph. -/
lemma Attempt.exists_slot {ids : List SlotId} {τ : Terminal} (h : g.Attempt t i ids τ) :
    ∃ x s, g.slot x = .ok (.terminal s) ∧ s.terminal = τ := by
  induction h with
  | here hx => exact ⟨_, _, slot_of_terminalSlot hx, rfl⟩
  | later _ _ ih => exact ih

lemma Probes.exists_slot {id : SlotId} {τ : Terminal} (h : g.Probes t id i τ) :
    ∃ x s, g.slot x = .ok (.terminal s) ∧ s.terminal = τ := by
  cases h with
  | nonterminal _ _ h | body _ _ h => exact h.exists_slot
  | terminal hid => exact ⟨_, _, hid, rfl⟩

lemma anyMatch_eq_or_parts (ids : List SlotId) : g.anyMatch t i ids = g.anyMatch u i ids ∨
    ∃ τ, g.Attempt t i ids τ ∧ g.Attempt u i ids τ ∧
      Text.Parts t u τ i (g.anyMatch t i ids) (g.anyMatch u i ids) := by
  induction ids with
  | nil => exact Or.inl rfl
  | cons x ids ih =>
    rw [anyMatch, anyMatch]
    cases hx : g.terminalSlot x with
    | error e => simp [matchAt, hx, Failure.ofGraph, bind, Except.bind]
    | ok s =>
      have hmatch (v : Text) := matchAt_of_terminalSlot (t := v) hx i
      have hfault {v : Text} {fault : Fault} (hv : s.terminal.matchAt v i = .error fault) :
          g.matchAt v x i = .error (.broken fault) := by
        rw [hmatch, hv, Failure.ofText]
      by_cases heq : s.terminal.matchAt t i = s.terminal.matchAt u i
      · have hsame : g.matchAt t x i = g.matchAt u x i := by rw [hmatch, hmatch, heq]
        rw [hsame]
        cases hu : g.matchAt u x i with
        | error e => exact Or.inl rfl
        | ok r =>
          cases r with
          | some n => exact Or.inl rfl
          | none =>
            refine ih.imp id ?_
            rintro ⟨τ, hτ, hτ', hparts⟩
            exact ⟨τ, .later (hsame.trans hu) hτ, .later hu hτ', hparts⟩
      · refine Or.inr ⟨s.terminal, .here hx, .here hx, heq, ?_, ?_⟩
        · intro fault hf
          rw [hfault hf]
          rfl
        · intro fault hf
          rw [hfault hf]
          rfl

/-- Lookahead gives the same answer on both texts, or tries a terminal at which they part. -/
lemma admits_eq_or_parts (id : SlotId) : g.admits t id i = g.admits u id i ∨
    ∃ τ, g.Probes t id i τ ∧ g.Probes u id i τ ∧
      Text.Parts t u τ i (g.admits t id i) (g.admits u id i) := by
  rw [admits, admits]
  cases hid : g.slot id with
  | error e => exact Or.inl rfl
  | ok s =>
    cases s with
    | nonterminal s =>
      cases hn : s.nullable with
      | true => simp [Failure.ofGraph, bind, Except.bind, hn]
      | false =>
        simp only [Failure.ofGraph, bind, Except.bind, hn, Bool.false_eq_true, if_false]
        obtain h | ⟨τ, hτ, hτ', h⟩ := anyMatch_eq_or_parts (t := t) (u := u) (i := i) s.first.ids
        · exact Or.inl h
        · exact Or.inr ⟨τ, .nonterminal hid hn hτ, .nonterminal hid hn hτ', h⟩
    | body s =>
      cases hn : s.nullable with
      | true => simp [Failure.ofGraph, bind, Except.bind, hn]
      | false =>
        simp only [Failure.ofGraph, bind, Except.bind, hn, Bool.false_eq_true, if_false]
        obtain h | ⟨τ, hτ, hτ', h⟩ := anyMatch_eq_or_parts (t := t) (u := u) (i := i) s.first.ids
        · exact Or.inl h
        · exact Or.inr ⟨τ, .body hid hn hτ, .body hid hn hτ', h⟩
    | terminal s =>
      cases hn : s.terminal.isNullable with
      | true => simp [Failure.ofGraph, bind, Except.bind, hn]
      | false =>
        simp only [Failure.ofGraph, bind, Except.bind, hn, Bool.false_eq_true, if_false]
        by_cases heq : s.terminal.matchAt t i = s.terminal.matchAt u i
        · exact Or.inl (by rw [heq])
        · refine Or.inr ⟨s.terminal, .terminal hid hn, .terminal hid hn, heq, ?_, ?_⟩
          · intro fault hf
            simp [hf, Failure.ofText]
          · intro fault hf
            simp [hf, Failure.ofText]
    | done s => exact Or.inl rfl

end Graph

/-- The same problem for another text. -/
def Problem.on (p : Problem) (t : Text) : Problem := { p with text := t }

namespace Task

variable {p : Problem} {t u : Text} {s : State}

/-- Terminal `τ` is tried at offset `i` when a task is done. -/
inductive Tries (p : Problem) : Task → Terminal → Nat → Prop
  | enter {f : SlotId} {c : CallId} {i : Nat} {τ : Terminal} : p.config.lookahead = true →
    p.graph.Probes p.text f i τ → Tries p (.enter f c i) τ i
  | cross {d : Descriptor} {t : Transition} {direct : Bool} {s : TerminalSlot} :
    p.graph.slot t.symbol = .ok (.terminal s) → Tries p (.cross d t direct) s.terminal d.index

lemma Tries.exists_slot {task : Task} {τ : Terminal} {i : Nat} (h : task.Tries p τ i) :
    ∃ x s, p.graph.slot x = .ok (.terminal s) ∧ s.terminal = τ := by
  cases h with
  | enter _ h => exact h.exists_slot
  | cross hx => exact ⟨_, _, hx, rfl⟩

/-- A task comes to the same on both texts, or a terminal is tried at which they part. -/
lemma run_eq_or_parts (hlen : t.length = u.length) (task : Task) :
    task.run (p.on t) s = task.run (p.on u) s ∨
      ∃ τ i, task.Tries (p.on t) τ i ∧ task.Tries (p.on u) τ i ∧
        Text.Parts t u τ i (task.run (p.on t) s).2 (task.run (p.on u) s).2 := by
  cases task with
  | execute d =>
    -- only the end of the text is asked for
    have hend (j : Nat) : t.isEnd j = u.isEnd j := by rw [Text.isEnd, hlen, Text.isEnd]
    refine Or.inl ?_
    simp only [run, runExecute, executeEnd, Problem.on, hend]
    rfl
  | enter f c i =>
    by_cases hlook : p.config.lookahead = true
    · have hanswer (v : Text) : (if (p.on v).config.lookahead then
          (p.on v).graph.admits (p.on v).text f i else .ok true) = p.graph.admits v f i :=
        if_pos hlook
      simp only [run, runEnter, hanswer]
      obtain h | ⟨τ, hτ, hτ', h⟩ := p.graph.admits_eq_or_parts (t := t) (u := u) (i := i) f
      · rw [h]
        exact Or.inl rfl
      · refine Or.inr ⟨τ, i, .enter hlook hτ, .enter hlook hτ', h.imp ?_ ?_⟩
        · intro e he
          rw [he]
        · intro e he
          rw [he]
    · have hanswer (v : Text) : (if (p.on v).config.lookahead then
          (p.on v).graph.admits (p.on v).text f i else .ok true) = .ok true :=
        if_neg hlook
      simp only [run, runEnter, hanswer]
      exact Or.inl rfl
  | cross d x direct =>
    simp only [run, runCross, Problem.on]
    cases hx : p.graph.slot x.symbol with
    | error e => exact Or.inl rfl
    | ok slot =>
      cases slot with
      | terminal τ =>
        by_cases heq : τ.terminal.matchAt t d.index = τ.terminal.matchAt u d.index
        · simp only [heq]
          exact Or.inl rfl
        · refine Or.inr ⟨_, _, .cross hx, .cross hx, heq, ?_, ?_⟩
          · intro fault hf
            simp only [hf]
          · intro fault hf
            simp only [hf]
      | nonterminal | body | done => exact Or.inl rfl
  | arrive dest c j l r direct => exact Or.inl rfl

end Task

/-! ### Parses that part -/

namespace Problem

/-- Terminal `τ` is tried at offset `i` at some time in a parse. -/
def Tries (p : Problem) (τ : Terminal) (i : Nat) : Prop :=
  ∃ (s : State) (task : Task) (tasks : List Task),
    State.Reachable p s (task :: tasks) ∧ task.Tries p τ i

/-- In the parses of the texts `t` and `u` a terminal is tried at which the texts part. What comes
out is `r` and `r'`. -/
def Parts {α : Type} (p : Problem) (t u : Text) (r r' : Except Failure α) : Prop :=
  ∃ τ i, (p.on t).Tries τ i ∧ (p.on u).Tries τ i ∧ t.Parts u τ i r r'

variable {p : Problem} {t u : Text}

lemma Parts.imp {α β : Type} {r r' : Except Failure α} {q q' : Except Failure β}
    (h : p.Parts t u r r') (hq : ∀ e, r = .error e → q = .error e)
    (hq' : ∀ e, r' = .error e → q' = .error e) : p.Parts t u q q' := by
  obtain ⟨τ, i, hτ, hτ', h⟩ := h
  exact ⟨τ, i, hτ, hτ', h.imp hq hq'⟩

lemma on_moves (hlen : t.length = u.length) (s : State) (tasks : List Task) :
    (p.on t).moves s tasks = (p.on u).moves s tasks := by
  simp only [moves, extent, on, hlen]

end Problem

section

variable {p : Problem} {t u : Text} {s : State}

lemma State.drainFor_of_run_error {fuel : Nat} {task : Task} {tasks : List Task} {e : Failure}
    (h : (task.run p s).2 = .error e) :
    (drainFor p (fuel + 1) s (task :: tasks)).2 = .error e := by
  obtain ⟨s', r, hrun⟩ : ∃ s' r, task.run p s = (s', r) := ⟨_, _, rfl⟩
  rw [hrun] at h
  obtain rfl : r = .error e := h
  simp only [drainFor, move, hrun]

/-- Both parses take the same moves, until a terminal is tried at which the texts part. -/
lemma State.drainFor_eq_or_parts (hlen : t.length = u.length) (fuel : Nat) {tasks : List Task}
    (ht : Reachable (p.on t) s tasks) (hu : Reachable (p.on u) s tasks) :
    drainFor (p.on t) fuel s tasks = drainFor (p.on u) fuel s tasks ∨
      p.Parts t u (drainFor (p.on t) fuel s tasks).2 (drainFor (p.on u) fuel s tasks).2 := by
  -- for as long as nothing parts them, both parses are in one state, with the same tasks to do
  induction fuel generalizing s tasks with
  | zero => exact Or.inl rfl
  | succ fuel ih =>
    cases tasks with
    | nil =>
      rw [drainFor, drainFor]
      cases hmove : s.handOut with
      | goOn s' tasks' =>
        simp only [move, hmove]
        exact ih (ht.move hmove) (hu.move hmove)
      | finish s' | fail s' e =>
        simp only [move, hmove, true_or]
    | cons task rest =>
      obtain heq | ⟨τ, i, hτ, hτ', h⟩ := task.run_eq_or_parts (p := p) (s := s) hlen
      · rw [drainFor, drainFor]
        obtain ⟨s', r, hrun⟩ : ∃ s' r, task.run (p.on u) s = (s', r) := ⟨_, _, rfl⟩
        simp only [move, heq, hrun]
        cases r with
        | error e => exact Or.inl rfl
        | ok new =>
          refine ih (ht.move ?_) (hu.move ?_)
          · simp only [move, heq, hrun]
          · simp only [move, hrun]
      · exact Or.inr ⟨τ, i, ⟨s, task, rest, ht, hτ⟩, ⟨s, task, rest, hu, hτ'⟩,
          h.imp (fun _ => drainFor_of_run_error) fun _ => drainFor_of_run_error⟩

lemma Problem.run_eq_or_parts (hlen : t.length = u.length) :
    (p.on t).run = (p.on u).run ∨ p.Parts t u (p.on t).run.2 (p.on u).run.2 := by
  have hstart : State.start (p.on t) = State.start (p.on u) := rfl
  rw [run, run, hstart]
  cases hs : State.start (p.on u) with
  | mk s r =>
    cases r with
    | error e => exact Or.inl rfl
    | ok =>
      simp only [State.drain, on_moves hlen]
      exact State.drainFor_eq_or_parts hlen _ (.start (hstart.trans hs)) (.start hs)

lemma Problem.solve_of_run_error {e : Failure} (h : p.run.2 = .error e) :
    p.solve.2 = .error e := by
  obtain ⟨s, r, hrun⟩ : ∃ s r, p.run = (s, r) := ⟨_, _, rfl⟩
  rw [hrun] at h
  obtain rfl : r = .error e := h
  rw [solve_eq, hrun]

/-- So do parses from beginning to end. -/
theorem Problem.solve_eq_or_parts (p : Problem) (hlen : t.length = u.length) :
    (p.on t).solve = (p.on u).solve ∨ p.Parts t u (p.on t).solve.2 (p.on u).solve.2 := by
  have hfinish (s : State) : s.finish (p.on t) = s.finish (p.on u) := by
    simp only [State.finish, on, hlen]
    rfl
  rcases run_eq_or_parts (p := p) hlen with h | h
  · rw [solve_eq, solve_eq, h]
    simp only [hfinish, true_or]
  · exact Or.inr (h.imp (fun _ => solve_of_run_error) fun _ => solve_of_run_error)

end

/-- A match on the empty text ends where it starts. -/
lemma Pattern.matchesEmpty_iff {p : Pattern} :
    p.matchesEmpty = true ↔ p.matchEnd? "" 0 = some 0 := by
  rw [matchesEmpty, Option.isSome_iff_exists]
  constructor
  · rintro ⟨last, hlast⟩
    obtain ⟨-, hvalid⟩ := bounded_matchEnd? p "" 0 last hlast
    obtain ⟨k, hk⟩ := String.Pos.Raw.isValid_iff_exists_take_toList.mp hvalid
    obtain rfl : last = 0 := by simpa using hk
    exact hlast
  · exact fun h => ⟨0, h⟩

namespace Terminal

/-- Whether the offset table is needed to match a terminal on the empty text: literals are looked
for where the text ends, and the match of a pattern ends there. -/
def needsTable : Terminal → Bool
  | .char _ | .ranges _ => false
  | .literal _ => true
  | .pattern p => p.matchesEmpty

lemma matchAt_unfilled_literal (e : String) :
    (literal e).matchAt .unfilled 0 = .error (.unlistedOffset 0) := rfl

/-- On the text that was never filled in, terminals match like on the empty text, unless they need
the offset table. -/
lemma matchAt_unfilled_eq_iff (τ : Terminal) (i : Nat) :
    τ.matchAt .unfilled i = τ.matchAt .empty i ↔ i ≠ 0 ∨ τ.needsTable = false := by
  cases τ with
  | char c => simp [matchAt, needsTable, Text.char?, Text.unfilled, Text.empty, Text.ofString]
  | ranges rs => simp [matchAt, needsTable, Text.char?, Text.unfilled, Text.empty, Text.ofString]
  | literal e =>
    cases i with
    | zero =>
      obtain ⟨r, hr, -⟩ := (literal e).matchAt_ofString "" 0
      rw [matchAt_unfilled_literal, Text.empty, hr]
      simp [needsTable]
    | succ i =>
      simp [matchAt, Text.continuesWith, Text.length, Text.unfilled, Text.empty, Text.ofString]
  | pattern p =>
    have hnone : (pattern p).matchAt .unfilled i = .ok none := rfl
    have htakes (n : Nat) : (pattern p).Takes Pattern.matchEnd? "" i n ↔
        i = 0 ∧ n = 0 ∧ p.matchEnd? "" 0 = some 0 := by
      constructor
      · intro h
        have hle := h.le
        obtain ⟨rfl, rfl⟩ : i = 0 ∧ n = 0 := by simpa using hle
        cases h with
        | pattern _ hp => exact ⟨rfl, rfl, hp⟩
      · rintro ⟨rfl, rfl, hp⟩
        exact .pattern (Nat.le_refl 0) hp
    rw [hnone, eq_comm, Text.empty, matchAt_eq_matchAtBy,
      matchAtBy_eq_none_iff Pattern.bounded_matchEnd?]
    simp only [htakes, needsTable, ← Bool.not_eq_true, Pattern.matchesEmpty_iff]
    constructor
    · intro h
      rw [← not_and_or]
      rintro ⟨hi, hp⟩
      exact h 0 ⟨hi, rfl, hp⟩
    · rintro (hi | hp) n ⟨hi', -, hp'⟩
      · exact hi hi'
      · exact hp hp'

end Terminal

/-! ### Texts with the same characters -/

namespace Text

variable {t u : Text}

omit [PatternEngine] in
/-- Texts with the same characters are the same, or one of them was never filled in and the other is
the empty text. -/
lemma eq_or_unfilled (ht : t.Made) (hu : u.Made) (h : t.string = u.string) :
    t = u ∨ t = unfilled ∧ u = empty ∨ t = empty ∧ u = unfilled := by
  cases ht with
  | ofString s =>
    cases hu with
    | ofString s' =>
      obtain rfl : s = s' := h
      exact Or.inl rfl
    | unfilled =>
      obtain rfl : s = "" := h
      exact Or.inr (Or.inr ⟨rfl, rfl⟩)
  | unfilled =>
    cases hu with
    | ofString s' =>
      obtain rfl : "" = s' := h
      exact Or.inr (Or.inl ⟨rfl, rfl⟩)
    | unfilled => exact Or.inl rfl

omit [PatternEngine] in
lemma length_eq_of_string_eq (ht : t.Made) (hu : u.Made) (h : t.string = u.string) :
    t.length = u.length := by
  rcases eq_or_unfilled ht hu h with rfl | ⟨rfl, rfl⟩ | ⟨rfl, rfl⟩ <;> rfl

lemma matchAt_eq_iff_of_string_eq (ht : t.Made) (hu : u.Made) (h : t.string = u.string)
    (τ : Terminal) (i : Nat) :
    τ.matchAt t i = τ.matchAt u i ↔ t = u ∨ i ≠ 0 ∨ τ.needsTable = false := by
  have hne : unfilled ≠ empty := by decide
  rcases eq_or_unfilled ht hu h with rfl | ⟨rfl, rfl⟩ | ⟨rfl, rfl⟩
  · simp
  · rw [τ.matchAt_unfilled_eq_iff, or_iff_right hne]
  · rw [eq_comm, τ.matchAt_unfilled_eq_iff, or_iff_right hne.symm]

/-- Parses of texts of the same length go the same way, or a terminal is tried at which the texts
part. -/
lemma parseReport_eq_or_parts (hlen : t.length = u.length) (g : Graph) (start : String)
    (config : Config) : parseReport g t start config = parseReport g u start config ∨
      ∃ id, g.nonterminal? start = some id ∧ Problem.Parts ⟨g, t, id, config⟩ t u
        (parse g t start config) (parse g u start config) := by
  simp only [parse, parseReport]
  cases g.validate with
  | error e => exact Or.inl rfl
  | ok =>
    cases g.nonterminal? start with
    | none => exact Or.inl rfl
    | some id =>
      rcases Problem.solve_eq_or_parts ⟨g, t, id, config⟩ hlen with h | h
      · have hsolve : Problem.solve ⟨g, t, id, config⟩ = Problem.solve ⟨g, u, id, config⟩ := h
        simp only [hsolve, hlen, true_or]
      · exact Or.inr ⟨id, rfl, h⟩

/-- How the texts `t` and `u` compare when they are parsed. -/
structure Interchangeable (t u : Text) : Prop where
  /-- Terminals match alike, unless one of the texts was never filled in: then those that need the
  offset table do not match alike at the start. -/
  matchAt_eq_iff (τ : Terminal) (i : Nat) :
    τ.matchAt t i = τ.matchAt u i ↔ t = u ∨ i ≠ 0 ∨ τ.needsTable = false
  /-- Grammars without terminals that need it cannot tell the texts apart. -/
  parseReport_eq {g : Graph} (start : String) (config : Config) :
    (∀ x s, g.slot x = .ok (.terminal s) → s.terminal.needsTable = false) →
      parseReport g t start config = parseReport g u start config
  /-- Parses go the same way, unless a terminal is tried at the start that needs the offset table.
  If that is a literal, the parse of the text that was never filled in faults. -/
  parseReport_eq_or (g : Graph) (start : String) (config : Config) :
    parseReport g t start config = parseReport g u start config ∨
      ∃ id τ, g.nonterminal? start = some id ∧ τ.needsTable = true ∧
        (⟨g, t, id, config⟩ : Problem).Tries τ 0 ∧ (⟨g, u, id, config⟩ : Problem).Tries τ 0 ∧
          ∀ e, τ = .literal e →
            t = unfilled ∧ parse g t start config = .error (.broken (.unlistedOffset 0)) ∨
              u = unfilled ∧ parse g u start config = .error (.broken (.unlistedOffset 0))

/-- Texts with the same characters can be interchanged, but for the offset table of the empty
text. -/
theorem interchangeable_of_string_eq (ht : t.Made) (hu : u.Made) (h : t.string = u.string) :
    Interchangeable t u := by
  have hmatch := matchAt_eq_iff_of_string_eq ht hu h
  -- the texts part at the start, and at a terminal that needs the table
  have hparts (g : Graph) (start : String) (config : Config) :=
    parseReport_eq_or_parts (length_eq_of_string_eq ht hu h) g start config
  have hneeds {α : Type} {τ : Terminal} {i : Nat} {r r' : Except Failure α}
      (hp : Parts t u τ i r r') : t ≠ u ∧ i = 0 ∧ τ.needsTable = true := by
    simpa using (hmatch τ i).not.mp hp.ne
  refine ⟨hmatch, ?_, ?_⟩
  · intro g start config hg
    rcases hparts g start config with h | ⟨id, -, τ, i, ⟨_, _, _, -, hτ⟩, -, hp⟩
    · exact h
    · obtain ⟨x, s, hx, rfl⟩ := hτ.exists_slot
      cases (hg x s hx).symm.trans (hneeds hp).2.2
  · intro g start config
    refine (hparts g start config).imp id ?_
    rintro ⟨id, hid, τ, i, hτ, hτ', hp⟩
    obtain ⟨htu, rfl, hτn⟩ := hneeds hp
    refine ⟨id, τ, hid, hτn, hτ, hτ', ?_⟩
    rintro e rfl
    rcases eq_or_unfilled ht hu h with heq | ⟨rfl, -⟩ | ⟨-, rfl⟩
    · exact absurd heq htu
    · exact Or.inl ⟨rfl, hp.left (Terminal.matchAt_unfilled_literal e)⟩
    · exact Or.inr ⟨rfl, hp.right (Terminal.matchAt_unfilled_literal e)⟩

end Text

end

/-- The empty text and its double are the one pair for which it makes a difference. -/
theorem Text.interchangeable_unfilled_empty : unfilled.Made ∧ empty.Made ∧
    unfilled.string = empty.string ∧ Interchangeable unfilled empty :=
  ⟨.unfilled, .ofString "", rfl, interchangeable_of_string_eq .unfilled (.ofString "") rfl⟩

/-- A rule for the empty string, as a literal. -/
def Rules.blank : List (String × List Symbol) := [("S", [.terminal (.literal "")])]

/-- The graph of the rule for the empty string. -/
def Graph.blank : Graph := ((Rules.ofList false Rules.blank).build.toOption).getD .empty

/-- The empty text is parsed as the empty string, but the parse of its double faults. -/
theorem parse_blank_unfilled :
    (Rules.ofList false Rules.blank).build = .ok Graph.blank ∧
    Text.unfilled.Made ∧ Text.empty.Made ∧ Text.unfilled.string = Text.empty.string ∧
    (Terminal.literal "").matchAt .unfilled 0 ≠ (Terminal.literal "").matchAt .empty 0 ∧
    parse Graph.blank .unfilled "S" {} = .error (.broken (.unlistedOffset 0)) ∧
    (parse Graph.blank .empty "S" {}).toOption.isSome = true :=
  ⟨by decide +kernel, .unfilled, .ofString "", rfl, by decide +kernel, by decide +kernel,
    by decide +kernel⟩

end GeneralParser
