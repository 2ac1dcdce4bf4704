import GeneralParser.Proofs.Text
import GeneralParser.Terminal

/-!
# Matching by character

Terminals are matched in different ways, some of them on bytes. Whether one matches, and how much it
takes, is a matter of the characters of the text all the same, and what it takes lies within the
text. For patterns this depends on how they are run: their matches have to end where a character
starts, and not before they started.
-/

namespace GeneralParser

variable [PatternEngine]

open Text (byteSize)

/-! ### Engines -/

/-- A way to run patterns: the byte at which a match ends that is anchored at a byte of a text. -/
abbrev Engine := Pattern → String → Nat → Option Nat

/-- No match ends before it started, or inside a character. -/
def Engine.Bounded (engine : Engine) : Prop :=
  ∀ (p : Pattern) (s : String) (first last : Nat), engine p s first = some last →
    first ≤ last ∧ (⟨last⟩ : String.Pos.Raw).IsValid s

/-- The matches of patterns are bounded. -/
lemma Pattern.bounded_matchEnd? : Engine.Bounded Pattern.matchEnd? :=
  fun _ _ _ _ h => PatternEngine.bounded h

/-! ### Characters -/

namespace Terminal

/-- How many characters of `t` the terminal takes at offset `i`, with patterns run by `engine`. -/
def matchAtBy (engine : Engine) (t : Text) (i : Nat) : Terminal → Except Fault (Option Nat)
  | .pattern p => .ok do
    let first ← t.byteOffset? i
    let last ← engine p t.string first
    let stop ← t.charOffset? last
    return stop - i
  | τ => τ.matchAt t i

lemma matchAt_eq_matchAtBy (τ : Terminal) (t : Text) (i : Nat) :
    τ.matchAt t i = τ.matchAtBy Pattern.matchEnd? t i := by
  cases τ <;> rfl

/-- What a terminal takes of `s` at offset `i`, said by character. -/
inductive Takes (engine : Engine) (s : String) (i : Nat) : Terminal → Nat → Prop
  | char {c : Char} : s.toList[i]? = some c → Takes engine s i (.char c) 1
  | ranges {rs : List (Char × Char)} {lo hi c : Char} : s.toList[i]? = some c → (lo, hi) ∈ rs →
    lo ≤ c → c ≤ hi → Takes engine s i (.ranges rs) 1
  | literal {e : String} : i ≤ s.toList.length → e.toList <+: s.toList.drop i →
    Takes engine s i (.literal e) e.toList.length
  /-- The match of a pattern ends at the byte that belongs to the offset after it. -/
  | pattern {p : Pattern} {n : Nat} : i + n ≤ s.toList.length →
    engine p s (byteSize (s.toList.take i)) = some (byteSize (s.toList.take (i + n))) →
    Takes engine s i (.pattern p) n

variable {engine : Engine} {s : String} {i n : Nat} {τ : Terminal}

/-- What is taken lies within the text. -/
lemma Takes.le (h : τ.Takes engine s i n) : i + n ≤ s.toList.length := by
  cases h with
  | char hc | ranges hc => exact (List.getElem?_eq_some_iff.mp hc).1
  | literal hi he =>
    have hlen := he.length_le
    rw [List.length_drop] at hlen
    omega
  | pattern hn => exact hn

/-- Where the match of a pattern ends, there is an offset, which does not lie before its start. -/
lemma exists_stop (h : engine.Bounded) {p : Pattern} {first last : Nat}
    (hfirst : (Text.ofString s).byteOffset? i = some first)
    (hlast : engine p s first = some last) :
    ∃ stop, (Text.ofString s).charOffset? last = some stop ∧ i ≤ stop ∧
      stop ≤ s.toList.length := by
  obtain ⟨hle, hvalid⟩ := h p s first last hlast
  obtain ⟨stop, hstop⟩ := Text.isValid_iff.mp hvalid
  refine ⟨stop, Text.charOffset?_eq_some_iff.mpr hstop, ?_,
    (Text.byteOffset?_eq_some_iff.mp hstop).1⟩
  by_contra hlt
  have := (Text.byteOffset?_lt_iff hstop hfirst).mp (Nat.lt_of_not_le hlt)
  omega

lemma takes_char_iff {c : Char} : (Terminal.char c).Takes engine s i n ↔
    s.toList[i]? = some c ∧ n = 1 := by
  constructor
  · rintro ⟨hc⟩
    exact ⟨hc, rfl⟩
  · rintro ⟨hc, rfl⟩
    exact .char hc

lemma takes_ranges_iff {rs : List (Char × Char)} : (Terminal.ranges rs).Takes engine s i n ↔
    (∃ c, s.toList[i]? = some c ∧ ∃ r ∈ rs, r.1 ≤ c ∧ c ≤ r.2) ∧ n = 1 := by
  constructor
  · intro h
    cases h with
    | ranges hc hr hlo hhi => exact ⟨⟨_, hc, _, hr, hlo, hhi⟩, rfl⟩
  · rintro ⟨⟨c, hc, r, hr, hlo, hhi⟩, rfl⟩
    exact .ranges hc hr hlo hhi

lemma takes_literal_iff {e : String} : (Terminal.literal e).Takes engine s i n ↔
    (i ≤ s.toList.length ∧ e.toList <+: s.toList.drop i) ∧ n = e.toList.length := by
  constructor
  · intro h
    cases h with
    | literal hi he => exact ⟨⟨hi, he⟩, rfl⟩
  · rintro ⟨⟨hi, he⟩, rfl⟩
    exact .literal hi he

lemma takes_pattern_iff (h : engine.Bounded) {p : Pattern} :
    (Terminal.pattern p).Takes engine s i n ↔ ∃ first last stop, (Text.ofString s).byteOffset? i = some first ∧
      engine p s first = some last ∧ (Text.ofString s).charOffset? last = some stop ∧
      stop - i = n := by
  simp only [Text.charOffset?_eq_some_iff, Text.byteOffset?_eq_some_iff]
  constructor
  · intro h
    cases h with
    | pattern hn hp =>
      exact ⟨_, _, i + n, ⟨by omega, rfl⟩, hp, ⟨hn, rfl⟩, Nat.add_sub_cancel_left i n⟩
  · rintro ⟨first, last, stop, hfirst, hlast, hstop, rfl⟩
    obtain ⟨stop', hstop', hle, -⟩ := exists_stop h (Text.byteOffset?_eq_some_iff.mpr hfirst) hlast
    obtain rfl : stop' = stop := Text.byteOffset?_inj
      (Text.charOffset?_eq_some_iff.mp hstop') (Text.byteOffset?_eq_some_iff.mpr hstop)
    obtain ⟨-, rfl⟩ := hfirst
    have hadd : i + (stop' - i) = stop' := by omega
    refine .pattern (hadd.trans_le hstop.1) ?_
    rw [hadd, hstop.2]
    exact hlast

/-- Matching gives what is taken. -/
lemma matchAtBy_ofString (h : engine.Bounded) (τ : Terminal) (s : String) (i : Nat) :
    ∃ r, τ.matchAtBy engine (.ofString s) i = .ok r ∧ ∀ n, r = some n ↔ τ.Takes engine s i n := by
  have hchar : (Text.ofString s).char? i = s.toList[i]? := by simp [Text.char?, Text.ofString]
  cases τ with
  | char c =>
    refine ⟨_, rfl, fun n => ?_⟩
    rw [hchar, takes_char_iff, Option.ite_none_right_eq_some, Option.some.injEq]
    simp only [eq_comm]
  | ranges rs =>
    refine ⟨_, rfl, fun n => ?_⟩
    rw [hchar, takes_ranges_iff]
    simp only [Option.bind_eq_some_iff, Option.ite_none_right_eq_some, List.any_eq_true,
      Bool.and_eq_true, decide_eq_true_eq, Option.some.injEq]
    constructor
    · rintro ⟨c, hc, hr, rfl⟩
      exact ⟨⟨c, hc, hr⟩, rfl⟩
    · rintro ⟨⟨c, hc, hr⟩, rfl⟩
      exact ⟨c, hc, hr, rfl⟩
  | literal e =>
    refine ⟨if i ≤ s.toList.length ∧ e.toList <+: s.toList.drop i then some e.length else none,
      ?_, fun n => ?_⟩
    · rw [matchAtBy, matchAt, Text.continuesWith_eq]
      · simp [bind, Except.bind, pure, Except.pure]
      · simp
    · rw [takes_literal_iff, Option.ite_none_right_eq_some, Option.some.injEq,
        String.length_toList]
      exact and_congr_right fun _ => eq_comm
  | pattern p =>
    refine ⟨_, rfl, fun n => ?_⟩
    rw [takes_pattern_iff h]
    simp only [Option.bind_eq_bind, Option.bind_eq_some_iff, Option.pure_def, Option.some.injEq]
    constructor
    · rintro ⟨first, hfirst, last, hlast, stop, hstop, hn⟩
      exact ⟨first, last, stop, hfirst, hlast, hstop, hn⟩
    · rintro ⟨first, last, stop, hfirst, hlast, hstop, hn⟩
      exact ⟨first, hfirst, last, hlast, stop, hstop, hn⟩

lemma matchAtBy_eq_some_iff (h : engine.Bounded) :
    τ.matchAtBy engine (.ofString s) i = .ok (some n) ↔ τ.Takes engine s i n := by
  obtain ⟨r, hr, htakes⟩ := matchAtBy_ofString h τ s i
  rw [hr, Except.ok.injEq, htakes]

lemma matchAtBy_eq_none_iff (h : engine.Bounded) :
    τ.matchAtBy engine (.ofString s) i = .ok none ↔ ∀ n, ¬ τ.Takes engine s i n := by
  obtain ⟨r, hr, htakes⟩ := matchAtBy_ofString h τ s i
  simp only [hr, Except.ok.injEq, ← htakes, Option.eq_none_iff_forall_ne_some, ne_eq]

/-! ### Agreement -/

/-- A way `m` to match terminals on `s` agrees with what they take by character, where the matches
of patterns are those of `engine`. -/
structure Agrees (m : Terminal → Nat → Except Fault (Option Nat)) (engine : Engine) (s : String) :
    Prop where
  /-- There always is an answer, and it is what is taken. -/
  takes (τ : Terminal) (i : Nat) :
    ∃ r, m τ i = .ok r ∧ ∀ n, r = some n ↔ τ.Takes engine s i n
  /-- What is taken lies within the text. -/
  inside {τ : Terminal} {i n : Nat} : m τ i = .ok (some n) → i + n ≤ s.toList.length
  /-- A match of a pattern leads to an offset, from which its start can be subtracted. -/
  forward {p : Pattern} {i first last : Nat} : (Text.ofString s).byteOffset? i = some first →
    engine p s first = some last → ∃ stop, (Text.ofString s).charOffset? last = some stop ∧
      i ≤ stop ∧ m (.pattern p) i = .ok (some (stop - i))
  /-- The empty string is taken at every offset up to the end, and nowhere else. -/
  empty (i : Nat) : m (.literal "") i = .ok (if i ≤ s.toList.length then some 0 else none)
  /-- Nothing lies in a range that is the wrong way round. -/
  inverted {rs : List (Char × Char)} (i : Nat) :
    (∀ r ∈ rs, r.2 < r.1) → m (.ranges rs) i = .ok none

/-- With any engine whose matches are bounded, terminals match as they should. -/
lemma agrees_matchAtBy (h : engine.Bounded) (s : String) :
    Agrees (fun τ i => τ.matchAtBy engine (.ofString s) i) engine s := by
  refine ⟨fun τ i => matchAtBy_ofString h τ s i, ?_, ?_, ?_, ?_⟩
  · intro τ i n hn
    exact ((matchAtBy_eq_some_iff h).mp hn).le
  · intro p i first last hfirst hlast
    obtain ⟨stop, hstop, hle, -⟩ := exists_stop h hfirst hlast
    refine ⟨stop, hstop, hle, (matchAtBy_eq_some_iff h).mpr ?_⟩
    exact (takes_pattern_iff h).mpr ⟨first, last, stop, hfirst, hlast, hstop, rfl⟩
  · intro i
    split
    next hi =>
      exact (matchAtBy_eq_some_iff h).mpr (takes_literal_iff.mpr ⟨⟨hi, List.nil_prefix⟩, rfl⟩)
    next hi => exact (matchAtBy_eq_none_iff h).mpr fun n hn => hi (takes_literal_iff.mp hn).1.1
  · intro rs i hrs
    refine (matchAtBy_eq_none_iff h).mpr fun n hn => ?_
    obtain ⟨⟨c, -, r, hr, hlo, hhi⟩, -⟩ := takes_ranges_iff.mp hn
    exact absurd (hrs r hr) (Char.not_lt.mpr (Char.le_trans hlo hhi))

/-- A terminal that is no pattern is nullable if it takes nothing somewhere. -/
lemma isNullable_iff (hτ : ∀ p, τ ≠ .pattern p) :
    τ.isNullable = true ↔ ∃ s i, τ.Takes engine s i 0 := by
  cases τ with
  | char c => simp [isNullable, takes_char_iff]
  | ranges rs => simp [isNullable, takes_ranges_iff]
  | literal e =>
    rw [isNullable, String.isEmpty_iff]
    constructor
    · rintro rfl
      exact ⟨"", 0, takes_literal_iff.mpr ⟨⟨Nat.le_refl 0, List.nil_prefix⟩, rfl⟩⟩
    · rintro ⟨s, i, h⟩
      have hlen : 0 = e.toList.length := (takes_literal_iff.mp h).2
      exact String.toList_eq_nil_iff.mp (List.length_eq_zero_iff.mp hlen.symm)
  | pattern p => exact absurd rfl (hτ p)

/-- Terminals match on every text as its characters say. So they do if their patterns are run by any
other engine with bounded matches. The nullable ones, apart from patterns, are those that take
nothing somewhere. -/
theorem matchAt_agrees :
    (∀ s, Agrees (fun τ i => τ.matchAt (.ofString s) i) Pattern.matchEnd? s) ∧
    (∀ engine : Engine, engine.Bounded → ∀ s,
      Agrees (fun τ i => τ.matchAtBy engine (.ofString s) i) engine s) ∧
    ∀ τ : Terminal, (∀ p, τ ≠ .pattern p) →
      (τ.isNullable = true ↔ ∃ s i, τ.matchAt (.ofString s) i = .ok (some 0)) := by
  refine ⟨?_, fun engine h s => agrees_matchAtBy h s, ?_⟩
  · simp only [matchAt_eq_matchAtBy]
    exact agrees_matchAtBy Pattern.bounded_matchEnd?
  · intro τ hτ
    simp only [matchAt_eq_matchAtBy, matchAtBy_eq_some_iff Pattern.bounded_matchEnd?]
    exact isNullable_iff hτ

end Terminal

end GeneralParser
