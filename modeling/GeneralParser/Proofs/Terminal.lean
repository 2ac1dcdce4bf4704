import GeneralParser.Proofs.Matching

/-!
# Terminals on texts

On a text made from a string every terminal matches as the characters say. So matching a terminal
never faults there, and a match never goes past the end of the text. On the text that was never
filled in nothing matches, and some terminals cannot even be tried.
-/

namespace GeneralParser

variable [PatternEngine]

/-- Matching a terminal on a text never faults, and what it takes lies within the text. -/
lemma Terminal.matchAt_ofString (τ : Terminal) (s : String) (i : Nat) :
    ∃ r, τ.matchAt (.ofString s) i = .ok r ∧
      ∀ n, r = some n → i + n ≤ (Text.ofString s).length := by
  obtain ⟨r, hr, htakes⟩ := matchAtBy_ofString Pattern.bounded_matchEnd? τ s i
  refine ⟨r, (τ.matchAt_eq_matchAtBy _ i).trans hr, fun n hn => ?_⟩
  rw [Text.length_ofString]
  exact ((htakes n).mp hn).le

/-! ### Whole texts -/

namespace Text

variable {t : Text}

/-- Every terminal can be matched at every offset, and takes nothing beyond the end. -/
def Readable (t : Text) : Prop :=
  ∀ (τ : Terminal) (i : Nat), ∃ r, τ.matchAt t i = .ok r ∧ ∀ n, r = some n → i + n ≤ t.length

lemma readable_ofString (s : String) : (ofString s).Readable :=
  fun τ i => τ.matchAt_ofString s i

/-- Some terminal cannot be tried at some offset, because of `fault`. -/
def Faults (t : Text) (fault : Fault) : Prop :=
  ∃ (τ : Terminal) (i : Nat), τ.matchAt t i = .error fault

lemma Readable.not_faults (h : t.Readable) {fault : Fault} : ¬ t.Faults fault := by
  rintro ⟨τ, i, hm⟩
  obtain ⟨r, hr, -⟩ := h τ i
  cases hr.symm.trans hm

/-- No terminal takes anything beyond the end, whether or not it can be matched. -/
def Bounded (t : Text) : Prop :=
  ∀ (τ : Terminal) (i n : Nat), τ.matchAt t i = .ok (some n) → i + n ≤ t.length

lemma Readable.bounded (h : t.Readable) : t.Bounded := by
  intro τ i n hm
  obtain ⟨r, hr, hle⟩ := h τ i
  obtain rfl : r = some n := Except.ok.inj (hr.symm.trans hm)
  exact hle n rfl

/-- On a text that was never filled in nothing matches; literals cannot even be tried. -/
lemma matchAt_unfilled_ne (τ : Terminal) (i n : Nat) : τ.matchAt unfilled i ≠ .ok (some n) := by
  cases τ with
  | char c => simp [Terminal.matchAt, char?, unfilled]
  | ranges rs => simp [Terminal.matchAt, char?, unfilled]
  | literal e =>
    rw [Terminal.matchAt, continuesWith]
    split <;> simp [byteOffset, byteOffset?, unfilled, bind, Except.bind, pure, Except.pure]
  | pattern p => simp [Terminal.matchAt, byteOffset?, unfilled]

/-- The texts that can be made: that of a string, and the one that was never filled in. -/
inductive Made : Text → Prop
  | ofString (s : String) : Made (ofString s)
  | unfilled : Made unfilled

lemma Made.bounded (h : t.Made) : t.Bounded := by
  cases h with
  | ofString s => exact (readable_ofString s).bounded
  | unfilled => exact fun τ i n hm => absurd hm (matchAt_unfilled_ne τ i n)

end Text

end GeneralParser
