import GeneralParser.Text
import Mathlib.Data.List.DropRight
import Mathlib.Data.Prod.Lex
import Mathlib.Order.Interval.Set.Basic

/-!
# Lines and columns

An offset of a text has a line and a column. Both are counters that run over the characters before
it, and the column starts again after each line feed. So the line counts the line feeds, and the
column the characters after the last of them. Positions are compared by their lines first. Then they
are in the same order as the offsets, up to the end of the text.
-/

namespace GeneralParser

namespace Text

namespace Position

/-! ### The order of positions -/

/-- The line and the column, as a pair that is compared by lines first. -/
def key (p : Position) : ℕ ×ₗ ℕ := toLex (p.line, p.column)

lemma key_injective : Function.Injective key := by
  rintro ⟨l, c⟩ ⟨l', c'⟩ h
  obtain ⟨rfl, rfl⟩ := Prod.mk.inj (toLex.injective h)
  rfl

instance : LinearOrder Position := LinearOrder.lift' key key_injective

variable {p q : Position}

lemma lt_iff : p < q ↔ p.line < q.line ∨ p.line = q.line ∧ p.column < q.column :=
  Prod.Lex.toLex_lt_toLex

lemma lt_after (p : Position) (c : Char) : p < p.after c := by
  rw [lt_iff, after]
  split
  · exact Or.inl (Nat.lt_succ_self _)
  · exact Or.inr ⟨rfl, Nat.lt_succ_self _⟩

/-! ### Reading on -/

lemma le_foldl_after (p : Position) (cs : List Char) : p ≤ cs.foldl after p := by
  induction cs generalizing p with
  | nil => exact le_refl p
  | cons c cs ih => exact (lt_after p c).le.trans (ih _)

/-- Whatever is read, the position goes on. -/
lemma lt_foldl_after (p : Position) {cs : List Char} (h : cs ≠ []) : p < cs.foldl after p := by
  obtain ⟨c, cs, rfl⟩ := List.exists_cons_of_ne_nil h
  exact (lt_after p c).trans_le (le_foldl_after _ cs)

end Position

/-- The characters after the last line feed. -/
def lastLine (cs : List Char) : List Char := cs.rtakeWhile (· ≠ '\n')

lemma lastLine_concat_lineFeed (cs : List Char) : lastLine (cs ++ ['\n']) = [] :=
  List.rtakeWhile_concat_neg _ _ _ (by simp)

lemma lastLine_concat (cs : List Char) {c : Char} (hc : c ≠ '\n') :
    lastLine (cs ++ [c]) = lastLine cs ++ [c] :=
  List.rtakeWhile_concat_pos _ _ _ (by simpa using hc)

/-- The line counts the line feeds, the column the characters after the last one. -/
lemma foldl_after_start (cs : List Char) : cs.foldl Position.after ⟨1, 1⟩ =
    ⟨1 + cs.count '\n', 1 + (lastLine cs).length⟩ := by
  induction cs using List.reverseRecOn with
  | nil => rfl
  | append_singleton cs c ih =>
    rw [List.foldl_concat, ih, Position.after, List.count_append, List.count_singleton]
    split
    next hc =>
      rw [hc, lastLine_concat_lineFeed]
      rfl
    next hc =>
      rw [lastLine_concat cs hc, List.length_append, beq_eq_false_iff_ne.mpr hc]
      rfl

/-! ### Positions in a text -/

variable {t : Text}

/-- The characters before offset `i`, or all of them if that is past the end. -/
def before (t : Text) (i : Nat) : List Char := t.chars.toList.take (min i t.length)

lemma position_eq_foldl_before (t : Text) (i : Nat) :
    t.position i = (t.before i).foldl Position.after ⟨1, 1⟩ := by
  rw [position, before, List.take_eq_take_min, Array.length_toList, length]

lemma before_of_length_le {i : Nat} (h : t.length ≤ i) : t.before i = t.before t.length := by
  rw [before, before, Nat.min_eq_right h, Nat.min_self]

/-- From one offset in the text to a later one there is something to read. -/
lemma exists_before_eq_append {i j : Nat} (hij : i < j) (hj : j ≤ t.length) :
    ∃ c cs, t.before j = t.before i ++ c :: cs := by
  have hi : i < t.chars.toList.length := by
    rw [Array.length_toList]
    exact hij.trans_le hj
  refine ⟨t.chars.toList[i], (t.chars.toList.drop (i + 1)).take (j - i - 1), ?_⟩
  rw [before, before, Nat.min_eq_left hj, Nat.min_eq_left (hij.le.trans hj),
    ← Nat.add_sub_cancel' hij.le, List.take_add, List.drop_eq_getElem_cons hi,
    List.take_cons (by omega), Nat.add_sub_cancel_left]

lemma position_lt_position {i j : Nat} (hij : i < j) (hj : j ≤ t.length) :
    t.position i < t.position j := by
  obtain ⟨c, cs, hread⟩ := exists_before_eq_append hij hj
  rw [position_eq_foldl_before, position_eq_foldl_before, hread, List.foldl_append]
  exact Position.lt_foldl_after _ (List.cons_ne_nil c cs)

/-- The line of an offset is one more than the number of line feeds before it, and its column is one
more than the number of characters after the last of these. The offsets up to the end have their
positions in the same order, so that these differ; those past the end have the position of the
end. -/
theorem position_strictMonoOn (t : Text) :
    (∀ i, t.position i = ⟨1 + (t.before i).count '\n', 1 + (lastLine (t.before i)).length⟩) ∧
    StrictMonoOn t.position (Set.Iic t.length) ∧ Set.InjOn t.position (Set.Iic t.length) ∧
    ∀ i, t.length ≤ i → t.position i = t.position t.length := by
  have hmono : StrictMonoOn t.position (Set.Iic t.length) :=
    fun i _ j hj hij => position_lt_position hij hj
  refine ⟨fun i => ?_, hmono, hmono.injOn, fun i hi => ?_⟩
  · rw [position_eq_foldl_before, foldl_after_start]
  · rw [position_eq_foldl_before, position_eq_foldl_before, before_of_length_le hi]

/-- A line feed at the end opens one more line. -/
example : (ofString "ab\ncd\n").position 6 = ⟨3, 1⟩ := by
  rfl

end Text

end GeneralParser
