import GeneralParser.Text
import Mathlib.Data.List.Basic
import Mathlib.Data.List.Infix

/-!
# Texts by character and by byte

A text is read in two ways: by character, and by byte, through its offset table. The table of a text
made from a string lists where its characters start, in increasing order, and nothing else. So the
two views agree: offsets lead from one to the other and back, a stretch of the text has the same
characters and bytes, and going on with a string means the same for both.
-/

namespace GeneralParser.Text

/-! ### Sizes -/

lemma byteSize_pos {cs : List Char} (h : cs ≠ []) : 0 < byteSize cs := by
  cases cs with
  | nil => exact absurd rfl h
  | cons c cs =>
    rw [byteSize_cons]
    exact Nat.add_pos_left c.utf8Size_pos _

/-- Further characters take further bytes. -/
lemma byteSize_take_lt {cs : List Char} {i j : Nat} (hij : i < j) (hj : j ≤ cs.length) :
    byteSize (cs.take i) < byteSize (cs.take j) := by
  obtain ⟨m, rfl⟩ := Nat.exists_eq_add_of_lt hij
  have hne : (cs.drop i).take (m + 1) ≠ [] := by
    rw [← List.length_pos_iff, List.length_take, List.length_drop]
    omega
  rw [Nat.add_assoc, List.take_add, byteSize_append]
  exact Nat.lt_add_of_pos_right (byteSize_pos hne)

lemma byteSize_take_le {cs : List Char} {i j : Nat} (hij : i ≤ j) :
    byteSize (cs.take i) ≤ byteSize (cs.take j) := by
  obtain ⟨m, rfl⟩ := Nat.exists_eq_add_of_le hij
  rw [List.take_add, byteSize_append]
  exact Nat.le_add_right _ _

lemma splitBytes?_append (front back : List Char) :
    splitBytes? (byteSize front) (front ++ back) = some (front, back) := by
  induction front with
  | nil => simp [splitBytes?]
  | cons c front ih =>
    obtain ⟨m, hm⟩ := Nat.exists_eq_add_one_of_ne_zero
      (byteSize_pos (List.cons_ne_nil c front)).ne'
    have hrest : m + 1 - c.utf8Size = byteSize front := by
      rw [← hm, byteSize_cons]
      omega
    rw [hm, List.cons_append, splitBytes?, hrest, ih, if_pos]
    · rfl
    · rw [← hm, byteSize_cons]
      omega

/-! ### The table of a string -/

@[simp] lemma length_ofString (s : String) : (ofString s).length = s.toList.length := by
  simp [ofString, length]

lemma getElem?_offsetsFrom (n : Nat) (cs : List Char) (i : Nat) : (offsetsFrom n cs)[i]? =
    if i ≤ cs.length then some (n + byteSize (cs.take i)) else none := by
  induction cs generalizing n i with
  | nil => cases i <;> simp [offsetsFrom]
  | cons c cs ih =>
    cases i with
    | zero => simp [offsetsFrom]
    | succ i => simp [offsetsFrom, ih, Nat.add_assoc]

/-- Entry `i` is the number of bytes of the first `i` characters. -/
lemma byteOffset?_ofString (s : String) (i : Nat) : (ofString s).byteOffset? i =
    if i ≤ s.toList.length then some (byteSize (s.toList.take i)) else none := by
  simp [byteOffset?, ofString, getElem?_offsetsFrom]

variable {s : String} {i j b c : Nat}

lemma byteOffset?_eq_some_iff : (ofString s).byteOffset? i = some b ↔
    i ≤ s.toList.length ∧ byteSize (s.toList.take i) = b := by
  rw [byteOffset?_ofString]
  split <;> simp [*]

lemma byteOffset_ofString (hi : i ≤ s.toList.length) :
    (ofString s).byteOffset i = .ok (byteSize (s.toList.take i)) := by
  rw [byteOffset, byteOffset?_ofString, if_pos hi]

/-- The entries increase. -/
lemma byteOffset?_lt_iff (hi : (ofString s).byteOffset? i = some b)
    (hj : (ofString s).byteOffset? j = some c) : i < j ↔ b < c := by
  obtain ⟨hin, rfl⟩ := byteOffset?_eq_some_iff.mp hi
  obtain ⟨hjn, rfl⟩ := byteOffset?_eq_some_iff.mp hj
  constructor
  · exact fun h => byteSize_take_lt h hjn
  · intro h
    by_contra hle
    rcases Nat.lt_or_eq_of_le (Nat.le_of_not_lt hle) with hlt | rfl
    · exact Nat.lt_asymm h (byteSize_take_lt hlt hin)
    · exact Nat.lt_irrefl _ h

lemma byteOffset?_inj (hi : (ofString s).byteOffset? i = some b)
    (hj : (ofString s).byteOffset? j = some b) : i = j := by
  have hij := (byteOffset?_lt_iff hi hj).not.mpr (Nat.lt_irrefl b)
  have hji := (byteOffset?_lt_iff hj hi).not.mpr (Nat.lt_irrefl b)
  exact Nat.le_antisymm (Nat.le_of_not_lt hji) (Nat.le_of_not_lt hij)

/-- The bytes that the table lists are those where a character starts or the text ends. -/
lemma isValid_iff :
    (⟨b⟩ : String.Pos.Raw).IsValid s ↔ ∃ i, (ofString s).byteOffset? i = some b := by
  simp only [String.Pos.Raw.isValid_iff_exists_take_toList, byteOffset?_eq_some_iff]
  constructor
  · rintro ⟨i, hi⟩
    -- all offsets past the end stand for the end
    refine ⟨min i s.toList.length, Nat.min_le_right _ _, ?_⟩
    rw [← List.take_eq_take_min]
    exact hi.symm
  · rintro ⟨i, -, hi⟩
    exact ⟨i, hi.symm⟩

/-! ### Bisection -/

lemma getElem?_of_bisect {table : Array Nat} {x lo hi k : Nat}
    (h : bisect table x lo hi = some k) : table[k]? = some x := by
  fun_induction bisect table x lo hi with
  | case1 => cases h
  | case2 lo hi hlt mid hmid =>
    obtain rfl : mid = k := by simpa using h
    exact hmid
  | case3 lo hi hlt mid y hy hne hless ih => exact ih h
  | case4 lo hi hlt mid y hy hne hless ih => exact ih h
  | case5 => cases h

/-- What is listed in an increasing table is found, if it is looked for around its place. -/
lemma bisect_eq_some {table : Array Nat} {x lo hi k : Nat}
    (increasing : ∀ i j b c : Nat, table[i]? = some b → table[j]? = some c → (i < j ↔ b < c))
    (hk : table[k]? = some x) (hlo : lo ≤ k) (hhi : k < hi) (hsize : hi ≤ table.size) :
    bisect table x lo hi = some k := by
  fun_induction bisect table x lo hi with
  | case1 lo hi hlt mid hnone =>
    have hmid : mid < table.size := by omega
    rw [Array.getElem?_eq_getElem hmid] at hnone
    cases hnone
  | case2 lo hi hlt mid hmid =>
    have hge := (increasing mid k x x hmid hk).not.mpr (Nat.lt_irrefl x)
    have hle := (increasing k mid x x hk hmid).not.mpr (Nat.lt_irrefl x)
    rw [Nat.le_antisymm (Nat.le_of_not_lt hge) (Nat.le_of_not_lt hle)]
  | case3 lo hi hlt mid y hy hne hless ih =>
    exact ih ((increasing mid k y x hy hk).mpr hless) hhi hsize
  | case4 lo hi hlt mid y hy hne hless ih =>
    have hless : x < y := by omega
    exact ih hlo ((increasing k mid x y hk hy).mpr hless) (by omega)
  | case5 => omega

/-- Bytes lead back to the offsets that lead to them. -/
lemma charOffset?_eq_some_iff :
    (ofString s).charOffset? b = some i ↔ (ofString s).byteOffset? i = some b := by
  constructor
  · exact getElem?_of_bisect
  · intro h
    have hi : i < (ofString s).offsets.size := (Array.getElem?_eq_some_iff.mp h).1
    exact bisect_eq_some (fun _ _ _ _ => byteOffset?_lt_iff) h (Nat.zero_le i) hi (Nat.le_refl _)

lemma charOffset?_eq_none_iff :
    (ofString s).charOffset? b = none ↔ ¬ (⟨b⟩ : String.Pos.Raw).IsValid s := by
  simp only [isValid_iff, ← charOffset?_eq_some_iff, Option.eq_none_iff_forall_ne_some, not_exists,
    ne_eq]

/-! ### Stretches -/

lemma charsFrom_ofString (i : Nat) : (ofString s).charsFrom (byteSize (s.toList.take i)) =
    .ok (s.toList.drop i) := by
  have h := splitBytes?_append (s.toList.take i) (s.toList.drop i)
  rw [List.take_append_drop] at h
  rw [charsFrom, show (ofString s).string = s from rfl, h]

lemma charsBetween_ofString (hij : i ≤ j) :
    (ofString s).charsBetween (byteSize (s.toList.take i)) (byteSize (s.toList.take j)) =
      .ok (s.toList.extract i j) := by
  obtain ⟨m, rfl⟩ := Nat.exists_eq_add_of_le hij
  have h := splitBytes?_append ((s.toList.drop i).take m) ((s.toList.drop i).drop m)
  rw [List.take_append_drop] at h
  rw [charsBetween, charsFrom_ofString, List.take_add, byteSize_append]
  simp [bind, Except.bind, pure, Except.pure, h, List.extract]

lemma cut_ofString (s : String) (i j : Nat) : (ofString s).cut i j =
    .ok (String.ofList (s.toList.extract (min i (min j s.toList.length))
      (min j s.toList.length))) := by
  have hj : min j s.toList.length ≤ s.toList.length := Nat.min_le_right _ _
  have hij : min i (min j s.toList.length) ≤ min j s.toList.length := Nat.min_le_right _ _
  rw [cut, length_ofString]
  simp only [byteOffset_ofString hj, byteOffset_ofString (hij.trans hj), bind, Except.bind,
    charsBetween_ofString hij]
  rfl

lemma extract_append {cs : List Char} {k : Nat} (hij : i ≤ j) (hjk : j ≤ k) :
    cs.extract i j ++ cs.extract j k = cs.extract i k := by
  obtain ⟨m, rfl⟩ := Nat.exists_eq_add_of_le hij
  obtain ⟨n, rfl⟩ := Nat.exists_eq_add_of_le hjk
  have hm : i + m - i = m := by omega
  have hn : i + m + n - (i + m) = n := by omega
  have hmn : i + m + n - i = m + n := by omega
  rw [List.extract, List.extract, List.extract, hm, hn, hmn, List.take_add, List.drop_drop]

/-- The bytes of a stretch are those between its ends. -/
lemma toByteArray_extract (hij : i ≤ j) : (String.ofList (s.toList.extract i j)).toByteArray =
    s.toByteArray.extract (byteSize (s.toList.take i)) (byteSize (s.toList.take j)) := by
  obtain ⟨m, rfl⟩ := Nat.exists_eq_add_of_le hij
  have hm : i + m - i = m := Nat.add_sub_cancel_left i m
  have hs : s = String.ofList (s.toList.take i) ++
      (String.ofList ((s.toList.drop i).take m) ++ String.ofList ((s.toList.drop i).drop m)) := by
    rw [← String.ofList_append, ← String.ofList_append, List.take_append_drop,
      List.take_append_drop, String.ofList_toList]
  have hbytes := congrArg String.toByteArray hs
  rw [String.toByteArray_append, String.toByteArray_append] at hbytes
  rw [hbytes, List.take_add, byteSize_append, List.extract, hm, byteSize, byteSize,
    ← String.size_toByteArray, ← String.size_toByteArray]
  symm
  calc
    _ = _ := ByteArray.extract_append_size_add (i := 0)
    _ = _ := ByteArray.extract_append_eq_left rfl

/-! ### Going on with a string -/

lemma continuesWith_eq (s : String) (i : Nat) (e : String) : (ofString s).continuesWith i e =
    .ok (decide (i ≤ s.toList.length ∧ e.toList <+: s.toList.drop i)) := by
  rw [continuesWith, length_ofString]
  by_cases hi : i ≤ s.toList.length
  · rw [if_pos hi]
    simp only [byteOffset_ofString hi, charsFrom_ofString, bind, Except.bind, pure, Except.pure]
    rw [Except.ok.injEq, Bool.eq_iff_iff]
    simp [hi]
  · simp [hi]

/-- Characters start with others if and only if their bytes do. -/
lemma prefix_iff_bytes (cs ds : List Char) : ds <+: cs ↔ ∃ rest,
    (String.ofList cs).toByteArray = (String.ofList ds).toByteArray ++ rest := by
  simp only [String.toByteArray_ofList]
  constructor
  · rintro ⟨es, rfl⟩
    exact ⟨es.utf8Encode, List.utf8Encode_append⟩
  · rintro ⟨rest, h⟩
    exact List.isPrefix_of_utf8Encode_append_eq_utf8Encode rest h.symm

/-! ### Both views -/

/-- How the two views of the text of `s` fit together. -/
structure Views (s : String) : Prop where
  /-- The table lists the number of bytes before every offset up to the end. -/
  byteOffset? (i : Nat) : (ofString s).byteOffset? i =
    if i ≤ s.toList.length then some (byteSize (s.toList.take i)) else none
  /-- Offsets and bytes lead to each other. -/
  charOffset? (b i : Nat) :
    (ofString s).charOffset? b = some i ↔ (ofString s).byteOffset? i = some b
  /-- No offset belongs to a byte inside a character or past the end. -/
  charOffset?_none (b : Nat) :
    (ofString s).charOffset? b = none ↔ ¬ (⟨b⟩ : String.Pos.Raw).IsValid s
  /-- Later offsets belong to later bytes. -/
  increasing {i j b c : Nat} : (ofString s).byteOffset? i = some b →
    (ofString s).byteOffset? j = some c → (i < j ↔ b < c)
  /-- What is cut out are the characters between the clamped offsets. -/
  cut (i j : Nat) : (ofString s).cut i j = .ok (String.ofList
    (s.toList.extract (min i (min j s.toList.length)) (min j s.toList.length)))
  /-- It is what the bytes between two that lie in this order within the text, and where characters
  start, stand for. -/
  cut_bytes (i j : Nat) : ∃ first last r,
    (ofString s).byteOffset (min i (min j s.toList.length)) = .ok first ∧
    (ofString s).byteOffset (min j s.toList.length) = .ok last ∧
    first ≤ last ∧ last ≤ s.utf8ByteSize ∧
    (⟨first⟩ : String.Pos.Raw).IsValid s ∧ (⟨last⟩ : String.Pos.Raw).IsValid s ∧
    (ofString s).cut i j = .ok r ∧ r.toByteArray = s.toByteArray.extract first last
  /-- Adjacent stretches make up one. -/
  cut_append {i j k : Nat} : i ≤ j → j ≤ k → ∃ a b, (ofString s).cut i j = .ok a ∧
    (ofString s).cut j k = .ok b ∧ (ofString s).cut i k = .ok (a ++ b)
  /-- The text goes on with a string if the characters from there on start with it. -/
  continuesWith (i : Nat) (e : String) : (ofString s).continuesWith i e =
    .ok (decide (i ≤ s.toList.length ∧ e.toList <+: s.toList.drop i))
  /-- Within the text this is so if the bytes from there on start with those of the string. -/
  continuesWith_bytes {i : Nat} (e : String) : i ≤ s.toList.length → ∃ first,
    (ofString s).byteOffset i = .ok first ∧ (⟨first⟩ : String.Pos.Raw).IsValid s ∧
    ((ofString s).continuesWith i e = .ok true ↔
      ∃ rest, s.toByteArray.extract first s.utf8ByteSize = e.toByteArray ++ rest)

/-- The views of every text by character and by byte agree, and reading it never fails. -/
theorem views_agree (s : String) : Views s := by
  have hvalid {i : Nat} (hi : i ≤ s.toList.length) :
      (⟨byteSize (s.toList.take i)⟩ : String.Pos.Raw).IsValid s :=
    isValid_iff.mpr ⟨i, byteOffset?_eq_some_iff.mpr ⟨hi, rfl⟩⟩
  have hend : byteSize (s.toList.take s.toList.length) = s.utf8ByteSize := by
    rw [List.take_length, byteSize, String.ofList_toList]
  refine ⟨byteOffset?_ofString s, fun _ _ => charOffset?_eq_some_iff,
    fun _ => charOffset?_eq_none_iff, byteOffset?_lt_iff, cut_ofString s, ?_, ?_,
    continuesWith_eq s, ?_⟩
  · intro i j
    have hj : min j s.toList.length ≤ s.toList.length := Nat.min_le_right _ _
    have hij : min i (min j s.toList.length) ≤ min j s.toList.length := Nat.min_le_right _ _
    refine ⟨_, _, _, byteOffset_ofString (hij.trans hj), byteOffset_ofString hj, ?_, ?_,
      hvalid (hij.trans hj), hvalid hj, cut_ofString s i j, toByteArray_extract hij⟩
    · exact byteSize_take_le hij
    · exact (byteSize_take_le hj).trans_eq hend
  · intro i j k hij hjk
    have hclamp {l m : Nat} (h : l ≤ m) :
        min l (min m s.toList.length) = min l s.toList.length := by omega
    refine ⟨_, _, cut_ofString s i j, cut_ofString s j k, ?_⟩
    rw [cut_ofString, ← String.ofList_append, hclamp hij, hclamp hjk, hclamp (hij.trans hjk),
      extract_append (by omega) (by omega)]
  · intro i e hi
    refine ⟨_, byteOffset_ofString hi, hvalid hi, ?_⟩
    have hback : s.toList.extract i s.toList.length = s.toList.drop i :=
      List.take_of_length_le (by simp)
    rw [continuesWith_eq, ← hend, ← toByteArray_extract hi, hback]
    simpa [hi] using prefix_iff_bytes (s.toList.drop i) e.toList

/-- The second character of this text takes two bytes. -/
example : (ofString "aλb").byteOffset? 2 = some 3 ∧ (ofString "aλb").charOffset? 3 = some 2 ∧
    (ofString "aλb").charOffset? 2 = none := by decide +kernel

end GeneralParser.Text
