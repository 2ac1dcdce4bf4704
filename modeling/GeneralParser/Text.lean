import GeneralParser.Fault

/-!
# Texts

A text is addressed by character. Terminals that compare strings or run a regular expression work
on its UTF-8 bytes, so a text carries a table that leads from one to the other: entry `i` is the
byte at which character `i` starts, and one more entry marks the end.
-/

namespace GeneralParser

/-- An immutable text with its characters and the byte offset of each. -/
structure Text where
  /-- The text itself. -/
  string : String
  /-- Its characters. -/
  chars : Array Char
  /-- The byte offset of every character, and of the end. -/
  offsets : Array Nat
  deriving DecidableEq, Repr

namespace Text

/-! ### Construction -/

/-- The byte offsets of the characters `cs` and of their end, when the first starts at byte `n`. -/
def offsetsFrom (n : Nat) : List Char → List Nat
  | [] => [n]
  | c :: cs => n :: offsetsFrom (n + c.utf8Size) cs

/-- The text `s`, with its offset table filled in. -/
def ofString (s : String) : Text where
  string := s
  chars := s.toList.toArray
  offsets := (offsetsFrom 0 s.toList).toArray

/-- The text without characters. -/
def empty : Text := ofString ""

/-- A text that was never filled in: no characters, and no offset table either, so that not even
its end can be located. It differs from `Text.empty`. -/
def unfilled : Text := ⟨"", #[], #[]⟩

instance : Inhabited Text := ⟨unfilled⟩

/-! ### The view by character -/

/-- The number of characters. -/
def length (t : Text) : Nat := t.chars.size

/-- Whether the text has no characters. -/
def isEmpty (t : Text) : Bool := t.chars.isEmpty

/-- The character at offset `i`, if `i` is before the end. -/
def char? (t : Text) (i : Nat) : Option Char := t.chars[i]?

/-- Whether offset `i` is the end of the text or beyond. -/
def isEnd (t : Text) (i : Nat) : Bool := t.length ≤ i

/-- A line and a column, both counted from one. -/
structure Position where
  line : Nat
  column : Nat
  deriving DecidableEq, Repr

/-- The position after the character `c`. -/
def Position.after (p : Position) (c : Char) : Position :=
  if c = '\n' then ⟨p.line + 1, 1⟩ else ⟨p.line, p.column + 1⟩

/-- The position of offset `i`; offsets past the end have the position of the end. -/
def position (t : Text) (i : Nat) : Position :=
  (t.chars.toList.take i).foldl Position.after ⟨1, 1⟩

/-! ### The view by byte -/

/-- The byte offset of character offset `i`, if the table lists it. -/
def byteOffset? (t : Text) (i : Nat) : Option Nat := t.offsets[i]?

/-- The index in `lo ≤ i < hi` of the entry `x` of an increasing table, found by bisection. -/
def bisect (table : Array Nat) (x lo hi : Nat) : Option Nat :=
  if lo < hi then
    let mid := (lo + hi) / 2
    match table[mid]? with
    | none => none
    | some y =>
      if y = x then some mid
      else if y < x then bisect table x (mid + 1) hi
      else bisect table x lo mid
  else none
termination_by hi - lo

/-- The character offset of byte offset `byte`, if `byte` is where a character starts or the text
ends. -/
def charOffset? (t : Text) (byte : Nat) : Option Nat := bisect t.offsets byte 0 t.offsets.size

/-- The characters in the first `n` bytes of `cs`, and those after; `none` if byte `n` is past the
end or inside a character. -/
def splitBytes? : Nat → List Char → Option (List Char × List Char)
  | 0, cs => some ([], cs)
  | _ + 1, [] => none
  | n + 1, c :: cs =>
    if c.utf8Size ≤ n + 1 then
      (splitBytes? (n + 1 - c.utf8Size) cs).map fun (front, back) => (c :: front, back)
    else none

/-- The number of bytes of a list of characters. -/
def byteSize (cs : List Char) : Nat := (String.ofList cs).utf8ByteSize

@[simp]
theorem byteSize_nil : byteSize [] = 0 := by simp [byteSize]

@[simp]
theorem byteSize_append (cs ds : List Char) :
    byteSize (cs ++ ds) = byteSize cs + byteSize ds := by
  rw [byteSize, String.ofList_append, String.utf8ByteSize_append]
  rfl

@[simp]
theorem byteSize_cons (c : Char) (cs : List Char) :
    byteSize (c :: cs) = c.utf8Size + byteSize cs := by
  rw [← List.singleton_append, byteSize_append, byteSize, ← String.singleton_eq_ofList,
    String.utf8ByteSize_singleton]

/-- Splitting loses nothing. -/
theorem eq_of_splitBytes? {n : Nat} {cs front back : List Char}
    (h : splitBytes? n cs = some (front, back)) : cs = front ++ back ∧ byteSize front = n := by
  fun_induction splitBytes? n cs generalizing front with
  | case1 cs =>
    obtain ⟨rfl, rfl⟩ : [] = front ∧ cs = back := by simpa using h
    simp
  | case2 => cases h
  | case3 n c cs hle ih =>
    obtain ⟨⟨front', back'⟩, hsplit, heq⟩ := Option.map_eq_some_iff.mp h
    obtain ⟨rfl, rfl⟩ : c :: front' = front ∧ back' = back := by simpa using heq
    obtain ⟨rfl, hsize⟩ := ih hsplit
    refine ⟨rfl, ?_⟩
    rw [byteSize_cons]
    omega
  | case4 => cases h

/-- The byte offset of character offset `i`, which the table has to list. -/
def byteOffset (t : Text) (i : Nat) : Except Fault Nat :=
  match t.byteOffset? i with
  | some byte => .ok byte
  | none => .error (.unlistedOffset i)

/-- The characters from byte `byte` on. -/
def charsFrom (t : Text) (byte : Nat) : Except Fault (List Char) :=
  match splitBytes? byte t.string.toList with
  | some (_, back) => .ok back
  | none => .error (.splitCharacter byte)

/-- The characters between the bytes `first` and `last`, which have to come in this order. -/
def charsBetween (t : Text) (first last : Nat) : Except Fault (List Char) := do
  let back ← t.charsFrom first
  if last < first then throw (.splitCharacter last)
  match splitBytes? (last - first) back with
  | some (front, _) => return front
  | none => throw (.splitCharacter last)

/-- The text between the character offsets `start` and `stop`. Both are clamped to the text, and an
inverted pair gives the empty string. -/
def cut (t : Text) (start stop : Nat) : Except Fault String := do
  let stop := min stop t.length
  let start := min start stop
  let first ← t.byteOffset start
  let last ← t.byteOffset stop
  return String.ofList (← t.charsBetween first last)

/-- Whether the text goes on with `expected` at character offset `i`. Past the end it goes on with
nothing, not even with the empty string. -/
def continuesWith (t : Text) (i : Nat) (expected : String) : Except Fault Bool :=
  if i ≤ t.length then do
    let back ← t.charsFrom (← t.byteOffset i)
    return expected.toList.isPrefixOf back
  else .ok false

end Text

end GeneralParser
