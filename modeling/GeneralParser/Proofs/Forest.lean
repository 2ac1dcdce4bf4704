import GeneralParser.Forest
import Mathlib.Data.List.Basic
import Mathlib.Data.List.Nodup

/-!
# Growing forests

A forest only gets new nodes and new packed nodes. In a well-formed one, every node that is not
packed is there once, and every packed node belongs to one node, below which it is the only one for
its slot and pivot.
-/

namespace GeneralParser.Forest

variable {f f' f'' : Forest}

/-- The parts of a packed node; other nodes have none. -/
def parts (f : Forest) (i : NodeId) : List NodeId := (f.entries[i]?.map Entry.parts).getD []

lemma packedUnder_eq {i : NodeId} :
    f.packedUnder i = (f.entries[i]?.map Entry.packed).getD [] := by
  rw [packedUnder]
  cases f.entries[i]? <;> rfl

lemma children_eq {i : NodeId} : f.children i = f.parts i ++ f.packedUnder i := by
  rw [children, parts, packedUnder]
  cases f.entries[i]? <;> rfl

lemma node?_eq_some {i : NodeId} {n : Node} :
    f.node? i = some n ↔ ∃ e, f.entries[i]? = some e ∧ e.node = n := by
  simp [node?]

lemma lt_size_of_node? {i : NodeId} {n : Node} (h : f.node? i = some n) : i < f.size := by
  obtain ⟨e, he, -⟩ := node?_eq_some.mp h
  exact (Array.getElem?_eq_some_iff.mp he).1

lemma exists_node? {i : NodeId} (h : i < f.size) : ∃ n, f.node? i = some n :=
  ⟨_, node?_eq_some.mpr ⟨_, Array.getElem?_eq_getElem h, rfl⟩⟩

lemma lt_size_of_mem_packedUnder {i q : NodeId} (h : q ∈ f.packedUnder i) : i < f.size := by
  rw [packedUnder] at h
  split at h
  next e he => exact (Array.getElem?_eq_some_iff.mp he).1
  next => cases h

lemma lt_size_of_mem_parts {i c : NodeId} (h : c ∈ f.parts i) : i < f.size := by
  by_contra hlt
  rw [parts, Array.getElem?_eq_none (Nat.le_of_not_lt hlt)] at h
  simp at h

/-! ### Growth -/

/-- The forest has grown. -/
structure Le (f f' : Forest) : Prop where
  node {i : NodeId} {n : Node} : f.node? i = some n → f'.node? i = some n
  parts {i : NodeId} : i < f.size → f'.parts i = f.parts i
  packed {i q : NodeId} : q ∈ f.packedUnder i → q ∈ f'.packedUnder i

lemma Le.refl (f : Forest) : Le f f := ⟨id, fun _ => rfl, id⟩

lemma Le.size_le (h : Le f f') : f.size ≤ f'.size := by
  by_contra hlt
  obtain ⟨n, hn⟩ := exists_node? (Nat.lt_of_not_le hlt)
  exact Nat.lt_irrefl _ (lt_size_of_node? (h.node hn))

lemma Le.trans (h : Le f f') (h' : Le f' f'') : Le f f'' where
  node hn := h'.node (h.node hn)
  parts hi := (h'.parts (Nat.lt_of_lt_of_le hi h.size_le)).trans (h.parts hi)
  packed hq := h'.packed (h.packed hq)

/-- Numbers stand for nodes. -/
def Denotes (f : Forest) : Option NodeId → Option Node → Prop :=
  Option.Rel fun i n => f.node? i = some n

lemma denotes_none_iff {o : Option Node} : f.Denotes none o ↔ o = none := by
  constructor
  · intro h
    cases h
    rfl
  · rintro rfl
    exact .none

lemma denotes_some_iff {i : NodeId} {o : Option Node} :
    f.Denotes (some i) o ↔ ∃ n, f.node? i = some n ∧ o = some n := by
  constructor
  · intro h
    cases h with
    | some h => exact ⟨_, h, rfl⟩
  · rintro ⟨n, h, rfl⟩
    exact .some h

lemma Denotes.eq_none_iff {l : Option NodeId} {o : Option Node} (h : f.Denotes l o) :
    l = none ↔ o = none := by
  cases h <;> simp

lemma Denotes.mono (h : Le f f') {l : Option NodeId} {o : Option Node} (hl : f.Denotes l o) :
    f'.Denotes l o := by
  cases hl with
  | none => exact .none
  | some hl => exact .some (h.node hl)

lemma Denotes.unique {l : Option NodeId} {o o' : Option Node} (h : f.Denotes l o)
    (h' : f.Denotes l o') : o = o' := by
  cases h with
  | none =>
    cases h'
    rfl
  | some h =>
    cases h' with
    | some h' => rw [← h, ← h']

/-! ### Well-formed forests -/

structure WellFormed (f : Forest) : Prop where
  /-- A node that is not packed is there once. -/
  unique {i j : NodeId} {n : Node} : f.node? i = some n → f.node? j = some n →
    n.isPacked = false → i = j
  parts_nil {i : NodeId} {n : Node} : f.node? i = some n → n.isPacked = false → f.parts i = []
  /-- Packed nodes belong to nodes that are not packed. -/
  packed_kind {i q : NodeId} : q ∈ f.packedUnder i →
    (∃ slot pivot, f.node? q = some (.packed slot pivot)) ∧
      ∃ n, f.node? i = some n ∧ n.isPacked = false
  packed_unique {i q q' : NodeId} : q ∈ f.packedUnder i → q' ∈ f.packedUnder i →
    f.node? q = f.node? q' → q = q'
  parent_unique {i i' q : NodeId} : q ∈ f.packedUnder i → q ∈ f.packedUnder i' → i = i'
  parent {q : NodeId} {slot : SlotId} {pivot : Nat} : f.node? q = some (.packed slot pivot) →
    ∃ i, q ∈ f.packedUnder i
  nodup {i : NodeId} : (f.packedUnder i).Nodup

lemma wellFormed_empty : WellFormed empty := by
  have hno (i : NodeId) : empty.node? i = none := by simp [node?, empty]
  have hpacked (i : NodeId) : empty.packedUnder i = [] := by simp [packedUnder, empty]
  refine ⟨?_, ?_, ?_, ?_, ?_, ?_, ?_⟩ <;> simp [hno, hpacked]

namespace WellFormed

variable (hf : f.WellFormed)
include hf

/-- Looking up a node gives its number. -/
lemma find?_eq_some_iff {n : Node} {i : NodeId} (hn : n.isPacked = false) :
    f.find? n = some i ↔ f.node? i = some n := by
  rw [find?_eq, if_neg (by simp [hn]), Array.findIdx?_eq_some_iff_getElem]
  constructor
  · rintro ⟨hi, he, -⟩
    exact node?_eq_some.mpr ⟨_, Array.getElem?_eq_getElem hi, by simpa using he⟩
  · intro h
    have hi : i < f.entries.size := lt_size_of_node? h
    have hget (j : NodeId) (hj : j < f.entries.size) : f.node? j = some f.entries[j].node :=
      node?_eq_some.mpr ⟨_, Array.getElem?_eq_getElem hj, rfl⟩
    have hin : f.entries[i].node = n := by simpa [hget i hi] using h
    refine ⟨hi, by simpa using hin, ?_⟩
    intro j hj
    have hlt : j < f.entries.size := Nat.lt_trans hj hi
    simp only [decide_eq_true_eq]
    intro hjn
    exact Nat.ne_of_lt hj (hf.unique ((hget j hlt).trans (congrArg some hjn)) h hn)

/-- Below a node that is not packed there are its packed nodes. -/
lemma children_eq_packedUnder {v : NodeId} {n : Node} (hv : f.node? v = some n)
    (hn : n.isPacked = false) : f.children v = f.packedUnder v := by
  rw [children_eq, hf.parts_nil hv hn, List.nil_append]

/-- Below a packed node there are its parts. -/
lemma children_eq_parts {q : NodeId} {slot : SlotId} {pivot : Nat}
    (hq : f.node? q = some (.packed slot pivot)) : f.children q = f.parts q := by
  have hnil : f.packedUnder q = [] := by
    rw [List.eq_nil_iff_forall_not_mem]
    intro q' hq'
    obtain ⟨-, n, hn, hk⟩ := hf.packed_kind hq'
    rw [hq] at hn
    obtain rfl := Option.some.inj hn
    cases hk
  rw [children_eq, hnil, List.append_nil]

lemma lt_size {i q : NodeId} (hq : q ∈ f.packedUnder i) : q < f.size := by
  obtain ⟨⟨slot, k, hqn⟩, -⟩ := hf.packed_kind hq
  exact lt_size_of_node? hqn

lemma find?_eq_none_iff {n : Node} (hn : n.isPacked = false) :
    f.find? n = none ↔ ∀ i, f.node? i ≠ some n := by
  constructor
  · intro h i hi
    rw [(hf.find?_eq_some_iff hn).mpr hi] at h
    cases h
  · intro h
    cases hi : f.find? n with
    | none => rfl
    | some i => exact absurd ((hf.find?_eq_some_iff hn).mp hi) (h i)

end WellFormed

lemma Denotes.inj (hf : f.WellFormed) {l l' : Option NodeId} {o : Option Node}
    (h : f.Denotes l o) (h' : f.Denotes l' o) (ho : ∀ n, o = some n → n.isPacked = false) :
    l = l' := by
  cases h with
  | none =>
    cases h'
    rfl
  | some h =>
    cases h' with
    | some h' => rw [hf.unique h h' (ho _ rfl)]

/-! ### Ambiguous nodes -/

/-- Below a node that is not ambiguous there is at most one packed node. -/
lemma eq_of_isAmbiguous_eq_false {v q q' : NodeId} {n : Node} (hv : f.node? v = some n)
    (hn : n.isPacked = false) (h : f.isAmbiguous v = false) (hq : q ∈ f.children v)
    (hq' : q' ∈ f.children v) : q = q' := by
  have hlt : (f.children v).length < 2 := by simpa [isAmbiguous, hv, hn] using h
  rcases hchildren : f.children v with _ | ⟨x, _ | ⟨y, xs⟩⟩
  · simp [hchildren] at hq
  · simp_all
  · simp only [hchildren, List.length_cons] at hlt
    omega

/-- Below an ambiguous node there are different packed nodes. -/
lemma WellFormed.exists_ne_of_isAmbiguous (hf : f.WellFormed) {v : NodeId}
    (h : f.isAmbiguous v = true) : ∃ n q q', f.node? v = some n ∧ n.isPacked = false ∧
      q ∈ f.children v ∧ q' ∈ f.children v ∧ f.node? q ≠ f.node? q' := by
  rw [isAmbiguous] at h
  split at h
  next n hv =>
    obtain ⟨hn, hlength⟩ : n.isPacked = false ∧ 2 ≤ (f.children v).length := by simpa using h
    have hchildren := hf.children_eq_packedUnder hv hn
    have hnodup : (f.children v).Nodup := hchildren ▸ hf.nodup
    rcases hlist : f.children v with _ | ⟨q, _ | ⟨q', qs⟩⟩
    · simp [hlist] at hlength
    · simp [hlist] at hlength
    · have hmem {x : NodeId} (hx : x ∈ q :: q' :: qs) : x ∈ f.packedUnder v :=
        hchildren ▸ hlist ▸ hx
      refine ⟨n, q, q', hv, hn, by simp, by simp, fun heq => ?_⟩
      obtain rfl : q = q' := hf.packed_unique (hmem (by simp)) (hmem (by simp)) heq
      simp [hlist] at hnodup
  next => cases h

/-! ### Single changes -/

section push

variable {e : Entry} {new : f.find? e.node = none}

lemma node?_push {i : NodeId} :
    (f.push e new).node? i = if i = f.size then some e.node else f.node? i := by
  simp only [node?, entries_push, Array.getElem?_push, size]
  by_cases h : i = f.entries.size <;> simp [h]

lemma parts_push {i : NodeId} :
    (f.push e new).parts i = if i = f.size then e.parts else f.parts i := by
  simp only [parts, entries_push, Array.getElem?_push, size]
  by_cases h : i = f.entries.size <;> simp [h]

lemma packedUnder_push {i : NodeId} :
    (f.push e new).packedUnder i = if i = f.size then e.packed else f.packedUnder i := by
  simp only [packedUnder_eq, entries_push, Array.getElem?_push, size]
  by_cases h : i = f.entries.size <;> simp [h]

lemma le_push : Le f (f.push e new) := by
  refine ⟨?_, ?_, ?_⟩
  · intro i n hn
    rwa [node?_push, if_neg (Nat.ne_of_lt (lt_size_of_node? hn))]
  · intro i hi
    rw [parts_push, if_neg (Nat.ne_of_lt hi)]
  · intro i q hq
    rwa [packedUnder_push, if_neg (Nat.ne_of_lt (lt_size_of_mem_packedUnder hq))]

end push

section attach

variable {parent q : NodeId}

@[simp] lemma node?_attach {i : NodeId} : (f.attach parent q).node? i = f.node? i := by
  simp only [node?, entries_attach, Array.getElem?_modify]
  split
  · cases f.entries[i]? <;> simp
  · rfl

@[simp] lemma parts_attach {i : NodeId} : (f.attach parent q).parts i = f.parts i := by
  simp only [parts, entries_attach, Array.getElem?_modify]
  split
  · cases f.entries[i]? <;> rfl
  · rfl

lemma packedUnder_attach {i : NodeId} (hp : parent < f.size) :
    (f.attach parent q).packedUnder i =
      if i = parent then f.packedUnder i ++ [q] else f.packedUnder i := by
  simp only [packedUnder_eq, entries_attach, Array.getElem?_modify]
  by_cases h : parent = i
  · subst h
    simp [Array.getElem?_eq_getElem hp]
  · simp [h, Ne.symm h]

lemma le_attach (hp : parent < f.size) : Le f (f.attach parent q) := by
  refine ⟨fun hn => by simpa using hn, fun _ => parts_attach, ?_⟩
  intro i q' hq
  rw [packedUnder_attach hp]
  split
  · exact List.mem_append_left _ hq
  · exact hq

end attach

/-! ### Making nodes -/

/-- What making a node does: it is there afterwards, and nothing else has changed. -/
structure Interned (f : Forest) (n : Node) (i : NodeId) (f' : Forest) : Prop where
  wellFormed : f'.WellFormed
  le : Le f f'
  node : f'.node? i = some n
  back {j : NodeId} {m : Node} : f'.node? j = some m → f.node? j = some m ∨ (j = i ∧ m = n)
  packedUnder {j : NodeId} : f'.packedUnder j = f.packedUnder j

lemma intern_ok (hf : f.WellFormed) {n : Node} {i : NodeId} (hn : n.isPacked = false)
    (h : f.intern n = (i, f')) : Interned f n i f' := by
  rw [intern] at h
  split at h
  next j hj =>
    obtain ⟨rfl, rfl⟩ : j = i ∧ f = f' := by simpa using h
    exact ⟨hf, .refl f, (hf.find?_eq_some_iff hn).mp hj, Or.inl, rfl⟩
  next new =>
    obtain ⟨rfl, rfl⟩ : f.size = i ∧ f.push ⟨n, [], []⟩ new = f' := by simpa using h
    have hfree := (hf.find?_eq_none_iff hn).mp new
    have hback {j : NodeId} {m : Node} (hj : (f.push ⟨n, [], []⟩ new).node? j = some m) :
        f.node? j = some m ∨ (j = f.size ∧ m = n) := by
      rw [node?_push] at hj
      split at hj
      next hj' => exact Or.inr ⟨hj', by simpa using hj.symm⟩
      next => exact Or.inl hj
    have hpacked {j : NodeId} :
        (f.push ⟨n, [], []⟩ new).packedUnder j = f.packedUnder j := by
      rw [packedUnder_push]
      split
      next hj => simp [hj, packedUnder_eq, size]
      next => rfl
    have hnode {j : NodeId} {m : Node} (hj : f.node? j = some m) :
        (f.push ⟨n, [], []⟩ new).node? j = some m := le_push.node hj
    refine ⟨⟨?_, ?_, ?_, ?_, ?_, ?_, ?_⟩, le_push, by simp [node?_push], hback, hpacked⟩
    · intro i j m hi hj hm
      rcases hback hi with hi | ⟨hi, hmn⟩ <;> rcases hback hj with hj | ⟨hj, hmn'⟩
      · exact hf.unique hi hj hm
      · exact absurd (hmn' ▸ hi) (hfree i)
      · exact absurd (hmn ▸ hj) (hfree j)
      · rw [hi, hj]
    · intro i m hi hm
      rw [parts_push]
      split
      · rfl
      next hne =>
        rcases hback hi with hi | ⟨hi, -⟩
        · exact hf.parts_nil hi hm
        · exact absurd hi hne
    · intro i q hq
      rw [hpacked] at hq
      obtain ⟨⟨slot, pivot, hqn⟩, m, hm, hmk⟩ := hf.packed_kind hq
      exact ⟨⟨slot, pivot, hnode hqn⟩, m, hnode hm, hmk⟩
    · intro i q q' hq hq' heq
      rw [hpacked] at hq hq'
      obtain ⟨⟨slot, pivot, hqn⟩, -⟩ := hf.packed_kind hq
      obtain ⟨⟨slot', pivot', hqn'⟩, -⟩ := hf.packed_kind hq'
      rw [hnode hqn, hnode hqn'] at heq
      exact hf.packed_unique hq hq' (by rw [hqn, hqn', heq])
    · intro i i' q hq hq'
      rw [hpacked] at hq hq'
      exact hf.parent_unique hq hq'
    · intro q slot pivot hq
      simp only [hpacked]
      rcases hback hq with hq | ⟨-, rfl⟩
      · exact hf.parent hq
      · simp [Node.isPacked] at hn
    · intro i
      rw [hpacked]
      exact hf.nodup

/-- A node that is there is found again. -/
lemma intern_eq_self (hf : f.WellFormed) {n : Node} {i : NodeId} (hn : n.isPacked = false)
    (hi : f.node? i = some n) : f.intern n = (i, f) := by
  have hfind := (hf.find?_eq_some_iff hn).mpr hi
  rw [intern]
  split
  next j hj =>
    rw [hfind] at hj
    rw [Option.some.inj hj]
  next hnone =>
    rw [hfind] at hnone
    cases hnone

lemma mem_hasPacked {parent : NodeId} {slot : SlotId} {pivot : Nat} :
    f.hasPacked parent slot pivot = true ↔
      ∃ q ∈ f.packedUnder parent, f.node? q = some (.packed slot pivot) := by
  simp [hasPacked]

lemma Le.hasPacked (h : Le f f') {parent : NodeId} {slot : SlotId} {pivot : Nat}
    (hp : f.hasPacked parent slot pivot = true) : f'.hasPacked parent slot pivot = true := by
  obtain ⟨q, hq, hqn⟩ := mem_hasPacked.mp hp
  exact mem_hasPacked.mpr ⟨q, h.packed hq, h.node hqn⟩

/-- What making a packed node does: it is there afterwards, and it is the only one that may be
new. -/
structure Packed (f : Forest) (parent : NodeId) (slot : SlotId) (pivot : Nat)
    (left : Option NodeId) (right : NodeId) (f' : Forest) : Prop where
  wellFormed : f'.WellFormed
  le : Le f f'
  hasPacked : f'.hasPacked parent slot pivot = true
  back {i : NodeId} {n : Node} : f'.node? i = some n →
    f.node? i = some n ∨ n = .packed slot pivot
  new {i q : NodeId} : q ∈ f'.packedUnder i → q ∈ f.packedUnder i ∨
    (i = parent ∧ f'.node? q = some (.packed slot pivot) ∧
      f'.parts q = left.toList ++ [right])

/-- One packed node has been added, at the end, below `parent`. -/
structure Packing (f : Forest) (parent : NodeId) (slot : SlotId) (pivot : Nat)
    (parts : List NodeId) (f' : Forest) : Prop where
  node {i : NodeId} :
    f'.node? i = if i = f.size then some (.packed slot pivot) else f.node? i
  parts {i : NodeId} : f'.parts i = if i = f.size then parts else f.parts i
  packedUnder {i : NodeId} :
    f'.packedUnder i = if i = parent then f.packedUnder i ++ [f.size] else f.packedUnder i
  le : Le f f'

lemma packing_push {parent : NodeId} (hp : parent < f.size) (slot : SlotId) (pivot : Nat)
    (parts : List NodeId) : Packing f parent slot pivot parts
      ((f.push ⟨.packed slot pivot, parts, []⟩ (f.find?_packed slot pivot)).attach parent
        f.size) := by
  have hp' : parent < (f.push ⟨.packed slot pivot, parts, []⟩
      (f.find?_packed slot pivot)).size := by
    simp only [size, entries_push, Array.size_push]
    exact Nat.lt_succ_of_lt hp
  refine ⟨?_, ?_, ?_, le_push.trans (le_attach hp')⟩
  · intro i
    rw [node?_attach, node?_push]
  · intro i
    rw [parts_attach, parts_push]
  · intro i
    have hnil : f.packedUnder f.size = [] := by simp [packedUnder_eq, size]
    rw [packedUnder_attach hp', packedUnder_push]
    by_cases hi : i = f.size
    · simp [hi, hnil]
    · simp [hi]

namespace Packing

variable {parent : NodeId} {slot : SlotId} {pivot : Nat} {parts : List NodeId}
  (h : Packing f parent slot pivot parts f')
include h

lemma self : f'.node? f.size = some (.packed slot pivot) := by rw [h.node, if_pos rfl]

lemma mem_parent : f.size ∈ f'.packedUnder parent := by simp [h.packedUnder]

lemma back {i : NodeId} {n : Node} (hi : f'.node? i = some n) :
    f.node? i = some n ∨ (i = f.size ∧ n = .packed slot pivot) := by
  rw [h.node] at hi
  split at hi
  next heq => exact Or.inr ⟨heq, by simpa using hi.symm⟩
  next => exact Or.inl hi

lemma new {i q : NodeId} (hq : q ∈ f'.packedUnder i) :
    q ∈ f.packedUnder i ∨ (i = parent ∧ q = f.size) := by
  rw [h.packedUnder] at hq
  split at hq
  next heq => simpa [heq] using hq
  next => exact Or.inl hq

/-- Only the new packed node has its slot and pivot below `parent`, so these still tell apart what
is packed below a node. -/
lemma packed_unique (hf : f.WellFormed) (hhas : ¬ f.hasPacked parent slot pivot = true)
    {i q q' : NodeId} (hq : q ∈ f'.packedUnder i) (hq' : q' ∈ f'.packedUnder i)
    (heq : f'.node? q = f'.node? q') : q = q' := by
  have hold {i q : NodeId} (hq : q ∈ f.packedUnder i) : f'.node? q = f.node? q := by
    rw [h.node, if_neg (Nat.ne_of_lt (hf.lt_size hq))]
  have hother {r : NodeId} (hr : r ∈ f.packedUnder parent) :
      f'.node? r ≠ some (.packed slot pivot) := by
    intro hrn
    rw [hold hr] at hrn
    exact hhas (mem_hasPacked.mpr ⟨r, hr, hrn⟩)
  rcases h.new hq with hq | ⟨hi, hqs⟩ <;> rcases h.new hq' with hq' | ⟨hi', hqs'⟩
  · rw [hold hq, hold hq'] at heq
    exact hf.packed_unique hq hq' heq
  · exact absurd (heq.trans (hqs' ▸ h.self)) (hother (hi' ▸ hq))
  · exact absurd (heq.symm.trans (hqs ▸ h.self)) (hother (hi ▸ hq'))
  · rw [hqs, hqs']

lemma wellFormed (hf : f.WellFormed) {m : Node} (hp : f.node? parent = some m)
    (hm : m.isPacked = false) (hhas : ¬ f.hasPacked parent slot pivot = true) :
    f'.WellFormed := by
  refine ⟨?_, ?_, ?_, h.packed_unique hf hhas, ?_, ?_, ?_⟩
  · intro i j n hi hj hn
    rcases h.back hi with hi | ⟨-, rfl⟩
    · rcases h.back hj with hj | ⟨-, rfl⟩
      · exact hf.unique hi hj hn
      · cases hn
    · cases hn
  · intro i n hi hn
    rcases h.back hi with hi | ⟨-, rfl⟩
    · rw [h.parts, if_neg (Nat.ne_of_lt (lt_size_of_node? hi))]
      exact hf.parts_nil hi hn
    · cases hn
  · intro i q hq
    rcases h.new hq with hq | ⟨rfl, rfl⟩
    · obtain ⟨⟨s, k, hqn⟩, n, hn, hnk⟩ := hf.packed_kind hq
      exact ⟨⟨s, k, h.le.node hqn⟩, n, h.le.node hn, hnk⟩
    · exact ⟨⟨slot, pivot, h.self⟩, m, h.le.node hp, hm⟩
  · intro i i' q hq hq'
    rcases h.new hq with hq | ⟨hi, hqs⟩ <;> rcases h.new hq' with hq' | ⟨hi', hqs'⟩
    · exact hf.parent_unique hq hq'
    · exact absurd hqs' (Nat.ne_of_lt (hf.lt_size hq))
    · exact absurd hqs (Nat.ne_of_lt (hf.lt_size hq'))
    · rw [hi, hi']
  · intro q s k hq
    rcases h.back hq with hq | ⟨rfl, -⟩
    · obtain ⟨i, hi⟩ := hf.parent hq
      exact ⟨i, h.le.packed hi⟩
    · exact ⟨parent, h.mem_parent⟩
  · intro i
    rw [h.packedUnder]
    split
    · apply List.nodup_append.mpr
      refine ⟨hf.nodup, List.nodup_singleton _, ?_⟩
      intro q hq r hr
      obtain rfl := List.mem_singleton.mp hr
      exact Nat.ne_of_lt (hf.lt_size hq)
    · exact hf.nodup

end Packing

lemma pack_eq_self {parent right : NodeId} {slot : SlotId} {pivot : Nat} {left : Option NodeId}
    (h : f.hasPacked parent slot pivot = true) :
    f.pack parent slot pivot left right = (false, f) := by
  rw [pack, if_pos h]

lemma pack_ok (hf : f.WellFormed) {parent : NodeId} {m : Node} (slot : SlotId) (pivot : Nat)
    (left : Option NodeId) (right : NodeId) (hp : f.node? parent = some m)
    (hm : m.isPacked = false) :
    Packed f parent slot pivot left right (f.pack parent slot pivot left right).2 := by
  rw [pack]
  split
  next hhas => exact ⟨hf, .refl f, hhas, Or.inl, Or.inl⟩
  next hhas =>
    have h := packing_push (lt_size_of_node? hp) slot pivot (left.toList ++ [right])
    refine ⟨h.wellFormed hf hp hm hhas, h.le, mem_hasPacked.mpr ⟨_, h.mem_parent, h.self⟩, ?_, ?_⟩
    · intro i n hi
      exact (h.back hi).imp id And.right
    · intro i q hq
      rcases h.new hq with hq | ⟨rfl, rfl⟩
      · exact Or.inl hq
      · exact Or.inr ⟨rfl, h.self, by rw [h.parts, if_pos rfl]⟩

end GeneralParser.Forest
