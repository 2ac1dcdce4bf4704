import GeneralParser.Proofs.Forest
import Mathlib.Data.Finset.Card

/-!
# Forests as tables

Seen from outside, a forest is a table of nodes that only grows. What it answers is determined by
the calls made before: a node keeps the number that it was given when it was first asked for, a
packed node is new if its parent has not been asked for one with the same slot and pivot before, and
the packed nodes below a node are those that were new, in the order of the calls.
-/

namespace GeneralParser.Forest

/-! ### Logs -/

/-- A packed node as it is asked for. -/
structure Request where
  parent : NodeId
  slot : SlotId
  pivot : Nat
  left : Option NodeId
  right : NodeId
  deriving DecidableEq, Repr

namespace Request

/-- What identifies the packed node. -/
def key (r : Request) : NodeId × SlotId × Nat := (r.parent, r.slot, r.pivot)

/-- The packed node itself. -/
def node (r : Request) : Node := .packed r.slot r.pivot

/-- Its parts, if it is new. -/
def parts (r : Request) : List NodeId := r.left.toList ++ [r.right]

end Request

/-- A call that a forest has answered. -/
inductive Call where
  /-- A node was asked for, and has this number. -/
  | interned (n : Node) (i : NodeId)
  /-- A packed node was asked for, and was new or not. -/
  | packed (r : Request) (new : Bool)
  deriving DecidableEq, Repr

/-- The numbers that were given out, the newest first. -/
def numbers (log : List Call) : List NodeId :=
  log.filterMap fun
    | .interned _ i => some i
    | .packed _ _ => none

/-- The forests that a sequence of calls leads to, with the calls that were answered, the newest
first. Packed nodes are only made of nodes whose numbers were given out. -/
inductive Logged : List Call → Forest → Prop
  | empty : Logged [] empty
  | intern {log : List Call} {f f' : Forest} {n : Node} {i : NodeId} :
    Logged log f → n.isPacked = false → f.intern n = (i, f') → Logged (.interned n i :: log) f'
  | pack {log : List Call} {f f' : Forest} {r : Request} {new : Bool} :
    Logged log f → (∀ i ∈ r.parent :: r.parts, i ∈ numbers log) →
    f.pack r.parent r.slot r.pivot r.left r.right = (new, f') →
    Logged (.packed r new :: log) f'

/-- The nodes that were asked for, packed ones apart. -/
def nodesAsked (log : List Call) : List Node :=
  log.filterMap fun
    | .interned n _ => some n
    | .packed _ _ => none

/-- The keys of the packed nodes that were asked for. -/
def keysAsked (log : List Call) : List (NodeId × SlotId × Nat) :=
  log.filterMap fun
    | .interned _ _ => none
    | .packed r _ => some r.key

/-- The requests for packed nodes below node `i` that were new, the oldest first. -/
def acceptedBelow (log : List Call) (i : NodeId) : List Request :=
  (log.filterMap fun
    | .packed r true => if r.parent = i then some r else none
    | _ => none).reverse

section

variable {log : List Call} {n : Node} {i j : NodeId} {r : Request} {new : Bool}

@[simp] lemma nodesAsked_interned :
    nodesAsked (.interned n i :: log) = n :: nodesAsked log := rfl

@[simp] lemma nodesAsked_packed : nodesAsked (.packed r new :: log) = nodesAsked log := rfl

@[simp] lemma keysAsked_interned : keysAsked (.interned n i :: log) = keysAsked log := rfl

@[simp] lemma keysAsked_packed : keysAsked (.packed r new :: log) = r.key :: keysAsked log := rfl

@[simp] lemma acceptedBelow_interned :
    acceptedBelow (.interned n i :: log) j = acceptedBelow log j := rfl

lemma acceptedBelow_new : acceptedBelow (.packed r true :: log) i =
    if i = r.parent then acceptedBelow log i ++ [r] else acceptedBelow log i := by
  by_cases h : r.parent = i
  · simp [acceptedBelow, h]
  · simp [acceptedBelow, h, Ne.symm h]

lemma mem_numbers : i ∈ numbers log ↔ ∃ n, Call.interned n i ∈ log := by
  simp only [numbers, List.mem_filterMap]
  constructor
  · rintro ⟨c, hc, h⟩
    cases c with
    | interned n j =>
      obtain rfl : j = i := by simpa using h
      exact ⟨n, hc⟩
    | packed r new => cases h
  · rintro ⟨n, hn⟩
    exact ⟨_, hn, rfl⟩

lemma mem_nodesAsked : n ∈ nodesAsked log ↔ ∃ i, Call.interned n i ∈ log := by
  simp only [nodesAsked, List.mem_filterMap]
  constructor
  · rintro ⟨c, hc, h⟩
    cases c with
    | interned m i =>
      obtain rfl : m = n := by simpa using h
      exact ⟨i, hc⟩
    | packed r new => cases h
  · rintro ⟨i, hi⟩
    exact ⟨_, hi, rfl⟩

end

/-! ### Single calls -/

variable {f f' : Forest}

/-- A node that is asked for is there already, or is put at the end. -/
lemma intern_cases {n : Node} {i : NodeId} (h : f.intern n = (i, f')) :
    (f.find? n = some i ∧ f' = f) ∨ (f.find? n = none ∧ f'.size = f.size + 1) := by
  rw [intern] at h
  split at h
  next j hj =>
    obtain ⟨rfl, rfl⟩ : j = i ∧ f = f' := by simpa using h
    exact Or.inl ⟨hj, rfl⟩
  next hnone =>
    obtain ⟨rfl, rfl⟩ : f.size = i ∧ f.push ⟨n, [], []⟩ hnone = f' := by simpa using h
    exact Or.inr ⟨hnone, by simp [size]⟩

/-- So is a packed node. -/
lemma pack_cases {r : Request} {new : Bool} (hp : r.parent < f.size)
    (h : f.pack r.parent r.slot r.pivot r.left r.right = (new, f')) :
    (f.hasPacked r.parent r.slot r.pivot = true ∧ new = false ∧ f' = f) ∨
      (f.hasPacked r.parent r.slot r.pivot = false ∧ new = true ∧
        Packing f r.parent r.slot r.pivot r.parts f' ∧ f'.size = f.size + 1) := by
  rw [pack] at h
  split at h
  next hhas =>
    obtain ⟨rfl, rfl⟩ : false = new ∧ f = f' := by simpa using h
    exact Or.inl ⟨hhas, rfl, rfl⟩
  next hhas =>
    obtain ⟨rfl, rfl⟩ : true = new ∧ _ = f' := by simpa using h
    refine Or.inr ⟨by simpa using hhas, rfl, packing_push hp r.slot r.pivot r.parts, ?_⟩
    simp [size]

/-- A forest has grown, and what is new below a node comes last. -/
structure Grows (f f' : Forest) : Prop where
  le : Le f f'
  packedUnder (i : NodeId) : f.packedUnder i <+: f'.packedUnder i

lemma Grows.refl (f : Forest) : Grows f f := ⟨.refl f, fun _ => List.prefix_refl _⟩

lemma Grows.trans {f'' : Forest} (h : Grows f f') (h' : Grows f' f'') : Grows f f'' :=
  ⟨h.le.trans h'.le, fun i => (h.packedUnder i).trans (h'.packedUnder i)⟩

lemma Packing.grows {r : Request} (h : Packing f r.parent r.slot r.pivot r.parts f') :
    Grows f f' := by
  refine ⟨h.le, fun i => ?_⟩
  rw [h.packedUnder]
  split
  · exact List.prefix_append _ _
  · exact List.prefix_refl _

/-! ### Accounts -/

/-- What a forest remembers of the calls that led to it. -/
structure Account (log : List Call) (f : Forest) : Prop where
  wellFormed : f.WellFormed
  unpacked {n : Node} {i : NodeId} : .interned n i ∈ log → n.isPacked = false
  node_iff {n : Node} {i : NodeId} : n.isPacked = false → (f.node? i = some n ↔ .interned n i ∈ log)
  key_iff {i : NodeId} {slot : SlotId} {pivot : Nat} :
    (i, slot, pivot) ∈ keysAsked log ↔ f.hasPacked i slot pivot = true
  /-- Below each node there are the packed nodes that were new, with the parts that they were made
  of. -/
  packed (i : NodeId) : List.Forall₂ (fun q r => f.node? q = some r.node ∧ f.parts q = r.parts)
    (f.packedUnder i) (acceptedBelow log i)
  /-- They are numbered in the order in which they were made. -/
  sorted (i : NodeId) : (f.packedUnder i).Pairwise (· < ·)
  size : f.size = (nodesAsked log).toFinset.card + (keysAsked log).toFinset.card

namespace Account

variable {log : List Call} {n : Node} {i : NodeId} {r : Request} {new : Bool}

lemma empty : Account [] Forest.empty where
  wellFormed := wellFormed_empty
  unpacked h := by cases h
  node_iff := by simp [node?, Forest.empty]
  key_iff := by simp [keysAsked, hasPacked, packedUnder, Forest.empty]
  packed i := by simp [packedUnder, Forest.empty, acceptedBelow]
  sorted i := by simp [packedUnder, Forest.empty]
  size := rfl

lemma mem_nodesAsked_iff (h : Account log f) (hn : n.isPacked = false) :
    n ∈ nodesAsked log ↔ f.find? n ≠ none := by
  rw [mem_nodesAsked, ne_eq, h.wellFormed.find?_eq_none_iff hn]
  simp only [h.node_iff hn, ne_eq, not_forall, not_not]

/-- What is there stays as it is when the forest grows. -/
lemma packed_mono (h : Account log f) (hle : Le f f') (i : NodeId) :
    List.Forall₂ (fun q r => f'.node? q = some r.node ∧ f'.parts q = r.parts)
      (f.packedUnder i) (acceptedBelow log i) := by
  refine (h.packed i).imp fun q r ⟨hq, hparts⟩ => ⟨hle.node hq, ?_⟩
  rw [hle.parts (lt_size_of_node? hq), hparts]

lemma exists_parent (h : Account log f) (hr : r.parent ∈ numbers log) :
    ∃ n, f.node? r.parent = some n ∧ n.isPacked = false := by
  obtain ⟨n, hn⟩ := mem_numbers.mp hr
  have hk := h.unpacked hn
  exact ⟨n, (h.node_iff hk).mpr hn, hk⟩

lemma intern (h : Account log f) (hn : n.isPacked = false) (hi : f.intern n = (i, f')) :
    Account (.interned n i :: log) f' := by
  have hint := intern_ok h.wellFormed hn hi
  refine ⟨hint.wellFormed, ?_, ?_, ?_, ?_, ?_, ?_⟩
  · intro m j hm
    rcases List.mem_cons.mp hm with hm | hm
    · cases hm
      exact hn
    · exact h.unpacked hm
  · intro m j hm
    rw [List.mem_cons, ← h.node_iff hm]
    constructor
    · intro hj
      rcases hint.back hj with hj | ⟨rfl, rfl⟩
      · exact Or.inr hj
      · exact Or.inl rfl
    · rintro (hj | hj)
      · cases hj
        exact hint.node
      · exact hint.le.node hj
  · intro j slot pivot
    rw [keysAsked_interned, h.key_iff]
    refine ⟨hint.le.hasPacked, fun hp => ?_⟩
    obtain ⟨q, hq, hqn⟩ := mem_hasPacked.mp hp
    rcases hint.back hqn with hqn | ⟨-, rfl⟩
    · exact mem_hasPacked.mpr ⟨q, hint.packedUnder ▸ hq, hqn⟩
    · cases hn
  · intro j
    rw [hint.packedUnder, acceptedBelow_interned]
    exact h.packed_mono hint.le j
  · intro j
    rw [hint.packedUnder]
    exact h.sorted j
  · rw [nodesAsked_interned, keysAsked_interned, List.toFinset_cons]
    have hmem := h.mem_nodesAsked_iff hn
    rcases intern_cases hi with ⟨hfind, rfl⟩ | ⟨hfind, hsize⟩
    · rw [Finset.insert_eq_of_mem (List.mem_toFinset.mpr (hmem.mpr (by simp [hfind]))), h.size]
    · rw [Finset.card_insert_of_notMem (by simpa [hmem] using hfind), hsize, h.size]
      omega

/-- A packed node that is there already changes nothing. -/
lemma pack_known (h : Account log f) (hhas : f.hasPacked r.parent r.slot r.pivot = true) :
    Account (.packed r false :: log) f := by
  have hmem : r.key ∈ keysAsked log := h.key_iff.mpr hhas
  refine ⟨h.wellFormed, ?_, ?_, ?_, h.packed, h.sorted, ?_⟩
  · intro n i hi
    exact h.unpacked (by simpa using hi)
  · intro n i hn
    simpa using h.node_iff hn
  · intro i slot pivot
    rw [keysAsked_packed, List.mem_cons, ← h.key_iff]
    refine or_iff_right_of_imp ?_
    rintro heq
    exact heq ▸ hmem
  · rw [nodesAsked_packed, keysAsked_packed, List.toFinset_cons,
      Finset.insert_eq_of_mem (List.mem_toFinset.mpr hmem), h.size]

/-- A new one comes last below its parent. -/
lemma pack_new (h : Account log f) (hr : r.parent ∈ numbers log)
    (hhas : f.hasPacked r.parent r.slot r.pivot = false)
    (hp : Packing f r.parent r.slot r.pivot r.parts f') (hsize : f'.size = f.size + 1) :
    Account (.packed r true :: log) f' := by
  obtain ⟨m, hm, hmk⟩ := h.exists_parent hr
  have hnew : r.key ∉ keysAsked log := by
    rw [Request.key, h.key_iff, hhas]
    exact Bool.false_ne_true
  refine ⟨hp.wellFormed h.wellFormed hm hmk (by simp [hhas]), ?_, ?_, ?_, ?_, ?_, ?_⟩
  · intro n i hi
    exact h.unpacked (by simpa using hi)
  · intro n i hn
    rw [List.mem_cons, or_iff_right (by simp), ← h.node_iff hn]
    refine ⟨fun hi => ?_, hp.le.node⟩
    rcases hp.back hi with hi | ⟨-, rfl⟩
    · exact hi
    · cases hn
  · intro i slot pivot
    rw [keysAsked_packed, List.mem_cons, h.key_iff]
    constructor
    · rintro (heq | hi)
      · obtain ⟨rfl, rfl, rfl⟩ : i = r.parent ∧ slot = r.slot ∧ pivot = r.pivot := by
          simpa [Request.key] using heq
        exact mem_hasPacked.mpr ⟨_, hp.mem_parent, hp.self⟩
      · exact hp.le.hasPacked hi
    · intro hi
      obtain ⟨q, hq, hqn⟩ := mem_hasPacked.mp hi
      rcases hp.new hq with hq | ⟨rfl, rfl⟩
      · rw [hp.node, if_neg (Nat.ne_of_lt (h.wellFormed.lt_size hq))] at hqn
        exact Or.inr (mem_hasPacked.mpr ⟨q, hq, hqn⟩)
      · rw [hp.self] at hqn
        cases hqn
        exact Or.inl rfl
  · intro i
    rw [hp.packedUnder, acceptedBelow_new]
    split
    next hi =>
      refine List.rel_append (h.packed_mono hp.le i) (.cons ⟨hp.self, ?_⟩ .nil)
      rw [hp.parts, if_pos rfl]
    next => exact h.packed_mono hp.le i
  · intro i
    rw [hp.packedUnder]
    split
    · refine List.pairwise_append.mpr ⟨h.sorted i, List.pairwise_singleton _ _, ?_⟩
      intro q hq q' hq'
      rw [List.mem_singleton.mp hq']
      exact h.wellFormed.lt_size hq
    · exact h.sorted i
  · rw [nodesAsked_packed, keysAsked_packed, List.toFinset_cons,
      Finset.card_insert_of_notMem (by simpa using hnew), hsize, h.size]
    omega

end Account

namespace Logged

variable {log calls : List Call}

lemma account (h : Logged log f) : Account log f := by
  induction h with
  | empty => exact .empty
  | intern _ hn hi ih => exact ih.intern hn hi
  | pack _ hr hp ih =>
    obtain ⟨m, hm, -⟩ := ih.exists_parent (hr _ List.mem_cons_self)
    rcases pack_cases (lt_size_of_node? hm) hp with ⟨hhas, rfl, rfl⟩ | ⟨hhas, rfl, hpack, hsize⟩
    · exact ih.pack_known hhas
    · exact ih.pack_new (hr _ List.mem_cons_self) hhas hpack hsize

/-- A log has been kept from the beginning. -/
lemma earlier (h : Logged (calls ++ log) f) : ∃ f', Logged log f' := by
  induction calls generalizing f with
  | nil => exact ⟨f, h⟩
  | cons c calls ih =>
    cases h with
    | intern h | pack h => exact ih h

/-- A log determines the forest. -/
lemma unique (h : Logged log f) (h' : Logged log f') : f = f' := by
  induction h generalizing f' with
  | empty =>
    cases h'
    rfl
  | intern _ _ hi ih =>
    cases h' with
    | intern h' _ hi' =>
      rw [ih h', hi'] at hi
      exact (Prod.mk.inj hi).2.symm
  | pack _ _ hp ih =>
    cases h' with
    | pack h' _ hp' =>
      rw [ih h', hp'] at hp
      exact (Prod.mk.inj hp).2.symm

/-- What is there stays when further calls are made. -/
lemma grows (h : Logged log f) (h' : Logged (calls ++ log) f') : Grows f f' := by
  induction calls generalizing f' with
  | nil => exact h.unique h' ▸ .refl f
  | cons c calls ih =>
    cases h' with
    | intern h' hn hi =>
      have hint := intern_ok h'.account.wellFormed hn hi
      exact (ih h').trans ⟨hint.le, fun i => hint.packedUnder ▸ List.prefix_refl _⟩
    | pack h' hr hp =>
      obtain ⟨m, hm, -⟩ := h'.account.exists_parent (hr _ List.mem_cons_self)
      rcases pack_cases (lt_size_of_node? hm) hp with ⟨-, -, rfl⟩ | ⟨-, -, hpack, -⟩
      · exact ih h'
      · exact (ih h').trans hpack.grows

end Logged

/-! ### The table -/

/-- Below a node that was asked for there are its packed nodes, and below these their parts. -/
lemma Account.children {log : List Call} (h : Account log f) {n : Node} {i : NodeId}
    (hi : .interned n i ∈ log) :
    List.Forall₂ (fun q r => f.node? q = some r.node ∧ f.children q = r.parts) (f.children i)
      (acceptedBelow log i) ∧ (f.children i).Pairwise (· < ·) := by
  have hn := h.unpacked hi
  rw [h.wellFormed.children_eq_packedUnder ((h.node_iff hn).mpr hi) hn]
  refine ⟨(h.packed i).imp fun q r ⟨hq, hparts⟩ => ⟨hq, ?_⟩, h.sorted i⟩
  rw [h.wellFormed.children_eq_parts hq, hparts]

/-- A node is ambiguous if packed nodes with different keys were asked for below it. -/
lemma Account.isAmbiguous_iff {log : List Call} (h : Account log f) {i : NodeId} :
    f.isAmbiguous i = true ↔
      ∃ a b, (i, a) ∈ keysAsked log ∧ (i, b) ∈ keysAsked log ∧ a ≠ b := by
  constructor
  · intro hamb
    obtain ⟨n, q, q', hi, hn, hq, hq', hne⟩ := h.wellFormed.exists_ne_of_isAmbiguous hamb
    rw [h.wellFormed.children_eq_packedUnder hi hn] at hq hq'
    obtain ⟨⟨slot, pivot, hqn⟩, -⟩ := h.wellFormed.packed_kind hq
    obtain ⟨⟨slot', pivot', hqn'⟩, -⟩ := h.wellFormed.packed_kind hq'
    refine ⟨(slot, pivot), (slot', pivot'), h.key_iff.mpr (mem_hasPacked.mpr ⟨q, hq, hqn⟩),
      h.key_iff.mpr (mem_hasPacked.mpr ⟨q', hq', hqn'⟩), ?_⟩
    rintro heq
    obtain ⟨rfl, rfl⟩ := Prod.mk.inj heq
    exact hne (hqn.trans hqn'.symm)
  · rintro ⟨⟨slot, pivot⟩, ⟨slot', pivot'⟩, ha, hb, hne⟩
    obtain ⟨q, hq, hqn⟩ := mem_hasPacked.mp (h.key_iff.mp ha)
    obtain ⟨q', hq', hqn'⟩ := mem_hasPacked.mp (h.key_iff.mp hb)
    obtain ⟨-, n, hi, hn⟩ := h.wellFormed.packed_kind hq
    rw [← h.wellFormed.children_eq_packedUnder hi hn] at hq hq'
    by_contra hamb
    obtain rfl := eq_of_isAmbiguous_eq_false hi hn (by simpa using hamb) hq hq'
    rw [hqn] at hqn'
    cases hqn'
    exact hne rfl

/-- Every node is of one kind. -/
lemma counts_sum (f : Forest) : f.counts.terminal + f.counts.epsilon + f.counts.nonterminal +
    f.counts.intermediate + f.counts.packed = f.size := by
  have hlength : f.size = f.nodes.length := by simp [size, nodes]
  rw [hlength]
  simp only [counts]
  induction f.nodes with
  | nil => rfl
  | cons n ns ih =>
    rw [List.length_cons, ← ih]
    cases n <;> simp [List.countP_cons, Node.isPacked] <;> omega

lemma mem_ambiguousNodes {i : NodeId} : i ∈ f.ambiguousNodes ↔ f.isAmbiguous i = true := by
  rw [ambiguousNodes, List.mem_filter, List.mem_range, and_iff_right_iff_imp]
  intro h
  rw [isAmbiguous] at h
  split at h
  next n hn => exact lt_size_of_node? hn
  next => cases h

lemma Grows.children (h : Grows f f') (i : NodeId) : f.children i <+: f'.children i := by
  by_cases hi : i < f.size
  · rw [children_eq, children_eq, h.le.parts hi]
    exact (List.prefix_append_right_inj _).mpr (h.packedUnder i)
  · have hnone : f.entries[i]? = none := Array.getElem?_eq_none (Nat.le_of_not_lt hi)
    simp [Forest.children, hnone]

/-- What calls to a forest come to: it is a table in which every node is entered once, and nothing
that was entered ever changes. -/
structure Interns (log : List Call) (f : Forest) : Prop where
  /-- Numbers are equal if the nodes are. -/
  number_eq_iff {m n : Node} {i j : NodeId} :
    .interned m i ∈ log → .interned n j ∈ log → (i = j ↔ m = n)
  /-- Those nodes are found, by their numbers, that were asked for; they are not packed. -/
  find? (n : Node) (i : NodeId) : f.find? n = some i ↔ .interned n i ∈ log
  /-- A packed node is new if it was not asked for before. -/
  new {later earlier : List Call} {r : Request} {new : Bool} :
    log = later ++ .packed r new :: earlier → (new = true ↔ r.key ∉ keysAsked earlier)
  /-- One that is not new changes nothing. -/
  unchanged {r : Request} {f' : Forest} : Logged (.packed r false :: log) f' → f' = f
  /-- Below a node there are the packed nodes that were new, in the order in which they were made,
  and below each of them the parts that it was made of. -/
  children {n : Node} {i : NodeId} : .interned n i ∈ log →
    List.Forall₂ (fun q r => f.node? q = some r.node ∧ f.children q = r.parts) (f.children i)
      (acceptedBelow log i) ∧ (f.children i).Pairwise (· < ·)
  /-- No later calls change a node, -/
  node_kept {calls : List Call} {f' : Forest} {i : NodeId} {n : Node} :
    Logged (calls ++ log) f' → f.node? i = some n → f'.node? i = some n
  /-- or the parts of a packed node, -/
  parts_kept {calls : List Call} {f' : Forest} {q : NodeId} {slot : SlotId} {pivot : Nat} :
    Logged (calls ++ log) f' → f.node? q = some (.packed slot pivot) →
      f'.children q = f.children q
  /-- and what they add below a node comes last. -/
  children_kept {calls : List Call} {f' : Forest} (i : NodeId) :
    Logged (calls ++ log) f' → f.children i <+: f'.children i
  /-- A node is ambiguous if packed nodes with different slots or pivots were asked for below it. -/
  isAmbiguous (i : NodeId) : f.isAmbiguous i = true ↔
    ∃ a b, (i, a) ∈ keysAsked log ∧ (i, b) ∈ keysAsked log ∧ a ≠ b
  /-- There are as many nodes as different ones were asked for. -/
  size : f.size = (nodesAsked log).toFinset.card + (keysAsked log).toFinset.card
  counts : f.counts.terminal + f.counts.epsilon + f.counts.nonterminal + f.counts.intermediate +
    f.counts.packed = f.size
  /-- The ambiguous nodes are listed once, and counted. -/
  ambiguous : f.counts.ambiguous = f.ambiguousNodes.length ∧ f.ambiguousNodes.Nodup ∧
    ∀ i, i ∈ f.ambiguousNodes ↔ f.isAmbiguous i = true

/-- Whatever is asked of a forest, it serves as such a table. -/
theorem logged_interns {log : List Call} (h : Logged log f) : Interns log f := by
  have ha := h.account
  refine ⟨?_, ?_, ?_, ?_, ha.children, fun h' => (h.grows h').le.node, ?_,
    fun i h' => (h.grows h').children i, fun _ => ha.isAmbiguous_iff, ha.size, counts_sum f,
    rfl, List.nodup_range.filter _, fun _ => mem_ambiguousNodes⟩
  · intro m n i j hm hn
    have hi := (ha.node_iff (ha.unpacked hm)).mpr hm
    have hj := (ha.node_iff (ha.unpacked hn)).mpr hn
    constructor
    · rintro rfl
      exact Option.some.inj (hi.symm.trans hj)
    · rintro rfl
      exact ha.wellFormed.unique hi hj (ha.unpacked hm)
  · intro n i
    cases hn : n.isPacked with
    | false => rw [ha.wellFormed.find?_eq_some_iff hn, ha.node_iff hn]
    | true =>
      rw [find?_eq, if_pos hn]
      simp only [reduceCtorEq, false_iff]
      intro hi
      exact Bool.false_ne_true ((ha.unpacked hi).symm.trans hn)
  · rintro later earlier r new rfl
    obtain ⟨f₁, h₁⟩ := h.earlier
    cases h₁ with
    | @pack _ f₀ _ _ _ h₀ hr hp =>
      obtain ⟨m, hm, -⟩ := h₀.account.exists_parent (hr _ List.mem_cons_self)
      rw [Request.key, h₀.account.key_iff]
      rcases pack_cases (lt_size_of_node? hm) hp with ⟨hhas, rfl, -⟩ | ⟨hhas, rfl, -⟩ <;>
        simp [hhas]
  · intro r f' h'
    cases h' with
    | pack h₀ hr hp =>
      obtain rfl := h.unique h₀
      obtain ⟨m, hm, -⟩ := ha.exists_parent (hr _ List.mem_cons_self)
      rcases pack_cases (lt_size_of_node? hm) hp with ⟨-, -, hf⟩ | ⟨-, hnew, -⟩
      · exact hf
      · cases hnew
  · intro calls f' q slot pivot h' hq
    have hg := h.grows h'
    have hf' := h'.account.wellFormed
    rw [hf'.children_eq_parts (hg.le.node hq), ha.wellFormed.children_eq_parts hq,
      hg.le.parts (lt_size_of_node? hq)]

/-- So it does when a node is packed twice below itself, the second time with other parts, and then
once more at another end. -/
theorem logged_interns_cyclic :
    let log : List Call :=
      [.packed ⟨0, 6, 0, none, 2⟩ true, .interned (.nonterminal 1 0 0) 0,
        .packed ⟨0, 5, 0, none, 2⟩ false, .interned (.epsilon 0) 2,
        .packed ⟨0, 5, 0, some 0, 0⟩ true, .interned (.nonterminal 1 0 0) 0]
    ∃ f, Logged log f ∧ Interns log f :=
  have h := .pack (.intern (.pack (.intern (.pack (.intern .empty rfl rfl)
    (by decide) rfl) rfl rfl) (by decide) rfl) rfl rfl) (by decide) rfl
  ⟨_, h, logged_interns h⟩

end GeneralParser.Forest
