import GeneralParser.Agenda
import Mathlib.Data.Finset.Card
import Mathlib.Data.List.Basic

/-!
# Agendas in use

Every descriptor that waits was seen, none waits behind the offset handed out last, and the buckets
in which they wait are ordered. So handing out takes a descriptor with the smallest offset.
-/

namespace GeneralParser.Agenda

variable {a a' : Agenda}

/-- All descriptors that wait. -/
def waiting (a : Agenda) : List Descriptor := a.pending.flatMap Bucket.toList

lemma mem_waiting {d : Descriptor} :
    d ∈ a.waiting ↔ ∃ b ∈ a.pending, d ∈ b.toList := List.mem_flatMap

lemma getElem?_insert {seen : Std.ExtTreeMap Item (Option NodeId)} {i j : Item}
    {o : Option NodeId} : (seen.insert i o)[j]? = if i = j then some o else seen[j]? := by
  rw [Std.ExtTreeMap.getElem?_insert]
  by_cases h : i = j <;> simp [h]

/-- The items seen so far. -/
def items (a : Agenda) : Finset Item := a.seen.keys.toFinset

lemma mem_items {i : Item} : i ∈ a.items ↔ ∃ l, a.seen[i]? = some l := by
  rw [items, List.mem_toFinset, Std.ExtTreeMap.mem_keys,
    ← Std.ExtTreeMap.isSome_getElem?_iff_mem, Option.isSome_iff_exists]

lemma card_items : a.items.card = a.size := by
  rw [items, List.toFinset_card_of_nodup Std.ExtTreeMap.nodup_keys, Std.ExtTreeMap.length_keys]
  rfl

structure WellFormed (a : Agenda) : Prop where
  /-- A bucket holds the descriptors for one offset. -/
  bucket {b : Bucket} {d : Descriptor} : b ∈ a.pending → d ∈ b.toList → d.index = b.index
  sorted : a.pending.Pairwise fun b b' => b.index < b'.index
  seen {d : Descriptor} : d ∈ a.waiting → a.seen[d.toItem]? = some d.soFar
  nodup : a.waiting.Nodup
  drained_le {d : Descriptor} : d ∈ a.waiting → a.drained ≤ d.index

lemma wellFormed_empty (order : DrainOrder) : WellFormed (empty order) := by
  refine ⟨?_, ?_, ?_, ?_, ?_⟩ <;> simp [empty, waiting]

/-! ### Offering descriptors -/

/-- What claiming a descriptor does: it is seen afterwards, and it is the only one that may be new.
-/
structure Claimed (a : Agenda) (d : Descriptor) (new : Bool) (a' : Agenda) : Prop where
  seen : a'.seen[d.toItem]? = some d.soFar
  mono {i : Item} {o : Option NodeId} : a.seen[i]? = some o → a'.seen[i]? = some o
  back {i : Item} {o : Option NodeId} : a'.seen[i]? = some o →
    a.seen[i]? = some o ∨ (new = true ∧ i = d.toItem ∧ o = d.soFar)
  new_iff : new = true ↔ a.seen[d.toItem]? = none
  drained_le : new = true → a.drained ≤ d.index
  drained : a'.drained = a.drained
  order : a'.order = a.order
  size : a'.size = a.size + new.toNat
  same : new = false → a' = a

/-- A descriptor is only refused if it was seen with another partial result, or comes too late. -/
lemma claim_ok (d : Descriptor) :
    (∃ new a', a.claim d = .ok (new, a') ∧ Claimed a d new a' ∧ a'.pending = a.pending) ∨
      (a.claim d = .error .conflictingResults ∧ ∃ o, a.seen[d.toItem]? = some o ∧ o ≠ d.soFar) ∨
      (a.claim d = .error .behindAgenda ∧ d.index < a.drained) := by
  rw [claim, find?]
  cases hs : a.seen[d.toItem]? with
  | some o =>
    simp only [Option.map_some]
    split
    next ho =>
      subst ho
      refine Or.inl ⟨false, a, rfl, ⟨hs, id, Or.inl, by simp [hs], by simp, rfl, rfl, rfl,
        fun _ => rfl⟩, rfl⟩
    next ho => exact Or.inr (Or.inl ⟨rfl, o, rfl, ho⟩)
  | none =>
    simp only [Option.map_none]
    split
    next hlt => exact Or.inr (Or.inr ⟨rfl, hlt⟩)
    next hle =>
      refine Or.inl ⟨true, _, rfl, ⟨?_, ?_, ?_, by simp [hs],
        fun _ => Nat.le_of_not_lt hle, rfl, rfl, ?_, by simp⟩, rfl⟩
      · simp
      · intro i o h
        rw [getElem?_insert, if_neg]
        · exact h
        · rintro rfl
          rw [hs] at h
          cases h
      · intro i o h
        rw [getElem?_insert] at h
        split at h
        next hi => exact Or.inr ⟨rfl, hi.symm, by simpa using h.symm⟩
        next => exact Or.inl h
      · have hmem : d.toItem ∉ a.seen := by simpa using hs
        simp [size, Std.ExtTreeMap.size_insert, hmem]

lemma Claimed.wellFormed (ha : a.WellFormed) {d : Descriptor} {new : Bool}
    (h : Claimed a d new a') (hp : a'.pending = a.pending) : a'.WellFormed := by
  have hw : a'.waiting = a.waiting := by rw [waiting, waiting, hp]
  refine ⟨fun hb => ha.bucket (hp ▸ hb), hp ▸ ha.sorted, fun hd => h.mono (ha.seen (hw ▸ hd)),
    hw ▸ ha.nodup, fun hd => h.drained ▸ ha.drained_le (hw ▸ hd)⟩

lemma waiting_enqueue (d : Descriptor) (bs : List Bucket) :
    ((enqueue d bs).flatMap Bucket.toList).Perm (d :: bs.flatMap Bucket.toList) := by
  induction bs with
  | nil => exact .refl _
  | cons b bs ih =>
    rw [enqueue]
    split
    · exact .refl _
    · split
      · exact .refl _
      · simp only [List.flatMap_cons]
        exact (ih.append_left _).trans List.perm_middle

lemma mem_enqueue {d : Descriptor} {bs : List Bucket} {b : Bucket} (h : b ∈ enqueue d bs) :
    b ∈ bs ∨ b = ⟨d, []⟩ ∨ ∃ b' ∈ bs, d.index = b'.index ∧ b = ⟨d, b'.toList⟩ := by
  induction bs with
  | nil => simpa [enqueue] using h
  | cons c cs ih =>
    rw [enqueue] at h
    split at h
    · rcases List.mem_cons.mp h with rfl | h
      · exact Or.inr (Or.inl rfl)
      · exact Or.inl h
    · split at h
      next heq =>
        rcases List.mem_cons.mp h with rfl | h
        · exact Or.inr (Or.inr ⟨c, by simp, heq, rfl⟩)
        · exact Or.inl (List.mem_cons_of_mem _ h)
      next =>
        rcases List.mem_cons.mp h with rfl | h
        · exact Or.inl List.mem_cons_self
        · rcases ih h with h | h | ⟨b', hb', heq⟩
          · exact Or.inl (List.mem_cons_of_mem _ h)
          · exact Or.inr (Or.inl h)
          · exact Or.inr (Or.inr ⟨b', List.mem_cons_of_mem _ hb', heq⟩)

lemma index_of_mem_enqueue {d : Descriptor} {bs : List Bucket} {b : Bucket}
    (h : b ∈ enqueue d bs) : b.index = d.index ∨ b ∈ bs := by
  rcases mem_enqueue h with h | rfl | ⟨b', hb', heq, rfl⟩
  · exact Or.inr h
  · exact Or.inl rfl
  · exact Or.inl rfl

lemma sorted_enqueue {d : Descriptor} {bs : List Bucket}
    (h : bs.Pairwise fun b b' => b.index < b'.index) :
    (enqueue d bs).Pairwise fun b b' => b.index < b'.index := by
  induction bs with
  | nil => exact List.pairwise_singleton ..
  | cons b bs ih =>
    obtain ⟨hb, hbs⟩ := List.pairwise_cons.mp h
    rw [enqueue]
    split
    next hlt =>
      refine List.pairwise_cons.mpr ⟨?_, h⟩
      intro c hc
      rcases List.mem_cons.mp hc with rfl | hc
      · exact hlt
      · exact Nat.lt_trans hlt (hb c hc)
    next hnlt =>
      split
      next heq =>
        exact List.pairwise_cons.mpr
          ⟨fun c hc => by rw [show Bucket.index ⟨d, b.toList⟩ = b.index from heq]; exact hb c hc,
            hbs⟩
      next hne =>
        refine List.pairwise_cons.mpr ⟨?_, ih hbs⟩
        intro c hc
        rcases index_of_mem_enqueue hc with hc | hc
        · omega
        · exact hb c hc

/-- What scheduling a descriptor does: it is claimed, and waits if it is new. -/
structure Scheduled (a : Agenda) (d : Descriptor) (new : Bool) (a' : Agenda) : Prop where
  claimed : Claimed a d new a'
  waiting : a'.waiting.Perm (if new = true then d :: a.waiting else a.waiting)
  wellFormed : a'.WellFormed

lemma schedule_ok (ha : a.WellFormed) (d : Descriptor) :
    (∃ new a', a.schedule d = .ok (new, a') ∧ Scheduled a d new a') ∨
      (a.schedule d = .error .conflictingResults ∧
        ∃ o, a.seen[d.toItem]? = some o ∧ o ≠ d.soFar) ∨
      (a.schedule d = .error .behindAgenda ∧ d.index < a.drained) := by
  rw [schedule]
  rcases claim_ok (a := a) d with ⟨new, a', hc, h, hp⟩ | ⟨hc, ho⟩ | ⟨hc, hlt⟩
  · have hw : a'.waiting = a.waiting := by rw [Agenda.waiting, Agenda.waiting, hp]
    rw [hc]
    cases new with
    | false => exact Or.inl ⟨false, a', rfl, h, by simp [hw], h.wellFormed ha hp⟩
    | true =>
      have hwf := h.wellFormed ha hp
      have hperm := waiting_enqueue d a'.pending
      refine Or.inl ⟨true, _, rfl, ⟨h.seen, h.mono, h.back, h.new_iff, h.drained_le, h.drained,
        h.order, h.size, by simp⟩, ?_, ?_, sorted_enqueue hwf.sorted, ?_, ?_, ?_⟩
      · rw [if_pos rfl, ← hw]
        exact hperm
      · intro b e hb he
        rcases mem_enqueue hb with hb | rfl | ⟨b', hb', heq, rfl⟩
        · exact hwf.bucket hb he
        · obtain rfl : e = d := by simpa [Bucket.toList] using he
          rfl
        · rcases List.mem_cons.mp he with rfl | he
          · rfl
          · exact (hwf.bucket hb' he).trans heq.symm
      · intro d' he
        rcases List.mem_cons.mp (hperm.mem_iff.mp he) with rfl | he
        · exact h.seen
        · exact hwf.seen he
      · refine hperm.nodup_iff.mpr (List.nodup_cons.mpr ⟨?_, hwf.nodup⟩)
        intro hd
        change d ∈ a'.waiting at hd
        rw [hw] at hd
        have := ha.seen hd
        rw [h.new_iff.mp rfl] at this
        cases this
      · intro d' he
        rcases List.mem_cons.mp (hperm.mem_iff.mp he) with rfl | he
        · exact Nat.le_trans (Nat.le_of_eq h.drained) (h.drained_le rfl)
        · exact hwf.drained_le he
  · exact Or.inr (Or.inl ⟨by rw [hc], ho⟩)
  · exact Or.inr (Or.inr ⟨by rw [hc], hlt⟩)

/-- What was seen after claiming a descriptor is its item, and what was seen before. -/
lemma Claimed.seen_iff {d : Descriptor} {new : Bool} (h : Claimed a d new a') {i : Item} :
    (∃ o, a'.seen[i]? = some o) ↔ i = d.toItem ∨ ∃ o, a.seen[i]? = some o := by
  constructor
  · rintro ⟨o, ho⟩
    rcases h.back ho with ho | ⟨-, hi, -⟩
    · exact Or.inr ⟨o, ho⟩
    · exact Or.inl hi
  · rintro (rfl | ⟨o, ho⟩)
    · exact ⟨_, h.seen⟩
    · exact ⟨o, h.mono ho⟩

lemma claimed_of_ok {d : Descriptor} {new : Bool}
    (h : a.claim d = .ok (new, a')) : Claimed a d new a' ∧ a'.pending = a.pending := by
  rcases claim_ok (a := a) d with ⟨b, a₁, hc, hclaimed⟩ | ⟨hc, -⟩ | ⟨hc, -⟩
  · obtain ⟨rfl, rfl⟩ : b = new ∧ a₁ = a' := by simpa [hc] using h
    exact hclaimed
  · simp [hc] at h
  · simp [hc] at h

lemma scheduled_of_ok (ha : a.WellFormed) {d : Descriptor} {new : Bool}
    (h : a.schedule d = .ok (new, a')) : Scheduled a d new a' := by
  rcases schedule_ok ha d with ⟨b, a₁, hc, hscheduled⟩ | ⟨hc, -⟩ | ⟨hc, -⟩
  · obtain ⟨rfl, rfl⟩ : b = new ∧ a₁ = a' := by simpa [hc] using h
    exact hscheduled
  · simp [hc] at h
  · simp [hc] at h

/-- Scheduling fails only where claiming does. -/
lemma claim_of_schedule_error {d : Descriptor} {fault : Fault} (h : a.schedule d = .error fault) :
    a.claim d = .error fault := by
  rw [schedule] at h
  split at h
  · cases h
  · exact h

/-! ### Handing out -/

lemma hasNext_iff (ha : a.hasNext = true) : ∃ d, d ∈ a.waiting := by
  cases hp : a.pending with
  | nil => simp [hasNext, hp] at ha
  | cons b bs => exact ⟨b.newest, mem_waiting.mpr ⟨b, by simp [hp], List.mem_cons_self⟩⟩

lemma hasNext_eq_false (ha : a.waiting = []) : a.hasNext = false := by
  rw [Bool.eq_false_iff]
  intro h
  obtain ⟨d, hd⟩ := hasNext_iff h
  rw [ha] at hd
  cases hd

lemma next?_eq_none_iff : a.next? = none ↔ a.waiting = [] := by
  rw [next?, waiting]
  cases a.pending with
  | nil => simp
  | cons b bs => simp [Bucket.toList]

lemma take_perm (order : DrainOrder) (b : Bucket) :
    ((b.take order).1 :: (b.take order).2).Perm b.toList := by
  cases order with
  | newestFirst => exact .refl _
  | oldestFirst =>
    obtain ⟨newest, older⟩ := b
    simp only [Bucket.take, Bucket.toList, ← List.getLast_eq_getLastD (List.cons_ne_nil _ _)]
    have hlast := List.dropLast_append_getLast (List.cons_ne_nil newest older)
    have hperm := List.perm_append_singleton ((newest :: older).getLast (List.cons_ne_nil _ _))
      (newest :: older).dropLast
    exact hperm.symm.trans (.of_eq hlast)

lemma toList_ofList? (ds : List Descriptor) :
    (Bucket.ofList? ds).toList.flatMap Bucket.toList = ds := by
  cases ds <;> simp [Bucket.ofList?, Bucket.toList]

lemma mem_ofList? {ds : List Descriptor} {b : Bucket} (h : b ∈ (Bucket.ofList? ds).toList) :
    b.toList = ds ∧ b.newest ∈ ds := by
  cases ds with
  | nil => simp [Bucket.ofList?] at h
  | cons d ds =>
    obtain rfl : b = ⟨d, ds⟩ := by simpa [Bucket.ofList?] using h
    exact ⟨rfl, List.mem_cons_self⟩

/-- What handing out does: a descriptor with the smallest offset no longer waits. -/
structure HandedOut (a : Agenda) (d : Descriptor) (a' : Agenda) : Prop where
  seen : a'.seen = a.seen
  waiting : a.waiting.Perm (d :: a'.waiting)
  drained : a'.drained = d.index
  order : a'.order = a.order
  wellFormed : a'.WellFormed

lemma next?_ok (ha : a.WellFormed) {d : Descriptor} (h : a.next? = some (d, a')) :
    HandedOut a d a' := by
  rw [next?] at h
  cases hp : a.pending with
  | nil => simp [hp] at h
  | cons b bs =>
    obtain ⟨d', rest, htake⟩ : ∃ d' rest, b.take a.order = (d', rest) := ⟨_, _, rfl⟩
    rw [hp] at h
    simp only [htake, Option.some.injEq, Prod.mk.injEq] at h
    obtain ⟨rfl, rfl⟩ := h
    have hperm : (d' :: rest).Perm b.toList := by
      simpa [htake] using take_perm a.order b
    have hb {e : Descriptor} (he : e ∈ b.toList) : e.index = b.index :=
      ha.bucket (by simp [hp]) he
    have hd := hb (hperm.mem_iff.mp List.mem_cons_self)
    have hrest {e : Descriptor} (he : e ∈ rest) : e.index = b.index :=
      hb (hperm.mem_iff.mp (List.mem_cons_of_mem _ he))
    have hsorted := hp ▸ ha.sorted
    obtain ⟨hlt, hbs⟩ := List.pairwise_cons.mp hsorted
    have hw : a.waiting.Perm (d' :: ((Bucket.ofList? rest).toList ++ bs).flatMap
        Bucket.toList) := by
      rw [Agenda.waiting, hp, List.flatMap_cons, List.flatMap_append, toList_ofList?]
      exact hperm.symm.append_right _
    have hfirst {c : Bucket} (hc : c ∈ (Bucket.ofList? rest).toList) :
        c.toList = rest ∧ c.index = b.index := by
      obtain ⟨hcr, hnewest⟩ := mem_ofList? hc
      exact ⟨hcr, hrest hnewest⟩
    refine ⟨rfl, hw, rfl, rfl, ?_, ?_, ?_, ?_, ?_⟩
    · intro c e hc he
      rcases List.mem_append.mp hc with hc | hc
      · obtain ⟨hcr, hci⟩ := hfirst hc
        rw [hci]
        exact hrest (hcr ▸ he)
      · exact ha.bucket (by simp [hp, hc]) he
    · refine List.pairwise_append.mpr ⟨?_, hbs, ?_⟩
      · cases rest <;> simp [Bucket.ofList?]
      · intro c hc c' hc'
        rw [(hfirst hc).2]
        exact hlt c' hc'
    · intro e he
      exact ha.seen (hw.mem_iff.mpr (List.mem_cons_of_mem _ he))
    · exact (List.nodup_cons.mp (hw.nodup_iff.mp ha.nodup)).2
    · intro e he
      obtain ⟨c, hc, he⟩ := List.mem_flatMap.mp he
      change d'.index ≤ _
      rcases List.mem_append.mp hc with hc | hc
      · exact Nat.le_of_eq (hd.trans (hrest ((hfirst hc).1 ▸ he)).symm)
      · rw [hd, ha.bucket (b := c) (by simp [hp, hc]) he]
        exact Nat.le_of_lt (hlt c hc)

end GeneralParser.Agenda
