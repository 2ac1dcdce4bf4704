import GeneralParser.Proofs.Agenda

/-!
# The agenda as a queue

Seen from outside, an agenda is a queue that takes every item once. What it answers is determined by
the calls made before: an offered item is new if it was not offered before, whether by claiming or
by scheduling, and what is handed out is the foremost of the descriptors that were accepted for
waiting and have not been handed out yet.
-/

namespace GeneralParser.Agenda

/-! ### Logs -/

/-- A call that an agenda has answered. -/
inductive Call where
  /-- A descriptor was claimed, and was new or not. -/
  | claimed (d : Descriptor) (new : Bool)
  /-- A descriptor was scheduled, and was new or not. -/
  | scheduled (d : Descriptor) (new : Bool)
  /-- The next descriptor was asked for, and this one was handed out. -/
  | handedOut (d : Descriptor)
  /-- The next descriptor was asked for, and there was none. -/
  | exhausted
  deriving DecidableEq, Repr

/-- The agendas that a sequence of calls leads to, with the calls that were answered, the newest
first. -/
inductive Logged (order : DrainOrder) : List Call → Agenda → Prop
  | empty : Logged order [] (empty order)
  | claim {log : List Call} {a a' : Agenda} {d : Descriptor} {new : Bool} :
    Logged order log a → a.claim d = .ok (new, a') → Logged order (.claimed d new :: log) a'
  | schedule {log : List Call} {a a' : Agenda} {d : Descriptor} {new : Bool} :
    Logged order log a → a.schedule d = .ok (new, a') → Logged order (.scheduled d new :: log) a'
  | handOut {log : List Call} {a a' : Agenda} {d : Descriptor} :
    Logged order log a → a.next? = some (d, a') → Logged order (.handedOut d :: log) a'
  | exhaust {log : List Call} {a : Agenda} :
    Logged order log a → a.next? = none → Logged order (.exhausted :: log) a

/-- The items that were claimed or scheduled. -/
def offered (log : List Call) : List Item :=
  log.filterMap fun
    | .claimed d _ | .scheduled d _ => some d.toItem
    | _ => none

/-- The descriptors that were accepted for waiting, the newest first. -/
def queued (log : List Call) : List Descriptor :=
  log.filterMap fun
    | .scheduled d true => some d
    | _ => none

/-- The descriptors that were handed out, the newest first. -/
def handed (log : List Call) : List Descriptor :=
  log.filterMap fun
    | .handedOut d => some d
    | _ => none

/-- The descriptors that were accepted for waiting and not handed out yet, the newest first. -/
def outstanding (log : List Call) : List Descriptor :=
  (queued log).filter fun d => d ∉ handed log

/-- Which of the descriptors `ds`, given the newest first, is to be handed out: among those at the
smallest offset the newest or the oldest. -/
def Foremost (order : DrainOrder) (d : Descriptor) (ds : List Descriptor) : Prop :=
  (∀ e ∈ ds, d.index ≤ e.index) ∧
    match order with
    | .newestFirst => (ds.filter (·.index = d.index)).head? = some d
    | .oldestFirst => (ds.filter (·.index = d.index)).getLast? = some d

section

variable {log : List Call} {d : Descriptor} {new : Bool}

@[simp] lemma offered_nil : offered [] = [] := rfl

@[simp] lemma offered_claimed : offered (.claimed d new :: log) = d.toItem :: offered log := rfl

@[simp] lemma offered_scheduled : offered (.scheduled d new :: log) = d.toItem :: offered log := rfl

@[simp] lemma offered_handedOut : offered (.handedOut d :: log) = offered log := rfl

@[simp] lemma offered_exhausted : offered (.exhausted :: log) = offered log := rfl

@[simp] lemma queued_nil : queued [] = [] := rfl

@[simp] lemma queued_claimed : queued (.claimed d new :: log) = queued log := rfl

@[simp] lemma queued_scheduled : queued (.scheduled d new :: log) =
    if new = true then d :: queued log else queued log := by
  cases new <;> rfl

@[simp] lemma queued_handedOut : queued (.handedOut d :: log) = queued log := rfl

@[simp] lemma queued_exhausted : queued (.exhausted :: log) = queued log := rfl

@[simp] lemma handed_nil : handed [] = [] := rfl

@[simp] lemma handed_claimed : handed (.claimed d new :: log) = handed log := rfl

@[simp] lemma handed_scheduled : handed (.scheduled d new :: log) = handed log := rfl

@[simp] lemma handed_handedOut : handed (.handedOut d :: log) = d :: handed log := rfl

@[simp] lemma handed_exhausted : handed (.exhausted :: log) = handed log := rfl

lemma mem_outstanding {e : Descriptor} :
    e ∈ outstanding log ↔ e ∈ queued log ∧ e ∉ handed log := by
  simp [outstanding]

lemma outstanding_eq_nil_iff : outstanding log = [] ↔ ∀ e ∈ queued log, e ∈ handed log := by
  simp [outstanding, List.filter_eq_nil_iff]

lemma offered_of_queued {e : Descriptor} (h : e ∈ queued log) : e.toItem ∈ offered log := by
  induction log with
  | nil => cases h
  | cons c log ih =>
    cases c with
    | claimed d new => exact List.mem_cons_of_mem _ (ih h)
    | scheduled d new =>
      rw [queued_scheduled] at h
      rw [offered_scheduled]
      split at h
      · rcases List.mem_cons.mp h with rfl | h
        · exact List.mem_cons_self
        · exact List.mem_cons_of_mem _ (ih h)
      · exact List.mem_cons_of_mem _ (ih h)
    | handedOut d => exact ih h
    | exhausted => exact ih h

end

/-! ### The order of the waiting -/

lemma flatMap_enqueue_filter {bs : List Bucket}
    (hb : ∀ b ∈ bs, ∀ e ∈ b.toList, e.index = b.index) (d : Descriptor) (i : Nat) :
    ((enqueue d bs).flatMap Bucket.toList).filter (·.index = i) =
      (d :: bs.flatMap Bucket.toList).filter (·.index = i) := by
  induction bs with
  | nil => rfl
  | cons b bs ih =>
    rw [enqueue]
    split
    · rfl
    next hle =>
      split
      · rfl
      next hne =>
        have ih := ih fun b hb' => hb b (List.mem_cons_of_mem _ hb')
        rw [List.flatMap_cons, List.filter_append, ih, List.flatMap_cons]
        by_cases hi : d.index = i
        · -- nothing in the bucket that is passed waits at the same offset
          have hnil : b.toList.filter (·.index = i) = [] := by
            rw [List.filter_eq_nil_iff]
            intro e he
            rw [decide_eq_true_eq, hb b List.mem_cons_self e he, ← hi]
            exact fun heq => hne heq.symm
          simp [hi, hnil]
        · simp [hi]

/-- What waits at one offset, the newest first. -/
lemma schedule_filter {a a' : Agenda} (ha : a.WellFormed) {d : Descriptor} {new : Bool}
    (h : a.schedule d = .ok (new, a')) (i : Nat) :
    a'.waiting.filter (·.index = i) =
      (if new = true then d :: a.waiting else a.waiting).filter (·.index = i) := by
  rw [schedule] at h
  rcases claim_ok (a := a) d with ⟨b, a₁, hc, hclaimed, hp⟩ | ⟨hc, -⟩ | ⟨hc, -⟩
  · rw [hc] at h
    cases b with
    | true =>
      obtain ⟨rfl, rfl⟩ : true = new ∧ { a₁ with pending := enqueue d a₁.pending } = a' := by
        simpa using h
      rw [waiting, if_pos rfl, waiting]
      simp only [hp]
      exact flatMap_enqueue_filter (fun b hb e he => ha.bucket hb he) d i
    | false =>
      obtain ⟨rfl, rfl⟩ : false = new ∧ a₁ = a' := by simpa using h
      rw [hclaimed.same rfl]
      rfl
  · simp [hc] at h
  · simp [hc] at h

/-- What is taken out of a bucket stands at one end of it. -/
lemma take_split (order : DrainOrder) (b : Bucket) :
    (∃ ds ds', b.toList = ds ++ (b.take order).1 :: ds' ∧ (b.take order).2 = ds ++ ds') ∧
      match order with
      | .newestFirst => b.toList.head? = some (b.take order).1
      | .oldestFirst => b.toList.getLast? = some (b.take order).1 := by
  cases order with
  | newestFirst => exact ⟨⟨[], b.older, rfl, rfl⟩, rfl⟩
  | oldestFirst =>
    have hne : b.toList ≠ [] := List.cons_ne_nil _ _
    have hlast : (b.take .oldestFirst).1 = b.toList.getLast hne := by
      simp [Bucket.take, Bucket.toList, List.getLast_eq_getLastD]
    rw [hlast]
    refine ⟨⟨b.toList.dropLast, [], (List.dropLast_append_getLast hne).symm, ?_⟩, ?_⟩
    · rw [List.append_nil]
      rfl
    · exact List.getLast?_eq_some_getLast hne

/-- The descriptor that is handed out is the foremost of those that wait, and is taken out of their
sequence. -/
lemma next?_split {a a' : Agenda} (ha : a.WellFormed) {d : Descriptor}
    (h : a.next? = some (d, a')) : Foremost a.order d a.waiting ∧
      ∃ ds ds', a.waiting = ds ++ d :: ds' ∧ a'.waiting = ds ++ ds' := by
  rw [next?] at h
  cases hp : a.pending with
  | nil => simp [hp] at h
  | cons b bs =>
    rw [hp] at h
    obtain ⟨rfl, rfl⟩ : (b.take a.order).1 = d ∧ _ = a' := by simpa using h
    obtain ⟨⟨ds, ds', hds, hrest⟩, hend⟩ := take_split a.order b
    have hw : a.waiting = b.toList ++ bs.flatMap Bucket.toList := by
      rw [waiting, hp, List.flatMap_cons]
    have hb {e : Descriptor} (he : e ∈ b.toList) : e.index = b.index :=
      ha.bucket (by simp [hp]) he
    have hbs {e : Descriptor} (he : e ∈ bs.flatMap Bucket.toList) : b.index < e.index := by
      obtain ⟨c, hc, he⟩ := List.mem_flatMap.mp he
      rw [ha.bucket (by simp [hp, hc]) he]
      exact (List.pairwise_cons.mp (hp ▸ ha.sorted)).1 c hc
    have hd : (b.take a.order).1.index = b.index := hb (by simp [hds])
    have hfirst : a.waiting.filter (·.index = (b.take a.order).1.index) = b.toList := by
      rw [hw, List.filter_append, hd, List.filter_eq_self.mpr, List.filter_eq_nil_iff.mpr,
        List.append_nil]
      · intro e he
        simpa using Nat.ne_of_gt (hbs he)
      · intro e he
        simpa using hb he
    refine ⟨⟨?_, ?_⟩, ds, ds' ++ bs.flatMap Bucket.toList, ?_, ?_⟩
    · intro e he
      rw [hw] at he
      rw [hd]
      rcases List.mem_append.mp he with he | he
      · exact Nat.le_of_eq (hb he).symm
      · exact Nat.le_of_lt (hbs he)
    · rw [hfirst]
      exact hend
    · rw [hw, hds]
      simp
    · rw [waiting, List.flatMap_append, toList_ofList?, hrest, List.append_assoc]

lemma filter_ne_of_nodup {d : Descriptor} {ds ds' : List Descriptor}
    (h : (ds ++ d :: ds').Nodup) : (ds ++ d :: ds').filter (· ≠ d) = ds ++ ds' := by
  have hmem : d ∉ ds ++ ds' := (List.nodup_cons.mp (List.nodup_middle.mp h)).1
  rw [List.filter_append, List.filter_cons_of_neg (by simp), ← List.filter_append,
    List.filter_eq_self]
  intro e he
  have hne : e ≠ d := ne_of_mem_of_not_mem he hmem
  simpa using hne

/-! ### The queue -/

/-- What an agenda remembers of the calls that led to it. -/
structure Account (order : DrainOrder) (log : List Call) (a : Agenda) : Prop where
  wellFormed : a.WellFormed
  order : a.order = order
  offered {i : Item} : i ∈ offered log ↔ ∃ o, a.seen[i]? = some o
  /-- At each offset those wait that are outstanding, in this order. -/
  waiting (i : Nat) :
    a.waiting.filter (·.index = i) = (outstanding log).filter (·.index = i)
  handed {d : Descriptor} : d ∈ handed log → d ∈ queued log ∧ d.index ≤ a.drained

namespace Account

variable {order : DrainOrder} {log : List Call} {a a' : Agenda} {d : Descriptor} {new : Bool}

lemma mem_waiting (h : Account order log a) :
    d ∈ a.waiting ↔ d ∈ outstanding log := by
  have hd := congrArg (d ∈ ·) (h.waiting d.index)
  simpa using hd

lemma waiting_eq_nil_iff (h : Account order log a) :
    a.waiting = [] ↔ outstanding log = [] := by
  simp only [List.eq_nil_iff_forall_not_mem, h.mem_waiting]

/-- An offered item is new if it was not offered before. -/
lemma new_iff (h : Account order log a) (hc : Claimed a d new a') :
    new = true ↔ d.toItem ∉ Agenda.offered log := by
  rw [hc.new_iff, h.offered, Option.eq_none_iff_forall_ne_some]
  simp

lemma offered_claimed (h : Account order log a) (hc : Claimed a d new a') {i : Item} :
    i ∈ d.toItem :: Agenda.offered log ↔ ∃ o, a'.seen[i]? = some o := by
  rw [List.mem_cons, h.offered, hc.seen_iff]

lemma empty (order : DrainOrder) : Account order [] (Agenda.empty order) where
  wellFormed := wellFormed_empty order
  order := rfl
  offered {i} := by simp [Agenda.empty]
  waiting i := by simp [Agenda.empty, Agenda.waiting, outstanding]
  handed h := by cases h

lemma claim (h : Account order log a) (hc : a.claim d = .ok (new, a')) :
    Account order (.claimed d new :: log) a' := by
  obtain ⟨hclaimed, hp⟩ := claimed_of_ok hc
  refine ⟨hclaimed.wellFormed h.wellFormed hp, hclaimed.order.trans h.order,
    h.offered_claimed hclaimed, ?_, ?_⟩
  · intro i
    rw [Agenda.waiting, hp]
    exact h.waiting i
  · intro e he
    rw [hclaimed.drained]
    exact h.handed he

lemma outstanding_scheduled (h : Account order log a) (hc : Claimed a d new a') :
    outstanding (.scheduled d new :: log) =
      if new = true then d :: outstanding log else outstanding log := by
  rw [outstanding, queued_scheduled, handed_scheduled]
  split
  next hnew =>
    have hd : d ∉ Agenda.handed log := fun hd =>
      (h.new_iff hc).mp hnew (offered_of_queued (h.handed hd).1)
    rw [List.filter_cons_of_pos (by simpa using hd)]
    rfl
  next => rfl

lemma schedule (h : Account order log a) (hc : a.schedule d = .ok (new, a')) :
    Account order (.scheduled d new :: log) a' := by
  have hsch := scheduled_of_ok h.wellFormed hc
  refine ⟨hsch.wellFormed, hsch.claimed.order.trans h.order, h.offered_claimed hsch.claimed,
    ?_, ?_⟩
  · intro i
    rw [schedule_filter h.wellFormed hc, h.outstanding_scheduled hsch.claimed]
    cases new with
    | true => simp only [if_pos, List.filter_cons, h.waiting]
    | false => exact h.waiting i
  · intro e he
    obtain ⟨hq, hle⟩ := h.handed he
    rw [hsch.claimed.drained, queued_scheduled]
    refine ⟨?_, hle⟩
    split
    · exact List.mem_cons_of_mem _ hq
    · exact hq

lemma outstanding_handedOut :
    outstanding (.handedOut d :: log) = (outstanding log).filter (· ≠ d) := by
  simp only [outstanding, queued_handedOut, handed_handedOut, List.filter_filter]
  congr
  funext e
  simp [not_or]

lemma handOut (h : Account order log a) (hnext : a.next? = some (d, a')) :
    Account order (.handedOut d :: log) a' := by
  have hout := next?_ok h.wellFormed hnext
  obtain ⟨-, ds, ds', hw, hw'⟩ := next?_split h.wellFormed hnext
  have hd : d ∈ outstanding log := h.mem_waiting.mp (by simp [hw])
  refine ⟨hout.wellFormed, hout.order.trans h.order, ?_, ?_, ?_⟩
  · intro i
    rw [offered_handedOut, hout.seen]
    exact h.offered
  · intro i
    -- a descriptor waits once, so all that is different from it stays
    have hrest : a'.waiting = a.waiting.filter (· ≠ d) := by
      rw [hw', hw, filter_ne_of_nodup (hw ▸ h.wellFormed.nodup)]
    rw [hrest, outstanding_handedOut, List.filter_comm, h.waiting, List.filter_comm]
  · intro e he
    rw [hout.drained, queued_handedOut]
    rcases List.mem_cons.mp he with rfl | he
    · exact ⟨(mem_outstanding.mp hd).1, Nat.le_refl _⟩
    · have hle := h.handed he
      exact ⟨hle.1, hle.2.trans (h.wellFormed.drained_le (h.mem_waiting.mpr hd))⟩

lemma items_eq (h : Account order log a) : a.items = (Agenda.offered log).toFinset := by
  ext i
  rw [mem_items, List.mem_toFinset, h.offered]

/-- The foremost of those that wait is the foremost of the outstanding. -/
lemma foremost_iff (h : Account order log a) :
    Foremost a.order d a.waiting ↔ Foremost order d (outstanding log) := by
  simp only [Foremost, h.order, h.waiting, h.mem_waiting]

end Account

namespace Logged

variable {order : DrainOrder} {log earlier : List Call} {a : Agenda}

lemma account (h : Logged order log a) : Account order log a := by
  induction h with
  | empty => exact .empty order
  | claim _ hc ih => exact ih.claim hc
  | schedule _ hc ih => exact ih.schedule hc
  | handOut _ hnext ih => exact ih.handOut hnext
  | exhaust _ _ ih => exact ⟨ih.wellFormed, ih.order, ih.offered, ih.waiting, ih.handed⟩

/-- A log has been kept from the beginning. -/
lemma before {later : List Call} (h : Logged order (later ++ earlier) a) :
    ∃ a', Logged order earlier a' := by
  induction later generalizing a with
  | nil => exact ⟨a, h⟩
  | cons c later ih =>
    cases h with
    | claim h | schedule h | handOut h | exhaust h => exact ih h

lemma queued_nodup (h : Logged order log a) : ((queued log).map (·.toItem)).Nodup := by
  induction h with
  | empty => exact .nil
  | claim _ _ ih | handOut _ _ ih | exhaust _ _ ih => exact ih
  | @schedule log a a' d new h hc ih =>
    rw [queued_scheduled]
    split
    next hnew =>
      have hd : d.toItem ∉ offered log :=
        (h.account.new_iff (scheduled_of_ok h.account.wellFormed hc).claimed).mp hnew
      refine List.nodup_cons.mpr ⟨?_, ih⟩
      intro hmem
      obtain ⟨e, he, heq : e.toItem = d.toItem⟩ := List.mem_map.mp hmem
      exact hd (heq ▸ offered_of_queued he)
    next => exact ih

lemma handed_nodup (h : Logged order log a) : (handed log).Nodup := by
  induction h with
  | empty => exact .nil
  | claim _ _ ih | schedule _ _ ih | exhaust _ _ ih => exact ih
  | handOut h hnext ih =>
    obtain ⟨-, ds, ds', hw, -⟩ := next?_split h.account.wellFormed hnext
    have hmem := h.account.mem_waiting.mp (hw ▸ List.mem_append_right ds List.mem_cons_self)
    exact List.nodup_cons.mpr ⟨(mem_outstanding.mp hmem).2, ih⟩

lemma handed_sorted (h : Logged order log a) :
    (handed log).Pairwise fun d e => e.index ≤ d.index := by
  induction h with
  | empty => exact .nil
  | claim _ _ ih | schedule _ _ ih | exhaust _ _ ih => exact ih
  | handOut h hnext ih =>
    refine List.pairwise_cons.mpr ⟨?_, ih⟩
    intro e he
    exact (next?_ok h.account.wellFormed hnext).drained ▸ ((h.handOut hnext).account.handed
      (List.mem_cons_of_mem _ he)).2

end Logged

/-- What calls to an agenda come to: it is a queue in which every item is accepted once. -/
structure Serves (order : DrainOrder) (log : List Call) (a : Agenda) : Prop where
  /-- A claimed item is new if it was neither claimed nor scheduled before. -/
  claimed {later earlier : List Call} {d : Descriptor} {new : Bool} :
    log = later ++ .claimed d new :: earlier → (new = true ↔ d.toItem ∉ offered earlier)
  /-- So is a scheduled one. -/
  scheduled {later earlier : List Call} {d : Descriptor} {new : Bool} :
    log = later ++ .scheduled d new :: earlier → (new = true ↔ d.toItem ∉ offered earlier)
  /-- What is handed out is the foremost of what is outstanding. -/
  handedOut {later earlier : List Call} {d : Descriptor} : log = later ++ .handedOut d :: earlier →
    d ∈ outstanding earlier ∧ Foremost order d (outstanding earlier)
  /-- Nothing is handed out only if nothing is outstanding. -/
  exhausted {later earlier : List Call} : log = later ++ .exhausted :: earlier →
    ∀ d ∈ queued earlier, d ∈ handed earlier
  /-- No item is accepted for waiting twice. -/
  accepted_once : ((queued log).map (·.toItem)).Nodup
  /-- No descriptor is handed out twice, or without having been accepted. -/
  handed_once : (handed log).Nodup ∧ ∀ d ∈ handed log, d ∈ queued log
  /-- There is no next descriptor just if all that were accepted have been handed out. -/
  next?_eq_none : a.next? = none ↔ ∀ d ∈ queued log, d ∈ handed log
  hasNext_eq_false : a.hasNext = false ↔ ∀ d ∈ queued log, d ∈ handed log
  size : a.size = (offered log).toFinset.card
  /-- The offsets handed out never decrease. -/
  sorted : (handed log).reverse.Pairwise fun d e => d.index ≤ e.index

/-- Whatever is asked of an agenda, it serves as a queue. -/
theorem logged_serves {order : DrainOrder} {log : List Call} {a : Agenda}
    (h : Logged order log a) : Serves order log a := by
  have hnext : a.next? = none ↔ ∀ d ∈ queued log, d ∈ handed log := by
    rw [next?_eq_none_iff, h.account.waiting_eq_nil_iff, outstanding_eq_nil_iff]
  refine ⟨?_, ?_, ?_, ?_, h.queued_nodup, ⟨h.handed_nodup, fun d hd => (h.account.handed hd).1⟩,
    hnext, ?_, ?_, List.pairwise_reverse.mpr h.handed_sorted⟩
  · rintro later earlier d new rfl
    obtain ⟨a', h'⟩ := h.before
    cases h' with
    | claim h' hd => exact h'.account.new_iff (claimed_of_ok hd).1
  · rintro later earlier d new rfl
    obtain ⟨a', h'⟩ := h.before
    cases h' with
    | schedule h' hd =>
      exact h'.account.new_iff (scheduled_of_ok h'.account.wellFormed hd).claimed
  · rintro later earlier d rfl
    obtain ⟨a', h'⟩ := h.before
    cases h' with
    | handOut h' hd =>
      obtain ⟨hforemost, ds, ds', hw, -⟩ := next?_split h'.account.wellFormed hd
      exact ⟨h'.account.mem_waiting.mp (by simp [hw]), h'.account.foremost_iff.mp hforemost⟩
  · rintro later earlier rfl
    obtain ⟨a', h'⟩ := h.before
    cases h' with
    | exhaust h' hd =>
      rw [← outstanding_eq_nil_iff, ← h'.account.waiting_eq_nil_iff]
      exact next?_eq_none_iff.mp hd
  · rw [← hnext]
    rw [hasNext, next?]
    cases a.pending <;> simp
  · rw [← card_items, h.account.items_eq]

/-- So it does when one item is claimed and two others are scheduled, and then both of these and
the claimed one are offered again. -/
theorem logged_serves_oldestFirst :
    let log : List Call :=
      [.exhausted, .handedOut ⟨⟨2, 0, 1⟩, none⟩, .handedOut ⟨⟨1, 0, 1⟩, none⟩,
        .claimed ⟨⟨2, 0, 1⟩, none⟩ false, .scheduled ⟨⟨1, 0, 1⟩, none⟩ false,
        .scheduled ⟨⟨0, 0, 1⟩, none⟩ false, .scheduled ⟨⟨2, 0, 1⟩, none⟩ true,
        .scheduled ⟨⟨1, 0, 1⟩, none⟩ true, .claimed ⟨⟨0, 0, 1⟩, none⟩ true]
    ∃ a, Logged .oldestFirst log a ∧ Serves .oldestFirst log a :=
  have h := .exhaust (.handOut (.handOut (.claim (.schedule (.schedule (.schedule (.schedule
    (.claim .empty rfl) rfl) rfl) rfl) rfl) rfl) rfl) rfl) rfl
  ⟨_, h, logged_serves h⟩

end GeneralParser.Agenda
