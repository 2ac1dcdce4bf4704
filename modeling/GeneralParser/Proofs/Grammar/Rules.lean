import GeneralParser.Pattern.Builtin
import GeneralParser.Proofs.Grammar.Build
import GeneralParser.Proofs.Grammar.Derivation
import GeneralParser.Proofs.Grammar.Summary
import GeneralParser.Proofs.Grammar.Validation

/-!
# Graphs of rules

The graph that is built from a list of rules is valid, its summaries say what they should, and the
derivations over its slots are those of the rules. Nothing else about building matters for a parse.
-/

namespace GeneralParser

section

variable [PatternEngine]

open Slots (role? head? Leads Path)

/-! ### Lists of rules -/

namespace Rules

/-- The rules of a list, added one after the other. -/
def ofList (share : Bool) (rules : List (String × List Symbol)) : Rules :=
  rules.foldl (fun r e => r.add e.1 e.2) ⟨[], share⟩

/-- The bodies of the rules for `A`, in the order in which they are listed. -/
def alternatives (rules : List (String × List Symbol)) (A : String) : List (List Symbol) :=
  (rules.filter fun e => e.1 = A).map Prod.snd

lemma mem_alternatives {rules : List (String × List Symbol)} {A : String} {body : List Symbol} :
    body ∈ alternatives rules A ↔ (A, body) ∈ rules := by
  simp [alternatives]

lemma alternatives_concat {rules : List (String × List Symbol)} {A B : String}
    {body : List Symbol} :
    alternatives (rules ++ [(B, body)]) A =
      if B = A then alternatives rules A ++ [body] else alternatives rules A := by
  simp only [alternatives]
  rw [List.filter_append, List.map_append]
  split
  next h => simp [h]
  next h => simp [h]

/-- The productions `ps` are those of `rules`, gathered by their heads. -/
structure Gathered (rules : List (String × List Symbol)) (ps : List Production) : Prop where
  nodup : (ps.map Production.head).Nodup
  mem_iff {p : Production} : p ∈ ps ↔
    p.bodies = alternatives rules p.head ∧ p.bodies ≠ []

lemma gathered_nil : Gathered [] [] := ⟨List.nodup_nil, by simp +contextual [alternatives]⟩

lemma mem_heads_addBody {A B : String} {body : List Symbol} {ps : List Production} :
    A ∈ (addBody B body ps).map Production.head ↔ A = B ∨ A ∈ ps.map Production.head := by
  induction ps with
  | nil => simp [addBody]
  | cons p ps ih =>
    rw [addBody]
    split
    next hp => simp [hp]
    next =>
      simp only [List.map_cons, List.mem_cons, ih]
      exact or_left_comm

lemma nodup_addBody {B : String} {body : List Symbol} {ps : List Production}
    (h : (ps.map Production.head).Nodup) : ((addBody B body ps).map Production.head).Nodup := by
  induction ps with
  | nil => simp [addBody]
  | cons p ps ih =>
    obtain ⟨hp, hps⟩ := List.nodup_cons.mp h
    rw [addBody]
    split
    next => exact List.nodup_cons.mpr ⟨hp, hps⟩
    next hne =>
      refine List.nodup_cons.mpr ⟨?_, ih hps⟩
      intro hmem
      rcases mem_heads_addBody.mp hmem with heq | hmem
      · exact hne heq
      · exact hp hmem

/-- A production stays, gets one more body, or is the new one. -/
lemma mem_addBody {B : String} {body : List Symbol} {ps : List Production} {p : Production}
    (h : (ps.map Production.head).Nodup) :
    p ∈ addBody B body ps ↔ (p ∈ ps ∧ p.head ≠ B) ∨
      (p.head = B ∧ ((∃ q ∈ ps, q.head = B ∧ p.bodies = q.bodies ++ [body]) ∨
        (B ∉ ps.map Production.head ∧ p.bodies = [body]))) := by
  induction ps with
  | nil =>
    obtain ⟨head, bodies⟩ := p
    simp [addBody]
  | cons q ps ih =>
    obtain ⟨hq, hps⟩ := List.nodup_cons.mp h
    rw [addBody]
    split
    next heq =>
      subst heq
      have hother {q' : Production} (hq' : q' ∈ ps) : q'.head ≠ q.head := fun hh =>
        hq (hh ▸ List.mem_map_of_mem hq')
      constructor
      · intro hp
        rcases List.mem_cons.mp hp with rfl | hp
        · exact Or.inr ⟨rfl, Or.inl ⟨q, by simp, rfl, rfl⟩⟩
        · exact Or.inl ⟨by simp [hp], hother hp⟩
      · rintro (⟨hp, hne⟩ | ⟨hh, ⟨q', hq', hqh, hb⟩ | ⟨hno, -⟩⟩)
        · rcases List.mem_cons.mp hp with rfl | hp
          · exact absurd rfl hne
          · simp [hp]
        · rcases List.mem_cons.mp hq' with rfl | hq'
          · obtain ⟨head, bodies⟩ := p
            obtain rfl : head = q'.head := hh
            obtain rfl : bodies = q'.bodies ++ [body] := hb
            simp
          · exact absurd hqh (hother hq')
        · simp at hno
    next hne =>
      rw [List.mem_cons, ih hps]
      constructor
      · rintro (rfl | ⟨hp, hh⟩ | ⟨hh, ⟨q', hq', hqh, hb⟩ | ⟨hno, hb⟩⟩)
        · exact Or.inl ⟨by simp, hne⟩
        · exact Or.inl ⟨by simp [hp], hh⟩
        · exact Or.inr ⟨hh, Or.inl ⟨q', by simp [hq'], hqh, hb⟩⟩
        · exact Or.inr ⟨hh, Or.inr ⟨by simpa [Ne.symm hne] using hno, hb⟩⟩
      · rintro (⟨hp, hh⟩ | ⟨hh, ⟨q', hq', hqh, hb⟩ | ⟨hno, hb⟩⟩)
        · rcases List.mem_cons.mp hp with rfl | hp
          · exact Or.inl rfl
          · exact Or.inr (Or.inl ⟨hp, hh⟩)
        · rcases List.mem_cons.mp hq' with rfl | hq'
          · exact absurd hqh hne
          · exact Or.inr (Or.inr ⟨hh, Or.inl ⟨q', hq', hqh, hb⟩⟩)
        · exact Or.inr (Or.inr ⟨hh, Or.inr ⟨by simpa [Ne.symm hne] using hno, hb⟩⟩)

lemma Gathered.concat {rules : List (String × List Symbol)} {ps : List Production}
    (h : Gathered rules ps) {B : String} {body : List Symbol} :
    Gathered (rules ++ [(B, body)]) (addBody B body ps) := by
  refine ⟨nodup_addBody h.nodup, ?_⟩
  intro p
  rw [mem_addBody h.nodup, alternatives_concat]
  by_cases hp : p.head = B
  · -- the head either has bodies already, or none so far
    subst hp
    simp only [ne_eq, not_true_eq_false, and_false, true_and, false_or, if_true]
    constructor
    · rintro (⟨q, hq, hqh, hb⟩ | ⟨hno, hb⟩)
      · rw [hb, (h.mem_iff.mp hq).1, hqh]
        simp
      · cases halts : alternatives rules p.head with
        | nil => simp [hb]
        | cons body' bodies =>
          refine absurd ?_ hno
          have hmem : ⟨p.head, alternatives rules p.head⟩ ∈ ps :=
            h.mem_iff.mpr ⟨rfl, by simp [halts]⟩
          exact List.mem_map.mpr ⟨_, hmem, rfl⟩
    · rintro ⟨hb, -⟩
      by_cases hno : p.head ∈ ps.map Production.head
      · obtain ⟨q, hq, hqh⟩ := List.mem_map.mp hno
        exact Or.inl ⟨q, hq, hqh, by rw [hb, (h.mem_iff.mp hq).1, hqh]⟩
      · refine Or.inr ⟨hno, ?_⟩
        cases halts : alternatives rules p.head with
        | nil => simp [hb, halts]
        | cons body' bodies =>
          refine absurd ?_ hno
          have hmem : ⟨p.head, alternatives rules p.head⟩ ∈ ps :=
            h.mem_iff.mpr ⟨rfl, by simp [halts]⟩
          exact List.mem_map.mpr ⟨_, hmem, rfl⟩
  · simp [hp, Ne.symm hp, h.mem_iff]

lemma gathered_foldl {done : List (String × List Symbol)} (rest : List (String × List Symbol))
    {r : Rules} (h : Gathered done r.productions) :
    Gathered (done ++ rest) (rest.foldl (fun r e => r.add e.1 e.2) r).productions := by
  induction rest generalizing done r with
  | nil => simpa using h
  | cons e rest ih => simpa using ih (r := r.add e.1 e.2) h.concat

lemma gathered_ofList (share : Bool) (rules : List (String × List Symbol)) :
    Gathered rules (ofList share rules).productions :=
  gathered_foldl rules (r := ⟨[], share⟩) gathered_nil

end Rules

/-! ### Filling in summaries -/

namespace Summary

variable {slots : Array Slot}

lemma getElem?_fillIn {id : SlotId} : (fillIn slots)[id]? =
    slots[id]?.map (Slot.withSummary (known (table slots) id)) := by
  simp [fillIn]

lemma role?_fillIn {id : SlotId} : role? (fillIn slots) id = role? slots id := by
  simp only [role?, getElem?_fillIn, Option.map_map]
  congr 1
  funext s
  cases s <;> rfl

lemma leads_fillIn {b x d : SlotId} : Leads (fillIn slots) b x d ↔ Leads slots b x d := by
  simp only [Leads, getElem?_fillIn]
  cases slots[b]? with
  | none => simp
  | some s => cases s <;> simp [Slot.withSummary]

lemma starts_fillIn {a f : SlotId} :
    Slots.Starts (fillIn slots) a f ↔ Slots.Starts slots a f := by
  simp only [Slots.Starts, getElem?_fillIn]
  cases slots[a]? with
  | none => simp
  | some s => cases s <;> simp [Slot.withSummary]

lemma nullable_fillIn {id : SlotId} :
    Slots.Nullable (fillIn slots) id ↔ Slots.Nullable slots id := by
  constructor
  · exact fun h => h.mono (fun hr => by rwa [← role?_fillIn]) leads_fillIn.mp starts_fillIn.mp
  · exact fun h => h.mono (fun hr => by rwa [role?_fillIn]) leads_fillIn.mpr starts_fillIn.mpr

lemma first_fillIn {id y : SlotId} :
    Slots.First (fillIn slots) id y ↔ Slots.First slots id y := by
  constructor
  · exact fun h => h.mono (fun hr => by rwa [← role?_fillIn]) leads_fillIn.mp starts_fillIn.mp
  · exact fun h => h.mono (fun hr => by rwa [role?_fillIn]) leads_fillIn.mpr starts_fillIn.mpr

end Summary

namespace Graph

/-- The summaries in the slots say what the rules for them give. -/
structure Summarised (g : Graph) : Prop where
  nonterminal {a : SlotId} {s : NonterminalSlot} : g.slots[a]? = some (.nonterminal s) →
    (s.nullable = true ↔ Slots.Nullable g.slots a) ∧ ∀ y, y ∈ s.first ↔ Slots.First g.slots a y
  body {b : SlotId} {s : BodySlot} : g.slots[b]? = some (.body s) →
    (s.nullable = true ↔ Slots.Nullable g.slots b) ∧ ∀ y, y ∈ s.first ↔ Slots.First g.slots b y

lemma summarised_fillIn {slots : Array Slot} {registry : List (String × SlotId)} :
    Summarised ⟨Summary.fillIn slots, registry⟩ := by
  have hget {id : SlotId} {s' : Slot} (h : (Summary.fillIn slots)[id]? = some s') :
      ∃ s, slots[id]? = some s ∧
        s.withSummary (Summary.known (Summary.table slots) id) = s' := by
    rw [Summary.getElem?_fillIn] at h
    exact Option.map_eq_some_iff.mp h
  constructor
  · intro a s' h
    obtain ⟨s, -, heq⟩ := hget h
    cases s with
    | nonterminal s =>
      obtain rfl := Slot.nonterminal.inj heq
      exact ⟨Summary.nullable_table_iff.trans Summary.nullable_fillIn.symm,
        fun y => Summary.mem_first_table_iff.trans Summary.first_fillIn.symm⟩
    | body _ | terminal _ | done _ => cases heq
  · intro b s' h
    obtain ⟨s, -, heq⟩ := hget h
    cases s with
    | body s =>
      obtain rfl := Slot.body.inj heq
      exact ⟨Summary.nullable_table_iff.trans Summary.nullable_fillIn.symm,
        fun y => Summary.mem_first_table_iff.trans Summary.first_fillIn.symm⟩
    | nonterminal _ | terminal _ | done _ => cases heq

/-! ### Built graphs -/

/-- The graph is one of the rules: its slots are those of all alternatives, and no others. -/
structure Spells (g : Graph) (rules : List (String × List Symbol)) : Prop where
  wired : Slots.Wired g.slots
  valid : g.Valid
  summarised : g.Summarised
  lookup_iff {A : String} {a : SlotId} :
    g.registry.lookup A = some a ↔ role? g.slots a = some (.nonterminal A)
  terminal_unique {t : Terminal} {x y : SlotId} : role? g.slots x = some (.terminal t) →
    role? g.slots y = some (.terminal t) → x = y
  /-- Every end is that of an alternative, and reached by what spells it. -/
  ended {e a : SlotId} {k : Nat} : role? g.slots e = some (.done a k) →
    ∃ A body f xs, role? g.slots a = some (.nonterminal A) ∧
      (Rules.alternatives rules A)[k]? = some body ∧ Slots.Starts g.slots a f ∧
      Path g.slots f xs e ∧ Slots.Spelled g.slots xs body
  ended_unique {e e' a : SlotId} {k : Nat} : role? g.slots e = some (.done a k) →
    role? g.slots e' = some (.done a k) → e = e'
  /-- Every alternative has an end. -/
  reached {A : String} {k : Nat} {body : List Symbol} :
    (Rules.alternatives rules A)[k]? = some body →
      ∃ a e, role? g.slots a = some (.nonterminal A) ∧ role? g.slots e = some (.done a k)

end Graph

/-! ### Layouts as graphs -/

namespace Layout.Laid

variable {l : Layout} {laid : SlotId → Nat → List Symbol → Prop}
  (h : Laid laid (Slots.Starts l.slots) l)
include h

/-- Summaries do not change what is laid out. -/
lemma fillIn : Laid laid (Slots.Starts (Summary.fillIn l.slots))
    ⟨Summary.fillIn l.slots, l.registry⟩ :=
  h.congr rfl (fun _ => Summary.role?_fillIn) Summary.leads_fillIn
    (fun _ _ => Summary.starts_fillIn) fun _ _ _ => .rfl

lemma wired : Slots.Wired l.slots := by
  refine ⟨?_, h.leads_head, h.root_head, h.head_nonterminal, h.leads_unique, h.not_leads_root⟩
  intro b x d hb
  obtain ⟨X, hX⟩ := h.leads_symbol hb
  cases X with
  | terminal t => exact Or.inl ⟨t, hX⟩
  | nonterminal name => exact Or.inr ⟨name, hX⟩

lemma valid (hmem : ∀ {name a}, (name, a) ∈ l.registry →
      role? l.slots a = some (.nonterminal name))
    (hsum : Graph.Summarised ⟨l.slots, l.registry⟩) : Graph.Valid ⟨l.slots, l.registry⟩ := by
  refine ⟨?_, ?_, h.wired.leads_symbol, ?_, h.head_nonterminal, ?_⟩
  · intro name id hid
    exact ⟨name, hmem hid⟩
  · intro a f hf
    exact ⟨a, h.root_head hf⟩
  · intro b x d hb
    obtain ⟨s, hs, -⟩ := id hb
    exact ⟨s.head, (h.leads_head hb).trans (Slots.head?_body hs)⟩
  · rintro id x (⟨s, hs, hx⟩ | ⟨s, hs, hx⟩)
    · exact (((hsum.nonterminal hs).2 x).mp hx).isTerminal
    · exact (((hsum.body hs).2 x).mp hx).isTerminal

end Layout.Laid

namespace Graph

/-- Building the graph of a list of rules makes one of these rules. -/
theorem spells_of_build {share : Bool} {rules : List (String × List Symbol)} {g : Graph}
    (h : (Rules.ofList share rules).build = .ok g) : g.Spells rules := by
  obtain ⟨l, hl, hg⟩ := bind_eq_ok_iff.mp h
  obtain rfl : ⟨Summary.fillIn l.slots, l.registry⟩ = g := by simpa [pure, Except.pure] using hg
  have hgather := Rules.gathered_ofList share rules
  obtain ⟨hholds, hlookup, hmem⟩ := Rules.layout_ok hgather.nodup hl
  have hlaid := hholds.laid.fillIn
  have hvalid := Layout.Laid.valid (l := ⟨Summary.fillIn l.slots, l.registry⟩) hlaid
    (fun he => by rw [Summary.role?_fillIn, hmem he]) summarised_fillIn
  have hwired := Layout.Laid.wired (l := ⟨Summary.fillIn l.slots, l.registry⟩) hlaid
  refine ⟨hwired, hvalid, summarised_fillIn, hlaid.lookup_iff, hlaid.terminal_unique, ?_,
    hlaid.ended_unique, ?_⟩
  · intro e a k he
    obtain ⟨f, xs, body, ⟨p, hp, hpa, hb⟩, hf, hpath, hs⟩ := hlaid.ended he
    rw [(hgather.mem_iff.mp hp).1] at hb
    exact ⟨p.head, body, f, xs, hlaid.lookup_iff.mp hpa, hb, hf, hpath, hs⟩
  · intro A k body hb
    have hp : ⟨A, Rules.alternatives rules A⟩ ∈ (Rules.ofList share rules).productions := by
      refine hgather.mem_iff.mpr ⟨rfl, ?_⟩
      intro hnil
      simp only at hnil
      simp [hnil] at hb
    obtain ⟨a, ha⟩ := hlookup _ hp
    obtain ⟨e, he⟩ := hlaid.reached ⟨_, hp, ha, hb⟩
    exact ⟨a, e, hlaid.lookup_iff.mp ha, he⟩

namespace Spells

variable {g : Graph} {rules : List (String × List Symbol)} {t : Text}

lemma nonterminal_unique (h : g.Spells rules) {A : String} {a b : SlotId}
    (ha : role? g.slots a = some (.nonterminal A)) (hb : role? g.slots b = some (.nonterminal A)) :
    a = b := by
  rw [← h.lookup_iff] at ha hb
  rw [ha] at hb
  exact Option.some.inj hb

/-- The path to the end of an alternative spells the alternative. -/
lemma path_iff (h : g.Spells rules) {a e f : SlotId} {k : Nat} {A : String} {xs : List SlotId}
    (ha : role? g.slots a = some (.nonterminal A)) (he : role? g.slots e = some (.done a k))
    (hf : Slots.Starts g.slots a f) (hp : Path g.slots f xs e) :
    ∃ body, (Rules.alternatives rules A)[k]? = some body ∧ Slots.Spelled g.slots xs body := by
  obtain ⟨A', body, f', xs', ha', hb, hf', hp', hs⟩ := h.ended he
  obtain ⟨rfl, rfl⟩ := h.wired.path_unique hf hf' hp hp'
  rw [ha] at ha'
  obtain rfl : A = A' := by simpa using ha'
  exact ⟨body, hb, hs⟩

/-- A path to the end of an alternative spells it. -/
lemma exists_path (h : g.Spells rules) {A : String} {a : SlotId} {k : Nat} {body : List Symbol}
    (ha : role? g.slots a = some (.nonterminal A))
    (hk : (Rules.alternatives rules A)[k]? = some body) :
    ∃ e f xs, role? g.slots e = some (.done a k) ∧ Slots.Starts g.slots a f ∧
      Path g.slots f xs e ∧ Slots.Spelled g.slots xs body := by
  obtain ⟨a', e, ha', he⟩ := h.reached hk
  obtain rfl := h.nonterminal_unique ha ha'
  obtain ⟨A', body', f, xs, hA, hk', hf, hp, hs⟩ := h.ended he
  obtain rfl : A = A' := by simpa using ha.symm.trans hA
  obtain rfl := Option.some.inj (hk.symm.trans hk')
  exact ⟨e, f, xs, he, hf, hp, hs⟩

end Spells

end Graph

/-! ### Derivations -/

lemma Slots.spelled_iff {slots : Array Slot} {xs : List SlotId} {body : List Symbol} :
    Slots.Spelled slots xs body ↔
      List.Forall₂ (fun X x => role? slots x = some X.role) body xs := by
  rw [Slots.Spelled]
  induction body generalizing xs with
  | nil => simp
  | cons X body ih =>
    cases xs with
    | nil => simp
    | cons x xs => simp [ih]

/-- What a path goes over can be written as symbols. -/
lemma Slots.Wired.exists_spelled {slots : Array Slot} (hw : Slots.Wired slots) {b d : SlotId} {xs : List SlotId}
    (hp : Path slots b xs d) : ∃ body, Slots.Spelled slots xs body := by
  induction hp with
  | nil => exact ⟨[], rfl⟩
  | cons hl _ ih =>
    obtain ⟨body, hbody⟩ := ih
    rcases hw.leads_symbol hl with ⟨τ, hτ⟩ | ⟨name, hn⟩
    · exact ⟨.terminal τ :: body, by simpa [Slots.Spelled, hτ, Symbol.role] using hbody⟩
    · exact ⟨.nonterminal name :: body, by simpa [Slots.Spelled, hn, Symbol.role] using hbody⟩

namespace Graph.Spells

variable {g : Graph} {rules : List (String × List Symbol)} {t : Text} {m : Matching}

/-- The slots of a graph derive what the symbols derive for which they stand, in whatever way
terminals match. -/
theorem derivesBy_iff (h : g.Spells rules) {xs : List SlotId} {body : List Symbol} {i j : Nat}
    (hs : Slots.Spelled g.slots xs body) :
    (SpanGrammar.ofSlotsBy g.slots m).Derives xs i j ↔
      (SpanGrammar.ofRulesBy rules m).Derives body i j := by
  constructor
  · refine fun hd => hd.transfer (R := fun x X => role? g.slots x = some (Symbol.role X)) ?_ ?_
      (Slots.spelled_iff.mp hs).flip
    · rintro x X i j hX ⟨τ, n, hτ, hm, rfl⟩
      rw [hτ] at hX
      cases X with
      | terminal τ' =>
        obtain rfl : τ = τ' := by simpa [Symbol.role] using hX
        exact ⟨τ, n, rfl, hm, rfl⟩
      | nonterminal name => simp [Symbol.role] at hX
    · rintro x X xs hX ⟨f, e, a, k, hf, hp, he⟩
      obtain rfl : x = a := by
        have := h.wired.path_head hp
        rw [h.wired.starts_head hf, head?, he] at this
        simpa [Slot.Role.head?] using this.symm
      obtain ⟨A, hA⟩ := h.wired.head_nonterminal (h.wired.starts_head hf)
      obtain ⟨body, hb, hs⟩ := h.path_iff hA he hf hp
      rw [hA] at hX
      cases X with
      | terminal τ => simp [Symbol.role] at hX
      | nonterminal A' =>
        obtain rfl : A = A' := by simpa [Symbol.role] using hX
        exact ⟨body, ⟨A, rfl, Rules.mem_alternatives.mp (List.mem_of_getElem? hb)⟩,
          (Slots.spelled_iff.mp hs).flip⟩
  · refine fun hd => hd.transfer (R := fun X x => role? g.slots x = some (Symbol.role X)) ?_ ?_
      (Slots.spelled_iff.mp hs)
    · rintro X x i j hX ⟨τ, n, rfl, hm, rfl⟩
      exact ⟨τ, n, hX, hm, rfl⟩
    · rintro X x body hX ⟨A, rfl, hmem⟩
      obtain ⟨k, hk⟩ := List.mem_iff_getElem?.mp (Rules.mem_alternatives.mpr hmem)
      obtain ⟨e, f, xs, he, hf, hp, hs⟩ := h.exists_path hX hk
      exact ⟨xs, ⟨f, e, x, k, hf, hp, he⟩, Slots.spelled_iff.mp hs⟩

lemma derives_iff (h : g.Spells rules) {xs : List SlotId} {body : List Symbol} {i j : Nat}
    (hs : Slots.Spelled g.slots xs body) :
    (SpanGrammar.ofSlots g.slots t).Derives xs i j ↔
      (SpanGrammar.ofRules rules t).Derives body i j := by
  rw [SpanGrammar.ofSlots_eq, SpanGrammar.ofRules_eq]
  exact h.derivesBy_iff hs

/-- A nonterminal derives the same by its slot as by its name. -/
lemma derives_nonterminal_iff (h : g.Spells rules) {a : SlotId} {A : String} {i j : Nat}
    (ha : role? g.slots a = some (.nonterminal A)) :
    (SpanGrammar.ofSlots g.slots t).Derives [a] i j ↔
      (SpanGrammar.ofRules rules t).Derives [.nonterminal A] i j := by
  apply h.derives_iff
  simp [Slots.Spelled, ha, Symbol.role]

end Graph.Spells

end

/-! ### Small grammars -/

/-- An ambiguous grammar, left-recursive and with cycles: as many letters as one likes. -/
def Rules.letters : List (String × List Symbol) :=
  [("S", [.nonterminal "S", .nonterminal "S"]), ("S", [.terminal (.char 'a')]), ("S", [])]

def Graph.letters : Graph := ((Rules.ofList true Rules.letters).build.toOption).getD .empty

lemma Graph.build_letters : (Rules.ofList true Rules.letters).build = .ok Graph.letters := by
  decide +kernel

lemma Graph.nonterminal?_letters : Graph.letters.nonterminal? "S" = some 0 := by
  decide +kernel

/-- A grammar without ambiguity: some letters `a`, and then as many letters `b`. -/
def Rules.nested : List (String × List Symbol) :=
  [("S", [.terminal (.char 'a'), .nonterminal "S", .terminal (.char 'b')]), ("S", [])]

def Graph.nested : Graph := ((Rules.ofList false Rules.nested).build.toOption).getD .empty

lemma Graph.build_nested : (Rules.ofList false Rules.nested).build = .ok Graph.nested := by
  decide +kernel

lemma Graph.nonterminal?_nested : Graph.nested.nonterminal? "S" = some 0 := by
  decide +kernel

end GeneralParser
