import GeneralParser.Proofs.Grammar.References

/-!
# Positions

A position in the body of a rule is numbered with the symbols before it. The numbers are given while
the alternatives are laid out, also to positions that several of them share, so the path from the
start of an alternative to a position is as long as the number says.
-/

namespace GeneralParser

variable [PatternEngine]

open Slots (role? head? Leads Path)

/-! ### Numbers along paths -/

namespace Slots

variable {slots : Array Slot}

/-- The alternatives start at position 0, and each transition to a position leads to the next. -/
structure Numbered (slots : Array Slot) : Prop where
  start {a f h : SlotId} {n : Nat} : Starts slots a f → role? slots f = some (.body h n) → n = 0
  step {b x d h h' : SlotId} {m n : Nat} : Leads slots b x d → role? slots b = some (.body h m) →
    role? slots d = some (.body h' n) → n = m + 1

/-- A position is numbered with the length of the path to it. -/
theorem Numbered.eq_length (hn : Numbered slots) {a f d h : SlotId} {n : Nat} {xs : List SlotId}
    (hf : Starts slots a f) (hp : Path slots f xs d) (hd : role? slots d = some (.body h n)) :
    n = xs.length := by
  induction xs using List.reverseRecOn generalizing d h n with
  | nil =>
    obtain rfl := path_nil_iff.mp hp
    exact hn.start hf hd
  | append_singleton xs x ih =>
    obtain ⟨m, hp, hl⟩ := path_concat_iff.mp hp
    obtain ⟨s, hs, -⟩ := id hl
    have hm := role?_body.mpr ⟨s, hs, rfl, rfl⟩
    rw [hn.step hl hm hd, ih hp hm, List.length_append, List.length_singleton]

/-- The slot is the `n`-th position of an alternative, or its end after `n` symbols. -/
def At (slots : Array Slot) (slot : SlotId) (n : Nat) : Prop :=
  ∃ a f xs, Starts slots a f ∧ Path slots f xs slot ∧ xs.length = n

lemma Wired.at_iff (hw : Wired slots) {a f slot : SlotId} {xs : List SlotId} {n : Nat}
    (hf : Starts slots a f) (hp : Path slots f xs slot) : At slots slot n ↔ xs.length = n := by
  constructor
  · rintro ⟨a', f', xs', hf', hp', rfl⟩
    rw [(hw.path_unique hf hf' hp hp').2]
  · rintro rfl
    exact ⟨a, f, xs, hf, hp, rfl⟩

end Slots

/-! ### Numbers while laying out -/

namespace Draft

variable {r : Rules} {d d' : Draft}

/-- The numbers are right so far. -/
structure Counted (d : Draft) : Prop where
  start {f h : SlotId} {n : Nat} : d.Start f → role? d.layout.slots f = some (.body h n) → n = 0
  step {b x c h h' : SlotId} {m n : Nat} : Leads d.layout.slots b x c →
    role? d.layout.slots b = some (.body h m) → role? d.layout.slots c = some (.body h' n) →
    n = m + 1
  pending {b h : SlotId} {m n : Nat} : d.pending = some (b, n) →
    role? d.layout.slots b = some (.body h m) → m = n

/-- A step keeps the numbers right: a slot that is new is numbered after the one that is pending. -/
lemma Counted.step_ok (hf : Fits d) (hc : Counted d) (hs : Step r d d') : Counted d' := by
  have hstart {f h : SlotId} {n : Nat} (hst : d'.Start f)
      (hr : role? d'.layout.slots f = some (.body h n)) : n = 0 := by
    rcases hs.start_back hst with hst | ⟨-, ⟨h', hr'⟩ | ⟨h', k, hr'⟩⟩
    · exact hc.start hst ((hs.role_old (hf.head_of_start hst)).symm.trans hr)
    · cases hr.symm.trans hr'
      rfl
    · cases hr.symm.trans hr'
  have hstep {b x c h h' : SlotId} {m n : Nat} (hl : Leads d'.layout.slots b x c)
      (hb : role? d'.layout.slots b = some (.body h m))
      (hr : role? d'.layout.slots c = some (.body h' n)) : n = m + 1 := by
    rcases hs.leads_back hf hl with hl | ⟨k, hk, -, ⟨⟨h'', hr'⟩, -⟩ | ⟨h'', k', hr'⟩⟩
    · obtain ⟨s, hsb, -⟩ := id hl
      have hb' := (hs.role_old ⟨_, Slots.head?_body hsb⟩).symm.trans hb
      exact hc.step hl hb' ((hs.role_old (hf.head_of_leads hl)).symm.trans hr)
    · obtain ⟨h₀, m₀, hb₀⟩ := hf.pending hk
      cases hb.symm.trans (hs.role hb₀)
      cases hr.symm.trans hr'
      rw [hc.pending hk hb₀]
    · cases hr.symm.trans hr'
  refine ⟨hstart, hstep, ?_⟩
  intro b h m n hb hr
  rcases hs.pending_back hf hb with hb | ⟨hst, rfl⟩ | ⟨b₀, n₀, x, hb₀, hl, rfl⟩
  · obtain ⟨h₀, m₀, hr₀⟩ := hf.pending hb
    cases hr.symm.trans (hs.role hr₀)
    exact hc.pending hb hr₀
  · exact hstart hst hr
  · obtain ⟨h₀, m₀, hr₀⟩ := hf.pending hb₀
    rw [hstep hl (hs.role hr₀) hr, hc.pending hb₀ hr₀]

/-- The numbers of all drafts are right. -/
theorem Built.counted (hnodup : r.heads.Nodup) (h : Built r d) : Counted d := by
  induction h with
  | declared =>
    have hd := Rules.declared_heads hnodup
    refine ⟨?_, fun hl => absurd hl (hd.not_leads _ _ _), by simp⟩
    rintro f h n (⟨a, hf⟩ | hf)
    · exact absurd hf (hd.not_starts a f)
    · cases hf
  | step hb hs ih => exact ih.step_ok (hb.fits hnodup) hs

end Draft

/-! ### Built graphs -/

/-- The positions of a graph that is built from rules are numbered right. -/
theorem Graph.numbered_of_build {share : Bool} {rules : List (String × List Symbol)} {g : Graph}
    (h : (Rules.ofList share rules).build = .ok g) : Slots.Numbered g.slots := by
  obtain ⟨l, hl, rfl⟩ := exists_built h
  have hc := hl.counted (Rules.gathered_ofList share rules).nodup
  constructor
  · intro a f h n hf hr
    rw [Summary.role?_fillIn] at hr
    exact hc.start (Or.inl ⟨a, Summary.starts_fillIn.mp hf⟩) hr
  · intro b x c h h' m n hlead hb hr
    rw [Summary.role?_fillIn] at hb hr
    exact hc.step (Summary.leads_fillIn.mp hlead) hb hr

end GeneralParser
