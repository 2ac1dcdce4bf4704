import Mathlib.Order.Lattice.Nat
import GeneralParser.Proofs.Grammar.Position

/-!
# No dead ends

While an alternative is laid out, the position that was reached last leads nowhere yet; all others
lead on. So in a graph that is built from rules every position leads on, and since positions are
numbered along the way, to the end of an alternative at last.
-/

namespace GeneralParser

variable [PatternEngine]

open Slots (role? head? Leads Path)

/-! ### Drafts -/

namespace Draft

variable {r : Rules} {d d' : Draft}

/-- All positions lead on, but possibly for the one that is pending. -/
def Onward (d : Draft) : Prop :=
  ∀ b h n, role? d.layout.slots b = some (.body h n) →
    (∃ m, d.pending = some (b, m)) ∨ ∃ x c, Leads d.layout.slots b x c

/-- A step leads on from the position that is pending, or leaves it there. -/
lemma Onward.step (hf : Fits d) (ho : Onward d) (hs : Step r d d') : Onward d' := by
  intro b h n hb
  rcases hs.role_back hf hb with hb | ⟨-, hpending, -⟩
  · rcases ho b h n hb with ⟨m, hm⟩ | ⟨x, c, hl⟩
    · exact (hs.pending_kept hf hm).imp (fun hm => ⟨m, hm⟩) id
    · exact Or.inr ⟨x, c, hs.leads hf hl⟩
  · exact Or.inl ⟨n, hpending h n rfl⟩

theorem Built.onward (hnodup : r.heads.Nodup) (h : Built r d) : Onward d := by
  induction h with
  | declared =>
    intro b h n hb
    obtain ⟨name, -, hr⟩ := (Rules.declared_heads hnodup).role hb
    cases hr
  | step hb hs ih => exact ih.step (hb.fits hnodup) hs

end Draft

/-! ### Built graphs -/

/-- Every position of a graph that is built from rules leads on. -/
theorem Graph.onward_of_build {share : Bool} {rules : List (String × List Symbol)} {g : Graph}
    (h : (Rules.ofList share rules).build = .ok g) {b : SlotId} {s : BodySlot}
    (hb : g.slots[b]? = some (.body s)) : ∃ x d, Leads g.slots b x d := by
  obtain ⟨l, hl, rfl⟩ := exists_built h
  have hr := Slots.role?_body.mpr ⟨s, hb, rfl, rfl⟩
  rw [Summary.role?_fillIn] at hr
  have ho := hl.onward (Rules.gathered_ofList share rules).nodup
  obtain ⟨x, c, hlead⟩ := (ho b _ _ hr).resolve_left (by simp)
  exact ⟨x, c, Summary.leads_fillIn.mpr hlead⟩

/-! ### Ways to the end -/

namespace Slots

variable {slots : Array Slot}

/-- The number of a position; that of other slots does not matter. -/
def position (slots : Array Slot) (id : SlotId) : Nat :=
  match role? slots id with
  | some (.body _ n) => n
  | _ => 0

/-- The largest number of a position. -/
def depth (slots : Array Slot) : Nat := (Finset.range slots.size).sup (position slots)

lemma le_depth {b a : SlotId} {n : Nat} (hb : role? slots b = some (.body a n)) :
    n ≤ depth slots := by
  have hmem : b ∈ Finset.range slots.size := Finset.mem_range.mpr (lt_size_of_role? hb)
  have hle : position slots b ≤ depth slots := Finset.le_sup hmem
  rwa [position, hb] at hle

/-- Where all positions lead on, one comes to an end. -/
lemma exists_path_of_onward (hw : Wired slots) (hn : Numbered slots)
    (ho : ∀ {b s}, slots[b]? = some (.body s) → ∃ x d, Leads slots b x d) {b a : SlotId}
    (hb : head? slots b = some a) :
    ∃ xs e k, Path slots b xs e ∧ role? slots e = some (.done a k) := by
  rcases head?_eq_some.mp hb with ⟨s, hs, rfl⟩ | ⟨s, hs, rfl⟩
  · -- the numbers increase along the way, up to the largest
    obtain ⟨k, hk⟩ : ∃ k, depth slots < s.position + k := ⟨depth slots + 1, by omega⟩
    induction k generalizing b s with
    | zero => exact absurd (le_depth (role?_body.mpr ⟨s, hs, rfl, rfl⟩)) (Nat.not_le.mpr hk)
    | succ k ih =>
      obtain ⟨x, d, hl⟩ := ho hs
      have hd : head? slots d = some s.head := (hw.leads_head hl).trans hb
      rcases head?_eq_some.mp hd with ⟨s', hs', hhead⟩ | ⟨s', hs', hhead⟩
      · have hnext := hn.step hl (role?_body.mpr ⟨s, hs, rfl, rfl⟩)
          (role?_body.mpr ⟨s', hs', rfl, rfl⟩)
        obtain ⟨xs, e, j, hp, he⟩ := ih s' hs' (hhead ▸ hd) (by omega)
        exact ⟨x :: xs, e, j, .cons hl hp, hhead ▸ he⟩
      · exact ⟨[x], d, _, path_singleton_iff.mpr hl, role?_done.mpr ⟨s', hs', hhead, rfl⟩⟩
  · exact ⟨[], b, _, .nil b, role?_done.mpr ⟨s, hs, rfl, rfl⟩⟩

end Slots

/-- From every slot of an alternative there is a path to an end. -/
theorem Graph.exists_path_end {share : Bool} {rules : List (String × List Symbol)} {g : Graph}
    (h : (Rules.ofList share rules).build = .ok g) {b a : SlotId} (hb : head? g.slots b = some a) :
    ∃ xs e k, Path g.slots b xs e ∧ role? g.slots e = some (.done a k) :=
  Slots.exists_path_of_onward (spells_of_build h).wired (numbered_of_build h)
    (fun hs => onward_of_build h hs) hb

end GeneralParser
