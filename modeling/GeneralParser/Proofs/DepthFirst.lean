import GeneralParser.DepthFirst
import Mathlib.Logic.Relation

/-!
# What is met depth first

The vertices that are met from a root on are those that can be reached from it.
-/

namespace GeneralParser.DepthFirst

variable {successors : Nat → List Nat} {fresh : Array Bool} {met todo : List Nat}

/-- Vertex `w` below `size` comes right after `v`. -/
def Next (successors : Nat → List Nat) (size : Nat) (v w : Nat) : Prop :=
  w ∈ successors v ∧ w < size

/-- What holds of the vertices to start from, and of all that come after such a vertex, holds of all
vertices met. -/
lemma visit_sound {P : Nat → Prop} {size : Nat} (hsize : fresh.size = size)
    (hnext : ∀ {v w}, P v → Next successors size v w → P w) (hmet : ∀ v ∈ met, P v)
    (htodo : ∀ v ∈ todo, v < size → P v) : ∀ v ∈ visit successors fresh met todo, P v := by
  induction fresh, met, todo using visit.induct successors with
  | case1 fresh met =>
    rw [visit]
    intro v hv
    exact hmet v (List.mem_reverse.mp hv)
  | case2 fresh met v todo hfresh ih =>
    rw [visit]
    rw [if_pos hfresh]
    have hlt : v < size := hsize ▸ (Array.getElem?_eq_some_iff.mp hfresh).1
    have hv : P v := htodo v List.mem_cons_self hlt
    apply ih
    · simpa using hsize
    · intro u hu
      rcases List.mem_cons.mp hu with rfl | hu
      · exact hv
      · exact hmet u hu
    · intro w hw hwlt
      rcases List.mem_append.mp hw with hw | hw
      · exact hnext hv ⟨hw, hwlt⟩
      · exact htodo w (List.mem_cons_of_mem _ hw) hwlt
  | case3 fresh met v todo hfresh ih =>
    rw [visit]
    rw [if_neg hfresh]
    apply ih hsize hmet
    intro w hw
    exact htodo w (List.mem_cons_of_mem _ hw)

/-- Every vertex that has been met is no more fresh, and what comes after it has been met or is
still to be visited. -/
structure Visited (successors : Nat → List Nat) (fresh : Array Bool) (met todo : List Nat) :
    Prop where
  fresh_or_met {v : Nat} : v < fresh.size → fresh[v]? = some true ∨ v ∈ met
  next {v w : Nat} : v ∈ met → Next successors fresh.size v w → w ∈ met ∨ w ∈ todo

/-- The vertices met are closed under what comes after. -/
lemma Visited.closed (h : Visited successors fresh met todo) :
    (∀ v ∈ met, v ∈ visit successors fresh met todo) ∧
      (∀ v ∈ todo, v < fresh.size → v ∈ visit successors fresh met todo) ∧
      ∀ {v w}, v ∈ visit successors fresh met todo → Next successors fresh.size v w →
        w ∈ visit successors fresh met todo := by
  induction fresh, met, todo using visit.induct successors with
  | case1 fresh met =>
    rw [visit]
    refine ⟨fun v hv => List.mem_reverse.mpr hv, by simp, ?_⟩
    intro v w hv hw
    rcases h.next (List.mem_reverse.mp hv) hw with hw | hw
    · exact List.mem_reverse.mpr hw
    · cases hw
  | case2 fresh met v todo hfresh ih =>
    rw [visit]
    rw [if_pos hfresh]
    have hsize : (fresh.setIfInBounds v false).size = fresh.size := by simp
    obtain ⟨hmet, htodo, hclosed⟩ := ih (by
      refine ⟨?_, ?_⟩
      · intro u hu
        by_cases huv : u = v
        · exact Or.inr (by simp [huv])
        · rw [hsize] at hu
          rw [Array.getElem?_setIfInBounds, if_neg (Ne.symm huv)]
          exact (h.fresh_or_met hu).imp id (List.mem_cons_of_mem _)
      · intro u w hu hw
        rw [hsize] at hw
        rcases List.mem_cons.mp hu with rfl | hu
        · exact Or.inr (List.mem_append_left _ hw.1)
        · rcases h.next hu hw with hw | hw
          · exact Or.inl (List.mem_cons_of_mem _ hw)
          · rcases List.mem_cons.mp hw with rfl | hw
            · exact Or.inl List.mem_cons_self
            · exact Or.inr (List.mem_append_right _ hw))
    rw [hsize] at htodo hclosed
    refine ⟨fun u hu => hmet u (List.mem_cons_of_mem _ hu), ?_, hclosed⟩
    intro u hu hlt
    rcases List.mem_cons.mp hu with rfl | hu
    · exact hmet u List.mem_cons_self
    · exact htodo u (List.mem_append_right _ hu) hlt
  | case3 fresh met v todo hfresh ih =>
    rw [visit]
    rw [if_neg hfresh]
    have hold (hlt : v < fresh.size) : v ∈ met := (h.fresh_or_met hlt).resolve_left hfresh
    obtain ⟨hmet, htodo, hclosed⟩ := ih (by
      refine ⟨h.fresh_or_met, ?_⟩
      intro u w hu hw
      rcases h.next hu hw with hw' | hw'
      · exact Or.inl hw'
      · rcases List.mem_cons.mp hw' with rfl | hw'
        · exact Or.inl (hold hw.2)
        · exact Or.inr hw')
    refine ⟨hmet, ?_, hclosed⟩
    intro u hu hlt
    rcases List.mem_cons.mp hu with rfl | hu
    · exact hmet u (hold hlt)
    · exact htodo u hu hlt

/-- The vertices met from a root on are those that can be reached from it. -/
theorem mem_order_iff {size root v : Nat} (hroot : root < size) :
    v ∈ order successors size [root] ↔
      Relation.ReflTransGen (Next successors size) root v := by
  have hsize : (Array.replicate size true).size = size := Array.size_replicate
  constructor
  · intro hv
    refine visit_sound (P := Relation.ReflTransGen (Next successors size) root) hsize ?_ ?_ ?_ v hv
    · intro u w hu hw
      exact hu.tail hw
    · simp
    · intro u hu _
      obtain rfl := List.mem_singleton.mp hu
      exact .refl
  · intro h
    have hvisited : Visited successors (Array.replicate size true) [] [root] := by
      refine ⟨fun {u} hu => Or.inl ?_, by simp⟩
      rw [hsize] at hu
      simp [hu]
    obtain ⟨-, htodo, hclosed⟩ := hvisited.closed
    rw [hsize] at htodo hclosed
    induction h with
    | refl => exact htodo root List.mem_cons_self hroot
    | tail _ hw ih => exact hclosed ih hw

end GeneralParser.DepthFirst
