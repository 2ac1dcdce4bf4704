/-!
# Depth-first order

Visiting a finite graph depth first, without recursion on the graph: the vertices still to be
visited wait on a list, and each is taken at most once from the list, since it is marked then.
-/

namespace GeneralParser.DepthFirst

/-- Works off `todo` from the front, where the successors of a vertex are put before everything that
already waits. A vertex is only met if `fresh` marks it, and is fresh no more afterwards. The result
continues `met`, which lists the vertices met so far, the last one first. -/
def visit (successors : Nat → List Nat) (fresh : Array Bool) (met : List Nat) :
    List Nat → List Nat
  | [] => met.reverse
  | v :: todo =>
    if fresh[v]? = some true then
      visit successors (fresh.setIfInBounds v false) (v :: met) (successors v ++ todo)
    else visit successors fresh met todo
termination_by todo => (fresh.count true, todo.length)
decreasing_by
  · rename_i h
    obtain ⟨hv, hf⟩ := Array.getElem?_eq_some_iff.mp h
    apply Prod.Lex.left
    have hpos : 0 < fresh.count true := Array.count_pos_iff.mpr (hf ▸ Array.getElem_mem hv)
    have hless : (fresh.setIfInBounds v false).count true = fresh.count true - 1 := by
      rw [Array.setIfInBounds_def, dif_pos hv, Array.count_set, hf]
      rfl
    omega
  · exact Prod.Lex.right _ (Nat.lt_succ_self _)

/-- The vertices below `size` in the order in which they are met from `todo` on, depth first. -/
def order (successors : Nat → List Nat) (size : Nat) (todo : List Nat) : List Nat :=
  visit successors (Array.replicate size true) [] todo

end GeneralParser.DepthFirst
