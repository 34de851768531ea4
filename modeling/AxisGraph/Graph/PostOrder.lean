import AxisGraph.Graph.Schedule

/-!
Depth-first post-order of the operators, by recursion. All branches share one set of operators
still to be visited; an operator leaves the set when the walk reaches it and is listed after its
producers.
-/

namespace AxisGraph.Graph

/-- The operators listed by a walk, and the indices of those that it did not reach. -/
structure Walk (limit : Nat) where
  listed : List OperatorId
  pending : List Nat
  length_le : pending.length ≤ limit

/-- Visit these operators and, before each, the producers of its inputs. -/
def walk (graph : Graph) (pending : List Nat) : List OperatorId → Walk pending.length
  | [] => ⟨[], pending, Nat.le_refl _⟩
  | operator :: rest =>
    if h : operator.index ∈ pending then
      have hlength := List.length_erase_of_mem h
      have hpos := List.length_pos_of_mem h
      match graph.walk (pending.erase operator.index) (graph.dependencies operator) with
      | ⟨above, left, hleft⟩ =>
        match graph.walk left rest with
        | ⟨after, unreached, hunreached⟩ =>
          ⟨above ++ operator :: after, unreached, by omega⟩
    else graph.walk pending rest
termination_by operators => (pending.length, operators.length)
decreasing_by
  · exact Prod.Lex.left _ _ (by omega)
  · exact Prod.Lex.left _ _ (by omega)
  · exact Prod.Lex.right _ (by simp)

/-- The post-order from the producers of the marked outputs. -/
def postOrder (graph : Graph) : List OperatorId :=
  (graph.walk (List.range graph.nodes.length) (graph.producers graph.outputs)).listed

end AxisGraph.Graph
