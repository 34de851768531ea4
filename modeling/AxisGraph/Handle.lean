/-!
Handles of a graph's variables and operators. A handle remembers the identity of the graph that
issued it, so it does not name anything in a graph of another identity.
-/

namespace AxisGraph

/-- Identity of a graph. -/
structure GraphId where
  serial : Nat
  deriving DecidableEq

structure VariableId where
  graph : GraphId
  index : Nat
  deriving DecidableEq

structure OperatorId where
  graph : GraphId
  index : Nat
  deriving DecidableEq

instance : ToString VariableId := ⟨fun id => "v" ++ toString id.index⟩

instance : ToString OperatorId := ⟨fun id => "op" ++ toString id.index⟩

end AxisGraph
