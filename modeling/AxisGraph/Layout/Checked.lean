import AxisGraph.Error

/-!
Operations on layouts that name the cause when they fail.
-/

namespace AxisGraph.Layout

/-- The layout with these axes, which must be distinct. -/
def ofAxes (axes : List Axis) : Except GraphError Layout :=
  if h : axes.Nodup then .ok ⟨axes, h⟩ else .error (.repeatedAxis axes)

def position (layout : Layout) (axis : Axis) : Except GraphError Nat :=
  match layout.position? axis with
  | some i => .ok i
  | none => .error (.axisNotFound axis layout)

def permutationTo (source target : Layout) : Except GraphError (List Nat) :=
  match source.permutationTo? target with
  | some permutation => .ok permutation
  | none => .error (.axesDiffer source target)

end AxisGraph.Layout
