import AxisGraph.Operator.Basic

/-!
Scripted operators: operators whose body is a list of actions. Each action is one use of the
context, and the first error that is not attempted ends the script.
-/

namespace AxisGraph

inductive Action where
  | read (slot : String)
  | publish (slot : String) (shape : List Word) (layout : Layout)
  /-- Publish an input as it is. -/
  | forward (source target : String)
  /-- Publish an input in another layout. -/
  | rearrange (source target : String) (layout : Layout)
  | tensorwise (axis : Axis)
  | attach (mark : Attribute)
  | reportEdges (axes : List Axis)
  | refuse (reason : String)
  /-- Take the action and ignore its error. -/
  | attempt (action : Action)
  deriving DecidableEq

namespace Action

def body (id : OperatorId) (name : String) : Action → Body Unit
  | read slot => do
    let _ ← Body.read slot
  | publish slot shape layout => do
    let tensor ← Body.ofExcept (Tensor.ofShape shape layout)
    Body.publish slot tensor
  | forward source target => do
    let tensor ← Body.read source
    Body.publish target tensor
  | rearrange source target layout => do
    let tensor ← Body.read source
    let rearranged ← Body.ofExcept (tensor.changeLayout layout)
    Body.publish target rearranged
  | tensorwise axis => Body.attachAll [.tensorwise id axis]
  | attach mark => Body.attachAll [mark]
  | reportEdges axes => .report (.edgeIgnored id axes) (.finish (.ok ()))
  | refuse reason =>
    .finish (.error (.incompatibleShape name (.refused (toString id ++ " " ++ reason))))
  | attempt action => Body.attempt (action.body id name)

end Action

structure Script where
  kind : String
  slots : List String
  parameters : Parameters
  actions : List Action
  deriving DecidableEq

namespace Script

/-- The actions in order, up to the first error. -/
def body (script : Script) (id : OperatorId) (name : String) : Body Unit :=
  script.actions.foldr (fun action rest => do action.body id name; rest) (pure ())

def operator (script : Script) : Operator where
  kind := script.kind
  slots := script.slots
  parameters := script.parameters
  body := script.body

end Script

end AxisGraph
