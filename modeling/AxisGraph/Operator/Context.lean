import AxisGraph.Log

/-!
What an executing operator may read and record. Inputs are fixed for the whole execution; outputs,
attributes and diagnostics only accumulate.
-/

namespace AxisGraph

/-- The state of one execution of an operator. -/
structure Context where
  id : OperatorId
  name : String
  inputs : NameMap Tensor
  outputs : List (String × Tensor)
  attributes : List Attribute
  diagnostics : List Diagnostic
  log : List LogEntry
  deriving DecidableEq

namespace Context

/-- A context in which nothing is recorded yet. -/
def start (id : OperatorId) (name : String) (inputs : NameMap Tensor) : Context where
  id := id
  name := name
  inputs := inputs
  outputs := []
  attributes := []
  diagnostics := []
  log := []

def input (context : Context) (slot : String) : Except GraphError Tensor :=
  match context.inputs.find? slot with
  | some tensor => .ok tensor
  | none => .error (.missingInput context.name slot)

/-- Record an output. A slot takes one output only. -/
def appendOutput (context : Context) (slot : String) (tensor : Tensor) :
    Except GraphError Context :=
  if slot ∈ context.outputs.map Prod.fst then .error (.slotTaken context.name slot)
  else .ok { context with outputs := context.outputs ++ [(slot, tensor)] }

/-- Attach an attribute. Attaching it again changes nothing. -/
def attach (context : Context) (mark : Attribute) : Context :=
  if mark ∈ context.attributes then context
  else { context with attributes := context.attributes ++ [mark] }

/-- Record a diagnostic and log it. -/
def report (context : Context) (diagnostic : Diagnostic) : Context :=
  { context with
    diagnostics := context.diagnostics ++ [diagnostic]
    log := context.log ++ [.diagnosed context.name diagnostic] }

end Context

end AxisGraph
