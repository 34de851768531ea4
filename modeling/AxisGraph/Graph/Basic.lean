import AxisGraph.Operator.Basic

/-!
Graphs of variables and operators. A graph owns both and hands out handles; a variable remembers the
operator that produced it, and an operator placed in the graph remembers the variables bound to its
slots. Handles are checked wherever a caller passes one in.
-/

namespace AxisGraph

/-- A tensor in a graph, with the operator that produced it. -/
structure Variable where
  tensor : Tensor
  producer : Option OperatorId
  deriving DecidableEq

/-- An operator placed in a graph. Once it has been executed it is frozen: no further input can be
bound, and its outputs, attributes and diagnostics stand. -/
structure Node where
  id : OperatorId
  name : String
  operator : Operator
  inputs : NameMap VariableId
  outputs : NameMap VariableId
  attributes : List Attribute
  diagnostics : List Diagnostic
  frozen : Bool

namespace Node

/-- An operator without bindings. -/
def fresh (id : OperatorId) (name : String) (operator : Operator) : Node where
  id := id
  name := name
  operator := operator
  inputs := ∅
  outputs := ∅
  attributes := []
  diagnostics := []
  frozen := false

/-- Axes with a tensorwise attribute, in the order of attachment. -/
def tensorwiseAxes (node : Node) : List Axis := node.attributes.map Attribute.axis

end Node

structure Graph where
  id : GraphId
  vars : List Variable
  nodes : List Node
  inputs : List VariableId
  outputs : List VariableId

namespace Graph

/-- The empty graph with this identity. -/
def new (id : GraphId) : Graph := ⟨id, [], [], [], []⟩

def variableId (graph : Graph) (index : Nat) : VariableId := ⟨graph.id, index⟩

def operatorId (graph : Graph) (index : Nat) : OperatorId := ⟨graph.id, index⟩

def variableIds (graph : Graph) : List VariableId :=
  (List.range graph.vars.length).map graph.variableId

/-- The variable of a handle that this graph issued. -/
def variableAt (graph : Graph) (id : VariableId) : Except GraphError Variable :=
  if id.graph = graph.id then
    match graph.vars[id.index]? with
    | some found => .ok found
    | none => .error (.unknownVariable id)
  else .error (.unknownVariable id)

/-- The operator of a handle that this graph issued. -/
def nodeAt (graph : Graph) (id : OperatorId) : Except GraphError Node :=
  if id.graph = graph.id then
    match graph.nodes[id.index]? with
    | some found => .ok found
    | none => .error (.unknownOperator id)
  else .error (.unknownOperator id)

def producer (graph : Graph) (id : VariableId) : Except GraphError (Option OperatorId) := do
  let found ← graph.variableAt id
  return found.producer

/-- The operators that have the variable bound to one of their slots. -/
def consumers (graph : Graph) (id : VariableId) : Except GraphError (List OperatorId) := do
  let _ ← graph.variableAt id
  return (graph.nodes.filter fun node => node.inputs.values.contains id).map Node.id

/-- Add a variable that no operator produces, such as a weight. -/
def addVariable (graph : Graph) (tensor : Tensor) : VariableId × Graph :=
  (graph.variableId graph.vars.length,
    { graph with vars := graph.vars ++ [⟨tensor, none⟩] })

/-- Add a variable that is fed from outside. -/
def addInput (graph : Graph) (tensor : Tensor) : VariableId × Graph :=
  let (id, extended) := graph.addVariable tensor
  (id, { extended with inputs := extended.inputs ++ [id] })

/-- Mark a variable as an output. Marking it again changes nothing. -/
def markOutput (graph : Graph) (id : VariableId) : Except GraphError Graph := do
  let _ ← graph.variableAt id
  return if id ∈ graph.outputs then graph else { graph with outputs := graph.outputs ++ [id] }

/-- The name of an operator that is added without one. -/
def generatedName (operator : Operator) (index : Nat) : String :=
  operator.kind ++ toString index

/-- Place an operator in the graph. -/
def addOperator (graph : Graph) (name : Option String) (operator : Operator) : OperatorId × Graph :=
  let index := graph.nodes.length
  let id := graph.operatorId index
  (id, { graph with
    nodes := graph.nodes ++ [.fresh id (name.getD (generatedName operator index)) operator] })

def modifyNode (graph : Graph) (id : OperatorId) (f : Node → Node) : Graph :=
  { graph with nodes := graph.nodes.modify id.index f }

/-- Bind a variable to a declared slot of an operator that is not frozen. -/
def bindInput (graph : Graph) (operator : OperatorId) (slot : String) (id : VariableId) :
    Except GraphError Graph := do
  let node ← graph.nodeAt operator
  let _ ← graph.variableAt id
  if node.frozen then .error (.operatorFrozen node.name)
  else if slot ∉ node.operator.slots then .error (.slotNotSupported node.name slot)
  else if node.inputs.contains slot then .error (.slotTaken node.name slot)
  else
    return graph.modifyNode operator fun node =>
      { node with inputs := node.inputs.insert slot id }

end Graph

end AxisGraph
