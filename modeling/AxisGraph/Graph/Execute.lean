import AxisGraph.Graph.Basic

/-!
Execution of operators. An execution either publishes all that its operator recorded and freezes
it, or leaves the graph as it was. Applying an operator adds it, binds its inputs and executes it;
when one of these steps fails, the operator is withdrawn again.
-/

namespace AxisGraph

/-- What a call on a graph gives: the answer, the graph after the call, and what was logged, also
when the call failed. -/
structure Outcome (α : Type) where
  answer : Except GraphError α
  graph : Graph
  log : List LogEntry

namespace Outcome

variable {α β : Type}

/-- A call that logs nothing and leaves the graph alone. -/
def of (answer : Except GraphError α) (graph : Graph) : Outcome α := ⟨answer, graph, []⟩

/-- Continue after success with the graph that the first call left. -/
def andThen (outcome : Outcome α) (f : α → Graph → Outcome β) : Outcome β :=
  match outcome.answer with
  | .ok value =>
    let next := f value outcome.graph
    { next with log := outcome.log ++ next.log }
  | .error error => ⟨.error error, outcome.graph, outcome.log⟩

def map (f : α → β) (outcome : Outcome α) : Outcome β :=
  ⟨outcome.answer.map f, outcome.graph, outcome.log⟩

end Outcome

namespace Graph

/-- The tensors bound to these slots of an operator. All of them must be bound. -/
def boundTensors (graph : Graph) (node : Node) :
    List String → NameMap Tensor → Except GraphError (NameMap Tensor)
  | [], bound => .ok bound
  | slot :: slots, bound =>
    match node.inputs.find? slot with
    | none => .error (.missingInput node.name slot)
    | some id => do
      let found ← graph.variableAt id
      graph.boundTensors node slots (bound.insert slot found.tensor)

/-- Handles of the next variables to be added. -/
def nextIds (graph : Graph) (count : Nat) : List VariableId :=
  (List.range' graph.vars.length count).map graph.variableId

/-- Store what an execution recorded: a variable for each output, in the order of the recording. -/
def commit (graph : Graph) (operator : OperatorId) (recorded : Context) : Graph :=
  let produced := recorded.outputs.map fun output => (⟨output.2, some operator⟩ : Variable)
  let slots := (recorded.outputs.map Prod.fst).zip (graph.nextIds recorded.outputs.length)
  { graph with vars := graph.vars ++ produced }.modifyNode operator fun node =>
    { node with
      outputs := node.outputs.insertAll slots
      attributes := recorded.attributes
      diagnostics := recorded.diagnostics
      frozen := true }

/-- Run the body of an operator on its inputs, and store what it recorded if it succeeds. -/
def runNode (graph : Graph) (operator : OperatorId) (node : Node) (inputs : NameMap Tensor) :
    Outcome (List VariableId) :=
  let started := LogEntry.started node.name node.operator.kind inputs
  let (result, recorded) :=
    (node.operator.body node.id node.name).run (.start node.id node.name inputs)
  match result with
  | .error error => ⟨.error error, graph, started :: recorded.log⟩
  | .ok () =>
    { answer := .ok (graph.nextIds recorded.outputs.length)
      graph := graph.commit operator recorded
      log := started :: recorded.log ++
        recorded.outputs.map fun output => .published node.name output.1 output.2 }

/-- Execute an operator whose declared slots are all bound. The answer lists the handles of its
outputs in the order in which it published them. -/
def execute (graph : Graph) (operator : OperatorId) : Outcome (List VariableId) :=
  match graph.nodeAt operator with
  | .error error => .of (.error error) graph
  | .ok node =>
    if node.frozen then .of (.error (.operatorFrozen node.name)) graph
    else
      match graph.boundTensors node node.operator.slots ∅ with
      | .error error => .of (.error error) graph
      | .ok inputs => graph.runNode operator node inputs

/-- Bind inputs one after the other, up to the first failure. -/
def bindInputs (graph : Graph) (operator : OperatorId) : List (String × VariableId) → Outcome Unit
  | [] => .of (.ok ()) graph
  | (slot, id) :: rest =>
    match graph.bindInput operator slot id with
    | .error error => .of (.error error) graph
    | .ok extended => extended.bindInputs operator rest

/-- Remove the operator that was added last. -/
def withdraw (graph : Graph) : Graph := { graph with nodes := graph.nodes.dropLast }

/-- Add an operator, bind its inputs and execute it, or else leave it out. -/
def apply (graph : Graph) (name : Option String) (operator : Operator)
    (inputs : List (String × VariableId)) : Outcome (List VariableId) :=
  let (id, extended) := graph.addOperator name operator
  let outcome := (extended.bindInputs id inputs).andThen fun _ bound => bound.execute id
  match outcome.answer with
  | .ok _ => outcome
  | .error _ => { outcome with graph := outcome.graph.withdraw }

end Graph

end AxisGraph
