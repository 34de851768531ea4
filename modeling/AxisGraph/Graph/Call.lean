import AxisGraph.Graph.Builtin

/-!
Calls that may change a graph, as data. Performing a call gives its answer, the graph after it and
what it logged, so a history of a graph is a list of calls.
-/

namespace AxisGraph.Graph

inductive Call where
  | addVariable (tensor : Tensor)
  | addInput (tensor : Tensor)
  | markOutput (id : VariableId)
  | addOperator (name : Option String) (operator : Operator)
  | bindInput (operator : OperatorId) (slot : String) (id : VariableId)
  | execute (operator : OperatorId)
  | apply (name : Option String) (operator : Operator) (inputs : List (String × VariableId))
  | pool (pooling : Pooling) (x : VariableId)
  | convolve (convolution : Convolution) (x w : VariableId)
  | deconvolve (deconvolution : Deconvolution) (x w : VariableId)
  | logSoftmax (softmax : LogSoftmax) (x : VariableId)

/-- What a successful call hands back. -/
inductive Answer where
  | done
  | vars (ids : List VariableId)
  | operator (id : OperatorId)
  deriving DecidableEq

/-- The answer of a call that changes the graph and hands nothing back. -/
def ofChange (graph : Graph) : Except GraphError Graph → Outcome Answer
  | .ok changed => .of (.ok .done) changed
  | .error error => .of (.error error) graph

def perform (graph : Graph) : Call → Outcome Answer
  | .addVariable tensor =>
    let (id, extended) := graph.addVariable tensor
    .of (.ok (.vars [id])) extended
  | .addInput tensor =>
    let (id, extended) := graph.addInput tensor
    .of (.ok (.vars [id])) extended
  | .markOutput id => ofChange graph (graph.markOutput id)
  | .addOperator name operator =>
    let (id, extended) := graph.addOperator name operator
    .of (.ok (.operator id)) extended
  | .bindInput operator slot id => ofChange graph (graph.bindInput operator slot id)
  | .execute operator => (graph.execute operator).map .vars
  | .apply name operator inputs => (graph.apply name operator inputs).map .vars
  | .pool pooling x => (pooling.apply graph x).map fun id => .vars id.toList
  | .convolve convolution x w => (convolution.apply graph x w).map fun id => .vars id.toList
  | .deconvolve deconvolution x w => (deconvolution.apply graph x w).map fun id => .vars id.toList
  | .logSoftmax softmax x => (softmax.apply graph x).map fun id => .vars id.toList

/-- The graph after a list of calls, whether they succeed or fail. -/
def performAll (graph : Graph) (calls : List Call) : Graph :=
  calls.foldl (fun graph call => (graph.perform call).graph) graph

end AxisGraph.Graph
