import AxisGraph.Graph.Execute

/-!
Built-in operators applied to variables, without a name of their own. The answer is the handle of
the output.
-/

namespace AxisGraph

/-- Apply a built-in operator and keep the handle of its first output. -/
def Parameters.apply (parameters : Parameters) (graph : Graph)
    (inputs : List (String × VariableId)) : Outcome (Option VariableId) :=
  (graph.apply none parameters.operator inputs).map List.head?

def Pooling.apply (pooling : Pooling) (graph : Graph) (x : VariableId) :
    Outcome (Option VariableId) :=
  (Parameters.pooling pooling).apply graph [("x", x)]

def Convolution.apply (convolution : Convolution) (graph : Graph) (x w : VariableId) :
    Outcome (Option VariableId) :=
  (Parameters.convolution convolution).apply graph [("x", x), ("w", w)]

def Deconvolution.apply (deconvolution : Deconvolution) (graph : Graph) (x w : VariableId) :
    Outcome (Option VariableId) :=
  (Parameters.deconvolution deconvolution).apply graph [("x", x), ("w", w)]

def LogSoftmax.apply (softmax : LogSoftmax) (graph : Graph) (x : VariableId) :
    Outcome (Option VariableId) :=
  (Parameters.logSoftmax softmax).apply graph [("x", x)]

end AxisGraph
