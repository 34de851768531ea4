import AxisGraph.Graph.Basic

/-!
The text of a graph: a line for the inputs, a line for each operator in the order of placement,
and a line for the outputs. A variable is written with its handle, shape and layout.
-/

namespace AxisGraph

open Text

namespace Graph

/-- A variable with its handle. A handle that names no variable stands alone. -/
def variableText (graph : Graph) (id : VariableId) : String :=
  match graph.variableAt id with
  | .ok found => toString id ++ toString found.tensor
  | .error _ => toString id

/-- The variables of a list, without the handles that name none. -/
def variablesText (graph : Graph) (ids : List VariableId) : String :=
  commaSeparated ((ids.filter fun id => (graph.variableAt id).isOk).map graph.variableText)

def bindingsText (graph : Graph) (bindings : NameMap VariableId) : String :=
  commaSeparated (bindings.entries.map fun binding =>
    binding.1 ++ "=" ++ graph.variableText binding.2)

/-- A text filled up with blanks on its right. -/
def padRight (width : Nat) (text : String) : String :=
  text ++ String.ofList (List.replicate (width - text.length) ' ')

def attributesText : List Attribute → String
  | [] => ""
  | attributes => " \x7b" ++ commaSeparated (attributes.map toString) ++ "\x7d"

def nodeText (graph : Graph) (node : Node) : String :=
  padRight 6 (toString node.id) ++ " " ++ node.name ++ "(" ++ graph.bindingsText node.inputs ++
    ") -> (" ++ graph.bindingsText node.outputs ++ ")" ++ attributesText node.attributes ++ "\n"

def text (graph : Graph) : String :=
  "inputs: " ++ graph.variablesText graph.inputs ++ "\n" ++
    String.join (graph.nodes.map graph.nodeText) ++
    "outputs: " ++ graph.variablesText graph.outputs ++ "\n"

instance : ToString Graph := ⟨text⟩

end Graph

end AxisGraph
