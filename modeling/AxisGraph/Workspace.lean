import AxisGraph.Graph.Call

/-!
Several graphs at once. A new graph gets an identity of its own; a copy keeps the identity of the
graph that it was taken from.
-/

namespace AxisGraph

/-- Graphs by name, and the first serial number that no graph has had. -/
structure Workspace where
  graphs : NameMap Graph
  nextSerial : Nat

namespace Workspace

def empty : Workspace := ⟨∅, 0⟩

/-- Put a new, empty graph under the name. -/
def create (workspace : Workspace) (name : String) : Workspace where
  graphs := workspace.graphs.insert name (.new ⟨workspace.nextSerial⟩)
  nextSerial := workspace.nextSerial + 1

def put (workspace : Workspace) (name : String) (graph : Graph) : Workspace :=
  { workspace with graphs := workspace.graphs.insert name graph }

/-- Put a copy of the source under the name of the target, if there is a source. -/
def copy (workspace : Workspace) (source target : String) : Workspace :=
  match workspace.graphs.find? source with
  | some graph => workspace.put target graph
  | none => workspace

/-- Perform a call on the graph under the name, if there is one. -/
def perform (workspace : Workspace) (name : String) (call : Graph.Call) :
    Option (Outcome Graph.Answer × Workspace) :=
  (workspace.graphs.find? name).map fun graph =>
    let outcome := graph.perform call
    (outcome, workspace.put name outcome.graph)

end Workspace

end AxisGraph
