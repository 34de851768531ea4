import AxisGraph.Log
import AxisGraph.Proofs.Graph.Transcript

/-!
Lines with tensors on them. The text of a tensor determines the tensor and is made of digits, labels
and brackets, so it cannot break the line on which it stands. A log entry and the line of an operator
in the text of a graph are therefore broken by the names, kinds and slots on them or not at all.
-/

namespace AxisGraph

open Text

namespace Text

theorem unbroken_axes (axes : List Axis) : Unbroken (commaSeparated (axes.map toString)) := by
  refine unbroken_commaSeparated axes ?_
  intro axis _
  cases axis <;> decide

theorem unbroken_diagnostic (diagnostic : Diagnostic) : Unbroken (toString diagnostic) := by
  obtain ⟨operator, axes⟩ := diagnostic
  change Unbroken ("edge is ignored along " ++ commaSeparated (axes.map toString) ++
    "; which edge (left / right) differs between backends")
  simp only [unbroken_append, unbroken_axes, and_true]
  decide

end Text

namespace LogEntry

/-- The free texts on the line of the entry. -/
def words : LogEntry → List String
  | started operator kind inputs => operator :: kind :: inputs.entries.map Prod.fst
  | diagnosed operator _ => [operator]
  | published operator slot _ => [operator, slot]

theorem unbroken_slotText_iff (slot : String) (tensor : Tensor) :
    Unbroken (slotText slot tensor) ↔ Unbroken slot := by
  have hcolon : Unbroken ": " := by decide
  simp only [slotText, unbroken_append, hcolon, unbroken_tensor, and_true]

theorem unbroken_message_iff (entry : LogEntry) :
    Unbroken entry.message ↔ ∀ word ∈ entry.words, Unbroken word := by
  have hpunctuation : Unbroken "[" ∧ Unbroken "] exec " ∧ Unbroken " with inputs " ∧
      Unbroken "] " ∧ Unbroken "] output " := by decide
  obtain ⟨hopen, hexec, hinputs, hclose, houtput⟩ := hpunctuation
  cases entry with
  | started operator kind inputs =>
    simp only [message, words, unbroken_append, hopen, hexec, hinputs, unbroken_commaSeparated_iff,
      List.forall_mem_cons, List.forall_mem_map, unbroken_slotText_iff, true_and, and_true,
      and_assoc]
  | diagnosed operator diagnostic =>
    simp only [message, words, unbroken_append, hopen, hclose, unbroken_diagnostic,
      List.forall_mem_singleton, true_and, and_true]
  | published operator slot tensor =>
    simp only [message, words, unbroken_append, hopen, houtput, unbroken_slotText_iff,
      List.forall_mem_cons, List.not_mem_nil, IsEmpty.forall_iff, implies_true, true_and, and_true]

theorem unbroken_iff (entry : LogEntry) :
    Unbroken (toString entry) ↔ ∀ word ∈ entry.words, Unbroken word := by
  have hlevel : ∀ level : LogLevel, Unbroken (toString level) := by
    intro level
    cases level <;> decide
  have hblank : Unbroken " " := by decide
  change Unbroken (toString entry.level ++ " " ++ entry.message) ↔ _
  simp only [unbroken_append, hlevel, hblank, unbroken_message_iff, true_and]

end LogEntry

/-- The free texts on the line of the operator. -/
def Node.words (node : Node) : List String :=
  node.name :: (node.inputs.entries ++ node.outputs.entries).map Prod.fst

namespace Graph

/-- The line of an operator in the text of the graph. -/
def nodeLine (graph : Graph) (node : Node) : String :=
  padRight 6 (toString node.id) ++ " " ++ node.name ++ "(" ++ graph.bindingsText node.inputs ++
    ") -> (" ++ graph.bindingsText node.outputs ++ ")" ++ attributesText node.attributes

def lines (graph : Graph) : List String :=
  ("inputs: " ++ graph.variablesText graph.inputs) ::
    (graph.nodes.map graph.nodeLine ++ ["outputs: " ++ graph.variablesText graph.outputs])

theorem text_eq_linesText (graph : Graph) : graph.text = linesText graph.lines := by
  have hnode : graph.nodeText = fun node => graph.nodeLine node ++ "\n" := rfl
  unfold Graph.text linesText lines
  simp only [hnode, List.map_cons, List.map_append, List.map_nil, List.map_map, Function.comp_def,
    String.join_cons, String.join_append, String.join_nil, String.append_assoc,
    String.append_empty]

theorem unbroken_variableText (graph : Graph) (id : VariableId) :
    Unbroken (graph.variableText id) := by
  have hid : Unbroken (toString id) := by
    change Unbroken ("v" ++ toString id.index)
    rw [unbroken_append]
    exact ⟨by decide, unbroken_number id.index⟩
  unfold variableText
  split
  · rw [unbroken_append]
    exact ⟨hid, unbroken_tensor _⟩
  · exact hid

theorem unbroken_variablesText (graph : Graph) (ids : List VariableId) :
    Unbroken (graph.variablesText ids) :=
  unbroken_commaSeparated _ fun id _ => graph.unbroken_variableText id

theorem unbroken_bindingsText_iff (graph : Graph) (bindings : NameMap VariableId) :
    Unbroken (graph.bindingsText bindings) ↔
      ∀ word ∈ bindings.entries.map Prod.fst, Unbroken word := by
  have hequals : Unbroken "=" := by decide
  simp only [bindingsText, unbroken_commaSeparated_iff, List.forall_mem_map, unbroken_append,
    hequals, unbroken_variableText, and_true]

theorem unbroken_attributesText (marks : List Attribute) : Unbroken (attributesText marks) := by
  rw [attributesText_eq]
  exact unbroken_marksText _

theorem unbroken_nodeLine_iff (graph : Graph) (node : Node) :
    Unbroken (graph.nodeLine node) ↔ ∀ word ∈ node.words, Unbroken word := by
  have hid : Unbroken (padRight 6 (toString node.id)) := by
    refine unbroken_padRight 6 _ ?_
    change Unbroken ("op" ++ toString node.id.index)
    rw [unbroken_append]
    exact ⟨by decide, unbroken_number node.id.index⟩
  have hpunctuation : Unbroken " " ∧ Unbroken "(" ∧ Unbroken ") -> (" ∧ Unbroken ")" := by decide
  simp only [nodeLine, Node.words, unbroken_append, hid, hpunctuation, unbroken_bindingsText_iff,
    unbroken_attributesText, List.map_append, List.forall_mem_cons, List.forall_mem_append,
    true_and, and_true, and_assoc]

/-- The lines of inputs and outputs show tensors only, so they are never broken. -/
theorem unbroken_lines_iff (graph : Graph) :
    (∀ line ∈ graph.lines, Unbroken line) ↔ ∀ word ∈ graph.words, Unbroken word := by
  have hlabels : Unbroken "inputs: " ∧ Unbroken "outputs: " := by decide
  have hwords : graph.words = graph.nodes.flatMap Node.words := rfl
  simp only [lines, hwords, List.forall_mem_cons, List.forall_mem_append, List.forall_mem_map,
    List.forall_mem_flatMap, List.not_mem_nil, IsEmpty.forall_iff, implies_true, unbroken_append,
    hlabels, unbroken_variablesText, unbroken_nodeLine_iff, true_and, and_true]

end Graph

/-- The text of a tensor determines its shape and its layout, and it has no line break. So what is
logged and what a graph shows keep to single lines as long as names, kinds and slots do. -/
theorem Tensor.text_injective_unbroken (tensor other : Tensor) :
    (toString tensor = toString other ↔
        tensor.shape = other.shape ∧ tensor.layout = other.layout) ∧
      (∀ c ∈ (toString tensor).toList, IsTensorChar c) ∧
      Unbroken (toString tensor) ∧
      (∀ entry : LogEntry, Unbroken (toString entry) ↔ ∀ word ∈ entry.words, Unbroken word) ∧
      ∀ graph : Graph, graph.text = linesText graph.lines ∧
        (∀ node, Unbroken (graph.nodeLine node) ↔ ∀ word ∈ node.words, Unbroken word) ∧
        ((∀ line ∈ graph.lines, Unbroken line) ↔ ∀ word ∈ graph.words, Unbroken word) := by
  refine ⟨?_, fun _ => isTensorChar_of_mem, unbroken_tensor tensor, LogEntry.unbroken_iff, ?_⟩
  · constructor
    · intro htext
      obtain rfl := readsOff_tensor.injective trivial trivial htext
      exact ⟨rfl, rfl⟩
    · rintro ⟨hshape, hlayout⟩
      rw [Tensor.eq_of_shape_of_layout hshape hlayout]
  · intro graph
    exact ⟨graph.text_eq_linesText, graph.unbroken_nodeLine_iff, graph.unbroken_lines_iff⟩

/-- A tensor without axes. -/
def Tensor.scalar : Tensor where
  dims := []

/-- A tensor with batch and channel, of the extents closest to these numbers. -/
def Tensor.plane (rows columns : Nat) : Tensor where
  dims := [(.batch, Graph.nearestExtent rows), (.channel, Graph.nearestExtent columns)]
  nodup := by simp

theorem Tensor.text_injective_unbroken_planes :
    toString (plane 1 23) ≠ toString (plane 12 3) ∧ toString scalar ≠ toString (plane 1 23) ∧
      Unbroken (toString scalar) ∧
      Unbroken (toString (LogEntry.published "softmax" "y" scalar)) ∧
      ¬Unbroken (toString (LogEntry.published "soft\nmax" "y" scalar)) ∧
      ∀ line ∈ Graph.crossed.lines, Unbroken line := by
  obtain ⟨hplanes, -⟩ := text_injective_unbroken (plane 1 23) (plane 12 3)
  obtain ⟨hscalar, -, hunbroken, hentries, hgraphs⟩ :=
    text_injective_unbroken scalar (plane 1 23)
  obtain ⟨-, -, hlines⟩ := hgraphs Graph.crossed
  have hwords : Graph.crossed.words = ["consumer", "x", "y", "producer", "x", "y"] := rfl
  have hplain : ∀ word ∈ Graph.crossed.words, Unbroken word := by
    simp [hwords, Unbroken]
  refine ⟨?_, ?_, hunbroken, ?_, ?_, hlines.mpr hplain⟩
  · intro htext
    exact absurd (hplanes.mp htext).1 (by decide)
  · intro htext
    exact absurd (hscalar.mp htext).1 (by decide)
  · refine (hentries _).mpr ?_
    simp [LogEntry.words, Unbroken]
  · intro hentry
    have hname := (hentries _).mp hentry "soft\nmax" List.mem_cons_self
    simp [Unbroken] at hname

end AxisGraph
