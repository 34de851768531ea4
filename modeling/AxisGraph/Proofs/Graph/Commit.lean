import AxisGraph.Proofs.Graph.Step
import AxisGraph.Proofs.Operator.Recording

/-!
What a successful execution adds to a graph. The `k`-th recorded output becomes the `k`-th new
variable, produced by the executed operator, and is stored under its slot; so the variables and the
output slots are tied to each other through the position in the record.
-/

namespace AxisGraph

/-- The operator after it has been executed with this record. -/
def Node.committed (node : Node) (slots : List (String × VariableId)) (recorded : Context) :
    Node :=
  { node with
    outputs := node.outputs.insertAll slots
    attributes := recorded.attributes
    diagnostics := recorded.diagnostics
    frozen := true }

namespace Graph

/-- The recorded slots with the handles that their variables get. -/
def publications (graph : Graph) (recorded : Context) : List (String × VariableId) :=
  (recorded.outputs.map Prod.fst).zip (graph.nextIds recorded.outputs.length)

theorem commit_eq (graph : Graph) (operator : OperatorId) (recorded : Context) :
    graph.commit operator recorded =
      (graph.extend (recorded.outputs.map fun output => ⟨output.2, some operator⟩)).modifyNode
        operator fun node => node.committed (graph.publications recorded) recorded :=
  rfl

theorem getElem?_nextIds (graph : Graph) (count k : Nat) :
    (graph.nextIds count)[k]? =
      if k < count then some (graph.variableId (graph.vars.length + k)) else none := by
  unfold nextIds
  split
  · rename_i hlt
    simp [hlt]
  · rename_i hge
    simp only [List.getElem?_map, Option.map_eq_none_iff, List.getElem?_eq_none_iff,
      List.length_range']
    omega

theorem mem_publications_iff (graph : Graph) (recorded : Context) (slot : String)
    (id : VariableId) :
    (slot, id) ∈ graph.publications recorded ↔
      ∃ k tensor, recorded.outputs[k]? = some (slot, tensor) ∧
        id = graph.variableId (graph.vars.length + k) := by
  rw [List.mem_iff_getElem?]
  constructor
  · intro h
    obtain ⟨k, hget⟩ := h
    obtain ⟨hslot, hid⟩ := List.getElem?_zip_eq_some.mp hget
    rw [List.getElem?_map] at hslot
    obtain ⟨output, houtput, hname⟩ := Option.map_eq_some_iff.mp hslot
    obtain ⟨name, tensor⟩ := output
    simp only at hname
    subst name
    rw [getElem?_nextIds] at hid
    split at hid
    · exact ⟨k, tensor, houtput, (Option.some.inj hid).symm⟩
    · cases hid
  · intro h
    obtain ⟨k, tensor, houtput, hid⟩ := h
    obtain ⟨hlt, -⟩ := List.getElem?_eq_some_iff.mp houtput
    refine ⟨k, List.getElem?_zip_eq_some.mpr ⟨?_, ?_⟩⟩
    · simp [houtput]
    · rw [getElem?_nextIds, if_pos hlt, hid]

theorem names_publications (graph : Graph) (recorded : Context) :
    (graph.publications recorded).map Prod.fst = recorded.outputs.map Prod.fst := by
  apply List.map_fst_zip
  simp [nextIds]

theorem find?_insertAll_publications (graph : Graph) (recorded : Context)
    (hdistinct : recorded.SlotsDistinct) (slot : String) (id : VariableId) :
    ((∅ : NameMap VariableId).insertAll (graph.publications recorded)).find? slot = some id ↔
      ∃ k tensor, recorded.outputs[k]? = some (slot, tensor) ∧
        id = graph.variableId (graph.vars.length + k) := by
  have hnodup : ((graph.publications recorded).map Prod.fst).Nodup := by
    rw [names_publications]
    exact hdistinct
  rw [NameMap.find?_insertAll_empty _ slot id hnodup]
  exact mem_publications_iff graph recorded slot id

theorem variableAt_commit (graph : Graph) (operator : OperatorId) (recorded : Context)
    (id : VariableId) (found : Variable) :
    (graph.commit operator recorded).variableAt id = .ok found ↔
      graph.variableAt id = .ok found ∨
        ∃ k slot tensor, recorded.outputs[k]? = some (slot, tensor) ∧
          id = graph.variableId (graph.vars.length + k) ∧ found = ⟨tensor, some operator⟩ := by
  rw [commit_eq, variableAt_modifyNode, variableAt_extend]
  refine or_congr_right ?_
  constructor
  · intro h
    obtain ⟨k, hid, hget⟩ := h
    rw [List.getElem?_map] at hget
    obtain ⟨output, houtput, hfound⟩ := Option.map_eq_some_iff.mp hget
    exact ⟨k, output.1, output.2, houtput, hid, hfound.symm⟩
  · intro h
    obtain ⟨k, slot, tensor, houtput, hid, hfound⟩ := h
    exact ⟨k, hid, by simp [houtput, hfound]⟩

theorem nodeAt_commit (graph : Graph) (operator : OperatorId) (recorded : Context)
    (hoperator : operator.graph = graph.id) (id : OperatorId) (node : Node) :
    (graph.commit operator recorded).nodeAt id = .ok node ↔
      ∃ old, graph.nodeAt id = .ok old ∧
        node = if id = operator then old.committed (graph.publications recorded) recorded
          else old := by
  rw [commit_eq]
  exact nodeAt_modifyNode (graph.extend _) operator _ hoperator id node

theorem nodeAt_bound (graph : Graph) (operator : OperatorId) (slot : String) (v : VariableId)
    (hoperator : operator.graph = graph.id) (id : OperatorId) (node : Node) :
    (graph.bound operator slot v).nodeAt id = .ok node ↔
      ∃ old, graph.nodeAt id = .ok old ∧
        node = if id = operator then { old with inputs := old.inputs.insert slot v } else old :=
  nodeAt_modifyNode graph operator _ hoperator id node

/-- When the tensors of some slots are at hand, the slots are bound. -/
theorem bound_of_boundTensors (graph : Graph) (node : Node) (slots : List String)
    (found inputs : NameMap Tensor) (h : graph.boundTensors node slots found = .ok inputs)
    (slot : String) (hslot : slot ∈ slots) : ∃ id, node.inputs.find? slot = some id := by
  induction slots generalizing found with
  | nil => simp at hslot
  | cons first rest ih =>
    unfold boundTensors at h
    cases hfirst : node.inputs.find? first with
    | none =>
      rw [hfirst] at h
      cases h
    | some id =>
      rcases List.mem_cons.mp hslot with heq | hrest
      · subst first
        exact ⟨id, hfirst⟩
      · rw [hfirst] at h
        cases hid : graph.variableAt id with
        | error error =>
          simp only [hid] at h
          cases h
        | ok given =>
          simp only [hid] at h
          exact ih (found.insert first given.tensor) h hrest

namespace Execution

variable {graph : Graph} {operator : OperatorId} {node : Node} {inputs : NameMap Tensor}
  {recorded : Context}

theorem slotsDistinct (h : graph.Execution operator node inputs recorded) :
    recorded.SlotsDistinct := by
  have hrun := (node.operator.body node.id node.name).slotsDistinct_run _
    (Context.slotsDistinct_start node.id node.name inputs)
  rw [h.run_eq] at hrun
  exact hrun

theorem bound (h : graph.Execution operator node inputs recorded) (slot : String)
    (hslot : slot ∈ node.operator.slots) : ∃ id, node.inputs.find? slot = some id :=
  bound_of_boundTensors graph node node.operator.slots ∅ inputs h.inputs_eq slot hslot

theorem graph_eq (h : graph.Execution operator node inputs recorded) : operator.graph = graph.id :=
  (nodeAt_issued graph operator node h.node_eq).1

end Execution

end Graph

end AxisGraph
