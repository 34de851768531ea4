import AxisGraph.Proofs.Graph.Growth
import AxisGraph.Proofs.Graph.Replay
import AxisGraph.Proofs.Operator.Run
import Mathlib.Logic.Equiv.Defs

/-!
Executing two operators in either order. An execution reads its own operator and variables that are
there already, so it records the same before and after the other one. All that is left of the order
is the numbering of the new variables: the blocks of the two operators change places.
-/

namespace AxisGraph

/-- The handle of the variable that gets another number. -/
def VariableId.rename (renumber : Nat → Nat) (id : VariableId) : VariableId :=
  ⟨id.graph, renumber id.index⟩

theorem VariableId.rename_eq_self (renumber : Nat → Nat) (id : VariableId)
    (h : renumber id.index = id.index) : id.rename renumber = id := by
  unfold rename
  rw [h]

/-- The operator with its bindings and outputs under other numbers. -/
def Node.rename (renumber : Nat → Nat) (node : Node) : Node :=
  { node with
    inputs := node.inputs.mapValues (VariableId.rename renumber)
    outputs := node.outputs.mapValues (VariableId.rename renumber) }

/-- Two adjacent blocks change places, and everything else stays where it is. -/
def exchange (first left right : Nat) : Nat ≃ Nat where
  toFun i :=
    if i < first then i
    else if i < first + left then i + right
    else if i < first + left + right then i - left
    else i
  invFun i :=
    if i < first then i
    else if i < first + right then i + left
    else if i < first + right + left then i - right
    else i
  left_inv i := by
    simp only
    split_ifs <;> omega
  right_inv i := by
    simp only
    split_ifs <;> omega

theorem exchange_of_lt {first i : Nat} (left right : Nat) (h : i < first) :
    exchange first left right i = i :=
  if_pos h

theorem exchange_left {k left : Nat} (first right : Nat) (h : k < left) :
    exchange first left right (first + k) = first + right + k := by
  simp only [exchange, Equiv.coe_fn_mk]
  split_ifs <;> omega

theorem exchange_right {k right : Nat} (first left : Nat) (h : k < right) :
    exchange first left right (first + left + k) = first + k := by
  simp only [exchange, Equiv.coe_fn_mk]
  split_ifs <;> omega

/-- An empty block has no place to change. -/
theorem exchange_of_empty {first left right : Nat} (h : left = 0 ∨ right = 0) (i : Nat) :
    exchange first left right i = i := by
  simp only [exchange, Equiv.coe_fn_mk]
  split_ifs <;> omega

theorem exchange_of_ge {first left right i : Nat} (h : first + left + right ≤ i) :
    exchange first left right i = i := by
  simp only [exchange, Equiv.coe_fn_mk]
  split_ifs <;> omega

theorem getElem?_blocks {α : Type} (old left right : List α) (i : Nat) :
    (old ++ left ++ right)[i]? =
      if i < old.length then old[i]?
      else if i < old.length + left.length then left[i - old.length]?
      else right[i - (old.length + left.length)]? := by
  rw [List.getElem?_append, List.length_append, List.getElem?_append]
  split_ifs
  · rfl
  · rfl
  · omega
  · rfl

theorem getElem?_exchange {α : Type} (old left right : List α) (i : Nat) :
    (old ++ right ++ left)[exchange old.length left.length right.length i]? =
      (old ++ left ++ right)[i]? := by
  rw [getElem?_blocks, getElem?_blocks]
  by_cases hold : i < old.length
  · rw [exchange_of_lt _ _ hold, if_pos hold, if_pos hold]
  obtain ⟨k, rfl⟩ := Nat.exists_eq_add_of_le (Nat.le_of_not_lt hold)
  by_cases hleft : k < left.length
  · rw [exchange_left _ _ hleft, if_neg (by omega), if_neg (by omega), if_neg hold,
      if_pos (by omega), Nat.add_sub_cancel_left, Nat.add_sub_cancel_left]
  obtain ⟨j, rfl⟩ := Nat.exists_eq_add_of_le (Nat.le_of_not_lt hleft)
  rw [← Nat.add_assoc] at hold ⊢
  by_cases hright : j < right.length
  · rw [exchange_right _ _ hright, if_neg (by omega), if_pos (by omega), if_neg hold,
      if_neg (by omega), Nat.add_sub_cancel_left, Nat.add_sub_cancel_left]
  · rw [exchange_of_ge (by omega), if_neg hold, if_neg (by omega), if_neg hold,
      if_neg (by omega), List.getElem?_eq_none (by omega), List.getElem?_eq_none (by omega)]

namespace Graph

/-- The second graph is the first one with its variables numbered differently. -/
structure Renames (renumber : Nat ≃ Nat) (graph other : Graph) : Prop where
  id_eq : other.id = graph.id
  vars_eq : ∀ i, other.vars[renumber i]? = graph.vars[i]?
  nodes_eq : other.nodes = graph.nodes.map (Node.rename renumber)
  inputs_eq : other.inputs = graph.inputs.map (VariableId.rename renumber)
  outputs_eq : other.outputs = graph.outputs.map (VariableId.rename renumber)

/-- What an execution of the operator records, or why it fails. -/
def trial (graph : Graph) (operator : OperatorId) : Except GraphError Context := do
  let node ← graph.nodeAt operator
  if node.frozen then .error (.operatorFrozen node.name)
  else
    let inputs ← graph.boundTensors node node.operator.slots ∅
    (node.operator.body node.id node.name).record (.start node.id node.name inputs)

/-- The graph after an execution of the operator that recorded this. -/
def settle (graph : Graph) (operator : OperatorId) : Except GraphError Context → Graph
  | .ok recorded => graph.commit operator recorded
  | .error _ => graph

theorem execute_eq_trial (graph : Graph) (operator : OperatorId) :
    (graph.execute operator).answer =
        (graph.trial operator).map (fun recorded => graph.nextIds recorded.outputs.length) ∧
      (graph.execute operator).graph = graph.settle operator (graph.trial operator) := by
  unfold execute trial
  cases graph.nodeAt operator with
  | error error => exact ⟨rfl, rfl⟩
  | ok node =>
    cases hfrozen : node.frozen with
    | true => simp [hfrozen, bind, Except.bind, Outcome.of, Except.map, settle]
    | false =>
      simp only [bind, Except.bind, hfrozen, Bool.false_eq_true, ↓reduceIte]
      cases graph.boundTensors node node.operator.slots ∅ with
      | error error => exact ⟨rfl, rfl⟩
      | ok inputs =>
        simp only [runNode, Body.record]
        obtain ⟨result, recorded⟩ :=
          (node.operator.body node.id node.name).run (.start node.id node.name inputs)
        cases result with
        | error error => exact ⟨rfl, rfl⟩
        | ok value => exact ⟨rfl, rfl⟩

theorem exists_execution (graph : Graph) (operator : OperatorId) (recorded : Context)
    (h : graph.trial operator = .ok recorded) :
    ∃ node inputs, graph.Execution operator node inputs recorded := by
  unfold trial at h
  cases hnode : graph.nodeAt operator with
  | error error =>
    rw [hnode] at h
    cases h
  | ok node =>
    simp only [hnode, bind, Except.bind] at h
    cases hfrozen : node.frozen with
    | true => simp [hfrozen] at h
    | false =>
      simp only [hfrozen, Bool.false_eq_true, ↓reduceIte] at h
      cases hinputs : graph.boundTensors node node.operator.slots ∅ with
      | error error =>
        rw [hinputs] at h
        cases h
      | ok inputs =>
        rw [hinputs] at h
        exact ⟨node, inputs, hnode, hfrozen, hinputs, (Body.record_eq_ok_iff _ _ recorded).mp h⟩

namespace Extends

variable {graph later : Graph}

theorem boundTensors_eq (h : graph.Extends later) (hwell : graph.WellFormed)
    (operator : OperatorId) (node : Node) (hnode : graph.nodeAt operator = .ok node)
    (slots : List String) (found : NameMap Tensor) :
    later.boundTensors node slots found = graph.boundTensors node slots found := by
  induction slots generalizing found with
  | nil => rfl
  | cons slot rest ih =>
    simp only [boundTensors]
    cases hslot : node.inputs.find? slot with
    | none => rfl
    | some v =>
      obtain ⟨given, hv⟩ := ((hwell.node operator node hnode).bound slot v hslot).2
      simp only [hv, h.vars v given hv]
      exact ih _

/-- An execution comes out the same in a later graph that has left the operator alone. -/
theorem trial_eq (h : graph.Extends later) (hwell : graph.WellFormed) (operator : OperatorId)
    (hsame : later.nodeAt operator = graph.nodeAt operator) :
    later.trial operator = graph.trial operator := by
  unfold trial
  rw [hsame]
  cases hnode : graph.nodeAt operator with
  | error error => rfl
  | ok node =>
    simp only [Bind.bind, Except.bind]
    rw [h.boundTensors_eq hwell operator node hnode]

end Extends

theorem extends_settle (graph : Graph) (operator : OperatorId) :
    graph.Extends (graph.settle operator (graph.trial operator)) := by
  cases htrial : graph.trial operator with
  | error error => exact .refl graph
  | ok recorded =>
    obtain ⟨node, inputs, hexecution⟩ := graph.exists_execution operator recorded htrial
    exact .commit graph operator node inputs recorded hexecution

theorem nodeAt_settle_of_ne (graph : Graph) (operator other : OperatorId) (hne : other ≠ operator) :
    (graph.settle operator (graph.trial operator)).nodeAt other = graph.nodeAt other := by
  cases htrial : graph.trial operator with
  | error error => rfl
  | ok recorded =>
    obtain ⟨node, inputs, hexecution⟩ := graph.exists_execution operator recorded htrial
    refine graph.nodeAt_congr _ other ?_
    intro found
    refine (nodeAt_commit graph operator recorded hexecution.graph_eq other found).trans ?_
    simp only [if_neg hne]
    constructor
    · rintro ⟨old, hold, rfl⟩
      exact hold
    · intro hfound
      exact ⟨found, hfound, rfl⟩

/-- What one operator records does not depend on whether another one was executed before. -/
theorem trial_settle_of_ne (graph : Graph) (hwell : graph.WellFormed) (operator other : OperatorId)
    (hne : other ≠ operator) :
    (graph.settle operator (graph.trial operator)).trial other = graph.trial other := by
  have hnode := graph.nodeAt_settle_of_ne operator other hne
  exact (graph.extends_settle operator).trial_eq hwell other hnode

/-! Renumbering. -/

theorem length_vars_commit (graph : Graph) (operator : OperatorId) (recorded : Context) :
    (graph.commit operator recorded).vars.length =
      graph.vars.length + recorded.outputs.length := by
  simp [commit, modifyNode]

theorem map_nextIds (graph other : Graph) (renumber : Nat → Nat) (count : Nat)
    (hid : other.id = graph.id)
    (h : ∀ k < count, renumber (graph.vars.length + k) = other.vars.length + k) :
    (graph.nextIds count).map (VariableId.rename renumber) = other.nextIds count := by
  apply List.ext_getElem?
  intro k
  rw [List.getElem?_map, getElem?_nextIds, getElem?_nextIds]
  by_cases hk : k < count
  · simp only [if_pos hk, Option.map_some, VariableId.rename, variableId, h k hk, hid]
  · rw [if_neg hk, if_neg hk, Option.map_none]

theorem map_publications (graph other : Graph) (renumber : Nat → Nat) (recorded : Context)
    (hid : other.id = graph.id)
    (h : ∀ k < recorded.outputs.length,
      renumber (graph.vars.length + k) = other.vars.length + k) :
    (graph.publications recorded).map (fun entry => (entry.1, entry.2.rename renumber)) =
      other.publications recorded := by
  unfold publications
  rw [← graph.map_nextIds other renumber _ hid h, List.zip_map_right]
  rfl

namespace NodeWellFormed

variable {graph : Graph} {operator : OperatorId} {node : Node} {renumber : Nat → Nat}

theorem rename_inputs (h : graph.NodeWellFormed operator node)
    (hold : ∀ i < graph.vars.length, renumber i = i) :
    node.inputs.mapValues (VariableId.rename renumber) = node.inputs := by
  refine node.inputs.mapValues_eq_self _ ?_
  intro v hv
  have hissued := (issued_iff graph v).mp (h.issued_of_mem_inputs v hv)
  exact v.rename_eq_self renumber (hold v.index hissued.2)

/-- An operator that binds and publishes old variables only is not affected. -/
theorem rename_eq_self (h : graph.NodeWellFormed operator node)
    (hold : ∀ i < graph.vars.length, renumber i = i) : node.rename renumber = node := by
  have houtputs : node.outputs.mapValues (VariableId.rename renumber) = node.outputs := by
    refine node.outputs.mapValues_eq_self _ ?_
    intro v hv
    have hissued := (issued_iff graph v).mp (h.issued_of_mem_outputs v hv)
    exact v.rename_eq_self renumber (hold v.index hissued.2)
  unfold Node.rename
  rw [h.rename_inputs hold, houtputs]

theorem rename_committed (h : graph.NodeWellFormed operator node) (hunfrozen : node.frozen = false)
    (hold : ∀ i < graph.vars.length, renumber i = i) (before after : List (String × VariableId))
    (hslots : before.map (fun entry => (entry.1, entry.2.rename renumber)) = after)
    (recorded : Context) :
    (node.committed before recorded).rename renumber = node.committed after recorded := by
  have houtputs : (node.outputs.insertAll before).mapValues (VariableId.rename renumber) =
      node.outputs.insertAll after := by
    rw [NameMap.mapValues_insertAll, hslots, (h.idle hunfrozen).1]
    rfl
  unfold Node.rename Node.committed
  simp only [houtputs, h.rename_inputs hold]

end NodeWellFormed

namespace WellFormed

variable {graph : Graph}

theorem map_rename_eq_self (ids : List VariableId) (hissued : ∀ v ∈ ids, graph.Issued v)
    (renumber : Nat → Nat) (hold : ∀ i < graph.vars.length, renumber i = i) :
    ids.map (VariableId.rename renumber) = ids := by
  have hmap : ids.map (VariableId.rename renumber) = ids.map fun v => v := by
    refine List.map_congr_left ?_
    intro v hv
    exact v.rename_eq_self renumber (hold v.index ((issued_iff graph v).mp (hissued v hv)).2)
  exact hmap.trans (List.map_id' ids)

theorem map_inputs (h : graph.WellFormed) (renumber : Nat → Nat)
    (hold : ∀ i < graph.vars.length, renumber i = i) :
    graph.inputs.map (VariableId.rename renumber) = graph.inputs := by
  refine map_rename_eq_self graph.inputs ?_ renumber hold
  intro v hv
  obtain ⟨tensor, hfound⟩ := h.source v hv
  exact ⟨_, hfound⟩

theorem map_outputs (h : graph.WellFormed) (renumber : Nat → Nat)
    (hold : ∀ i < graph.vars.length, renumber i = i) :
    graph.outputs.map (VariableId.rename renumber) = graph.outputs :=
  map_rename_eq_self graph.outputs h.output_issued renumber hold

/-- A renumbering that moves nothing leads from a graph to itself. -/
theorem renames_self (h : graph.WellFormed) (renumber : Nat ≃ Nat)
    (hsame : ∀ i, renumber i = i) : Renames renumber graph graph where
  id_eq := rfl
  vars_eq i := by rw [hsame]
  nodes_eq := by
    have hmap : graph.nodes.map (Node.rename renumber) = graph.nodes.map fun node => node := by
      refine List.map_congr_left ?_
      intro node hmem
      exact (h.nodeWellFormed node hmem).rename_eq_self fun i _ => hsame i
    exact (hmap.trans (List.map_id' graph.nodes)).symm
  inputs_eq := (h.map_inputs renumber fun i _ => hsame i).symm
  outputs_eq := (h.map_outputs renumber fun i _ => hsame i).symm

variable {a b : OperatorId} {node node' : Node} {inputs inputs' : NameMap Tensor}
  {recorded recorded' : Context}

/-- The operators after two executions, one after the other and in the other order. -/
theorem rename_nodes (h : graph.WellFormed) (ha : graph.Execution a node inputs recorded)
    (hb : graph.Execution b node' inputs' recorded') (hne : a ≠ b) :
    ((graph.commit b recorded').commit a recorded).nodes =
      ((graph.commit a recorded).commit b recorded').nodes.map
        (Node.rename (exchange graph.vars.length recorded.outputs.length
          recorded'.outputs.length)) := by
  let renumber := exchange graph.vars.length recorded.outputs.length recorded'.outputs.length
  have hold : ∀ i < graph.vars.length, renumber i = i := fun i hi => exchange_of_lt _ _ hi
  have hleft : (graph.publications recorded).map
      (fun entry => (entry.1, entry.2.rename renumber)) =
        (graph.commit b recorded').publications recorded := by
    refine map_publications graph _ renumber recorded rfl ?_
    intro k hk
    rw [length_vars_commit]
    exact exchange_left _ _ hk
  have hright : ((graph.commit a recorded).publications recorded').map
      (fun entry => (entry.1, entry.2.rename renumber)) = graph.publications recorded' := by
    refine map_publications (graph.commit a recorded) graph renumber recorded' rfl ?_
    intro k hk
    rw [length_vars_commit]
    exact exchange_right _ _ hk
  have hindex : a.index ≠ b.index := fun heq =>
    hne (operatorId_eq_of_index_eq a b (ha.graph_eq.trans hb.graph_eq.symm) heq)
  apply List.ext_getElem?
  intro i
  simp only [commit_eq, modifyNode, extend, List.getElem?_map, List.getElem?_modify]
  cases hget : graph.nodes[i]? with
  | none => rfl
  | some old =>
    have hnode : graph.nodeAt (graph.operatorId i) = .ok old :=
      (nodeAt_eq_ok_iff graph _ old).mpr ⟨rfl, hget⟩
    simp only [Option.map_eq_map, Option.map_some, Option.some.injEq]
    -- Each of the two operators is renumbered in its own outputs only, and no other one is.
    by_cases hia : a.index = i
    · subst i
      have hsame : old = node :=
        Option.some.inj (hget.symm.trans ((nodeAt_eq_ok_iff graph a node).mp ha.node_eq).2)
      subst old
      simp only [if_pos, if_neg hindex.symm]
      exact ((h.node a node ha.node_eq).rename_committed ha.unfrozen hold _ _ hleft recorded).symm
    · by_cases hib : b.index = i
      · subst i
        have hsame : old = node' :=
          Option.some.inj (hget.symm.trans ((nodeAt_eq_ok_iff graph b node').mp hb.node_eq).2)
        subst old
        simp only [if_pos, if_neg hia]
        exact ((h.node b node' hb.node_eq).rename_committed hb.unfrozen hold _ _ hright
          recorded').symm
      · simp only [if_neg hia, if_neg hib]
        exact ((h.node _ old hnode).rename_eq_self hold).symm

theorem renames_commit (h : graph.WellFormed) (ha : graph.Execution a node inputs recorded)
    (hb : graph.Execution b node' inputs' recorded') (hne : a ≠ b) :
    Renames (exchange graph.vars.length recorded.outputs.length recorded'.outputs.length)
      ((graph.commit a recorded).commit b recorded')
      ((graph.commit b recorded').commit a recorded) where
  id_eq := rfl
  vars_eq i := by
    have hexchange := getElem?_exchange graph.vars
      (recorded.outputs.map fun output => (⟨output.2, some a⟩ : Variable))
      (recorded'.outputs.map fun output => (⟨output.2, some b⟩ : Variable)) i
    rw [List.length_map, List.length_map] at hexchange
    exact hexchange
  nodes_eq := h.rename_nodes ha hb hne
  inputs_eq := (h.map_inputs _ fun _ hi => exchange_of_lt _ _ hi).symm
  outputs_eq := (h.map_outputs _ fun _ hi => exchange_of_lt _ _ hi).symm

end WellFormed

/-- Number of variables that an execution of the operator adds. -/
def outputCount (graph : Graph) (operator : OperatorId) : Nat :=
  match (graph.execute operator).answer with
  | .ok ids => ids.length
  | .error _ => 0

theorem outputCount_of_ok (graph : Graph) (operator : OperatorId) (recorded : Context)
    (h : graph.trial operator = .ok recorded) :
    graph.outputCount operator = recorded.outputs.length := by
  unfold outputCount
  rw [(graph.execute_eq_trial operator).1, h]
  simp [Except.map, nextIds]

theorem outputCount_of_error (graph : Graph) (operator : OperatorId) (error : GraphError)
    (h : graph.trial operator = .error error) : graph.outputCount operator = 0 := by
  unfold outputCount
  rw [(graph.execute_eq_trial operator).1, h]
  rfl

theorem length_vars_settle (graph : Graph) (operator : OperatorId) :
    (graph.settle operator (graph.trial operator)).vars.length =
      graph.vars.length + graph.outputCount operator := by
  cases htrial : graph.trial operator with
  | error error => rw [graph.outputCount_of_error operator error htrial, Nat.add_zero, settle]
  | ok recorded =>
    rw [graph.outputCount_of_ok operator recorded htrial]
    exact graph.length_vars_commit operator recorded

/-- The answers of one operator in two graphs, up to the numbers of the variables that it adds. -/
theorem map_answer (graph other : Graph) (renumber : Nat → Nat)
    (result : Except GraphError Context) (hid : other.id = graph.id)
    (h : ∀ recorded, result = .ok recorded → ∀ k < recorded.outputs.length,
      renumber (graph.vars.length + k) = other.vars.length + k) :
    result.map (fun recorded => other.nextIds recorded.outputs.length) =
      (result.map fun recorded => graph.nextIds recorded.outputs.length).map
        (List.map (VariableId.rename renumber)) := by
  cases result with
  | error error => rfl
  | ok recorded =>
    exact congrArg Except.ok (graph.map_nextIds other renumber _ hid (h recorded rfl)).symm

theorem WellFormed.settle {graph : Graph} (h : graph.WellFormed) (operator : OperatorId) :
    (graph.settle operator (graph.trial operator)).WellFormed := by
  cases htrial : graph.trial operator with
  | error error => exact h
  | ok recorded =>
    obtain ⟨node, inputs, hexecution⟩ := graph.exists_execution operator recorded htrial
    exact h.commit operator node inputs recorded hexecution

theorem WellFormed.renames_settle {graph : Graph} (h : graph.WellFormed) (a b : OperatorId)
    (hne : a ≠ b) :
    Renames (exchange graph.vars.length (graph.outputCount a) (graph.outputCount b))
      ((graph.settle a (graph.trial a)).settle b (graph.trial b))
      ((graph.settle b (graph.trial b)).settle a (graph.trial a)) := by
  cases ha : graph.trial a with
  | error error =>
    have hnone := graph.outputCount_of_error a error ha
    exact (h.settle b).renames_self _ (exchange_of_empty (Or.inl hnone))
  | ok recorded =>
    cases hb : graph.trial b with
    | error error =>
      have hnone := graph.outputCount_of_error b error hb
      have hafter := h.settle a
      rw [ha] at hafter
      exact hafter.renames_self _ (exchange_of_empty (Or.inr hnone))
    | ok recorded' =>
      obtain ⟨node, inputs, hexecution⟩ := graph.exists_execution a recorded ha
      obtain ⟨node', inputs', hexecution'⟩ := graph.exists_execution b recorded' hb
      rw [graph.outputCount_of_ok a recorded ha, graph.outputCount_of_ok b recorded' hb]
      exact h.renames_commit hexecution hexecution' hne

theorem WellFormed.schedule_execute {graph : Graph} (h : graph.WellFormed) (a b : OperatorId) :
    ((graph.execute a).graph.execute b).graph.schedule = graph.schedule := by
  have hsteps := (steps_execute graph a).trans (steps_execute (graph.execute a).graph b)
  refine (steps_extend graph _ hsteps).schedule_eq h ?_
  rw [outputs_execute, outputs_execute]

/-- Two operators of a graph can be executed in either order. Each of them gives the same answer
both times, and the two final graphs are the same but for the numbers of the new variables: those of
the one operator and those of the other change places. -/
theorem execute_either_order (graph : Graph) (h : Reachable graph) (a b : OperatorId)
    (hne : a ≠ b) :
    let first := graph.execute a
    let second := graph.execute b
    let forth := first.graph.execute b
    let back := second.graph.execute a
    let renumber := exchange graph.vars.length (graph.outputCount a) (graph.outputCount b)
    back.answer = first.answer.map (List.map (VariableId.rename renumber)) ∧
      second.answer = forth.answer.map (List.map (VariableId.rename renumber)) ∧
      Renames renumber forth.graph back.graph ∧ back.graph.schedule = forth.graph.schedule := by
  intro first second forth back renumber
  have hwell := h.wellFormed
  obtain ⟨hfirst, hfirst'⟩ := graph.execute_eq_trial a
  obtain ⟨hsecond, hsecond'⟩ := graph.execute_eq_trial b
  obtain ⟨hforth, hforth'⟩ := first.graph.execute_eq_trial b
  obtain ⟨hback, hback'⟩ := second.graph.execute_eq_trial a
  have htrial : first.graph.trial b = graph.trial b := by
    rw [hfirst']
    exact graph.trial_settle_of_ne hwell a b hne.symm
  have htrial' : second.graph.trial a = graph.trial a := by
    rw [hsecond']
    exact graph.trial_settle_of_ne hwell b a hne
  have hlength : first.graph.vars.length = graph.vars.length + graph.outputCount a := by
    rw [hfirst']
    exact graph.length_vars_settle a
  have hlength' : second.graph.vars.length = graph.vars.length + graph.outputCount b := by
    rw [hsecond']
    exact graph.length_vars_settle b
  have hid := (steps_extend graph _ (steps_execute graph a)).id_eq
  have hid' := (steps_extend graph _ (steps_execute graph b)).id_eq
  rw [htrial] at hforth hforth'
  rw [htrial'] at hback hback'
  refine ⟨?_, ?_, ?_, ?_⟩
  · rw [hback, hfirst]
    refine map_answer graph second.graph renumber (graph.trial a) hid' ?_
    intro recorded hrecorded k hk
    rw [hlength']
    rw [← graph.outputCount_of_ok a recorded hrecorded] at hk
    exact exchange_left _ _ hk
  · rw [hforth, hsecond]
    refine map_answer first.graph graph renumber (graph.trial b) hid.symm ?_
    intro recorded hrecorded k hk
    rw [hlength]
    rw [← graph.outputCount_of_ok b recorded hrecorded] at hk
    exact exchange_right _ _ hk
  · rw [hforth', hback', hfirst', hsecond']
    exact hwell.renames_settle a b hne
  · exact (hwell.schedule_execute b a).trans (hwell.schedule_execute a b).symm

/-- A graph with two tensors, and an operator for each of them that waits for its execution. -/
def waiting : Graph :=
  fed.performAll [
    .addInput { dims := [(.batch, { val := 3 })] },
    .addOperator none forking,
    .addOperator none (Parameters.logSoftmax ⟨.batch⟩).operator,
    .bindInput ⟨⟨0⟩, 0⟩ "x" ⟨⟨0⟩, 0⟩,
    .bindInput ⟨⟨0⟩, 1⟩ "x" ⟨⟨0⟩, 1⟩]

theorem reachable_waiting : Reachable waiting :=
  reachable_fed.performAll fed _

theorem execute_either_order_waiting :
    Reachable waiting ∧ (⟨⟨0⟩, 0⟩ : OperatorId) ≠ ⟨⟨0⟩, 1⟩ ∧
      (waiting.execute ⟨⟨0⟩, 0⟩).answer = .ok [⟨⟨0⟩, 2⟩, ⟨⟨0⟩, 3⟩] ∧
      ((waiting.execute ⟨⟨0⟩, 1⟩).graph.execute ⟨⟨0⟩, 0⟩).answer =
        .ok [⟨⟨0⟩, 3⟩, ⟨⟨0⟩, 4⟩] ∧
      Renames (exchange 2 2 1) ((waiting.execute ⟨⟨0⟩, 0⟩).graph.execute ⟨⟨0⟩, 1⟩).graph
        ((waiting.execute ⟨⟨0⟩, 1⟩).graph.execute ⟨⟨0⟩, 0⟩).graph := by
  have hne : (⟨⟨0⟩, 0⟩ : OperatorId) ≠ ⟨⟨0⟩, 1⟩ := by decide
  have hfirst : (waiting.execute ⟨⟨0⟩, 0⟩).answer = .ok [⟨⟨0⟩, 2⟩, ⟨⟨0⟩, 3⟩] := rfl
  obtain ⟨hback, -, hrenames, -⟩ := execute_either_order waiting reachable_waiting _ _ hne
  rw [hfirst] at hback
  exact ⟨reachable_waiting, hne, hfirst, hback, hrenames⟩

end Graph

end AxisGraph
