import AxisGraph.Proofs.Access.Tensor
import AxisGraph.Proofs.Graph.Builtin

/-!
Calls on a graph by index. A call checks the handles that its caller passes in, and from then on it
reads and writes the lists of the graph at their indices; the handles that are stored in the graph
are not checked again. In a well-formed graph every one of these places lies inside its list, and
each call does by index what it does by lookup.
-/

namespace AxisGraph

namespace Access

variable {α β ε : Type}

/-- Change the entry at a place, which must lie inside the list. -/
def update (entries : List α) (place : Nat) (f : α → α) : Access (List α) :=
  if place < entries.length then done (entries.modify place f) else fault

/-- Go on after a check. Its error is an answer like any other. -/
def check : Except ε α → (α → Access (Except ε β)) → Access (Except ε β)
  | .ok value, f => f value
  | .error error, _ => done (.error error)

theorem update_eq_done {entries : List α} {place : Nat} {entry : α}
    (h : entries[place]? = some entry) (f : α → α) :
    update entries place f = done (entries.modify place f) :=
  if_pos (List.getElem?_eq_some_iff.mp h).1

end Access

namespace Graph

/-- The index of a variable, if the graph has issued the handle. -/
def variableIndex (graph : Graph) (id : VariableId) : Except GraphError Nat :=
  if id.graph = graph.id ∧ id.index < graph.vars.length then .ok id.index
  else .error (.unknownVariable id)

/-- The index of an operator, if the graph has issued the handle. -/
def operatorIndex (graph : Graph) (id : OperatorId) : Except GraphError Nat :=
  if id.graph = graph.id ∧ id.index < graph.nodes.length then .ok id.index
  else .error (.unknownOperator id)

def variableByIndex (graph : Graph) (id : VariableId) : Access (Except GraphError Variable) :=
  Access.check (graph.variableIndex id) fun index => do
    let found ← Access.read graph.vars index
    return .ok found

def nodeByIndex (graph : Graph) (id : OperatorId) : Access (Except GraphError Node) :=
  Access.check (graph.operatorIndex id) fun index => do
    let node ← Access.read graph.nodes index
    return .ok node

def producerByIndex (graph : Graph) (id : VariableId) :
    Access (Except GraphError (Option OperatorId)) :=
  Access.check (graph.variableIndex id) fun index => do
    let found ← Access.read graph.vars index
    return .ok found.producer

def bindInputByIndex (graph : Graph) (operator : OperatorId) (slot : String) (id : VariableId) :
    Access (Except GraphError Graph) :=
  Access.check (graph.operatorIndex operator) fun index =>
  Access.check (graph.variableIndex id) fun _ => do
    let node ← Access.read graph.nodes index
    if node.frozen then return .error (.operatorFrozen node.name)
    else if slot ∉ node.operator.slots then return .error (.slotNotSupported node.name slot)
    else if node.inputs.contains slot then return .error (.slotTaken node.name slot)
    else do
      let nodes ← Access.update graph.nodes index fun node =>
        { node with inputs := node.inputs.insert slot id }
      return .ok { graph with nodes }

/-- The tensors bound to these slots. The handles in the slots are taken as they are. -/
def boundTensorsByIndex (graph : Graph) (node : Node) :
    List String → NameMap Tensor → Access (Except GraphError (NameMap Tensor))
  | [], bound => return .ok bound
  | slot :: slots, bound =>
    match node.inputs.find? slot with
    | none => return .error (.missingInput node.name slot)
    | some id => do
      let found ← Access.read graph.vars id.index
      graph.boundTensorsByIndex node slots (bound.insert slot found.tensor)

/-- Store the outputs of an operator one after the other: each as a new variable, with its handle in
the output slot. -/
def storeByIndex (graph : Graph) (operator : OperatorId) :
    List (String × Tensor) → Access (Graph × List VariableId × List LogEntry)
  | [] => return (graph, [], [])
  | (slot, tensor) :: rest => do
    let node ← Access.read graph.nodes operator.index
    let nodes ← Access.update graph.nodes operator.index fun node =>
      { node with outputs := node.outputs.insert slot (graph.variableId graph.vars.length) }
    let (stored, ids, log) ← Graph.storeByIndex
      { graph with vars := graph.vars ++ [⟨tensor, some operator⟩], nodes } operator rest
    return (stored, graph.variableId graph.vars.length :: ids,
      .published node.name slot tensor :: log)

/-- Run the body of an operator, and store what it recorded if it succeeds. -/
def runNodeByIndex (graph : Graph) (operator : OperatorId) (node : Node)
    (inputs : NameMap Tensor) : Access (Outcome (List VariableId)) :=
  let started := LogEntry.started node.name node.operator.kind inputs
  let (result, recorded) :=
    (node.operator.body node.id node.name).run (.start node.id node.name inputs)
  match result with
  | .error error => return ⟨.error error, graph, started :: recorded.log⟩
  | .ok () => do
    let (stored, ids, log) ← graph.storeByIndex operator recorded.outputs
    let nodes ← Access.update stored.nodes operator.index fun node =>
      { node with
        attributes := recorded.attributes
        diagnostics := recorded.diagnostics
        frozen := true }
    return ⟨.ok ids, { stored with nodes }, started :: recorded.log ++ log⟩

def executeByIndex (graph : Graph) (operator : OperatorId) :
    Access (Outcome (List VariableId)) :=
  match graph.operatorIndex operator with
  | .error error => return .of (.error error) graph
  | .ok index => do
    let node ← Access.read graph.nodes index
    if node.frozen then return .of (.error (.operatorFrozen node.name)) graph
    else
      match ← graph.boundTensorsByIndex node node.operator.slots ∅ with
      | .error error => return .of (.error error) graph
      | .ok inputs => graph.runNodeByIndex operator node inputs

def bindInputsByIndex (graph : Graph) (operator : OperatorId) :
    List (String × VariableId) → Access (Outcome Unit)
  | [] => return .of (.ok ()) graph
  | (slot, id) :: rest => do
    match ← graph.bindInputByIndex operator slot id with
    | .error error => return .of (.error error) graph
    | .ok extended => extended.bindInputsByIndex operator rest

def assembleByIndex (graph : Graph) (name : Option String) (operator : Operator)
    (inputs : List (String × VariableId)) : Access (Outcome (List VariableId)) := do
  let (id, extended) := graph.addOperator name operator
  let binding ← extended.bindInputsByIndex id inputs
  match binding.answer with
  | .error error => return ⟨.error error, binding.graph, binding.log⟩
  | .ok () =>
    let outcome ← binding.graph.executeByIndex id
    return { outcome with log := binding.log ++ outcome.log }

def applyByIndex (graph : Graph) (name : Option String) (operator : Operator)
    (inputs : List (String × VariableId)) : Access (Outcome (List VariableId)) := do
  let outcome ← graph.assembleByIndex name operator inputs
  match outcome.answer with
  | .ok _ => return outcome
  | .error _ => return { outcome with graph := outcome.graph.withdraw }

/-- Apply a built-in operator and read the first of its outputs. -/
def applyBuiltinByIndex (graph : Graph) (parameters : Parameters)
    (inputs : List (String × VariableId)) : Access (Outcome (Option VariableId)) := do
  let outcome ← graph.applyByIndex none parameters.operator inputs
  match outcome.answer with
  | .error error => return ⟨.error error, outcome.graph, outcome.log⟩
  | .ok ids =>
    let first ← Access.read ids 0
    return ⟨.ok (some first), outcome.graph, outcome.log⟩

/-- Perform a call by index. Those that read at no index are performed as they are. -/
def performByIndex (graph : Graph) : Call → Access (Outcome Answer)
  | .bindInput operator slot id => do
    let change ← graph.bindInputByIndex operator slot id
    return ofChange graph change
  | .execute operator => do
    let outcome ← graph.executeByIndex operator
    return outcome.map .vars
  | .apply name operator inputs => do
    let outcome ← graph.applyByIndex name operator inputs
    return outcome.map .vars
  | .pool pooling x => do
    let outcome ← graph.applyBuiltinByIndex (.pooling pooling) [("x", x)]
    return outcome.map fun id => .vars id.toList
  | .convolve convolution x w => do
    let outcome ← graph.applyBuiltinByIndex (.convolution convolution) [("x", x), ("w", w)]
    return outcome.map fun id => .vars id.toList
  | .deconvolve deconvolution x w => do
    let outcome ← graph.applyBuiltinByIndex (.deconvolution deconvolution) [("x", x), ("w", w)]
    return outcome.map fun id => .vars id.toList
  | .logSoftmax softmax x => do
    let outcome ← graph.applyBuiltinByIndex (.logSoftmax softmax) [("x", x)]
    return outcome.map fun id => .vars id.toList
  | call => return graph.perform call

/-! By index and by lookup the outcome is the same. -/

theorem check_variableIndex {β : Type} (graph : Graph) (id : VariableId)
    (f : Nat → Access (Except GraphError β)) :
    Access.check (graph.variableIndex id) f =
      Access.check (graph.variableAt id) fun _ => f id.index := by
  unfold variableIndex
  cases hfound : graph.variableAt id with
  | ok found =>
    have hissued := (issued_iff graph id).mp ⟨found, hfound⟩
    rw [if_pos hissued]
    rfl
  | error error =>
    have hnot : ¬ (id.graph = graph.id ∧ id.index < graph.vars.length) := by
      intro h
      obtain ⟨found, hok⟩ := (issued_iff graph id).mpr h
      rw [hok] at hfound
      cases hfound
    rw [if_neg hnot, graph.variableAt_error id error hfound]
    rfl

theorem operatorIndex_of_node (graph : Graph) (id : OperatorId) (node : Node)
    (hnode : graph.nodeAt id = .ok node) : graph.operatorIndex id = .ok id.index :=
  if_pos (graph.nodeAt_issued id node hnode)

theorem operatorIndex_of_error (graph : Graph) (id : OperatorId) (error : GraphError)
    (herror : graph.nodeAt id = .error error) : graph.operatorIndex id = .error error := by
  have hnot : ¬ (id.graph = graph.id ∧ id.index < graph.nodes.length) := by
    intro h
    have hok : graph.nodeAt id = .ok graph.nodes[id.index] :=
      (nodeAt_eq_ok_iff graph id _).mpr ⟨h.1, List.getElem?_eq_getElem h.2⟩
    rw [hok] at herror
    cases herror
  unfold operatorIndex
  rw [if_neg hnot, graph.nodeAt_error id error herror]

theorem read_vars (graph : Graph) (id : VariableId) (found : Variable)
    (h : graph.variableAt id = .ok found) : Access.read graph.vars id.index = .done found :=
  Access.read_eq_done ((variableAt_eq_ok_iff graph id found).mp h).2

theorem read_nodes (graph : Graph) (id : OperatorId) (node : Node)
    (h : graph.nodeAt id = .ok node) : Access.read graph.nodes id.index = .done node :=
  Access.read_eq_done ((nodeAt_eq_ok_iff graph id node).mp h).2

theorem variableByIndex_eq (graph : Graph) (id : VariableId) :
    graph.variableByIndex id = .done (graph.variableAt id) := by
  unfold variableByIndex
  rw [check_variableIndex]
  cases hfound : graph.variableAt id with
  | error error => rfl
  | ok found =>
    rw [Access.check, graph.read_vars id found hfound]
    rfl

theorem producerByIndex_eq (graph : Graph) (id : VariableId) :
    graph.producerByIndex id = .done (graph.producer id) := by
  unfold producerByIndex producer
  rw [check_variableIndex]
  cases hfound : graph.variableAt id with
  | error error => rfl
  | ok found =>
    rw [Access.check, graph.read_vars id found hfound]
    rfl

theorem nodeByIndex_eq (graph : Graph) (id : OperatorId) :
    graph.nodeByIndex id = .done (graph.nodeAt id) := by
  unfold nodeByIndex
  cases hnode : graph.nodeAt id with
  | error error =>
    rw [graph.operatorIndex_of_error id error hnode]
    rfl
  | ok node =>
    rw [graph.operatorIndex_of_node id node hnode, Access.check, graph.read_nodes id node hnode]
    rfl

theorem bindInputByIndex_eq (graph : Graph) (operator : OperatorId) (slot : String)
    (id : VariableId) :
    graph.bindInputByIndex operator slot id = .done (graph.bindInput operator slot id) := by
  unfold bindInputByIndex bindInput
  cases hnode : graph.nodeAt operator with
  | error error =>
    rw [graph.operatorIndex_of_error operator error hnode]
    rfl
  | ok node =>
    have hget := ((nodeAt_eq_ok_iff graph operator node).mp hnode).2
    rw [graph.operatorIndex_of_node operator node hnode, Access.check, check_variableIndex]
    cases hfound : graph.variableAt id with
    | error error => rfl
    | ok found =>
      rw [Access.check, graph.read_nodes operator node hnode, Access.done_bind,
        Access.update_eq_done hget]
      simp only [bind, Except.bind]
      split_ifs <;> rfl

theorem boundTensorsByIndex_eq (graph : Graph) (node : Node)
    (hissued : ∀ slot v, node.inputs.find? slot = some v → graph.Issued v) (slots : List String)
    (bound : NameMap Tensor) :
    graph.boundTensorsByIndex node slots bound =
      .done (graph.boundTensors node slots bound) := by
  induction slots generalizing bound with
  | nil => rfl
  | cons slot rest ih =>
    unfold boundTensorsByIndex boundTensors
    cases hslot : node.inputs.find? slot with
    | none => rfl
    | some id =>
      obtain ⟨found, hfound⟩ := hissued slot id hslot
      simp only [hfound]
      rw [graph.read_vars id found hfound, Access.done_bind]
      exact ih _

/-- The handles of the next variables, after one more variable has been added. -/
theorem nextIds_succ (graph : Graph) (added : Variable) (nodes : List Node) (count : Nat) :
    graph.nextIds (count + 1) = graph.variableId graph.vars.length ::
      ({ graph with vars := graph.vars ++ [added], nodes } : Graph).nextIds count := by
  unfold nextIds
  rw [List.range'_succ, List.map_cons, List.length_append]
  rfl

/-- The graph with the outputs of an operator stored, before the operator is frozen. -/
def stored (graph : Graph) (operator : OperatorId) (outputs : List (String × Tensor)) : Graph :=
  let slots := (outputs.map Prod.fst).zip (graph.nextIds outputs.length)
  { graph with
    vars := graph.vars ++ outputs.map fun output => ⟨output.2, some operator⟩
    nodes := graph.nodes.modify operator.index fun node =>
      { node with outputs := node.outputs.insertAll slots } }

theorem storeByIndex_eq (graph : Graph) (operator : OperatorId) (node : Node)
    (hget : graph.nodes[operator.index]? = some node) (outputs : List (String × Tensor)) :
    graph.storeByIndex operator outputs = .done
      (graph.stored operator outputs, graph.nextIds outputs.length,
        outputs.map fun output => .published node.name output.1 output.2) := by
  induction outputs generalizing graph node with
  | nil =>
    have hsame : graph.nodes.modify operator.index (fun node => node) = graph.nodes :=
      List.modify_id _ _
    unfold storeByIndex stored
    simp only [List.map_nil, List.append_nil, List.zip_nil_left]
    rw [show (fun node : Node => { node with outputs := node.outputs.insertAll [] }) =
      fun node => node from rfl, hsame]
    rfl
  | cons output rest ih =>
    obtain ⟨slot, tensor⟩ := output
    let id := graph.variableId graph.vars.length
    let nodes := graph.nodes.modify operator.index fun node =>
      { node with outputs := node.outputs.insert slot id }
    let extended : Graph := { graph with vars := graph.vars ++ [⟨tensor, some operator⟩], nodes }
    have hget' : extended.nodes[operator.index]? =
        some { node with outputs := node.outputs.insert slot id } := by
      simp only [extended, nodes, List.getElem?_modify_eq, hget, Option.map_eq_map,
        Option.map_some]
    have hids : graph.nextIds (rest.length + 1) = id :: extended.nextIds rest.length :=
      graph.nextIds_succ _ nodes rest.length
    have hstored : extended.stored operator rest =
        graph.stored operator ((slot, tensor) :: rest) := by
      unfold stored
      simp only [List.map_cons, List.length_cons, hids, List.zip_cons_cons, extended, nodes,
        List.modify_modify_eq, List.append_assoc, List.singleton_append]
      rfl
    unfold storeByIndex
    rw [Access.read_eq_done hget, Access.done_bind, Access.update_eq_done hget, Access.done_bind,
      ih extended _ hget', Access.done_bind, hstored, List.length_cons, hids]
    rfl

theorem runNodeByIndex_eq (graph : Graph) (operator : OperatorId) (node : Node)
    (hget : graph.nodes[operator.index]? = some node) (inputs : NameMap Tensor) :
    graph.runNodeByIndex operator node inputs = .done (graph.runNode operator node inputs) := by
  unfold runNodeByIndex runNode
  cases hrun : (node.operator.body node.id node.name).run (.start node.id node.name inputs) with
  | mk result recorded =>
    cases result with
    | error error => rfl
    | ok value =>
      have hget' : (graph.stored operator recorded.outputs).nodes[operator.index]? =
          some { node with
            outputs := node.outputs.insertAll ((recorded.outputs.map Prod.fst).zip
              (graph.nextIds recorded.outputs.length)) } := by
        simp only [stored, List.getElem?_modify_eq, hget, Option.map_eq_map, Option.map_some]
      simp only
      rw [graph.storeByIndex_eq operator node hget, Access.done_bind, Access.update_eq_done hget']
      simp only [Access.done_bind, Access.pure_eq, stored, commit, modifyNode,
        List.modify_modify_eq]
      rfl

theorem executeByIndex_eq (graph : Graph) (h : graph.WellFormed) (operator : OperatorId) :
    graph.executeByIndex operator = .done (graph.execute operator) := by
  unfold executeByIndex execute
  cases hnode : graph.nodeAt operator with
  | error error =>
    rw [graph.operatorIndex_of_error operator error hnode]
    rfl
  | ok node =>
    have hget := ((nodeAt_eq_ok_iff graph operator node).mp hnode).2
    have hissued : ∀ slot v, node.inputs.find? slot = some v → graph.Issued v :=
      fun slot v hv => ((h.node operator node hnode).bound slot v hv).2
    rw [graph.operatorIndex_of_node operator node hnode]
    simp only
    rw [graph.read_nodes operator node hnode, Access.done_bind]
    cases hfrozen : node.frozen with
    | true => rfl
    | false =>
      simp only [Bool.false_eq_true, ↓reduceIte]
      rw [graph.boundTensorsByIndex_eq node hissued, Access.done_bind]
      cases graph.boundTensors node node.operator.slots ∅ with
      | error error => rfl
      | ok inputs => exact graph.runNodeByIndex_eq operator node hget inputs

theorem bindInputsByIndex_eq (graph : Graph) (operator : OperatorId)
    (inputs : List (String × VariableId)) :
    graph.bindInputsByIndex operator inputs = .done (graph.bindInputs operator inputs) := by
  induction inputs generalizing graph with
  | nil => rfl
  | cons input rest ih =>
    obtain ⟨slot, id⟩ := input
    unfold bindInputsByIndex bindInputs
    rw [graph.bindInputByIndex_eq, Access.done_bind]
    cases graph.bindInput operator slot id with
    | error error => rfl
    | ok extended => exact ih extended

theorem assembleByIndex_eq (graph : Graph) (h : graph.WellFormed) (name : Option String)
    (operator : Operator) (inputs : List (String × VariableId)) :
    graph.assembleByIndex name operator inputs = .done (graph.assemble name operator inputs) := by
  let last := graph.operatorId graph.nodes.length
  let binding := (graph.addOperator name operator).2.bindInputs last inputs
  have hwell : binding.graph.WellFormed :=
    (h.addOperator name operator).steps (steps_bindInputs _ last inputs)
  have hbinding : (graph.addOperator name operator).2.bindInputsByIndex last inputs =
      .done binding :=
    bindInputsByIndex_eq _ last inputs
  have hassemble : graph.assemble name operator inputs =
      binding.andThen fun _ bound => bound.execute last := rfl
  have hindex : graph.assembleByIndex name operator inputs =
      (do
        let binding ← (graph.addOperator name operator).2.bindInputsByIndex last inputs
        match binding.answer with
        | .error error => return ⟨.error error, binding.graph, binding.log⟩
        | .ok () =>
          let outcome ← binding.graph.executeByIndex last
          return { outcome with log := binding.log ++ outcome.log }) := rfl
  rw [hindex, hassemble, hbinding, Access.done_bind]
  unfold Outcome.andThen
  cases hanswer : binding.answer with
  | error error => rfl
  | ok value =>
    simp only
    rw [executeByIndex_eq binding.graph hwell last]
    rfl

theorem applyByIndex_eq (graph : Graph) (h : graph.WellFormed) (name : Option String)
    (operator : Operator) (inputs : List (String × VariableId)) :
    graph.applyByIndex name operator inputs = .done (graph.apply name operator inputs) := by
  unfold applyByIndex
  rw [graph.assembleByIndex_eq h, graph.apply_eq, Access.done_bind]
  cases hanswer : (graph.assemble name operator inputs).answer with
  | ok ids => rfl
  | error error => simp only [hanswer, Access.pure_eq]

/-- A successful execution of a built-in operator has one output. -/
theorem length_ids_execute (graph : Graph) (operator : OperatorId) (node : Node)
    (parameters : Parameters) (hnode : graph.nodeAt operator = .ok node)
    (hoperator : node.operator = parameters.operator) (ids : List VariableId)
    (h : (graph.execute operator).answer = .ok ids) : ids.length = 1 := by
  rcases graph.execute_cases operator with hfail | hdone
  · obtain ⟨error, herror, -⟩ := hfail
    rw [herror] at h
    cases h
  · obtain ⟨other, inputs, recorded, hexecution, hanswer, -⟩ := hdone
    have heq := nodeAt_unique graph operator other node hexecution.node_eq hnode
    subst other
    rw [hanswer] at h
    cases h
    obtain ⟨x, w, -, -, hrecord⟩ :=
      graph.record_of_boundTensors node parameters inputs hoperator hexecution.inputs_eq
    rw [(Body.record_eq_ok_iff _ _ recorded).mpr hexecution.run_eq] at hrecord
    cases hinfer : parameters.infer node.name x w with
    | error error =>
      rw [hinfer] at hrecord
      cases hrecord
    | ok inference =>
      rw [hinfer] at hrecord
      cases hrecord
      rfl

theorem length_ids_apply (graph : Graph) (name : Option String) (parameters : Parameters)
    (inputs : List (String × VariableId)) (ids : List VariableId)
    (h : (graph.apply name parameters.operator inputs).answer = .ok ids) : ids.length = 1 := by
  let last := graph.operatorId graph.nodes.length
  let node := Node.fresh last
    (name.getD (generatedName parameters.operator graph.nodes.length)) parameters.operator
  let binding := (graph.concat node).bindInputs last inputs
  have hassemble : graph.assemble name parameters.operator inputs =
      binding.andThen fun _ bound => bound.execute last := rfl
  obtain ⟨taken, hbound⟩ := graph.bindInputs_concat node inputs
  have hbound : binding.graph = graph.concat { node with inputs := taken } := hbound
  rw [apply_answer, hassemble] at h
  unfold Outcome.andThen at h
  cases hanswer : binding.answer with
  | error error =>
    rw [hanswer] at h
    cases h
  | ok value =>
    simp only [hanswer] at h
    have hnode : binding.graph.nodeAt last = .ok { node with inputs := taken } := by
      rw [hbound]
      exact (nodeAt_concat graph _ _ _).mpr (Or.inr ⟨rfl, rfl⟩)
    exact length_ids_execute binding.graph last _ parameters hnode rfl ids h

theorem applyBuiltinByIndex_eq (graph : Graph) (h : graph.WellFormed) (parameters : Parameters)
    (inputs : List (String × VariableId)) :
    graph.applyBuiltinByIndex parameters inputs = .done (parameters.apply graph inputs) := by
  unfold applyBuiltinByIndex Parameters.apply
  rw [graph.applyByIndex_eq h, Access.done_bind]
  unfold Outcome.map
  cases hanswer : (graph.apply none parameters.operator inputs).answer with
  | error error => rfl
  | ok ids =>
    have hlength := graph.length_ids_apply none parameters inputs ids hanswer
    obtain ⟨id, rfl⟩ := List.length_eq_one_iff.mp hlength
    rfl

/-- No call on a well-formed graph leaves a list, whatever handles it is given. -/
theorem performByIndex_eq (graph : Graph) (h : graph.WellFormed) (call : Call) :
    graph.performByIndex call = .done (graph.perform call) := by
  cases call with
  | bindInput operator slot id =>
    simp only [performByIndex, graph.bindInputByIndex_eq]
    rfl
  | execute operator =>
    simp only [performByIndex, graph.executeByIndex_eq h]
    rfl
  | apply name operator inputs =>
    simp only [performByIndex, graph.applyByIndex_eq h]
    rfl
  | pool pooling x =>
    simp only [performByIndex, graph.applyBuiltinByIndex_eq h]
    rfl
  | convolve convolution x w =>
    simp only [performByIndex, graph.applyBuiltinByIndex_eq h]
    rfl
  | deconvolve deconvolution x w =>
    simp only [performByIndex, graph.applyBuiltinByIndex_eq h]
    rfl
  | logSoftmax softmax x =>
    simp only [performByIndex, graph.applyBuiltinByIndex_eq h]
    rfl
  | _ => rfl

end Graph

end AxisGraph
