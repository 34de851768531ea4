import AxisGraph.Proofs.Graph.WellFormed

/-!
Graphs only grow. A handle that names something in a graph names the same in every later state of
it: variables never change, operators only gain inputs until they are frozen, and the lists of
inputs and outputs only get longer at their ends. An operator that a failing call withdraws was
never handed to the caller, so its index can be given out again.
-/

namespace AxisGraph

/-- The second node is a later state of the first one: it can have more inputs, and as long as the
first is not frozen it can have been executed. -/
structure Node.Grows (node later : Node) : Prop where
  id_eq : later.id = node.id
  name_eq : later.name = node.name
  operator_eq : later.operator = node.operator
  bound : ∀ slot v, node.inputs.find? slot = some v → later.inputs.find? slot = some v
  frozen : node.frozen = true → later = node

namespace Node.Grows

theorem refl (node : Node) : node.Grows node where
  id_eq := rfl
  name_eq := rfl
  operator_eq := rfl
  bound _ _ h := h
  frozen _ := rfl

theorem trans {node middle later : Node} (h : node.Grows middle) (h' : middle.Grows later) :
    node.Grows later where
  id_eq := h'.id_eq.trans h.id_eq
  name_eq := h'.name_eq.trans h.name_eq
  operator_eq := h'.operator_eq.trans h.operator_eq
  bound slot v hv := h'.bound slot v (h.bound slot v hv)
  frozen hfrozen := by
    have hmiddle := h.frozen hfrozen
    subst middle
    exact h'.frozen hfrozen

theorem bind (node : Node) (slot : String) (v : VariableId) (hunfrozen : node.frozen = false)
    (hfree : node.inputs.find? slot = none) :
    node.Grows { node with inputs := node.inputs.insert slot v } where
  id_eq := rfl
  name_eq := rfl
  operator_eq := rfl
  bound name w hw := by
    have hne : name ≠ slot := by
      intro heq
      subst name
      rw [hfree] at hw
      cases hw
    rw [NameMap.find?_insert, if_neg hne]
    exact hw
  frozen hfrozen := by
    rw [hunfrozen] at hfrozen
    cases hfrozen

theorem commit (node : Node) (slots : List (String × VariableId)) (recorded : Context)
    (hunfrozen : node.frozen = false) : node.Grows (node.committed slots recorded) where
  id_eq := rfl
  name_eq := rfl
  operator_eq := rfl
  bound _ _ h := h
  frozen hfrozen := by
    rw [hunfrozen] at hfrozen
    cases hfrozen

end Node.Grows

namespace Graph

/-- Whatever the first graph knows, the second one knows too and under the same handle. -/
structure Extends (graph later : Graph) : Prop where
  id_eq : later.id = graph.id
  vars : graph.KeepsVariables later
  nodes : ∀ id node, graph.nodeAt id = .ok node →
    ∃ grown, later.nodeAt id = .ok grown ∧ node.Grows grown
  inputs : graph.inputs <+: later.inputs
  outputs : graph.outputs <+: later.outputs

namespace Extends

theorem refl (graph : Graph) : graph.Extends graph where
  id_eq := rfl
  vars _ _ h := h
  nodes _ node h := ⟨node, h, .refl node⟩
  inputs := List.prefix_refl _
  outputs := List.prefix_refl _

theorem trans {graph middle later : Graph} (h : graph.Extends middle) (h' : middle.Extends later) :
    graph.Extends later where
  id_eq := h'.id_eq.trans h.id_eq
  vars v found hv := h'.vars v found (h.vars v found hv)
  nodes id node hnode := by
    obtain ⟨grown, hgrown, hgrows⟩ := h.nodes id node hnode
    obtain ⟨last, hlast, hgrows'⟩ := h'.nodes id grown hgrown
    exact ⟨last, hlast, hgrows.trans hgrows'⟩
  inputs := h.inputs.trans h'.inputs
  outputs := h.outputs.trans h'.outputs

theorem addVariable (graph : Graph) (tensor : Tensor) :
    graph.Extends (graph.addVariable tensor).2 where
  id_eq := rfl
  vars := keepsVariables_extend graph _
  nodes _ node h := ⟨node, h, .refl node⟩
  inputs := List.prefix_refl _
  outputs := List.prefix_refl _

theorem addInput (graph : Graph) (tensor : Tensor) :
    graph.Extends (graph.addInput tensor).2 where
  id_eq := rfl
  vars := keepsVariables_extend graph _
  nodes _ node h := ⟨node, h, .refl node⟩
  inputs := List.prefix_append _ _
  outputs := List.prefix_refl _

theorem markOutput (graph : Graph) (id : VariableId) :
    graph.Extends { graph with outputs := graph.outputs ++ [id] } where
  id_eq := rfl
  vars _ _ h := h
  nodes _ node h := ⟨node, h, .refl node⟩
  inputs := List.prefix_refl _
  outputs := List.prefix_append _ _

theorem addOperator (graph : Graph) (name : Option String) (operator : Operator) :
    graph.Extends (graph.addOperator name operator).2 where
  id_eq := rfl
  vars _ _ h := h
  nodes id node h := ⟨node, (nodeAt_concat graph _ id node).mpr (Or.inl h), .refl node⟩
  inputs := List.prefix_refl _
  outputs := List.prefix_refl _

theorem bind (graph : Graph) (operator : OperatorId) (slot : String) (v : VariableId) (node : Node)
    (hbinding : graph.Binding operator slot v node) :
    graph.Extends (graph.bound operator slot v) where
  id_eq := rfl
  vars _ _ h := h
  nodes id old hold := by
    refine ⟨_, (nodeAt_bound graph operator slot v hbinding.graph_eq id _).mpr ⟨old, hold, rfl⟩, ?_⟩
    by_cases hid : id = operator
    · subst id
      have hnode := nodeAt_unique graph operator old node hold hbinding.node_eq
      subst old
      rw [if_pos rfl]
      exact .bind node slot v hbinding.unfrozen hbinding.free
    · rw [if_neg hid]
      exact .refl old
  inputs := List.prefix_refl _
  outputs := List.prefix_refl _

theorem commit (graph : Graph) (operator : OperatorId) (node : Node) (inputs : NameMap Tensor)
    (recorded : Context) (hexecution : graph.Execution operator node inputs recorded) :
    graph.Extends (graph.commit operator recorded) where
  id_eq := rfl
  vars := keepsVariables_commit graph operator recorded
  nodes id old hold := by
    refine ⟨_, (nodeAt_commit graph operator recorded hexecution.graph_eq id _).mpr
      ⟨old, hold, rfl⟩, ?_⟩
    by_cases hid : id = operator
    · subst id
      have hnode := nodeAt_unique graph operator old node hold hexecution.node_eq
      subst old
      rw [if_pos rfl]
      exact .commit node _ recorded hexecution.unfrozen
    · rw [if_neg hid]
      exact .refl old
  inputs := List.prefix_refl _
  outputs := List.prefix_refl _

end Extends

theorem step_extends (graph changed : Graph) (hstep : Step graph changed) :
    graph.Extends changed := by
  cases hstep with
  | addVariable tensor => exact .addVariable graph tensor
  | addInput tensor => exact .addInput graph tensor
  | markOutput id hissued hnew => exact .markOutput graph id
  | addOperator name operator => exact .addOperator graph name operator
  | bind operator slot v node hbinding => exact .bind graph operator slot v node hbinding
  | commit operator node inputs recorded hexecution =>
    exact .commit graph operator node inputs recorded hexecution

theorem steps_extend (graph changed : Graph) (hsteps : Steps graph changed) :
    graph.Extends changed := by
  induction hsteps with
  | refl => exact .refl graph
  | tail _ hstep ih => exact ih.trans (step_extends _ _ hstep)

theorem perform_extends (graph : Graph) (call : Call) :
    graph.Extends (graph.perform call).graph :=
  steps_extend graph _ (steps_perform graph call)

theorem performAll_extends (graph : Graph) (calls : List Call) :
    graph.Extends (graph.performAll calls) := by
  induction calls generalizing graph with
  | nil => exact .refl graph
  | cons call rest ih => exact (perform_extends graph call).trans (ih (graph.perform call).graph)

/-- Every handle in the answer names something in the graph. -/
def Answer.Known (graph : Graph) : Answer → Prop
  | .done => True
  | .vars ids => ∀ v ∈ ids, graph.Issued v
  | .operator id => ∃ node, graph.nodeAt id = .ok node

theorem issued_nextIds (graph : Graph) (operator : OperatorId) (recorded : Context) (v : VariableId)
    (hv : v ∈ graph.nextIds recorded.outputs.length) :
    (graph.commit operator recorded).Issued v := by
  obtain ⟨k, hget⟩ := List.mem_iff_getElem?.mp hv
  rw [getElem?_nextIds] at hget
  split at hget
  · rename_i hlt
    have hv := Option.some.inj hget
    subst v
    refine ⟨⟨recorded.outputs[k].2, some operator⟩, (variableAt_commit graph operator recorded _
      _).mpr (Or.inr ⟨k, recorded.outputs[k].1, recorded.outputs[k].2, ?_, rfl, rfl⟩)⟩
    exact List.getElem?_eq_getElem hlt
  · cases hget

theorem issued_execute (graph : Graph) (operator : OperatorId) (ids : List VariableId)
    (h : (graph.execute operator).answer = .ok ids) (v : VariableId) (hv : v ∈ ids) :
    (graph.execute operator).graph.Issued v := by
  rcases graph.execute_cases operator with hfail | hdone
  · obtain ⟨error, herror, -⟩ := hfail
    rw [herror] at h
    cases h
  · obtain ⟨node, inputs, recorded, -, hanswer, hgraph⟩ := hdone
    rw [hanswer] at h
    cases h
    rw [hgraph]
    exact issued_nextIds graph operator recorded v hv

theorem issued_apply (graph : Graph) (name : Option String) (operator : Operator)
    (inputs : List (String × VariableId)) (ids : List VariableId)
    (h : (graph.apply name operator inputs).answer = .ok ids) (v : VariableId) (hv : v ∈ ids) :
    (graph.apply name operator inputs).graph.Issued v := by
  rw [apply_eq_assemble graph name operator inputs ids h]
  rw [apply_answer] at h
  unfold assemble Outcome.andThen at h ⊢
  split at h
  · exact issued_execute _ _ ids h v hv
  · cases h

theorem answer_map_eq_ok_iff {α β : Type} (outcome : Outcome α) (f : α → β) (value : β) :
    (outcome.map f).answer = .ok value ↔ ∃ a, outcome.answer = .ok a ∧ f a = value := by
  unfold Outcome.map
  cases outcome.answer with
  | error error => simp [Except.map]
  | ok a => simp [Except.map]

theorem known_ofChange (graph : Graph) (change : Except GraphError Graph) (answer : Answer)
    (h : (ofChange graph change).answer = .ok answer) :
    answer.Known (ofChange graph change).graph := by
  cases change with
  | error error => cases h
  | ok changed =>
    cases h
    trivial

theorem exists_ids_of_applyBuiltin (graph : Graph) (parameters : Parameters)
    (inputs : List (String × VariableId)) (answer : Answer)
    (h : ((parameters.apply graph inputs).map fun id => Answer.vars id.toList).answer =
      .ok answer) :
    ∃ ids, (graph.apply none parameters.operator inputs).answer = .ok ids ∧
      answer = .vars ids.head?.toList := by
  obtain ⟨id, hid, rfl⟩ := (answer_map_eq_ok_iff _ _ answer).mp h
  obtain ⟨ids, hids, rfl⟩ := (answer_map_eq_ok_iff _ _ id).mp hid
  exact ⟨ids, hids, rfl⟩

theorem known_apply_head (graph : Graph) (parameters : Parameters)
    (inputs : List (String × VariableId)) (answer : Answer)
    (h : ((parameters.apply graph inputs).map fun id => Answer.vars id.toList).answer =
      .ok answer) :
    answer.Known (parameters.apply graph inputs).graph := by
  obtain ⟨ids, hids, rfl⟩ := graph.exists_ids_of_applyBuiltin parameters inputs answer h
  intro v hv
  have hmem : v ∈ ids := List.mem_of_mem_head? (Option.mem_toList.mp hv)
  exact issued_apply graph none parameters.operator inputs ids hids v hmem

/-- Every handle in the answer of a call is known when the call returns. -/
theorem known_perform (graph : Graph) (call : Call) (answer : Answer)
    (h : (graph.perform call).answer = .ok answer) : answer.Known (graph.perform call).graph := by
  cases call with
  | addVariable tensor =>
    cases h
    intro v hv
    rw [List.mem_singleton.mp hv]
    exact ⟨⟨tensor, none⟩, (variableAt_extend graph _ _ _).mpr (Or.inr ⟨0, rfl, rfl⟩)⟩
  | addInput tensor =>
    cases h
    intro v hv
    rw [List.mem_singleton.mp hv]
    exact ⟨⟨tensor, none⟩, (variableAt_extend graph _ _ _).mpr (Or.inr ⟨0, rfl, rfl⟩)⟩
  | addOperator name operator =>
    cases h
    exact ⟨_, (nodeAt_concat graph _ _ _).mpr (Or.inr ⟨rfl, rfl⟩)⟩
  | markOutput id => exact known_ofChange graph _ answer h
  | bindInput operator slot id => exact known_ofChange graph _ answer h
  | execute operator =>
    obtain ⟨ids, hids, rfl⟩ := (answer_map_eq_ok_iff _ _ answer).mp h
    exact fun v hv => issued_execute graph operator ids hids v hv
  | apply name operator inputs =>
    obtain ⟨ids, hids, rfl⟩ := (answer_map_eq_ok_iff _ _ answer).mp h
    exact fun v hv => issued_apply graph name operator inputs ids hids v hv
  | pool pooling x => exact known_apply_head graph _ _ answer h
  | convolve convolution x w => exact known_apply_head graph _ _ answer h
  | deconvolve deconvolution x w => exact known_apply_head graph _ _ answer h
  | logSoftmax softmax x => exact known_apply_head graph _ _ answer h

/-- Whatever is called on a graph, its handles keep their meaning, and so do the handles that a call
hands back. -/
theorem append_only (graph : Graph) (calls : List Call) :
    graph.Extends (graph.performAll calls) ∧
      ∀ call answer, (graph.perform call).answer = .ok answer →
        answer.Known (graph.perform call).graph ∧
          (graph.perform call).graph.Extends ((graph.perform call).graph.performAll calls) := by
  refine ⟨performAll_extends graph calls, ?_⟩
  intro call answer h
  exact ⟨known_perform graph call answer h, performAll_extends (graph.perform call).graph calls⟩

/-- An application that fails, and a placement that gets the index of the withdrawn operator. -/
def retries : List Call :=
  [.apply (some "late") refusing [("x", fed.variableId 0)], .addOperator none refusing]

theorem append_only_retries :
    (fed.perform (.addOperator none refusing)).answer = .ok (.operator (fed.operatorId 0)) ∧
      fed.Extends (fed.performAll retries) ∧
      Answer.Known (fed.perform (.addOperator none refusing)).graph
        (.operator (fed.operatorId 0)) ∧
      (fed.perform (.addOperator none refusing)).graph.Extends
        ((fed.perform (.addOperator none refusing)).graph.performAll retries) := by
  have hanswer : (fed.perform (.addOperator none refusing)).answer =
      .ok (.operator (fed.operatorId 0)) := rfl
  obtain ⟨hextends, hanswered⟩ := append_only fed retries
  exact ⟨hanswer, hextends, hanswered _ _ hanswer⟩

end Graph

end AxisGraph
