import AxisGraph.Proofs.Graph.Builtin
import AxisGraph.Proofs.Graph.History

/-!
The life of an operator. Its slots are bound one after the other, each of them once, and when all of
them are bound it can be executed, once; nothing happens to it afterwards. Whatever calls are made
on other operators or fail in between, the list of what has been done so far settles how the next
binding and the next execution come out.
-/

namespace AxisGraph.Graph

/-- What a successful call has done to an operator. -/
inductive Event where
  | bound (operator : OperatorId) (slot : String) (id : VariableId)
  | executed (operator : OperatorId)
  deriving DecidableEq

namespace Event

def operator : Event → OperatorId
  | bound operator _ _ => operator
  | executed operator => operator

/-- The second event may follow the first one: no slot is bound twice, and nothing is done to an
operator that has been executed. -/
def Allows : Event → Event → Prop
  | bound operator slot _, bound operator' slot' _ => operator = operator' → slot ≠ slot'
  | bound _ _ _, executed _ => True
  | executed operator, later => later.operator ≠ operator

def binds (operator : OperatorId) (slot : String) : Event → Bool
  | bound operator' slot' _ => operator' = operator ∧ slot' = slot
  | executed _ => false

end Event

/-- The slot has been bound. -/
def Bound (past : List Event) (operator : OperatorId) (slot : String) : Prop :=
  ∃ id, .bound operator slot id ∈ past

theorem any_binds_iff (past : List Event) (operator : OperatorId) (slot : String) :
    past.any (Event.binds operator slot) = true ↔ Bound past operator slot := by
  rw [List.any_eq_true]
  constructor
  · rintro ⟨event, hmem, hbinds⟩
    cases event with
    | bound operator' slot' id =>
      obtain ⟨rfl, rfl⟩ : operator' = operator ∧ slot' = slot := by
        simpa [Event.binds] using hbinds
      exact ⟨id, hmem⟩
    | executed operator' => cases hbinds
  · rintro ⟨id, hmem⟩
    exact ⟨_, hmem, by simp [Event.binds]⟩

instance (past : List Event) (operator : OperatorId) (slot : String) :
    Decidable (Bound past operator slot) :=
  decidable_of_iff _ (any_binds_iff past operator slot)

/-- Inputs bound to an operator one after the other, and its execution. -/
def applied (operator : OperatorId) (inputs : List (String × VariableId)) : List Event :=
  inputs.map (fun input => .bound operator input.1 input.2) ++ [.executed operator]

/-- What a call does to operators if it succeeds. The given handle is that of the next operator. -/
def Call.effects (next : OperatorId) : Call → List Event
  | .bindInput operator slot id => [.bound operator slot id]
  | .execute operator => [.executed operator]
  | .apply _ _ inputs => applied next inputs
  | .pool _ x => applied next [("x", x)]
  | .convolve _ x w => applied next [("x", x), ("w", w)]
  | .deconvolve _ x w => applied next [("x", x), ("w", w)]
  | .logSoftmax _ x => applied next [("x", x)]
  | .addVariable _ => []
  | .addInput _ => []
  | .markOutput _ => []
  | .addOperator _ _ => []

/-- What a call has done to operators. A call that fails does nothing to them. -/
def events (graph : Graph) (call : Call) : List Event :=
  match (graph.perform call).answer with
  | .ok _ => call.effects (graph.operatorId graph.nodes.length)
  | .error _ => []

/-- What a list of calls has done to operators, in the order in which it was done. -/
def history (graph : Graph) : List Call → List Event
  | [] => []
  | call :: rest => graph.events call ++ (graph.perform call).graph.history rest

/-- How the operators of a graph stand to what has been done to them. -/
structure Lifecycle (graph : Graph) (past : List Event) : Prop where
  ordered : past.Pairwise Event.Allows
  declared : ∀ operator slot id, .bound operator slot id ∈ past →
    ∃ node, graph.nodeAt operator = .ok node ∧ slot ∈ node.operator.slots
  complete : ∀ before operator, before ++ [.executed operator] <+: past →
    ∃ node, graph.nodeAt operator = .ok node ∧
      ∀ slot ∈ node.operator.slots, Bound before operator slot
  inputs_iff : ∀ operator node, graph.nodeAt operator = .ok node → ∀ slot id,
    node.inputs.find? slot = some id ↔ .bound operator slot id ∈ past
  frozen_iff : ∀ operator node, graph.nodeAt operator = .ok node →
    (node.frozen = true ↔ .executed operator ∈ past)

namespace Lifecycle

variable {graph changed : Graph} {past : List Event} {operator : OperatorId} {node : Node}

theorem new (id : GraphId) : (Graph.new id).Lifecycle [] where
  ordered := .nil
  declared operator slot v hmem := by cases hmem
  complete before operator hbefore := by simp at hbefore
  inputs_iff operator node hnode := by
    have hlt := (nodeAt_issued (.new id) operator node hnode).2
    cases hlt
  frozen_iff operator node hnode := by
    have hlt := (nodeAt_issued (.new id) operator node hnode).2
    cases hlt

theorem declared_mono (h : graph.Lifecycle past) (hextends : graph.Extends changed)
    (operator : OperatorId) (slot : String) (id : VariableId)
    (hmem : .bound operator slot id ∈ past) :
    ∃ node, changed.nodeAt operator = .ok node ∧ slot ∈ node.operator.slots := by
  obtain ⟨node, hnode, hslot⟩ := h.declared operator slot id hmem
  obtain ⟨grown, hgrown, hgrows⟩ := hextends.nodes operator node hnode
  exact ⟨grown, hgrown, hgrows.operator_eq.symm ▸ hslot⟩

theorem complete_mono (h : graph.Lifecycle past) (hextends : graph.Extends changed)
    (before : List Event) (operator : OperatorId)
    (hbefore : before ++ [.executed operator] <+: past) :
    ∃ node, changed.nodeAt operator = .ok node ∧
      ∀ slot ∈ node.operator.slots, Bound before operator slot := by
  obtain ⟨node, hnode, hslots⟩ := h.complete before operator hbefore
  obtain ⟨grown, hgrown, hgrows⟩ := hextends.nodes operator node hnode
  exact ⟨grown, hgrown, hgrows.operator_eq.symm ▸ hslots⟩

/-- Only operators of the graph have a past. -/
theorem known (h : graph.Lifecycle past) (event : Event) (hmem : event ∈ past) :
    ∃ node, graph.nodeAt event.operator = .ok node := by
  cases event with
  | bound operator slot id =>
    obtain ⟨node, hnode, -⟩ := h.declared operator slot id hmem
    exact ⟨node, hnode⟩
  | executed operator =>
    obtain ⟨before, after, rfl⟩ := List.append_of_mem hmem
    have hbefore : before ++ [.executed operator] <+: before ++ .executed operator :: after :=
      ⟨after, by simp⟩
    obtain ⟨node, hnode, -⟩ := h.complete before operator hbefore
    exact ⟨node, hnode⟩

theorem of_same_nodes (h : graph.Lifecycle past) (hextends : graph.Extends changed)
    (hsame : ∀ operator node, changed.nodeAt operator = .ok node →
      graph.nodeAt operator = .ok node) : changed.Lifecycle past where
  ordered := h.ordered
  declared := h.declared_mono hextends
  complete := h.complete_mono hextends
  inputs_iff operator node hnode := h.inputs_iff operator node (hsame operator node hnode)
  frozen_iff operator node hnode := h.frozen_iff operator node (hsame operator node hnode)

/-- An operator begins its life with nothing done to it. -/
theorem addOperator (h : graph.Lifecycle past) (name : Option String) (operator : Operator) :
    (graph.addOperator name operator).2.Lifecycle past := by
  have hextends := Extends.addOperator graph name operator
  have hnone : ∀ event ∈ past, event.operator ≠ graph.operatorId graph.nodes.length := by
    intro event hmem heq
    obtain ⟨node, hnode⟩ := h.known event hmem
    rw [heq] at hnode
    exact Nat.lt_irrefl _ (nodeAt_issued graph _ node hnode).2
  refine ⟨h.ordered, h.declared_mono hextends, h.complete_mono hextends, ?_, ?_⟩
  · intro id node hnode slot v
    rcases (nodeAt_concat graph _ id node).mp hnode with hold | ⟨rfl, rfl⟩
    · exact h.inputs_iff id node hold slot v
    · refine iff_of_false nofun ?_
      intro hmem
      exact hnone _ hmem rfl
  · intro id node hnode
    rcases (nodeAt_concat graph _ id node).mp hnode with hold | ⟨rfl, rfl⟩
    · exact h.frozen_iff id node hold
    · refine iff_of_false nofun ?_
      intro hmem
      exact hnone _ hmem rfl

theorem bind (h : graph.Lifecycle past) {slot : String} {v : VariableId}
    (hbinding : graph.Binding operator slot v node) :
    (graph.bound operator slot v).Lifecycle (past ++ [.bound operator slot v]) := by
  have hextends := Extends.bind graph operator slot v node hbinding
  have hinputs := h.inputs_iff operator node hbinding.node_eq
  have hunfrozen : .executed operator ∉ past := by
    rw [← h.frozen_iff operator node hbinding.node_eq, hbinding.unfrozen]
    exact Bool.false_ne_true
  constructor
  case ordered =>
    refine List.pairwise_append.mpr ⟨h.ordered, List.pairwise_singleton _ _, ?_⟩
    intro event hmem later hlater
    rw [List.mem_singleton.mp hlater]
    cases event with
    | bound operator' slot' w =>
      rintro rfl rfl
      have hbound := (hinputs slot' w).mpr hmem
      rw [hbinding.free] at hbound
      cases hbound
    | executed operator' =>
      rintro rfl
      exact hunfrozen hmem
  case declared =>
    intro id name w hmem
    rcases List.mem_append.mp hmem with hold | hnew
    · exact h.declared_mono hextends id name w hold
    · cases List.mem_singleton.mp hnew
      obtain ⟨grown, hgrown, hgrows⟩ := hextends.nodes operator node hbinding.node_eq
      exact ⟨grown, hgrown, hgrows.operator_eq.symm ▸ hbinding.declared⟩
  case complete =>
    intro before id hbefore
    rcases List.prefix_concat_iff.mp hbefore with heq | hold
    · cases (List.append_inj' heq rfl).2
    · exact h.complete_mono hextends before id hold
  case inputs_iff =>
    intro id changed hchanged name w
    obtain ⟨old, hold, rfl⟩ :=
      (nodeAt_bound graph operator slot v hbinding.graph_eq id changed).mp hchanged
    rw [List.mem_append, List.mem_singleton, Event.bound.injEq, ← h.inputs_iff id old hold name w]
    by_cases hid : id = operator
    · subst id
      have heq := nodeAt_unique graph operator old node hold hbinding.node_eq
      subst old
      rw [if_pos rfl]
      simp only [NameMap.find?_insert]
      by_cases hname : name = slot
      · subst name
        simp [hbinding.free, eq_comm]
      · simp [hname]
    · simp [hid]
  case frozen_iff =>
    intro id changed hchanged
    obtain ⟨old, hold, rfl⟩ :=
      (nodeAt_bound graph operator slot v hbinding.graph_eq id changed).mp hchanged
    have hfrozen := h.frozen_iff id old hold
    split <;> simpa using hfrozen

theorem commit (h : graph.Lifecycle past) {inputs : NameMap Tensor} {recorded : Context}
    (hexecution : graph.Execution operator node inputs recorded) :
    (graph.commit operator recorded).Lifecycle (past ++ [.executed operator]) := by
  have hextends := Extends.commit graph operator node inputs recorded hexecution
  have hinputs := h.inputs_iff operator node hexecution.node_eq
  have hunfrozen : .executed operator ∉ past := by
    rw [← h.frozen_iff operator node hexecution.node_eq, hexecution.unfrozen]
    exact Bool.false_ne_true
  constructor
  case ordered =>
    refine List.pairwise_append.mpr ⟨h.ordered, List.pairwise_singleton _ _, ?_⟩
    intro event hmem later hlater
    rw [List.mem_singleton.mp hlater]
    cases event with
    | bound operator' slot' w => trivial
    | executed operator' =>
      rintro rfl
      exact hunfrozen hmem
  case declared =>
    intro id name w hmem
    rcases List.mem_append.mp hmem with hold | hnew
    · exact h.declared_mono hextends id name w hold
    · cases List.mem_singleton.mp hnew
  case complete =>
    intro before id hbefore
    rcases List.prefix_concat_iff.mp hbefore with heq | hold
    · obtain ⟨rfl, hevent⟩ := List.append_inj' heq rfl
      cases hevent
      obtain ⟨grown, hgrown, hgrows⟩ := hextends.nodes operator node hexecution.node_eq
      refine ⟨grown, hgrown, ?_⟩
      intro slot hslot
      rw [hgrows.operator_eq] at hslot
      obtain ⟨v, hv⟩ := hexecution.bound slot hslot
      exact ⟨v, (hinputs slot v).mp hv⟩
    · exact h.complete_mono hextends before id hold
  case inputs_iff =>
    intro id changed hchanged name w
    obtain ⟨old, hold, rfl⟩ :=
      (nodeAt_commit graph operator recorded hexecution.graph_eq id changed).mp hchanged
    have hold := h.inputs_iff id old hold name w
    split <;> simpa [Node.committed] using hold
  case frozen_iff =>
    intro id changed hchanged
    obtain ⟨old, hold, rfl⟩ :=
      (nodeAt_commit graph operator recorded hexecution.graph_eq id changed).mp hchanged
    have hfrozen := h.frozen_iff id old hold
    by_cases hid : id = operator
    · subst id
      simp [Node.committed]
    · simpa [hid] using hfrozen

end Lifecycle

/-- The call has failed and left the graph as it was, or it has done this to operators. -/
def Advances {α : Type} (graph : Graph) (past done : List Event) (outcome : Outcome α) : Prop :=
  (∃ error, outcome.answer = .error error ∧ outcome.graph = graph) ∨
    ∃ value, outcome.answer = .ok value ∧ outcome.graph.Lifecycle (past ++ done)

namespace Advances

variable {α β : Type} {graph : Graph} {past done : List Event} {outcome : Outcome α}

theorem map (h : graph.Advances past done outcome) (f : α → β) :
    graph.Advances past done (outcome.map f) := by
  rcases h with ⟨error, herror, hgraph⟩ | ⟨value, hvalue, hlife⟩
  · exact Or.inl ⟨error, (answer_map_eq_error_iff outcome f error).mpr herror, hgraph⟩
  · exact Or.inr ⟨f value, (answer_map_eq_ok_iff outcome f _).mpr ⟨value, hvalue, rfl⟩, hlife⟩

end Advances

theorem nodeAt_markOutput (graph changed : Graph) (id : VariableId)
    (h : graph.markOutput id = .ok changed) (operator : OperatorId) :
    changed.nodeAt operator = graph.nodeAt operator := by
  obtain ⟨-, rfl⟩ := (markOutput_eq_ok_iff graph changed id).mp h
  split <;> rfl

namespace Lifecycle

variable {graph : Graph} {past : List Event}

theorem bindInputs (h : graph.Lifecycle past) (operator : OperatorId)
    (inputs : List (String × VariableId)) (value : Unit)
    (hanswer : (graph.bindInputs operator inputs).answer = .ok value) :
    (graph.bindInputs operator inputs).graph.Lifecycle
      (past ++ inputs.map fun input => .bound operator input.1 input.2) := by
  induction inputs generalizing graph past with
  | nil =>
    rw [List.map_nil, List.append_nil]
    exact h
  | cons input rest ih =>
    obtain ⟨slot, id⟩ := input
    unfold Graph.bindInputs at hanswer ⊢
    cases hbind : graph.bindInput operator slot id with
    | error error =>
      rw [hbind] at hanswer
      cases hanswer
    | ok extended =>
      simp only [hbind] at hanswer ⊢
      obtain ⟨⟨node, hbinding⟩, rfl⟩ :=
        (bindInput_eq_ok_iff graph extended operator slot id).mp hbind
      have hrest := ih (h.bind hbinding) hanswer
      rwa [List.append_assoc, List.singleton_append] at hrest

theorem execute (h : graph.Lifecycle past) (operator : OperatorId) :
    graph.Advances past [.executed operator] (graph.execute operator) := by
  rcases graph.execute_cases operator with ⟨error, hanswer, hgraph⟩ | hdone
  · exact Or.inl ⟨error, hanswer, hgraph⟩
  · obtain ⟨node, inputs, recorded, hexecution, hanswer, hgraph⟩ := hdone
    refine Or.inr ⟨_, hanswer, ?_⟩
    rw [hgraph]
    exact h.commit hexecution

theorem apply (h : graph.Lifecycle past) (name : Option String) (operator : Operator)
    (inputs : List (String × VariableId)) :
    graph.Advances past (applied (graph.operatorId graph.nodes.length) inputs)
      (graph.apply name operator inputs) := by
  cases happly : (graph.apply name operator inputs).answer with
  | error error =>
    exact Or.inl ⟨error, happly, graph.apply_graph_of_error name operator inputs error happly⟩
  | ok ids =>
    refine Or.inr ⟨ids, happly, ?_⟩
    let last := graph.operatorId graph.nodes.length
    let binding := (graph.addOperator name operator).2.bindInputs last inputs
    have hassemble : graph.assemble name operator inputs =
        binding.andThen fun _ bound => bound.execute last := rfl
    rw [graph.apply_eq_assemble name operator inputs ids happly]
    rw [apply_answer] at happly
    rw [hassemble] at happly ⊢
    unfold Outcome.andThen at happly ⊢
    cases hbinding : binding.answer with
    | error error =>
      rw [hbinding] at happly
      cases happly
    | ok value =>
      simp only [hbinding] at happly ⊢
      have hbound := (h.addOperator name operator).bindInputs last inputs value hbinding
      rcases hbound.execute last with ⟨error, herror, -⟩ | ⟨ids', -, hlife⟩
      · rw [show (binding.graph.execute last).answer = .error error from herror] at happly
        cases happly
      · rwa [List.append_assoc] at hlife

/-- A call fails without a trace, or what it does to operators happens last. -/
theorem advances_perform (h : graph.Lifecycle past) (call : Call) :
    graph.Advances past (call.effects (graph.operatorId graph.nodes.length))
      (graph.perform call) := by
  cases call with
  | addVariable tensor =>
    refine Or.inr ⟨_, rfl, ?_⟩
    rw [Call.effects, List.append_nil]
    exact h.of_same_nodes (.addVariable graph tensor) fun _ _ hnode => hnode
  | addInput tensor =>
    refine Or.inr ⟨_, rfl, ?_⟩
    rw [Call.effects, List.append_nil]
    exact h.of_same_nodes (.addInput graph tensor) fun _ _ hnode => hnode
  | markOutput id =>
    simp only [perform]
    cases hmark : graph.markOutput id with
    | error error => exact Or.inl ⟨error, rfl, rfl⟩
    | ok changed =>
      refine Or.inr ⟨_, rfl, ?_⟩
      rw [Call.effects, List.append_nil]
      have hextends := steps_extend graph changed (steps_markOutput graph changed id hmark)
      refine h.of_same_nodes hextends ?_
      intro operator node hnode
      exact (nodeAt_markOutput graph changed id hmark operator).symm.trans hnode
  | addOperator name operator =>
    refine Or.inr ⟨_, rfl, ?_⟩
    rw [Call.effects, List.append_nil]
    exact h.addOperator name operator
  | bindInput operator slot id =>
    simp only [perform]
    cases hbind : graph.bindInput operator slot id with
    | error error => exact Or.inl ⟨error, rfl, rfl⟩
    | ok changed =>
      obtain ⟨⟨node, hbinding⟩, rfl⟩ :=
        (bindInput_eq_ok_iff graph changed operator slot id).mp hbind
      exact Or.inr ⟨_, rfl, h.bind hbinding⟩
  | execute operator => exact (h.execute operator).map _
  | apply name operator inputs => exact (h.apply name operator inputs).map _
  | pool pooling x => exact ((h.apply none _ _).map _).map _
  | convolve convolution x w => exact ((h.apply none _ _).map _).map _
  | deconvolve deconvolution x w => exact ((h.apply none _ _).map _).map _
  | logSoftmax softmax x => exact ((h.apply none _ _).map _).map _

theorem perform (h : graph.Lifecycle past) (call : Call) :
    (graph.perform call).graph.Lifecycle (past ++ graph.events call) := by
  unfold events
  rcases h.advances_perform call with ⟨error, hanswer, hgraph⟩ | ⟨answer, hanswer, hlife⟩
  · rw [hanswer, hgraph, List.append_nil]
    exact h
  · rw [hanswer]
    exact hlife

theorem performAll (h : graph.Lifecycle past) (calls : List Call) :
    (graph.performAll calls).Lifecycle (past ++ graph.history calls) := by
  induction calls generalizing graph past with
  | nil =>
    rw [history, List.append_nil]
    exact h
  | cons call rest ih =>
    rw [history, ← List.append_assoc]
    exact ih (h.perform call)

end Lifecycle

namespace Lifecycle

variable {graph : Graph} {past : List Event}

end Lifecycle

end AxisGraph.Graph
