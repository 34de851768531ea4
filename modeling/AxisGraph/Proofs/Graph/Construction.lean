import AxisGraph.Proofs.Graph.Atomicity

/-!
Applying an operator and constructing it call by call. The construction adds the operator, binds
its inputs one after the other and executes it, up to the first call that fails. Both run the same
checks on the same graphs, so they differ only in what a failure leaves behind.
-/

namespace AxisGraph

namespace Outcome

variable {α β γ : Type}

theorem andThen_assoc (outcome : Outcome α) (f : α → Graph → Outcome β)
    (g : β → Graph → Outcome γ) :
    (outcome.andThen f).andThen g =
      outcome.andThen fun value graph => (f value graph).andThen g := by
  obtain ⟨answer, graph, log⟩ := outcome
  cases answer with
  | error error => rfl
  | ok value =>
    simp only [andThen]
    cases (f value graph).answer with
    | error error => rfl
    | ok next => simp only [List.append_assoc]

theorem map_andThen (outcome : Outcome α) (f : α → β) (g : β → Graph → Outcome γ) :
    (outcome.map f).andThen g = outcome.andThen fun value graph => g (f value) graph := by
  obtain ⟨answer, graph, log⟩ := outcome
  cases answer <;> rfl

theorem andThen_map (outcome : Outcome α) (f : α → Graph → Outcome β) (g : β → γ) :
    (outcome.andThen f).map g = outcome.andThen fun value graph => (f value graph).map g := by
  obtain ⟨answer, graph, log⟩ := outcome
  cases answer <;> rfl

theorem map_map (outcome : Outcome α) (f : α → β) (g : β → γ) :
    (outcome.map f).map g = outcome.map fun value => g (f value) := by
  obtain ⟨answer, graph, log⟩ := outcome
  cases answer <;> rfl

theorem map_id' (outcome : Outcome α) : (outcome.map fun value => value) = outcome := by
  obtain ⟨answer, graph, log⟩ := outcome
  cases answer <;> rfl

end Outcome

/-- The error of a graph that does not take the handle of an operator, or takes no more changes to
the operator. -/
def GraphError.RefusesOperator : GraphError → Prop
  | .unknownOperator _ => True
  | .operatorFrozen _ => True
  | _ => False

/-- The error of a binding to an operator that takes changes. -/
def GraphError.RefusesBinding : GraphError → Prop
  | .unknownVariable _ => True
  | .slotNotSupported _ _ => True
  | .slotTaken _ _ => True
  | _ => False

namespace Graph

/-- The answers to calls that are performed one after the other, up to the first failure. -/
def performInTurn (graph : Graph) : List Call → Outcome (List Answer)
  | [] => .of (.ok []) graph
  | call :: rest =>
    (graph.perform call).andThen fun answer after =>
      (after.performInTurn rest).map fun answers => answer :: answers

/-- Handle of the next operator to be added. -/
abbrev nextOperator (graph : Graph) : OperatorId := graph.operatorId graph.nodes.length

/-- The calls that bind these inputs to an operator. -/
def bindings (operator : OperatorId) (inputs : List (String × VariableId)) : List Call :=
  inputs.map fun input => .bindInput operator input.1 input.2

/-- The calls that add an operator, bind its inputs and execute it. -/
def construction (graph : Graph) (name : Option String) (operator : Operator)
    (inputs : List (String × VariableId)) : List Call :=
  .addOperator name operator ::
    (bindings graph.nextOperator inputs ++ [.execute graph.nextOperator])

/-- The call comes right after calls that have all succeeded. -/
def Due (graph : Graph) (calls done : List Call) (call : Call) : Prop :=
  (∃ rest, calls = done ++ call :: rest) ∧
    ∃ answers, (graph.performInTurn done).answer = .ok answers

theorem performInTurn_append (graph : Graph) (first second : List Call) :
    graph.performInTurn (first ++ second) =
      (graph.performInTurn first).andThen fun answers after =>
        (after.performInTurn second).map fun others => answers ++ others := by
  induction first generalizing graph with
  | nil => exact (Outcome.map_id' _).symm
  | cons call rest ih =>
    simp only [List.cons_append, performInTurn, ih, Outcome.andThen_assoc, Outcome.map_andThen,
      Outcome.andThen_map, Outcome.map_map]

/-- The first failure ends the calls with its error, after the log of all calls up to it. -/
theorem performInTurn_of_error (graph : Graph) (calls done : List Call) (call : Call)
    (error : GraphError) (hdue : graph.Due calls done call)
    (herror : ((graph.performInTurn done).graph.perform call).answer = .error error) :
    (graph.performInTurn calls).answer = .error error ∧
      (graph.performInTurn calls).log = (graph.performInTurn done).log ++
        ((graph.performInTurn done).graph.perform call).log := by
  obtain ⟨⟨rest, rfl⟩, answers, hanswers⟩ := hdue
  rw [performInTurn_append]
  simp only [Outcome.andThen, hanswers, performInTurn, herror]
  exact ⟨rfl, rfl⟩

theorem performInTurn_singleton (graph : Graph) (call : Call) :
    graph.performInTurn [call] = (graph.perform call).map fun answer => [answer] := by
  simp only [performInTurn]
  obtain ⟨answer, after, log⟩ := graph.perform call
  cases answer with
  | error error => rfl
  | ok value =>
    simp only [Outcome.andThen, Outcome.map, Outcome.of, Except.map, List.append_nil]

/-- Calls that do not all succeed come to one that fails. -/
theorem exists_due_of_error (graph : Graph) (calls : List Call) (error : GraphError)
    (h : (graph.performInTurn calls).answer = .error error) :
    ∃ done call, graph.Due calls done call ∧
      ((graph.performInTurn done).graph.perform call).answer = .error error := by
  induction calls generalizing graph with
  | nil => cases h
  | cons call rest ih =>
    cases hcall : (graph.perform call).answer with
    | error cause =>
      simp only [performInTurn, Outcome.andThen, hcall] at h
      cases h
      exact ⟨[], call, ⟨⟨rest, rfl⟩, [], rfl⟩, hcall⟩
    | ok answer =>
      simp only [performInTurn, Outcome.andThen, hcall, answer_map_eq_error_iff] at h
      obtain ⟨done, next, ⟨⟨later, rfl⟩, answers, hdone⟩, hnext⟩ := ih _ h
      refine ⟨call :: done, next, ⟨⟨later, rfl⟩, answer :: answers, ?_⟩, ?_⟩
      · simp only [performInTurn, Outcome.andThen, hcall, Outcome.map, hdone, Except.map]
      · simpa only [performInTurn, Outcome.andThen, hcall, Outcome.map] using hnext

/-- Calls that bind inputs take the steps of binding them all at once. -/
theorem performInTurn_bindings (graph : Graph) (operator : OperatorId)
    (inputs : List (String × VariableId)) :
    graph.performInTurn (bindings operator inputs) =
      (graph.bindInputs operator inputs).map fun _ => List.replicate inputs.length .done := by
  induction inputs generalizing graph with
  | nil => rfl
  | cons input rest ih =>
    obtain ⟨slot, id⟩ := input
    change (ofChange graph (graph.bindInput operator slot id)).andThen
      (fun answer after => (after.performInTurn (bindings operator rest)).map (answer :: ·)) = _
    rw [bindInputs]
    cases graph.bindInput operator slot id with
    | error error => rfl
    | ok extended =>
      simp only [ofChange, Outcome.of, Outcome.andThen, ih, Outcome.map_map, List.nil_append]
      rfl

/-- The call only concerns the bindings or the execution of the operator. -/
def Call.Completes (operator : OperatorId) (call : Call) : Prop :=
  call = .execute operator ∨ ∃ slot v, call = .bindInput operator slot v

theorem bindings_split (operator : OperatorId) (inputs : List (String × VariableId))
    (done rest : List Call) (call : Call)
    (h : bindings operator inputs ++ [.execute operator] = done ++ call :: rest) :
    call.Completes operator ∧ ∃ taken, done = bindings operator taken := by
  induction inputs generalizing done with
  | nil =>
    cases done with
    | nil =>
      injection h with hcall
      exact ⟨Or.inl hcall.symm, [], rfl⟩
    | cons first later =>
      injection h with hfirst hlater
      exact absurd hlater.symm (List.append_ne_nil_of_right_ne_nil later (List.cons_ne_nil _ _))
  | cons input inputs ih =>
    cases done with
    | nil =>
      injection h with hcall
      exact ⟨Or.inr ⟨input.1, input.2, hcall.symm⟩, [], rfl⟩
    | cons first later =>
      injection h with hfirst hlater
      obtain ⟨hcompletes, taken, rfl⟩ := ih later hlater
      exact ⟨hcompletes, input :: taken, by rw [← hfirst]; rfl⟩

/-- Binding an input to an operator that can still be changed is refused for the slot or for the
variable only. -/
theorem refusesBinding_of_unfrozen (graph : Graph) (operator : OperatorId) (node : Node)
    (slot : String) (v : VariableId) (error : GraphError) (hnode : graph.nodeAt operator = .ok node)
    (hunfrozen : node.frozen = false) (h : graph.bindInput operator slot v = .error error) :
    error.RefusesBinding := by
  unfold bindInput at h
  cases hfound : graph.variableAt v with
  | error cause =>
    rw [hnode, hfound] at h
    cases h
    rw [graph.variableAt_error v error hfound]
    trivial
  | ok found =>
    simp only [hnode, hfound, bind, Except.bind, hunfrozen, Bool.false_eq_true, ↓reduceIte] at h
    split at h
    · cases h
      trivial
    · split at h <;> cases h
      trivial

theorem bindInput_error_of_unfrozen (graph : Graph) (operator : OperatorId) (node : Node)
    (slot : String) (v : VariableId) (error : GraphError) (hnode : graph.nodeAt operator = .ok node)
    (hunfrozen : node.frozen = false) (h : graph.bindInput operator slot v = .error error) :
    ¬error.RefusesOperator := by
  have hbinding := graph.refusesBinding_of_unfrozen operator node slot v error hnode hunfrozen h
  cases error <;> first | exact not_false | exact hbinding.elim

/-- When the execution of an operator that can still be changed fails with the error of a refused
operator, its own body has failed with it. -/
theorem execute_error_of_unfrozen (graph : Graph) (operator : OperatorId) (node : Node)
    (error : GraphError) (hnode : graph.nodeAt operator = .ok node)
    (hunfrozen : node.frozen = false) (h : (graph.execute operator).answer = .error error)
    (hrefuses : error.RefusesOperator) :
    ∃ tensors, graph.boundTensors node node.operator.slots ∅ = .ok tensors ∧
      ((node.operator.body node.id node.name).run (.start node.id node.name tensors)).1 =
        .error error := by
  cases htensors : graph.boundTensors node node.operator.slots ∅ with
  | error cause =>
    simp only [execute, hnode, hunfrozen, htensors, Outcome.of] at h
    cases h
    rcases graph.boundTensors_error_cases node _ ∅ error htensors with ⟨slot, rfl⟩ | ⟨v, rfl⟩
    · exact hrefuses.elim
    · exact hrefuses.elim
  | ok tensors =>
    refine ⟨tensors, rfl, ?_⟩
    rw [graph.execute_eq_runNode operator node tensors hnode hunfrozen htensors] at h
    unfold runNode at h
    cases hrun : (node.operator.body node.id node.name).run (.start node.id node.name tensors) with
    | mk result recorded =>
      cases result with
      | error cause =>
        simp only [hrun] at h
        rw [Except.error.inj h]
      | ok value =>
        simp only [hrun] at h
        cases h

section Construction

variable (graph : Graph) (name : Option String) (operator : Operator)
  (inputs : List (String × VariableId))

/-- The operator as it is placed next. -/
def placedNext : Node :=
  .fresh graph.nextOperator (name.getD (generatedName operator graph.nodes.length)) operator

/-- After the first call of a construction, the added operator has got bindings and nothing else. -/
theorem performInTurn_addOperator :
    graph.performInTurn (.addOperator name operator :: bindings graph.nextOperator inputs) =
      ((graph.concat (graph.placedNext name operator)).bindInputs graph.nextOperator inputs).map
        fun _ => .operator graph.nextOperator :: List.replicate inputs.length .done := by
  change ((graph.concat (graph.placedNext name operator)).performInTurn
    (bindings graph.nextOperator inputs)).map
      (fun answers => .operator graph.nextOperator :: answers) = _
  rw [performInTurn_bindings, Outcome.map_map]

/-- The construction is the assembly, together with the answers of the steps on the way. -/
theorem performInTurn_construction :
    graph.performInTurn (graph.construction name operator inputs) =
      (graph.assemble name operator inputs).map fun ids =>
        .operator graph.nextOperator :: (List.replicate inputs.length .done ++ [.vars ids]) := by
  unfold construction
  rw [← List.cons_append, performInTurn_append, performInTurn_addOperator]
  simp only [performInTurn_singleton, perform, Outcome.map_andThen, Outcome.map_map, assemble,
    Outcome.andThen_map]
  rfl

/-- The added operator can still be changed whenever a further call of its construction is due. -/
theorem unfrozen_of_due (done : List Call) (call : Call)
    (hdue : graph.Due (graph.construction name operator inputs) done call) (hdone : done ≠ []) :
    call.Completes graph.nextOperator ∧
      ∃ taken, (graph.performInTurn done).graph.nodeAt graph.nextOperator =
        .ok { graph.placedNext name operator with inputs := taken } := by
  obtain ⟨⟨rest, hsplit⟩, -⟩ := hdue
  cases done with
  | nil => exact absurd rfl hdone
  | cons first later =>
    injection hsplit with hfirst hlater
    subst first
    obtain ⟨hcompletes, bound, rfl⟩ := bindings_split _ inputs later rest call hlater
    refine ⟨hcompletes, ?_⟩
    obtain ⟨taken, htaken⟩ := graph.bindInputs_concat (graph.placedNext name operator) bound
    refine ⟨taken, ?_⟩
    rw [performInTurn_addOperator]
    change (Outcome.graph (bindInputs _ _ _)).nodeAt _ = _
    rw [htaken, nodeAt_concat]
    exact Or.inr ⟨rfl, rfl⟩

theorem construction_answer :
    (graph.performInTurn (graph.construction name operator inputs)).answer =
      (graph.apply name operator inputs).answer.map fun ids =>
        .operator graph.nextOperator :: (List.replicate inputs.length .done ++ [.vars ids]) := by
  rw [performInTurn_construction, apply_answer]
  rfl

theorem construction_log :
    (graph.performInTurn (graph.construction name operator inputs)).log =
      (graph.apply name operator inputs).log := by
  rw [performInTurn_construction, apply_eq]
  split <;> rfl

theorem construction_graph (ids : List VariableId)
    (h : (graph.apply name operator inputs).answer = .ok ids) :
    (graph.performInTurn (graph.construction name operator inputs)).graph =
      (graph.apply name operator inputs).graph := by
  rw [performInTurn_construction, apply_eq_assemble graph name operator inputs ids h]
  rfl

/-- A construction that fails with the error of a refused operator does so in its last call, where
the body of the operator fails with this error. -/
theorem body_error_of_refused (error : GraphError)
    (h : (graph.performInTurn (graph.construction name operator inputs)).answer = .error error)
    (hrefuses : error.RefusesOperator) :
    ∃ done node tensors,
      graph.Due (graph.construction name operator inputs) done (.execute graph.nextOperator) ∧
      (graph.performInTurn done).graph.nodeAt graph.nextOperator = .ok node ∧
      (graph.performInTurn done).graph.boundTensors node operator.slots ∅ = .ok tensors ∧
      ((operator.body graph.nextOperator node.name).run
        (.start graph.nextOperator node.name tensors)).1 = .error error := by
  obtain ⟨done, call, hdue, herror⟩ := graph.exists_due_of_error _ error h
  have hdone : done ≠ [] := by
    rintro rfl
    obtain ⟨⟨rest, hsplit⟩, -⟩ := hdue
    injection hsplit with hcall
    rw [← hcall] at herror
    cases herror
  obtain ⟨hcompletes, taken, hnode⟩ :=
    graph.unfrozen_of_due name operator inputs done call hdue hdone
  rcases hcompletes with rfl | ⟨slot, v, rfl⟩
  · obtain ⟨tensors, htensors, hbody⟩ := execute_error_of_unfrozen _ _ _ error hnode rfl
      ((answer_map_eq_error_iff _ _ error).mp herror) hrefuses
    exact ⟨done, _, tensors, hdue, hnode, htensors, hbody⟩
  · cases hbind : (graph.performInTurn done).graph.bindInput graph.nextOperator slot v with
    | ok extended =>
      simp only [perform, hbind] at herror
      cases herror
    | error cause =>
      simp only [perform, hbind] at herror
      cases herror
      exact absurd hrefuses (bindInput_error_of_unfrozen _ _ _ slot v error hnode rfl hbind)

end Construction

/-- Applying an operator succeeds exactly if all calls of its construction succeed, with the same
handles, graph and log. Otherwise it answers with the error of the first call that fails, after the
log up to that call, and leaves the graph as it was. No call is refused because the added operator
is unknown or frozen; an error that says so comes from the body of the operator. -/
theorem apply_agrees_with_construction (graph : Graph) (name : Option String)
    (operator : Operator) (inputs : List (String × VariableId)) :
    let calls := graph.construction name operator inputs
    let built := graph.performInTurn calls
    let applied := graph.apply name operator inputs
    (graph.perform (.addOperator name operator)).answer = .ok (.operator graph.nextOperator) ∧
    ((∃ ids, applied.answer = .ok ids) ↔ ∃ answers, built.answer = .ok answers) ∧
    (∀ ids, applied.answer = .ok ids →
      built.answer = .ok (.operator graph.nextOperator ::
        (List.replicate inputs.length .done ++ [.vars ids])) ∧
      applied.graph = built.graph ∧ applied.log = built.log) ∧
    (∀ done call error, graph.Due calls done call →
      ((graph.performInTurn done).graph.perform call).answer = .error error →
      applied.answer = .error error ∧ applied.graph = graph ∧
      applied.log = (graph.performInTurn done).log ++
        ((graph.performInTurn done).graph.perform call).log) ∧
    (∀ done call, graph.Due calls done call → done ≠ [] →
      call.Completes graph.nextOperator ∧
      ∃ node, (graph.performInTurn done).graph.nodeAt graph.nextOperator = .ok node ∧
        node.frozen = false) ∧
    ∀ error, applied.answer = .error error → error.RefusesOperator →
      ∃ done node tensors, graph.Due calls done (.execute graph.nextOperator) ∧
        (graph.performInTurn done).graph.nodeAt graph.nextOperator = .ok node ∧
        (graph.performInTurn done).graph.boundTensors node operator.slots ∅ = .ok tensors ∧
        ((operator.body graph.nextOperator node.name).run
          (.start graph.nextOperator node.name tensors)).1 = .error error := by
  have hanswer := graph.construction_answer name operator inputs
  have hlog := graph.construction_log name operator inputs
  refine ⟨rfl, ?_, ?_, ?_, ?_, ?_⟩
  · rw [hanswer]
    cases (graph.apply name operator inputs).answer with
    | ok ids => exact ⟨fun _ => ⟨_, rfl⟩, fun _ => ⟨ids, rfl⟩⟩
    | error error => exact ⟨nofun, nofun⟩
  · intro ids h
    refine ⟨?_, (graph.construction_graph name operator inputs ids h).symm, hlog.symm⟩
    rw [hanswer, h]
    rfl
  · intro done call error hdue herror
    obtain ⟨hfails, hdone⟩ := graph.performInTurn_of_error _ done call error hdue herror
    have happlied : (graph.apply name operator inputs).answer = .error error := by
      rw [hanswer] at hfails
      exact (answer_map_eq_error_iff (graph.apply name operator inputs) _ error).mp hfails
    exact ⟨happlied, graph.apply_graph_of_error name operator inputs error happlied,
      hlog.symm.trans hdone⟩
  · intro done call hdue hdone
    obtain ⟨hcompletes, taken, hnode⟩ :=
      graph.unfrozen_of_due name operator inputs done call hdue hdone
    exact ⟨hcompletes, _, hnode, rfl⟩
  · intro error h hrefuses
    refine graph.body_error_of_refused name operator inputs error ?_ hrefuses
    rw [hanswer, h]
    rfl

/-- An operator that fails with the error of a frozen one. -/
def posing : Operator where
  kind := "Posing"
  slots := ["x"]
  parameters := .logSoftmax ⟨.batch⟩
  body := fun _ name => .finish (.error (.operatorFrozen name))

theorem apply_agrees_with_construction_fed :
    (fed.apply none posing [("x", fed.variableId 0)]).answer = .error (.operatorFrozen "Posing0") ∧
      (fed.apply none posing [("x", fed.variableId 0)]).graph = fed ∧
      (∃ node, node.frozen = false ∧ (fed.performInTurn (.addOperator none posing ::
        bindings fed.nextOperator [("x", fed.variableId 0)])).graph.nodeAt fed.nextOperator =
          .ok node) ∧
      (∃ name tensors, ((posing.body fed.nextOperator name).run
        (.start fed.nextOperator name tensors)).1 = .error (.operatorFrozen "Posing0")) ∧
      (fed.performInTurn (fed.construction none (Parameters.logSoftmax ⟨.batch⟩).operator
        [("x", fed.variableId 0)])).answer =
          .ok [.operator ⟨⟨0⟩, 0⟩, .done, .vars [⟨⟨0⟩, 1⟩]] := by
  have hdue : fed.Due (fed.construction none posing [("x", fed.variableId 0)])
      (.addOperator none posing :: bindings fed.nextOperator [("x", fed.variableId 0)])
      (.execute fed.nextOperator) :=
    ⟨⟨[], rfl⟩, [.operator ⟨⟨0⟩, 0⟩, .done], rfl⟩
  obtain ⟨-, -, -, hfailure, hunfrozen, hbody⟩ :=
    apply_agrees_with_construction fed none posing [("x", fed.variableId 0)]
  obtain ⟨-, -, hsuccess, -⟩ := apply_agrees_with_construction fed none
    (Parameters.logSoftmax ⟨.batch⟩).operator [("x", fed.variableId 0)]
  obtain ⟨hanswer, hgraph, -⟩ := hfailure _ _ (.operatorFrozen "Posing0") hdue rfl
  obtain ⟨-, node, hnode, hopen⟩ := hunfrozen _ _ hdue (List.cons_ne_nil _ _)
  obtain ⟨-, placed, tensors, -, -, -, herror⟩ := hbody _ hanswer trivial
  exact ⟨hanswer, hgraph, ⟨node, hopen, hnode⟩, ⟨placed.name, tensors, herror⟩,
    (hsuccess [⟨⟨0⟩, 1⟩] rfl).1⟩

end Graph

end AxisGraph
