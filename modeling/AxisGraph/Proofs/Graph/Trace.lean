import AxisGraph.Proofs.Graph.Builtin
import AxisGraph.Proofs.Graph.Construction
import AxisGraph.Proofs.Operator.Effects

/-!
What executions log. An execution that is held up before its operator runs logs nothing. Any other
one logs its start with all the inputs, then the diagnostics in the order of their reports, and then
its outputs if the operator has succeeded. In this case the graph stores what was logged, and in any
other case it stores nothing.
-/

namespace AxisGraph

/-- All the inputs with their slots, in the order of the slots. -/
structure InSlotOrder (inputs : NameMap Tensor) (bound : List (String × Tensor)) : Prop where
  ascending : (bound.map Prod.fst).Pairwise (· < ·)
  mem_iff : ∀ slot tensor, (slot, tensor) ∈ bound ↔ inputs.find? slot = some tensor

namespace Node

/-- The effects that the operator has on its own record when it runs on these inputs. -/
def effects (node : Node) (inputs : NameMap Tensor) : List Effect :=
  (node.operator.body node.id node.name).effects (.start node.id node.name inputs)

def reports (node : Node) (inputs : NameMap Tensor) : List Diagnostic :=
  (node.effects inputs).filterMap Effect.diagnostic?

def results (node : Node) (inputs : NameMap Tensor) : List (String × Tensor) :=
  (node.effects inputs).filterMap Effect.output?

/-- Whether the operator succeeds on these inputs, or the error with which it fails. -/
def verdict (node : Node) (inputs : NameMap Tensor) : Except GraphError Unit :=
  ((node.operator.body node.id node.name).run (.start node.id node.name inputs)).1

/-- The outputs that the execution logs at its end: all of them, or none if the operator fails. -/
def delivered (node : Node) (inputs : NameMap Tensor) : List (String × Tensor) :=
  match node.verdict inputs with
  | .ok () => node.results inputs
  | .error _ => []

def logged (node : Node) (inputs : NameMap Tensor) : List LogEntry :=
  .started node.name node.operator.kind inputs ::
    ((node.reports inputs).map (.diagnosed node.name) ++
      (node.delivered inputs).map fun output => .published node.name output.1 output.2)

/-! The logged lines, each with its level in front. -/

def startLine (node : Node) (bound : List (String × Tensor)) : String :=
  "DEBUG [" ++ node.name ++ "] exec " ++ node.operator.kind ++ " with inputs " ++
    ", ".intercalate (bound.map fun input => input.1 ++ ": " ++ toString input.2)

def reportLine (node : Node) : Diagnostic → String
  | .edgeIgnored _ axes =>
    "WARN [" ++ node.name ++ "] edge is ignored along " ++ ", ".intercalate (axes.map toString) ++
      "; which edge (left / right) differs between backends"

def outputLine (node : Node) (output : String × Tensor) : String :=
  "DEBUG [" ++ node.name ++ "] output " ++ output.1 ++ ": " ++ toString output.2

theorem toString_started (node : Node) (inputs : NameMap Tensor) :
    toString (LogEntry.started node.name node.operator.kind inputs) =
      node.startLine inputs.entries := by
  have hopen : "DEBUG [" = "DEBUG" ++ " " ++ "[" := by decide
  change "DEBUG" ++ " " ++ ("[" ++ node.name ++ "] exec " ++ node.operator.kind ++
    " with inputs " ++ ", ".intercalate _) = node.startLine inputs.entries
  simp only [startLine, hopen, String.append_assoc, LogEntry.slotText]

theorem toString_diagnosed (node : Node) (diagnostic : Diagnostic) :
    toString (LogEntry.diagnosed node.name diagnostic) = node.reportLine diagnostic := by
  obtain ⟨operator, axes⟩ := diagnostic
  have hopen : "WARN [" = "WARN" ++ " " ++ "[" := by decide
  have hclose : "] edge is ignored along " = "] " ++ "edge is ignored along " := by decide
  change "WARN" ++ " " ++ ("[" ++ node.name ++ "] " ++ ("edge is ignored along " ++
    ", ".intercalate (axes.map toString) ++ _)) = node.reportLine (.edgeIgnored operator axes)
  simp only [reportLine, hopen, hclose, String.append_assoc]

theorem toString_published (node : Node) (output : String × Tensor) :
    toString (LogEntry.published node.name output.1 output.2) = node.outputLine output := by
  have hopen : "DEBUG [" = "DEBUG" ++ " " ++ "[" := by decide
  change "DEBUG" ++ " " ++ ("[" ++ node.name ++ "] output " ++ (output.1 ++ ": " ++
    toString output.2)) = node.outputLine output
  simp only [outputLine, hopen, String.append_assoc]

theorem texts_of_log (node : Node) (inputs : NameMap Tensor) (log : List LogEntry)
    (h : log = node.logged inputs) : ∃ bound, InSlotOrder inputs bound ∧
      log.map toString = node.startLine bound ::
        ((node.reports inputs).map node.reportLine ++
          (node.delivered inputs).map node.outputLine) := by
  have hbound : InSlotOrder inputs inputs.entries := {
    ascending := inputs.sorted
    mem_iff := fun slot tensor => (inputs.find?_eq_some_iff slot tensor).symm }
  refine ⟨inputs.entries, hbound, ?_⟩
  rw [h]
  simp only [logged, List.map_cons, List.map_append, List.map_map, Function.comp_def,
    toString_started, toString_diagnosed, toString_published]

theorem levels_of_log (node : Node) (inputs : NameMap Tensor) (log : List LogEntry)
    (h : log = node.logged inputs) : log.map LogEntry.level = .debug ::
      ((node.reports inputs).map (fun _ => .warning) ++
        (node.delivered inputs).map fun _ => .debug) := by
  rw [h]
  simp only [logged, List.map_cons, List.map_append, List.map_map, Function.comp_def,
    LogEntry.level]

/-- What a run leaves behind is told by its effects. -/
theorem record_of_run (node : Node) (inputs : NameMap Tensor) (result : Except GraphError Unit)
    (recorded : Context)
    (h : (node.operator.body node.id node.name).run (.start node.id node.name inputs) =
      (result, recorded)) :
    node.verdict inputs = result ∧
      recorded.log = (node.reports inputs).map (.diagnosed node.name) ∧
      recorded.outputs = node.results inputs ∧ recorded.diagnostics = node.reports inputs := by
  have hgains := Body.gains_run (node.operator.body node.id node.name)
    (.start node.id node.name inputs)
  rw [h] at hgains
  exact ⟨congrArg Prod.fst h, hgains.log_eq, hgains.outputs_eq, hgains.diagnostics_eq⟩

end Node

namespace Graph

/-- Why an execution is held up before the operator runs. -/
inductive HeldUp (graph : Graph) (operator : OperatorId) : GraphError → Prop
  | unknown (h : ∀ node, graph.nodeAt operator ≠ .ok node) :
      HeldUp graph operator (.unknownOperator operator)
  | frozen (node : Node) (hnode : graph.nodeAt operator = .ok node) (h : node.frozen = true) :
      HeldUp graph operator (.operatorFrozen node.name)
  | missing (node : Node) (slot : String) (hnode : graph.nodeAt operator = .ok node)
      (hunfrozen : node.frozen = false) (hdeclared : slot ∈ node.operator.slots)
      (h : node.inputs.find? slot = none) :
      HeldUp graph operator (.missingInput node.name slot)

/-- The operator runs: it has not been executed, its slots are bound, and the inputs are the tensors
of the variables bound to them. -/
structure Starts (graph : Graph) (operator : OperatorId) (node : Node) (inputs : NameMap Tensor) :
    Prop where
  node_eq : graph.nodeAt operator = .ok node
  unfrozen : node.frozen = false
  complete : ∀ slot ∈ node.operator.slots, ∃ v, node.inputs.find? slot = some v
  inputs_iff : ∀ slot tensor, inputs.find? slot = some tensor ↔ graph.Supplies node slot tensor

/-- The outcome of a run of the operator on these inputs. Its log is also given line by line. A run
that fails leaves the graph `before`. -/
structure Traces (operator : OperatorId) (node : Node) (inputs : NameMap Tensor) (before : Graph)
    (outcome : Outcome (List VariableId)) : Prop where
  log_eq : outcome.log = node.logged inputs
  texts_eq : ∃ bound, InSlotOrder inputs bound ∧
    outcome.log.map toString = node.startLine bound ::
      ((node.reports inputs).map node.reportLine ++
        (node.delivered inputs).map node.outputLine)
  levels_eq : outcome.log.map LogEntry.level = .debug ::
    ((node.reports inputs).map (fun _ => .warning) ++ (node.delivered inputs).map fun _ => .debug)
  failed : ∀ error, node.verdict inputs = .error error →
    outcome.answer = .error error ∧ outcome.graph = before
  stored : node.verdict inputs = .ok () → ∃ ids after, outcome.answer = .ok ids ∧
    outcome.graph.nodeAt operator = .ok after ∧ after.diagnostics = node.reports inputs ∧
    List.Forall₂ (fun id result => after.outputs.find? result.1 = some id ∧
      outcome.graph.variableAt id = .ok ⟨result.2, some operator⟩) ids (node.results inputs)
  warned : ∀ (parameters : Parameters) (error : GraphError),
    node.operator = parameters.operator → outcome.answer = .error error →
      (∃ entry ∈ outcome.log, entry.level = .warning) →
        ∃ settings x, parameters = .pooling settings ∧ inputs.find? "x" = some x ∧
          (∀ axis, axis ∈ x.layout) ∧ outcome.graph = before

/-- The call has been held up and has left the graph `before`, or it has run the operator. -/
def Logs (graph : Graph) (operator : OperatorId) (before : Graph)
    (outcome : Outcome (List VariableId)) : Prop :=
  (∃ error, graph.HeldUp operator error ∧ outcome = .of (.error error) before) ∨
    ∃ node inputs, graph.Starts operator node inputs ∧ Traces operator node inputs before outcome

section Run

variable {graph : Graph} {operator : OperatorId} {node : Node} {inputs : NameMap Tensor}

/-- The new handles stand for the recorded outputs, in the order of the record. -/
theorem WellFormed.published (hwell : graph.WellFormed) {recorded : Context}
    (h : graph.Execution operator node inputs recorded) :
    List.Forall₂ (fun id result =>
        (node.committed (graph.publications recorded) recorded).outputs.find? result.1 = some id ∧
          (graph.commit operator recorded).variableAt id = .ok ⟨result.2, some operator⟩)
      (graph.nextIds recorded.outputs.length) recorded.outputs := by
  rw [List.forall₂_iff_get]
  refine ⟨by simp [nextIds], fun k hk hk' => ?_⟩
  have hid : (graph.nextIds recorded.outputs.length).get ⟨k, hk⟩ =
      graph.variableId (graph.vars.length + k) := by
    simp [nextIds]
  have houtput : recorded.outputs[k]? = some (recorded.outputs.get ⟨k, hk'⟩) :=
    List.getElem?_eq_getElem hk'
  rw [hid]
  constructor
  · exact ((hwell.node operator node h.node_eq).find?_committed h _ _).mpr
      ⟨k, _, houtput, rfl⟩
  · exact (variableAt_commit graph operator recorded _ _).mpr
      (Or.inr ⟨k, _, _, houtput, rfl, rfl⟩)

theorem WellFormed.pooling_of_logged (hwell : graph.WellFormed)
    (hnode : graph.nodeAt operator = .ok node)
    (hinputs : graph.boundTensors node node.operator.slots ∅ = .ok inputs)
    (parameters : Parameters) (hoperator : node.operator = parameters.operator)
    (error : GraphError) (recorded : Context)
    (hrun : (node.operator.body node.id node.name).run (.start node.id node.name inputs) =
      (.error error, recorded)) (hlog : recorded.log ≠ []) :
    ∃ settings x, parameters = .pooling settings ∧ inputs.find? "x" = some x ∧
      ∀ axis, axis ∈ x.layout := by
  have hfind := hwell.find?_inputs operator node inputs hnode hinputs
  obtain ⟨x, w, hx, hw, -⟩ :=
    graph.record_of_boundTensors node parameters inputs hoperator hinputs
  have hx := (hfind "x" x).mpr hx
  rw [hoperator] at hrun
  obtain ⟨⟨settings, hsettings⟩, haxes⟩ := parameters.pooling_of_logged node.id node.name inputs x w
    hx (fun hweighted => (hfind "w" w).mpr (hw hweighted)) error recorded hrun hlog
  exact ⟨settings, x, hsettings, hx, haxes⟩

theorem WellFormed.traces_of_error (hwell : graph.WellFormed)
    (hnode : graph.nodeAt operator = .ok node)
    (hinputs : graph.boundTensors node node.operator.slots ∅ = .ok inputs)
    (error : GraphError) (recorded : Context)
    (hrun : (node.operator.body node.id node.name).run (.start node.id node.name inputs) =
      (.error error, recorded)) :
    Traces operator node inputs graph (graph.runNode operator node inputs) := by
  obtain ⟨hverdict, hlogged, -, -⟩ := node.record_of_run inputs _ recorded hrun
  have houtcome : graph.runNode operator node inputs = ⟨.error error, graph,
      .started node.name node.operator.kind inputs :: recorded.log⟩ := by
    simp only [runNode, hrun]
  have hdelivered : node.delivered inputs = [] := by
    unfold Node.delivered
    rw [hverdict]
  have hlog : .started node.name node.operator.kind inputs :: recorded.log =
      node.logged inputs := by
    rw [Node.logged, hlogged, hdelivered, List.map_nil, List.append_nil]
  rw [houtcome]
  refine ⟨hlog, node.texts_of_log inputs _ hlog, node.levels_of_log inputs _ hlog, ?_, ?_, ?_⟩
  · intro cause hcause
    rw [hverdict] at hcause
    cases hcause
    exact ⟨rfl, rfl⟩
  · intro hok
    rw [hverdict] at hok
    cases hok
  · rintro parameters cause hoperator - ⟨entry, hentry, hlevel⟩
    have hreports : recorded.log ≠ [] := by
      intro hnone
      rw [hnone, List.mem_singleton] at hentry
      subst entry
      cases hlevel
    obtain ⟨settings, x, hsettings, hx, haxes⟩ := hwell.pooling_of_logged hnode hinputs
      parameters hoperator error recorded hrun hreports
    exact ⟨settings, x, hsettings, hx, haxes, rfl⟩

theorem WellFormed.traces_of_execution (hwell : graph.WellFormed) (recorded : Context)
    (h : graph.Execution operator node inputs recorded) :
    Traces operator node inputs graph (graph.runNode operator node inputs) := by
  obtain ⟨hverdict, hlogged, houtputs, hdiagnostics⟩ :=
    node.record_of_run inputs _ recorded h.run_eq
  have houtcome : graph.runNode operator node inputs =
      ⟨.ok (graph.nextIds recorded.outputs.length), graph.commit operator recorded,
        .started node.name node.operator.kind inputs :: recorded.log ++
          recorded.outputs.map fun result => .published node.name result.1 result.2⟩ := by
    simp only [runNode, h.run_eq]
  have hdelivered : node.delivered inputs = node.results inputs := by
    unfold Node.delivered
    rw [hverdict]
  have hlog : .started node.name node.operator.kind inputs :: recorded.log ++
      (recorded.outputs.map fun result => .published node.name result.1 result.2) =
        node.logged inputs := by
    rw [Node.logged, hlogged, houtputs, hdelivered, List.cons_append]
  rw [houtcome]
  refine ⟨hlog, node.texts_of_log inputs _ hlog, node.levels_of_log inputs _ hlog, ?_, ?_, ?_⟩
  · intro cause hcause
    rw [hverdict] at hcause
    cases hcause
  · intro _
    refine ⟨_, node.committed (graph.publications recorded) recorded, rfl, ?_, hdiagnostics, ?_⟩
    · refine (nodeAt_commit graph operator recorded h.graph_eq operator _).mpr
        ⟨node, h.node_eq, ?_⟩
      rw [if_pos rfl]
    · rw [← houtputs]
      exact hwell.published h
  · intro parameters cause _ hanswer
    cases hanswer

theorem WellFormed.runNode_traces (hwell : graph.WellFormed)
    (hnode : graph.nodeAt operator = .ok node) (hunfrozen : node.frozen = false)
    (hinputs : graph.boundTensors node node.operator.slots ∅ = .ok inputs) :
    Traces operator node inputs graph (graph.runNode operator node inputs) := by
  cases hrun : (node.operator.body node.id node.name).run (.start node.id node.name inputs) with
  | mk result recorded =>
    cases result with
    | error error => exact hwell.traces_of_error hnode hinputs error recorded hrun
    | ok value => exact hwell.traces_of_execution recorded ⟨hnode, hunfrozen, hinputs, hrun⟩

end Run

/-- An execution is held up exactly as long as it may not run its operator. -/
theorem WellFormed.execute_logs {graph : Graph} (hwell : graph.WellFormed)
    (operator : OperatorId) : graph.Logs operator graph (graph.execute operator) := by
  cases hnode : graph.nodeAt operator with
  | error error =>
    obtain rfl := graph.nodeAt_error operator error hnode
    have hheld : graph.HeldUp operator (.unknownOperator operator) := by
      refine .unknown fun node hok => ?_
      rw [hnode] at hok
      cases hok
    exact Or.inl ⟨_, hheld, by simp only [execute, hnode]⟩
  | ok node =>
    cases hfrozen : node.frozen with
    | true =>
      refine Or.inl ⟨_, .frozen node hnode hfrozen, ?_⟩
      simp only [execute, hnode, hfrozen, ↓reduceIte]
    | false =>
      -- Bound slots hold handles of this graph, so only an open slot can hold the operator up.
      have hissued : ∀ slot v, node.inputs.find? slot = some v → graph.Issued v :=
        fun slot v hslot => ((hwell.node operator node hnode).bound slot v hslot).2
      cases hopen : node.operator.slots.find? fun slot => (node.inputs.find? slot).isNone with
      | some slot =>
        have hmissing := graph.boundTensors_of_open node hissued _ ∅ slot hopen
        have hnone := List.find?_some hopen
        refine Or.inl ⟨_, .missing node slot hnode hfrozen (List.mem_of_find?_eq_some hopen)
          (Option.isNone_iff_eq_none.mp hnone), ?_⟩
        simp only [execute, hnode, hfrozen, Bool.false_eq_true, ↓reduceIte, hmissing]
      | none =>
        have hcomplete : ∀ slot ∈ node.operator.slots, ∃ v, node.inputs.find? slot = some v := by
          intro slot hslot
          have hbound := List.find?_eq_none.mp hopen slot hslot
          rw [Option.isNone_iff_eq_none] at hbound
          exact Option.ne_none_iff_exists'.mp hbound
        have hsupplied : ∀ slot ∈ node.operator.slots, ∃ tensor,
            graph.Supplies node slot tensor := by
          intro slot hslot
          obtain ⟨v, hv⟩ := hcomplete slot hslot
          obtain ⟨⟨tensor, producer⟩, hgiven⟩ := hissued slot v hv
          exact ⟨tensor, v, producer, hv, hgiven⟩
        obtain ⟨inputs, hinputs⟩ := exists_boundTensors graph node _ ∅ hsupplied
        refine Or.inr ⟨node, inputs, ⟨hnode, hfrozen, hcomplete,
          hwell.find?_inputs operator node inputs hnode hinputs⟩, ?_⟩
        rw [graph.execute_eq_runNode operator node inputs hnode hfrozen hinputs]
        exact hwell.runNode_traces hnode hfrozen hinputs

theorem log_bindInputs (graph : Graph) (operator : OperatorId)
    (inputs : List (String × VariableId)) : (graph.bindInputs operator inputs).log = [] := by
  induction inputs generalizing graph with
  | nil => rfl
  | cons input rest ih =>
    obtain ⟨slot, id⟩ := input
    simp only [bindInputs]
    cases graph.bindInput operator slot id with
    | error error => rfl
    | ok extended => exact ih extended

/-- Bindings to the operator that was added last are refused for a slot or for a variable only. -/
theorem refusesBinding_of_bindInputs (graph : Graph) (node : Node) (hunfrozen : node.frozen = false)
    (inputs : List (String × VariableId)) (error : GraphError)
    (h : ((graph.concat node).bindInputs graph.nextOperator inputs).answer = .error error) :
    error.RefusesBinding := by
  induction inputs generalizing node with
  | nil => cases h
  | cons input rest ih =>
    obtain ⟨slot, id⟩ := input
    have hnode : (graph.concat node).nodeAt graph.nextOperator = .ok node :=
      (graph.nodeAt_concat node _ node).mpr (Or.inr ⟨rfl, rfl⟩)
    simp only [bindInputs] at h
    cases hbind : (graph.concat node).bindInput graph.nextOperator slot id with
    | error cause =>
      rw [hbind] at h
      cases h
      exact refusesBinding_of_unfrozen _ _ node slot id error hnode hunfrozen hbind
    | ok extended =>
      rw [hbind] at h
      have hextended := ((bindInput_eq_ok_iff _ extended _ slot id).mp hbind).2
      rw [bound_concat] at hextended
      subst extended
      exact ih { node with inputs := node.inputs.insert slot id } hunfrozen h

/-- What an outcome traces depends on its answer, its log and, if it is a success, its graph. -/
theorem Traces.congr {operator : OperatorId} {node : Node} {inputs : NameMap Tensor}
    {before before' : Graph} {outcome other : Outcome (List VariableId)}
    (h : Traces operator node inputs before outcome) (hanswer : other.answer = outcome.answer)
    (hlog : other.log = outcome.log)
    (hok : ∀ ids, outcome.answer = .ok ids → other.graph = outcome.graph)
    (herror : ∀ error, outcome.answer = .error error → other.graph = before') :
    Traces operator node inputs before' other where
  log_eq := hlog.trans h.log_eq
  texts_eq := by
    rw [hlog]
    exact h.texts_eq
  levels_eq := by
    rw [hlog]
    exact h.levels_eq
  failed error hverdict := by
    obtain ⟨herror', -⟩ := h.failed error hverdict
    exact ⟨hanswer.trans herror', herror error herror'⟩
  stored hverdict := by
    obtain ⟨ids, after, hok', hstored⟩ := h.stored hverdict
    rw [hanswer, hok ids hok']
    exact ⟨ids, after, hok', hstored⟩
  warned parameters error hoperator herror' hwarning := by
    rw [hanswer] at herror'
    rw [hlog] at hwarning
    obtain ⟨settings, x, hsettings, hx, haxes, -⟩ :=
      h.warned parameters error hoperator herror' hwarning
    exact ⟨settings, x, hsettings, hx, haxes, herror error herror'⟩

section Application

variable (graph : Graph) (name : Option String) (operator : Operator)
  (inputs : List (String × VariableId))

/-- The graph with the operator added, after the bindings up to the first one that is refused. -/
def bindNext : Outcome Unit :=
  (graph.addOperator name operator).2.bindInputs graph.nextOperator inputs

theorem assemble_eq : graph.assemble name operator inputs =
    (graph.bindNext name operator inputs).andThen fun _ bound => bound.execute graph.nextOperator :=
  rfl

theorem log_bindNext : (graph.bindNext name operator inputs).log = [] :=
  log_bindInputs _ _ inputs

theorem withdraw_bindNext : (graph.bindNext name operator inputs).graph.withdraw = graph := by
  obtain ⟨taken, htaken⟩ := graph.bindInputs_concat (graph.placedNext name operator) inputs
  exact (congrArg withdraw htaken).trans (graph.withdraw_concat _)

theorem apply_of_refused (error : GraphError)
    (h : (graph.bindNext name operator inputs).answer = .error error) :
    error.RefusesBinding ∧ graph.apply name operator inputs = .of (.error error) graph := by
  have hassemble : graph.assemble name operator inputs =
      ⟨.error error, (graph.bindNext name operator inputs).graph, []⟩ := by
    rw [assemble_eq]
    simp only [Outcome.andThen, h, log_bindNext]
  have herror : (graph.assemble name operator inputs).answer = .error error := by rw [hassemble]
  constructor
  · exact graph.refusesBinding_of_bindInputs (graph.placedNext name operator) rfl inputs error h
  · rw [graph.apply_of_error name operator inputs error herror, hassemble]
    simp only [withdraw_bindNext, Outcome.of]

/-- Once its inputs are bound, the added operator is executed, and withdrawn if it fails. -/
theorem apply_of_bound (h : (graph.bindNext name operator inputs).answer = .ok ()) :
    let executed := (graph.bindNext name operator inputs).graph.execute graph.nextOperator
    (graph.apply name operator inputs).answer = executed.answer ∧
      (graph.apply name operator inputs).log = executed.log ∧
      ∀ ids, executed.answer = .ok ids →
        (graph.apply name operator inputs).graph = executed.graph := by
  intro executed
  have hassemble : graph.assemble name operator inputs = executed := by
    rw [assemble_eq]
    simp only [Outcome.andThen, h, log_bindNext, List.nil_append, executed]
  have hanswer := graph.apply_answer name operator inputs
  rw [hassemble] at hanswer
  refine ⟨hanswer, ?_, fun ids hids => ?_⟩
  · rw [apply_eq, hassemble]
    split <;> rfl
  · rw [graph.apply_eq_assemble name operator inputs ids (hanswer.trans hids), hassemble]

theorem WellFormed.apply_logs (hwell : graph.WellFormed)
    (h : (graph.bindNext name operator inputs).answer = .ok ()) :
    (graph.bindNext name operator inputs).graph.Logs graph.nextOperator graph
      (graph.apply name operator inputs) := by
  obtain ⟨hanswer, hlog, hok⟩ := graph.apply_of_bound name operator inputs h
  have herror := graph.apply_graph_of_error name operator inputs
  rw [hanswer] at herror
  have hbound : (graph.bindNext name operator inputs).graph.WellFormed :=
    (hwell.addOperator name operator).steps (steps_bindInputs _ graph.nextOperator inputs)
  rcases hbound.execute_logs graph.nextOperator with
    ⟨error, hheld, hexecute⟩ | ⟨node, tensors, hstarts, htraces⟩
  · refine Or.inl ⟨error, hheld, ?_⟩
    have hgraph := herror error (by rw [hexecute]; rfl)
    rw [hexecute] at hanswer hlog
    change Outcome.mk (graph.apply name operator inputs).answer
      (graph.apply name operator inputs).graph (graph.apply name operator inputs).log = _
    rw [hanswer, hgraph, hlog]
    rfl
  · exact Or.inr ⟨node, tensors, hstarts, htraces.congr hanswer hlog hok herror⟩

end Application

/-- In every reachable graph, the log of an execution tells how far it has come: nothing as long as
the operator does not run, and then its start, all that it reports, and its outputs if it succeeds.
Applying an operator logs the same as the execution with which it ends. -/
theorem execution_logged (graph : Graph) (h : Reachable graph) :
    (∀ operator, graph.Logs operator graph (graph.execute operator)) ∧
      ∀ name operator inputs,
        match (graph.bindNext name operator inputs).answer with
        | .error error =>
          error.RefusesBinding ∧ graph.apply name operator inputs = .of (.error error) graph
        | .ok () => (graph.bindNext name operator inputs).graph.Logs graph.nextOperator graph
            (graph.apply name operator inputs) := by
  refine ⟨h.wellFormed.execute_logs, fun name operator inputs => ?_⟩
  cases hbind : (graph.bindNext name operator inputs).answer with
  | error error => exact graph.apply_of_refused name operator inputs error hbind
  | ok value => exact h.wellFormed.apply_logs graph name operator inputs hbind

/-- Images over time, which no arrangement of an image batch holds. -/
def footage : Tensor where
  dims := [(.batch, nearestExtent 2), (.time, nearestExtent 7), (.height, nearestExtent 3),
    (.width, nearestExtent 5), (.channel, nearestExtent 2)]

theorem execution_logged_footage :
    ((placed (.pooling halving) footage palette).execute ⟨⟨0⟩, 0⟩).log.map toString =
      ["DEBUG [MaxPooling2D0] exec MaxPooling2D with inputs x: [2, 7, 3, 5, 2] NTHWC",
        "WARN [MaxPooling2D0] edge is ignored along H, W; " ++
          "which edge (left / right) differs between backends"] ∧
    ((placed pointwise picture palette).execute ⟨⟨0⟩, 0⟩).log.map toString =
      ["DEBUG [Convolution2D0] exec Convolution2D with inputs " ++
          "w: [2, 1, 1, 2] NHWC, x: [2, 3, 5, 2] NHWC",
        "DEBUG [Convolution2D0] output y: [2, 3, 5, 2] NHWC"] ∧
    (∃ node inputs, (placed (.pooling halving) footage palette).Starts ⟨⟨0⟩, 0⟩ node inputs ∧
      Traces ⟨⟨0⟩, 0⟩ node inputs (placed (.pooling halving) footage palette)
        ((placed (.pooling halving) footage palette).execute ⟨⟨0⟩, 0⟩)) ∧
    (fed.bindNext (some "late") refusing [("x", fed.variableId 0)]).graph.Logs fed.nextOperator fed
      (fed.apply (some "late") refusing [("x", fed.variableId 0)]) := by
  have hlevels : ((placed (.pooling halving) footage palette).execute ⟨⟨0⟩, 0⟩).log.map
      LogEntry.level = [.debug, .warning] := rfl
  obtain ⟨hexecute, -⟩ := execution_logged (placed (.pooling halving) footage palette)
    (Reachable.performAll _ (.new ⟨0⟩) _)
  obtain ⟨-, happly⟩ := execution_logged fed reachable_fed
  refine ⟨by decide +kernel, by decide +kernel, ?_,
    happly (some "late") refusing [("x", fed.variableId 0)]⟩
  rcases hexecute ⟨⟨0⟩, 0⟩ with ⟨error, -, hheld⟩ | hruns
  · rw [hheld] at hlevels
    cases hlevels
  · exact hruns

end Graph

end AxisGraph
