import AxisGraph.Proofs.Graph.History
import AxisGraph.Proofs.Graph.Schedule

/-!
Schedules of growing graphs. A walk from operators that have been executed reads nothing but their
inputs and the producers of these, and neither changes any more; so the walk lists the same
operators in every later state of the graph. New outputs are marked at the end of their list, hence
what a new output needs is scheduled after everything that was scheduled before.
-/

namespace AxisGraph.Graph

/-- The operators have been executed. -/
def Settled (graph : Graph) (operators : List OperatorId) : Prop :=
  ∀ operator ∈ operators, ∃ node, graph.nodeAt operator = .ok node ∧ node.frozen = true

theorem WellFormed.settled_producers {graph : Graph} (h : graph.WellFormed)
    (ids : List VariableId) (hissued : ∀ v ∈ ids, graph.Issued v) :
    graph.Settled (graph.producers ids) := by
  intro operator hmem
  obtain ⟨v, -, hproducer⟩ := (mem_producers_iff graph ids hissued operator).mp hmem
  obtain ⟨node, -, hnode, hfrozen, -⟩ := h.operator_of_producer v operator hproducer
  exact ⟨node, hnode, hfrozen⟩

theorem WellFormed.settled_dependencies {graph : Graph} (h : graph.WellFormed)
    (operator : OperatorId) (node : Node) (hnode : graph.nodeAt operator = .ok node) :
    graph.Settled (graph.dependencies operator) := by
  have hget := ((nodeAt_eq_ok_iff graph operator node).mp hnode).2
  have hissued := (h.node operator node hnode).issued_of_mem_inputs
  unfold dependencies
  rw [hget]
  exact h.settled_producers node.inputs.values hissued

namespace Extends

variable {graph later : Graph}

theorem length_nodes_le (h : graph.Extends later) : graph.nodes.length ≤ later.nodes.length := by
  by_contra hlt
  have hindex : later.nodes.length < graph.nodes.length := by omega
  have hnode : graph.nodeAt (graph.operatorId later.nodes.length) =
      .ok graph.nodes[later.nodes.length] :=
    (nodeAt_eq_ok_iff graph _ _).mpr ⟨rfl, List.getElem?_eq_getElem hindex⟩
  obtain ⟨grown, hgrown, -⟩ := h.nodes _ _ hnode
  exact Nat.lt_irrefl _ (nodeAt_issued later _ grown hgrown).2

theorem producers_eq (h : graph.Extends later) (ids : List VariableId)
    (hissued : ∀ v ∈ ids, graph.Issued v) : later.producers ids = graph.producers ids := by
  unfold producers
  refine List.filterMap_congr ?_
  intro v hv
  obtain ⟨found, hfound⟩ := hissued v hv
  have hold := ((variableAt_eq_ok_iff graph v found).mp hfound).2
  have hnew := ((variableAt_eq_ok_iff later v found).mp (h.vars v found hfound)).2
  rw [hold, hnew]

/-- The dependencies of an executed operator are settled for good. -/
theorem dependencies_eq (h : graph.Extends later) (hwell : graph.WellFormed)
    (operator : OperatorId) (node : Node) (hnode : graph.nodeAt operator = .ok node)
    (hfrozen : node.frozen = true) :
    later.dependencies operator = graph.dependencies operator := by
  obtain ⟨grown, hgrown, hgrows⟩ := h.nodes operator node hnode
  have hsame := hgrows.frozen hfrozen
  subst grown
  have hold := ((nodeAt_eq_ok_iff graph operator node).mp hnode).2
  have hnew := ((nodeAt_eq_ok_iff later operator node).mp hgrown).2
  have hissued := (hwell.node operator node hnode).issued_of_mem_inputs
  unfold dependencies
  rw [hold, hnew]
  exact h.producers_eq node.inputs.values hissued

/-- A walk to executed operators is also a walk in every later state of the graph, where it leaves
the added operators pending. -/
theorem walked (h : graph.Extends later) (hwell : graph.WellFormed) {pending left : List Nat}
    {operators listed : List OperatorId} (hwalked : graph.Walked pending operators listed left)
    (hsettled : graph.Settled operators) (added : List Nat)
    (hadded : ∀ i ∈ added, graph.nodes.length ≤ i) :
    later.Walked (pending ++ added) operators listed (left ++ added) := by
  induction hwalked with
  | done pending => exact .done _
  | skip pending operator rest listed left hseen hrest ih =>
    obtain ⟨⟨node, hnode, -⟩, hsettled⟩ := List.forall_mem_cons.mp hsettled
    have hindex := (nodeAt_issued graph operator node hnode).2
    have hold : operator.index ∉ added := by
      intro hmem
      have hle := hadded _ hmem
      omega
    refine .skip _ operator rest listed _ ?_ (ih hsettled)
    simp [hseen, hold]
  | enter pending operator rest above after middle left hnew habove hafter ihabove ihafter =>
    obtain ⟨⟨node, hnode, hfrozen⟩, hsettled⟩ := List.forall_mem_cons.mp hsettled
    have hdependencies := h.dependencies_eq hwell operator node hnode hfrozen
    have hinner := ihabove (hwell.settled_dependencies operator node hnode)
    rw [← List.erase_append_left added hnew, ← hdependencies] at hinner
    exact .enter _ operator rest above after _ _ (List.mem_append_left added hnew) hinner
      (ihafter hsettled)

/-- In a later state of a graph, the walk starts with the schedule that the graph had before and
goes on from the new outputs. -/
theorem exists_schedule_eq (h : graph.Extends later) (hwell : graph.WellFormed) :
    ∃ marked listed pending left, later.outputs = graph.outputs ++ marked ∧
      later.Walked pending (later.producers marked) listed left ∧
      later.schedule = graph.schedule ++ listed := by
  obtain ⟨marked, hmarked⟩ := h.outputs
  obtain ⟨added, hadded⟩ := Nat.exists_eq_add_of_le h.length_nodes_le
  obtain ⟨left, hwalked⟩ := graph.walked_schedule
  have hsettled := hwell.settled_producers graph.outputs hwell.output_issued
  have hold := h.walked hwell hwalked hsettled
    ((List.range added).map (graph.nodes.length + ·)) (by simp)
  have hnew := later.walked_walk (left ++ (List.range added).map (graph.nodes.length + ·))
    (later.producers marked)
  have hstart : later.producers later.outputs =
      graph.producers graph.outputs ++ later.producers marked := by
    rw [← hmarked, producers, List.filterMap_append]
    exact congrArg (· ++ _) (h.producers_eq graph.outputs hwell.output_issued)
  have hall := hold.append hnew
  rw [← List.range_add, ← hadded, ← hstart] at hall
  exact ⟨marked, _, _, _, hmarked.symm, hnew, later.schedule_eq_of_walked _ _ hall⟩

theorem schedule_prefix (h : graph.Extends later) (hwell : graph.WellFormed) :
    graph.schedule <+: later.schedule := by
  obtain ⟨marked, listed, pending, left, -, -, hschedule⟩ := h.exists_schedule_eq hwell
  exact ⟨listed, hschedule.symm⟩

theorem schedule_eq (h : graph.Extends later) (hwell : graph.WellFormed)
    (houtputs : later.outputs = graph.outputs) : later.schedule = graph.schedule := by
  obtain ⟨marked, listed, pending, left, hmarked, hwalked, hschedule⟩ :=
    h.exists_schedule_eq hwell
  rw [houtputs] at hmarked
  have hnone : marked = [] := List.append_right_eq_self.mp hmarked.symm
  subst marked
  cases hwalked
  rw [hschedule, List.append_nil]

end Extends

/-! Calls that mark no new output. -/

theorem untouched_outputs : Untouched outputs := ⟨fun _ _ _ _ => rfl, fun _ _ _ => rfl⟩

theorem outputs_execute (graph : Graph) (operator : OperatorId) :
    (graph.execute operator).graph.outputs = graph.outputs :=
  untouched_outputs.execute graph operator

theorem outputs_apply (graph : Graph) (name : Option String) (operator : Operator)
    (inputs : List (String × VariableId)) :
    (graph.apply name operator inputs).graph.outputs = graph.outputs := by
  cases happly : (graph.apply name operator inputs).answer with
  | error error => rw [graph.apply_graph_of_error name operator inputs error happly]
  | ok ids => exact untouched_outputs.apply graph name operator inputs ids happly

theorem outputs_markOutput (graph : Graph) (id : VariableId)
    (h : (graph.perform (.markOutput id)).answer = .ok .done → id ∈ graph.outputs) :
    (graph.perform (.markOutput id)).graph.outputs = graph.outputs := by
  cases hmark : graph.markOutput id with
  | error error => simp only [perform, hmark, ofChange, Outcome.of]
  | ok changed =>
    simp only [perform, hmark, ofChange, Outcome.of] at h ⊢
    obtain ⟨-, rfl⟩ := (markOutput_eq_ok_iff graph changed id).mp hmark
    rw [if_pos (h trivial)]

theorem outputs_perform (graph : Graph) (call : Call)
    (h : ∀ id, call = .markOutput id → (graph.perform call).answer = .ok .done →
      id ∈ graph.outputs) : (graph.perform call).graph.outputs = graph.outputs := by
  cases call with
  | addVariable tensor => rfl
  | addInput tensor => rfl
  | addOperator name operator => rfl
  | markOutput id => exact graph.outputs_markOutput id (h id rfl)
  | bindInput operator slot id => exact untouched_outputs.perform_bindInput graph operator slot id
  | execute operator => exact graph.outputs_execute operator
  | apply name operator inputs => exact graph.outputs_apply name operator inputs
  | _ => exact graph.outputs_apply none _ _

/-- Whenever one of the calls marks an output, it was marked before. -/
def MarksNothingNew (graph : Graph) : List Call → Prop
  | [] => True
  | call :: rest =>
    (∀ id, call = .markOutput id → (graph.perform call).answer = .ok .done →
      id ∈ graph.outputs) ∧ (graph.perform call).graph.MarksNothingNew rest

theorem MarksNothingNew.outputs_eq (graph : Graph) (calls : List Call)
    (h : graph.MarksNothingNew calls) : (graph.performAll calls).outputs = graph.outputs := by
  induction calls generalizing graph with
  | nil => rfl
  | cons call rest ih =>
    obtain ⟨hcall, hrest⟩ := h
    exact (ih (graph.perform call).graph hrest).trans (graph.outputs_perform call hcall)

/-- Whatever is called on a reachable graph, its schedule stays at the front, and the schedule does
not change at all unless a new output is marked. -/
theorem schedule_grows (graph : Graph) (h : Reachable graph) (calls : List Call) :
    graph.schedule <+: (graph.performAll calls).schedule ∧
      (graph.MarksNothingNew calls → (graph.performAll calls).schedule = graph.schedule) := by
  have hextends := graph.performAll_extends calls
  constructor
  · exact hextends.schedule_prefix h.wellFormed
  · intro hcalls
    exact hextends.schedule_eq h.wellFormed (hcalls.outputs_eq graph calls)

/-- A third operator on the crossed ones, a failure, and marks that change nothing. -/
def sequel : List Call :=
  [.logSoftmax ⟨.batch⟩ ⟨⟨0⟩, 2⟩, .apply (some "late") refusing [("x", ⟨⟨0⟩, 3⟩)],
    .markOutput ⟨⟨0⟩, 2⟩, .markOutput ⟨⟨0⟩, 9⟩]

/-- After the sequel, the output of the third operator is marked as well. -/
def resumed : Graph :=
  crossed.performAll (sequel ++ [.markOutput ⟨⟨0⟩, 3⟩])

theorem schedule_grows_sequel : Reachable crossed ∧ crossed.MarksNothingNew sequel ∧
    crossed.schedule = [⟨⟨0⟩, 1⟩, ⟨⟨0⟩, 0⟩] ∧
    (crossed.performAll sequel).schedule = crossed.schedule ∧
    crossed.schedule <+: resumed.schedule ∧
    resumed.schedule = [⟨⟨0⟩, 1⟩, ⟨⟨0⟩, 0⟩, ⟨⟨0⟩, 2⟩] := by
  have hnothing : crossed.MarksNothingNew sequel := by
    refine ⟨nofun, nofun, ?_, ?_, trivial⟩
    · intro id hcall _
      cases hcall
      exact List.mem_singleton.mpr rfl
    · intro id hcall hanswer
      cases hcall
      cases hanswer
  have hbefore : crossed.schedule = [⟨⟨0⟩, 1⟩, ⟨⟨0⟩, 0⟩] := by
    have hconsumer : crossed.dependencies ⟨⟨0⟩, 0⟩ = [⟨⟨0⟩, 1⟩] := rfl
    have hproducer : crossed.dependencies ⟨⟨0⟩, 1⟩ = [] := rfl
    change crossed.runTasks [0, 1] [.enter ⟨⟨0⟩, 0⟩] = _
    simp [runTasks, hconsumer, hproducer]
  have hafter : resumed.schedule = [⟨⟨0⟩, 1⟩, ⟨⟨0⟩, 0⟩, ⟨⟨0⟩, 2⟩] := by
    have hconsumer : resumed.dependencies ⟨⟨0⟩, 0⟩ = [⟨⟨0⟩, 1⟩] := rfl
    have hproducer : resumed.dependencies ⟨⟨0⟩, 1⟩ = [] := rfl
    have hadded : resumed.dependencies ⟨⟨0⟩, 2⟩ = [⟨⟨0⟩, 0⟩] := rfl
    have hpending : List.range resumed.nodes.length = [0, 1, 2] := rfl
    have hstart : resumed.producers resumed.outputs = [⟨⟨0⟩, 0⟩, ⟨⟨0⟩, 2⟩] := rfl
    rw [schedule, hpending, hstart]
    simp [runTasks, hconsumer, hproducer, hadded]
  have hsame := schedule_grows crossed reachable_crossed sequel
  have hmarked := schedule_grows crossed reachable_crossed (sequel ++ [.markOutput ⟨⟨0⟩, 3⟩])
  exact ⟨reachable_crossed, hnothing, hbefore, hsame.2 hnothing, hmarked.1, hafter⟩

end AxisGraph.Graph
