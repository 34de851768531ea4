import AxisGraph.Proofs.Access.Tensor
import AxisGraph.Proofs.Graph.Schedule

/-!
The schedule by index. The stack of tasks is worked off with a flag for each operator, and neither
the flags nor the operators nor the variables are read with a check. The flags that are down are
those of the pending operators, and whatever is put on the stack has been placed in the graph, so
every read stays inside.
-/

namespace AxisGraph

namespace Access

variable {α : Type}

theorem filterM_eq_done (p : α → Access Bool) (q : α → Bool) (entries : List α)
    (h : ∀ entry ∈ entries, p entry = done (q entry)) :
    entries.filterM p = done (entries.filter q) := by
  have haux : ∀ rest kept, (∀ entry ∈ rest, p entry = done (q entry)) →
      List.filterAuxM p rest kept = done ((rest.filter q).reverse ++ kept) := by
    intro rest
    induction rest with
    | nil => exact fun _ _ => rfl
    | cons first rest ih =>
      intro kept h
      obtain ⟨hfirst, hrest⟩ := List.forall_mem_cons.mp h
      rw [List.filterAuxM, hfirst, done_bind, ih _ hrest]
      cases hkept : q first <;> simp [hkept]
  rw [List.filterM, haux entries [] h]
  simp

end Access

namespace Graph

/-- The operators that produced these variables. The handles are taken as they are. -/
def producersByIndex (graph : Graph) (ids : List VariableId) : Access (List OperatorId) := do
  let found ← ids.mapM fun id => Access.read graph.vars id.index
  return found.filterMap Variable.producer

/-- Work off a stack of tasks. An operator whose flag is up has been entered before. -/
def runTasksByIndex (graph : Graph) (visited : List Bool) : List Task → Access (List OperatorId)
  | [] => return []
  | .emit operator :: rest => do
    let listed ← graph.runTasksByIndex visited rest
    return operator :: listed
  | .enter operator :: rest =>
    match hflag : visited[operator.index]? with
    | none => .fault
    | some true => graph.runTasksByIndex visited rest
    | some false => do
      let marked := visited.set operator.index true
      let node ← Access.read graph.nodes operator.index
      let producers ← graph.producersByIndex node.inputs.values
      let waiting ← producers.filterM fun producer => do
        let seen ← Access.read marked producer.index
        return !seen
      graph.runTasksByIndex marked (waiting.map .enter ++ .emit operator :: rest)
termination_by tasks => (visited.count false, tasks.length)
decreasing_by
  · exact Prod.Lex.right _ (by simp)
  · exact Prod.Lex.right _ (by simp)
  · refine Prod.Lex.left _ _ ?_
    obtain ⟨hlt, hget⟩ := List.getElem?_eq_some_iff.mp hflag
    have hpos := List.count_pos_iff.mpr (List.mem_of_getElem? hflag)
    rw [List.count_set hlt, hget, if_pos (BEq.refl false),
      if_neg (by decide : ¬ (true == false) = true)]
    omega

def scheduleByIndex (graph : Graph) : Access (List OperatorId) := do
  let producers ← graph.producersByIndex graph.outputs
  graph.runTasksByIndex (List.replicate graph.nodes.length false) (producers.map .enter)

theorem runTasksByIndex_of_seen (graph : Graph) (visited : List Bool) (operator : OperatorId)
    (rest : List Task) (hflag : visited[operator.index]? = some true) :
    graph.runTasksByIndex visited (.enter operator :: rest) =
      graph.runTasksByIndex visited rest := by
  rw [runTasksByIndex]
  split <;> simp_all

/-- The producers of the inputs of an operator whose flag is down. -/
def waitingByIndex (graph : Graph) (visited : List Bool) (operator : OperatorId) :
    Access (List OperatorId) := do
  let node ← Access.read graph.nodes operator.index
  let producers ← graph.producersByIndex node.inputs.values
  producers.filterM fun producer => do
    let seen ← Access.read visited producer.index
    return !seen

theorem runTasksByIndex_of_new (graph : Graph) (visited : List Bool) (operator : OperatorId)
    (rest : List Task) (hflag : visited[operator.index]? = some false) :
    graph.runTasksByIndex visited (.enter operator :: rest) = (do
      let waiting ← graph.waitingByIndex (visited.set operator.index true) operator
      graph.runTasksByIndex (visited.set operator.index true)
        (waiting.map .enter ++ .emit operator :: rest)) := by
  rw [runTasksByIndex]
  split
  · simp_all
  · simp_all
  · simp only [waitingByIndex, bind_assoc]

/-- The handles by which the schedule is found name variables and operators of the graph. They need
not belong to the graph otherwise, and the operators may depend on each other in a circle. -/
structure HandlesInRange (graph : Graph) : Prop where
  outputs : ∀ id ∈ graph.outputs, id.index < graph.vars.length
  inputs : ∀ node ∈ graph.nodes, ∀ id ∈ node.inputs.values, id.index < graph.vars.length
  producers : ∀ found ∈ graph.vars, ∀ operator, found.producer = some operator →
    operator.index < graph.nodes.length

/-- There is a flag for each operator, and it is down as long as the operator is pending. -/
structure Flags (graph : Graph) (visited : List Bool) (pending : List Nat) : Prop where
  length_eq : visited.length = graph.nodes.length
  mem_iff : ∀ i, i ∈ pending ↔ visited[i]? = some false
  nodup : pending.Nodup

theorem flags_replicate (graph : Graph) :
    graph.Flags (List.replicate graph.nodes.length false) (List.range graph.nodes.length) where
  length_eq := List.length_replicate
  mem_iff i := by simp [List.getElem?_replicate]
  nodup := List.nodup_range

namespace Flags

variable {graph : Graph} {visited : List Bool} {pending : List Nat}

theorem enter (h : graph.Flags visited pending) (i : Nat) (hlt : i < graph.nodes.length) :
    graph.Flags (visited.set i true) (pending.erase i) where
  length_eq := by rw [List.length_set, h.length_eq]
  mem_iff j := by
    rw [h.nodup.mem_erase_iff, h.mem_iff j, List.getElem?_set]
    by_cases heq : i = j
    · subst j
      simp [h.length_eq, hlt]
    · simp [heq, Ne.symm heq]
  nodup := h.nodup.erase i

theorem getElem?_eq (h : graph.Flags visited pending) (i : Nat) (hlt : i < graph.nodes.length) :
    visited[i]? = some (decide (i ∉ pending)) := by
  cases hget : visited[i]? with
  | none =>
    have hle := List.getElem?_eq_none_iff.mp hget
    rw [h.length_eq] at hle
    omega
  | some flag =>
    have hmem := h.mem_iff i
    rw [hget] at hmem
    cases flag <;> simp_all

end Flags

/-- The operators under the handles have been placed in the graph. -/
def Placed (graph : Graph) (operators : List OperatorId) : Prop :=
  ∀ operator ∈ operators, operator.index < graph.nodes.length

theorem producersByIndex_eq (graph : Graph) (ids : List VariableId)
    (hids : ∀ id ∈ ids, id.index < graph.vars.length) :
    graph.producersByIndex ids = .done (graph.producers ids) := by
  have hread : ∃ found, (ids.mapM fun id => Access.read graph.vars id.index) = .done found ∧
      found.filterMap Variable.producer = graph.producers ids := by
    induction ids with
    | nil => exact ⟨[], rfl, rfl⟩
    | cons id rest ih =>
      obtain ⟨hlt, hrest⟩ := List.forall_mem_cons.mp hids
      obtain ⟨found, hfound, hproducers⟩ := ih hrest
      have hget : graph.vars[id.index]? = some graph.vars[id.index] := List.getElem?_eq_getElem hlt
      refine ⟨graph.vars[id.index] :: found, ?_, ?_⟩
      · rw [List.mapM_cons, Access.read_eq_done hget, hfound]
        rfl
      · unfold producers at hproducers ⊢
        simp only [List.filterMap_cons, hget, Option.bind_some, hproducers]
  obtain ⟨found, hfound, hproducers⟩ := hread
  unfold producersByIndex
  rw [hfound, Access.done_bind, hproducers]
  rfl

namespace HandlesInRange

variable {graph : Graph} {visited : List Bool} {pending : List Nat}

theorem placed_producers (h : graph.HandlesInRange) (ids : List VariableId) :
    graph.Placed (graph.producers ids) := by
  intro operator hmem
  obtain ⟨id, -, hbind⟩ := List.mem_filterMap.mp hmem
  obtain ⟨found, hget, hproducer⟩ := Option.bind_eq_some_iff.mp hbind
  exact h.producers found (List.mem_of_getElem? hget) operator hproducer

theorem waitingByIndex_eq (h : graph.HandlesInRange) (hflags : graph.Flags visited pending)
    (operator : OperatorId) (hlt : operator.index < graph.nodes.length) :
    graph.waitingByIndex visited operator =
      .done ((graph.dependencies operator).filter fun producer => producer.index ∈ pending) := by
  have hget : graph.nodes[operator.index]? = some graph.nodes[operator.index] :=
    List.getElem?_eq_getElem hlt
  have hdependencies : graph.dependencies operator =
      graph.producers graph.nodes[operator.index].inputs.values := by
    unfold dependencies
    rw [hget]
  unfold waitingByIndex
  rw [Access.read_eq_done hget, Access.done_bind,
    graph.producersByIndex_eq _ (h.inputs _ (List.getElem_mem hlt)), Access.done_bind,
    ← hdependencies]
  refine Access.filterM_eq_done _ _ _ ?_
  intro producer hmem
  have hplaced := h.placed_producers _ producer (hdependencies ▸ hmem)
  rw [Access.read_eq_done (hflags.getElem?_eq producer.index hplaced)]
  simp

/-- The producers that an entered operator waits for have been placed, as all the tasks have. -/
theorem placed_waiting (h : graph.HandlesInRange) (operator : OperatorId) (p : OperatorId → Bool)
    (rest : List Task)
    (hplaced : ∀ next, .enter next ∈ rest → next.index < graph.nodes.length) (next : OperatorId)
    (hmem : .enter next ∈
      ((graph.dependencies operator).filter p).map Task.enter ++ .emit operator :: rest) :
    next.index < graph.nodes.length := by
  rcases List.mem_append.mp hmem with hmem | hmem
  · obtain ⟨producer, hproducer, heq⟩ := List.mem_map.mp hmem
    cases heq
    have hdependency := List.mem_of_mem_filter hproducer
    unfold dependencies at hdependency
    split at hdependency
    · exact h.placed_producers _ next hdependency
    · cases hdependency
  · rcases List.mem_cons.mp hmem with heq | hmem
    · cases heq
    · exact hplaced next hmem

/-- With a flag down for each pending operator, the tasks are worked off inside the lists. -/
theorem runTasksByIndex_eq (h : graph.HandlesInRange) (pending : List Nat) (tasks : List Task)
    (visited : List Bool) (hflags : graph.Flags visited pending)
    (hplaced : ∀ operator, .enter operator ∈ tasks → operator.index < graph.nodes.length) :
    graph.runTasksByIndex visited tasks = .done (graph.runTasks pending tasks) := by
  induction pending, tasks using runTasks.induct graph generalizing visited with
  | case1 pending => rw [runTasksByIndex, runTasks, Access.pure_eq]
  | case2 pending operator rest ih =>
    have hrest := ih visited hflags fun next hnext => hplaced next (List.mem_cons_of_mem _ hnext)
    rw [runTasksByIndex, runTasks, hrest]
    rfl
  | case3 pending operator rest hnew left waiting ih =>
    have hlt := hplaced operator List.mem_cons_self
    have hmarked : graph.Flags (visited.set operator.index true) left :=
      hflags.enter operator.index hlt
    rw [runTasksByIndex_of_new graph visited operator rest ((hflags.mem_iff _).mp hnew), runTasks,
      if_pos hnew, h.waitingByIndex_eq hmarked operator hlt, Access.done_bind]
    exact ih _ hmarked (h.placed_waiting operator _ rest fun next hnext =>
      hplaced next (List.mem_cons_of_mem _ hnext))
  | case4 pending operator rest hseen ih =>
    have hlt := hplaced operator List.mem_cons_self
    have hflag := hflags.getElem?_eq operator.index hlt
    rw [decide_eq_true hseen] at hflag
    rw [runTasksByIndex_of_seen graph visited operator rest hflag, runTasks, if_neg hseen]
    exact ih visited hflags fun next hnext => hplaced next (List.mem_cons_of_mem _ hnext)

theorem placed_outputs (h : graph.HandlesInRange) (operator : OperatorId)
    (hmem : .enter operator ∈ (graph.producers graph.outputs).map Task.enter) :
    operator.index < graph.nodes.length := by
  obtain ⟨producer, hproducer, heq⟩ := List.mem_map.mp hmem
  cases heq
  exact h.placed_producers _ _ hproducer

/-- By index, the schedule is found without leaving a list. -/
theorem scheduleByIndex_eq (h : graph.HandlesInRange) :
    graph.scheduleByIndex = .done graph.schedule := by
  unfold scheduleByIndex schedule
  rw [graph.producersByIndex_eq graph.outputs h.outputs, Access.done_bind]
  exact h.runTasksByIndex_eq _ _ _ graph.flags_replicate h.placed_outputs

end HandlesInRange

namespace WellFormed

variable {graph : Graph}

theorem handlesInRange (h : graph.WellFormed) : graph.HandlesInRange where
  outputs id hmem := ((issued_iff graph id).mp (h.output_issued id hmem)).2
  inputs node hmem id hid :=
    ((issued_iff graph id).mp ((h.nodeWellFormed node hmem).issued_of_mem_inputs id hid)).2
  producers found hmem operator hproducer := by
    obtain ⟨i, hget⟩ := List.mem_iff_getElem?.mp hmem
    have hfound : graph.variableAt (graph.variableId i) = .ok found :=
      (variableAt_eq_ok_iff graph _ found).mpr ⟨rfl, hget⟩
    obtain ⟨tensor, maker⟩ := found
    subst hproducer
    exact (h.producer_issued (graph.variableId i) operator
      ((producer_eq_ok_iff graph _ _).mpr ⟨tensor, hfound⟩)).2

/-- By index, the schedule of a well-formed graph is found without leaving a list. -/
theorem scheduleByIndex_eq (h : graph.WellFormed) :
    graph.scheduleByIndex = .done graph.schedule :=
  h.handlesInRange.scheduleByIndex_eq

end WellFormed

/-- A marked output that is not there leads out of the variables. -/
example : ({ Graph.new ⟨0⟩ with outputs := [⟨⟨0⟩, 0⟩] } : Graph).scheduleByIndex = .fault := rfl

end Graph

end AxisGraph
