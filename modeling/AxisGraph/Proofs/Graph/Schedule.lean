import AxisGraph.Proofs.Graph.Walk
import Mathlib.Data.List.Nodup

/-!
The schedule of a reachable graph holds exactly the operators that the marked outputs need, each
once and after everything that it depends on. A walk puts the dependencies of an operator that are
still pending in front of it; those that are not pending were listed earlier, since one that is
being entered at the same time would close a cycle.
-/

namespace AxisGraph.Graph

/-- The least set of operators that holds the producers of the marked outputs and, with an operator,
all that it depends on. -/
inductive Needed (graph : Graph) : OperatorId → Prop
  | output (v : VariableId) (operator : OperatorId) (hmarked : v ∈ graph.outputs)
      (hproducer : graph.producer v = .ok (some operator)) : Needed graph operator
  | dependency (consumer producer : OperatorId) (hneeded : Needed graph consumer)
      (hdepends : graph.DependsOn consumer producer) : Needed graph producer

theorem mem_producers_iff (graph : Graph) (ids : List VariableId)
    (hissued : ∀ v ∈ ids, graph.Issued v) (operator : OperatorId) :
    operator ∈ graph.producers ids ↔
      ∃ v ∈ ids, graph.producer v = .ok (some operator) := by
  simp only [producers, List.mem_filterMap, producer_eq_ok_iff]
  constructor
  · intro hmem
    obtain ⟨v, hv, hbind⟩ := hmem
    obtain ⟨found, hget, hproducer⟩ := Option.bind_eq_some_iff.mp hbind
    obtain ⟨tensor, maker⟩ := found
    simp only at hproducer
    subst maker
    have howner := ((issued_iff graph v).mp (hissued v hv)).1
    exact ⟨v, hv, tensor, (variableAt_eq_ok_iff graph v _).mpr ⟨howner, hget⟩⟩
  · intro hmem
    obtain ⟨v, hv, tensor, hfound⟩ := hmem
    obtain ⟨-, hget⟩ := (variableAt_eq_ok_iff graph v _).mp hfound
    exact ⟨v, hv, Option.bind_eq_some_iff.mpr ⟨_, hget, rfl⟩⟩

namespace WellFormed

variable {graph : Graph}

theorem mem_dependencies_iff (h : graph.WellFormed) (consumer producer : OperatorId)
    (howner : consumer.graph = graph.id) :
    producer ∈ graph.dependencies consumer ↔ graph.DependsOn consumer producer := by
  unfold dependencies DependsOn
  cases hget : graph.nodes[consumer.index]? with
  | none =>
    simp only [List.not_mem_nil, false_iff]
    intro hdepends
    obtain ⟨node, v, hnode, -⟩ := hdepends
    rw [((nodeAt_eq_ok_iff graph consumer node).mp hnode).2] at hget
    cases hget
  | some node =>
    have hnode : graph.nodeAt consumer = .ok node :=
      (nodeAt_eq_ok_iff graph consumer node).mpr ⟨howner, hget⟩
    have hissued := (h.node consumer node hnode).issued_of_mem_inputs
    simp only [mem_producers_iff graph node.inputs.values hissued producer]
    constructor
    · intro hmem
      obtain ⟨v, hv, hproducer⟩ := hmem
      exact ⟨node, v, hnode, hv, hproducer⟩
    · intro hdepends
      obtain ⟨other, v, hother, hv, hproducer⟩ := hdepends
      have heq := nodeAt_unique graph consumer other node hother hnode
      subst other
      exact ⟨v, hv, hproducer⟩

theorem dependency_issued (h : graph.WellFormed) (consumer producer : OperatorId)
    (hdepends : graph.DependsOn consumer producer) :
    producer.graph = graph.id ∧ producer.index < graph.nodes.length := by
  obtain ⟨node, v, -, -, hproducer⟩ := hdepends
  exact h.producer_issued v producer hproducer

end WellFormed

/-- All the handles carry the identity of the graph. -/
def Owned (graph : Graph) (operators : List OperatorId) : Prop :=
  ∀ operator ∈ operators, operator.graph = graph.id

theorem WellFormed.owned_dependencies {graph : Graph} (h : graph.WellFormed)
    (operator : OperatorId) (howner : operator.graph = graph.id) :
    graph.Owned (graph.dependencies operator) := by
  intro producer hmem
  have hdepends := (h.mem_dependencies_iff operator producer howner).mp hmem
  exact (h.dependency_issued operator producer hdepends).1

namespace Walked

variable {graph : Graph} {pending left : List Nat} {operators listed : List OperatorId}

/-- Whatever a walk lists can be reached from where it starts. -/
theorem reached (h : graph.Walked pending operators listed left) (hwell : graph.WellFormed)
    (howned : graph.Owned operators) (operator : OperatorId) (hmem : operator ∈ listed) :
    ∃ start ∈ operators, Relation.ReflTransGen graph.DependsOn start operator := by
  induction h with
  | done pending => cases hmem
  | skip pending first rest listed left hseen hrest ih =>
    obtain ⟨start, hstart, hpath⟩ := ih (List.forall_mem_cons.mp howned).2 hmem
    exact ⟨start, List.mem_cons_of_mem first hstart, hpath⟩
  | enter pending first rest above after middle left hnew habove hafter ihabove ihafter =>
    obtain ⟨hfirst, hrest⟩ := List.forall_mem_cons.mp howned
    rcases List.mem_append.mp hmem with hmem | hmem
    · obtain ⟨start, hstart, hpath⟩ := ihabove (hwell.owned_dependencies first hfirst) hmem
      have hdepends := (hwell.mem_dependencies_iff first start hfirst).mp hstart
      exact ⟨first, List.mem_cons_self, hpath.head hdepends⟩
    · rcases List.mem_cons.mp hmem with heq | hmem
      · exact ⟨first, List.mem_cons_self, heq ▸ .refl⟩
      · obtain ⟨start, hstart, hpath⟩ := ihafter hrest hmem
        exact ⟨start, List.mem_cons_of_mem first hstart, hpath⟩

theorem owned (h : graph.Walked pending operators listed left) (hwell : graph.WellFormed)
    (howned : graph.Owned operators) : graph.Owned listed := by
  intro operator hmem
  obtain ⟨start, hstart, hpath⟩ := h.reached hwell howned operator hmem
  rcases Relation.ReflTransGen.cases_tail hpath with heq | ⟨middle, -, hdepends⟩
  · subst heq
    exact howned operator hstart
  · exact (hwell.dependency_issued middle operator hdepends).1

/-- An operator that was pending and is not left has been listed. -/
theorem mem_listed (h : graph.Walked pending operators listed left) (hwell : graph.WellFormed)
    (howned : graph.Owned operators) (operator : OperatorId)
    (howner : operator.graph = graph.id) (hpending : operator.index ∈ pending)
    (hleft : operator.index ∉ left) : operator ∈ listed := by
  rcases (h.mem_pending_iff operator.index).mp hpending with hlisted | hmem
  · obtain ⟨other, hother, hindex⟩ := List.mem_map.mp hlisted
    have heq := operatorId_eq_of_index_eq other operator
      ((h.owned hwell howned other hother).trans howner.symm) hindex
    exact heq ▸ hother
  · exact absurd hmem hleft

/-- A walk leaves none of the operators that it was sent to. -/
theorem not_left (h : graph.Walked pending operators listed left) (hnodup : pending.Nodup)
    (operator : OperatorId) (hmem : operator ∈ operators) : operator.index ∉ left := by
  induction h with
  | done pending => cases hmem
  | skip pending first rest listed left hseen hrest ih =>
    rcases List.mem_cons.mp hmem with heq | hmem
    · subst first
      intro hleft
      exact hseen ((hrest.mem_pending_iff operator.index).mpr (Or.inr hleft))
    · exact ih hnodup hmem
  | enter pending first rest above after middle left hnew habove hafter ihabove ihafter =>
    have herase : (pending.erase first.index).Nodup := hnodup.erase first.index
    rcases List.mem_cons.mp hmem with heq | hmem
    · subst first
      intro hleft
      have hmiddle := (hafter.mem_pending_iff operator.index).mpr (Or.inr hleft)
      have hpending := (habove.mem_pending_iff operator.index).mpr (Or.inr hmiddle)
      exact hnodup.not_mem_erase hpending
    · exact ihafter (habove.nodup_left herase) hmem

/-- What the walk from an entered operator takes from the pending ones, it has listed when it lists
the operator itself. -/
theorem mem_entered {above : List OperatorId} {middle : List Nat} {first : OperatorId}
    (h : graph.Walked (pending.erase first.index) (graph.dependencies first) above middle)
    (hwell : graph.WellFormed) (hfirst : first.graph = graph.id) (operator : OperatorId)
    (howner : operator.graph = graph.id) (hpending : operator.index ∈ pending)
    (hmiddle : operator.index ∉ middle) : operator ∈ above ++ [first] := by
  by_cases heq : operator = first
  · subst operator
    exact List.mem_append_right above (List.mem_singleton.mpr rfl)
  · have herase := mem_erase_index operator first pending (howner.trans hfirst.symm) heq hpending
    have hlisted := h.mem_listed hwell (hwell.owned_dependencies first hfirst) operator howner herase
      hmiddle
    exact List.mem_append_left _ hlisted

/-- A walk lists the dependencies of an operator before it, unless they were not pending. -/
theorem ordered (h : graph.Walked pending operators listed left) (hwell : graph.WellFormed)
    (hnodup : pending.Nodup) (howned : graph.Owned operators) (consumer producer : OperatorId)
    (hmem : consumer ∈ listed) (hdepends : graph.DependsOn consumer producer)
    (hpending : producer.index ∈ pending) : [producer, consumer].Sublist listed := by
  have howner := (hwell.dependency_issued consumer producer hdepends).1
  induction h with
  | done pending => cases hmem
  | skip pending first rest listed left hseen hrest ih =>
    exact ih hnodup (List.forall_mem_cons.mp howned).2 hmem hpending
  | enter pending first rest above after middle left hnew habove hafter ihabove ihafter =>
    obtain ⟨hfirst, hrest⟩ := List.forall_mem_cons.mp howned
    have herase : (pending.erase first.index).Nodup := hnodup.erase first.index
    have hdependencies := hwell.owned_dependencies first hfirst
    -- Reached from the entered operator, a dependency on it would close a cycle.
    have hstill : ∀ path : Relation.ReflTransGen graph.DependsOn first consumer,
        producer.index ∈ pending.erase first.index := by
      intro path
      have hne : producer ≠ first := by
        intro heq
        subst producer
        exact hwell.no_cycle first (.tail' path hdepends)
      exact mem_erase_index producer first pending (howner.trans hfirst.symm) hne hpending
    rcases List.mem_append.mp hmem with habovemem | hmem
    · obtain ⟨start, hstart, hpath⟩ := habove.reached hwell hdependencies consumer habovemem
      have hfirststart := (hwell.mem_dependencies_iff first start hfirst).mp hstart
      have hsub := ihabove herase hdependencies habovemem (hstill (hpath.head hfirststart))
      exact hsub.trans (List.sublist_append_left above _)
    rcases List.mem_cons.mp hmem with heq | haftermem
    · subst first
      have hdependency := (hwell.mem_dependencies_iff consumer producer hfirst).mpr hdepends
      have hlisted := habove.mem_listed hwell hdependencies producer howner (hstill .refl)
        (habove.not_left herase producer hdependency)
      exact (List.singleton_sublist.mpr hlisted).append
        (List.singleton_sublist.mpr List.mem_cons_self)
    · by_cases hmiddle : producer.index ∈ middle
      · have hsub := ihafter (habove.nodup_left herase) hrest haftermem hmiddle
        exact (hsub.trans (List.sublist_cons_self first after)).trans
          (List.sublist_append_right above _)
      · have hlisted := habove.mem_entered hwell hfirst producer howner hpending hmiddle
        have hsub : ([producer] ++ [consumer]).Sublist ((above ++ [first]) ++ after) :=
          (List.singleton_sublist.mpr hlisted).append (List.singleton_sublist.mpr haftermem)
        simpa using hsub

theorem nodup_listed (h : graph.Walked pending operators listed left) (hnodup : pending.Nodup) :
    listed.Nodup := by
  have hindices := (List.nodup_append.mp (h.perm.nodup_iff.mpr hnodup)).1
  exact hindices.of_map OperatorId.index

end Walked

/-- An operator is needed when a path of dependencies leads to it from a marked output. -/
theorem needed_iff_exists_path (graph : Graph) (operator : OperatorId) :
    graph.Needed operator ↔ ∃ v ∈ graph.outputs, ∃ first,
      graph.producer v = .ok (some first) ∧
        Relation.ReflTransGen graph.DependsOn first operator := by
  constructor
  · intro hneeded
    induction hneeded with
    | output v operator hmarked hproducer => exact ⟨v, hmarked, operator, hproducer, .refl⟩
    | dependency consumer producer _ hdepends ih =>
      obtain ⟨v, hmarked, first, hproducer, hpath⟩ := ih
      exact ⟨v, hmarked, first, hproducer, hpath.tail hdepends⟩
  · intro hpath
    obtain ⟨v, hmarked, first, hproducer, hpath⟩ := hpath
    induction hpath with
    | refl => exact .output v first hmarked hproducer
    | tail _ hdepends ih => exact .dependency _ _ ih hdepends

namespace WellFormed

variable {graph : Graph}

theorem frozen_of_needed (h : graph.WellFormed) (operator : OperatorId)
    (hneeded : graph.Needed operator) :
    ∃ node, graph.nodeAt operator = .ok node ∧ node.frozen = true := by
  cases hneeded with
  | output v operator _ hproducer =>
    obtain ⟨node, -, hnode, hfrozen, -⟩ := h.operator_of_producer v operator hproducer
    exact ⟨node, hnode, hfrozen⟩
  | dependency consumer producer _ hdepends =>
    obtain ⟨-, v, -, -, hproducer⟩ := hdepends
    obtain ⟨node, -, hnode, hfrozen, -⟩ := h.operator_of_producer v operator hproducer
    exact ⟨node, hnode, hfrozen⟩

theorem mem_outputProducers_iff (h : graph.WellFormed) (operator : OperatorId) :
    operator ∈ graph.producers graph.outputs ↔
      ∃ v ∈ graph.outputs, graph.producer v = .ok (some operator) :=
  mem_producers_iff graph graph.outputs h.output_issued operator

theorem owned_outputProducers (h : graph.WellFormed) :
    graph.Owned (graph.producers graph.outputs) := by
  intro operator hmem
  obtain ⟨v, -, hproducer⟩ := (h.mem_outputProducers_iff operator).mp hmem
  exact (h.producer_issued v operator hproducer).1

theorem schedule_ordered (h : graph.WellFormed) (consumer producer : OperatorId)
    (hmem : consumer ∈ graph.schedule) (hdepends : graph.DependsOn consumer producer) :
    [producer, consumer].Sublist graph.schedule := by
  obtain ⟨left, hwalked⟩ := graph.walked_schedule
  have hlt := (h.dependency_issued consumer producer hdepends).2
  exact hwalked.ordered h List.nodup_range h.owned_outputProducers consumer producer hmem hdepends
    (List.mem_range.mpr hlt)

theorem mem_schedule_iff (h : graph.WellFormed) (operator : OperatorId) :
    operator ∈ graph.schedule ↔ graph.Needed operator := by
  obtain ⟨left, hwalked⟩ := graph.walked_schedule
  constructor
  · intro hmem
    obtain ⟨first, hfirst, hpath⟩ := hwalked.reached h h.owned_outputProducers operator hmem
    obtain ⟨v, hmarked, hproducer⟩ := (h.mem_outputProducers_iff first).mp hfirst
    exact (needed_iff_exists_path graph operator).mpr ⟨v, hmarked, first, hproducer, hpath⟩
  · intro hneeded
    induction hneeded with
    | output v operator hmarked hproducer =>
      obtain ⟨howner, hlt⟩ := h.producer_issued v operator hproducer
      have hstart := (h.mem_outputProducers_iff operator).mpr ⟨v, hmarked, hproducer⟩
      exact hwalked.mem_listed h h.owned_outputProducers operator howner
        (List.mem_range.mpr hlt) (hwalked.not_left List.nodup_range operator hstart)
    | dependency consumer producer _ hdepends ih =>
      exact (h.schedule_ordered consumer producer ih hdepends).subset List.mem_cons_self

end WellFormed

/-- A list of operators that computes the marked outputs, and no operator too many, when it is
worked off from its front. -/
structure Computes (graph : Graph) (operators : List OperatorId) : Prop where
  nodup : operators.Nodup
  mem_iff : ∀ operator, operator ∈ operators ↔ graph.Needed operator
  frozen : ∀ operator ∈ operators, ∃ node, graph.nodeAt operator = .ok node ∧ node.frozen = true
  ordered : ∀ consumer ∈ operators, ∀ producer, graph.DependsOn consumer producer →
    [producer, consumer].Sublist operators

/-- The schedule of a reachable graph computes the marked outputs. -/
theorem computes_schedule (graph : Graph) (h : Reachable graph) :
    graph.Computes graph.schedule := by
  have hwell := h.wellFormed
  obtain ⟨left, hwalked⟩ := graph.walked_schedule
  exact {
    nodup := hwalked.nodup_listed List.nodup_range
    mem_iff := hwell.mem_schedule_iff
    frozen := fun operator hmem =>
      hwell.frozen_of_needed operator ((hwell.mem_schedule_iff operator).mp hmem)
    ordered := fun consumer hmem producer hdepends =>
      hwell.schedule_ordered consumer producer hmem hdepends }

theorem computes_schedule_crossed : Reachable crossed ∧ crossed.Computes crossed.schedule ∧
    [⟨⟨0⟩, 1⟩, ⟨⟨0⟩, 0⟩].Sublist crossed.schedule := by
  have hcomputes := computes_schedule crossed reachable_crossed
  have hneeded : crossed.Needed ⟨⟨0⟩, 0⟩ := .output ⟨⟨0⟩, 2⟩ _ (List.mem_singleton.mpr rfl) rfl
  have hdepends : crossed.DependsOn ⟨⟨0⟩, 0⟩ ⟨⟨0⟩, 1⟩ :=
    ⟨_, ⟨⟨0⟩, 1⟩, rfl, List.mem_singleton.mpr rfl, rfl⟩
  refine ⟨reachable_crossed, hcomputes, ?_⟩
  exact hcomputes.ordered _ ((hcomputes.mem_iff _).mpr hneeded) _ hdepends

end AxisGraph.Graph
