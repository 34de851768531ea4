import AxisGraph.Proofs.Access.Schedule
import Mathlib.Algebra.BigOperators.Group.List.Basic
import Mathlib.Algebra.Ring.Nat

/-!
The schedule round by round. A loop pops one task in each of its rounds, until none is left. Every
operator is entered at most once and leaves at most one task for each of its inputs and one for
itself, which bounds the rounds also when operators depend on each other in a circle; and what the
loop has emitted when it ends is the depth-first post-order.
-/

namespace AxisGraph.Graph

/-- The state of the loop between two rounds: a flag for each operator that has been entered, the
stack with its top in front, and the operators emitted so far. -/
structure Traversal where
  visited : List Bool
  tasks : List Task
  listed : List OperatorId
  deriving DecidableEq

/-- One round of the loop. There is none when the stack is empty. -/
def Traversal.round (graph : Graph) (traversal : Traversal) : Access Traversal :=
  match traversal.tasks with
  | [] => return traversal
  | .emit operator :: rest =>
    return { traversal with tasks := rest, listed := traversal.listed ++ [operator] }
  | .enter operator :: rest => do
    let seen ← Access.read traversal.visited operator.index
    if seen then
      return { traversal with tasks := rest }
    else
      let visited := traversal.visited.set operator.index true
      let waiting ← graph.waitingByIndex visited operator
      return { traversal with visited, tasks := waiting.map .enter ++ .emit operator :: rest }

def Traversal.rounds (graph : Graph) : Nat → Traversal → Access Traversal
  | 0, traversal => return traversal
  | count + 1, traversal => do
    let next ← traversal.round graph
    next.rounds graph count

/-- The state before the first round, with the producers of the outputs on the stack. -/
def startTraversal (graph : Graph) : Access Traversal := do
  let producers ← graph.producersByIndex graph.outputs
  return ⟨List.replicate graph.nodes.length false, producers.map .enter, []⟩

/-- Tasks that entering an operator can lead to: to enter the producer of each input, and to emit
the operator itself. -/
def load (graph : Graph) (i : Nat) : Nat :=
  match graph.nodes[i]? with
  | some node => node.inputs.values.length + 1
  | none => 0

theorem length_dependencies_lt (graph : Graph) (operator : OperatorId)
    (hlt : operator.index < graph.nodes.length) :
    (graph.dependencies operator).length + 1 ≤ graph.load operator.index := by
  unfold dependencies load
  rw [List.getElem?_eq_getElem hlt]
  exact Nat.add_le_add_right (List.length_filterMap_le _ _) 1

/-- All the operators together lead to a task for each of them and for each of their inputs. -/
theorem sum_load (graph : Graph) :
    ((List.range graph.nodes.length).map graph.load).sum =
      (graph.nodes.map fun node => node.inputs.values.length + 1).sum := by
  congr 1
  refine List.ext_getElem (by simp) ?_
  intro i hi hi'
  rw [List.getElem_map, List.getElem_range, List.getElem_map]
  unfold load
  rw [List.getElem?_eq_getElem]

namespace HandlesInRange

variable {graph : Graph}

/-- The loop works off any stack of tasks. The bound goes down in every round: entering an operator
puts no more on the stack than the pending operators lose. -/
theorem rounds_eq (h : graph.HandlesInRange) (pending : List Nat) (tasks : List Task)
    (visited : List Bool) (listed : List OperatorId) (hflags : graph.Flags visited pending)
    (hplaced : ∀ operator, .enter operator ∈ tasks → operator.index < graph.nodes.length) :
    ∃ count ≤ tasks.length + (pending.map graph.load).sum, ∃ final,
      Traversal.rounds graph count ⟨visited, tasks, listed⟩ =
        .done ⟨final, [], listed ++ graph.runTasks pending tasks⟩ := by
  induction pending, tasks using runTasks.induct graph generalizing visited listed with
  | case1 pending =>
    refine ⟨0, Nat.zero_le _, visited, ?_⟩
    rw [runTasks, List.append_nil]
    rfl
  | case2 pending operator rest ih =>
    obtain ⟨count, hcount, final, hfinal⟩ := ih visited (listed ++ [operator]) hflags
      fun next hnext => hplaced next (List.mem_cons_of_mem _ hnext)
    refine ⟨count + 1, ?_, final, ?_⟩
    · simp only [List.length_cons]
      omega
    · rw [runTasks, List.append_cons]
      exact hfinal
  | case3 pending operator rest hnew left waiting ih =>
    have hlt := hplaced operator List.mem_cons_self
    have hmarked : graph.Flags (visited.set operator.index true) left :=
      hflags.enter operator.index hlt
    obtain ⟨count, hcount, final, hfinal⟩ := ih _ listed hmarked
      (h.placed_waiting operator _ rest fun next hnext =>
        hplaced next (List.mem_cons_of_mem _ hnext))
    refine ⟨count + 1, ?_, final, ?_⟩
    · have hsum : graph.load operator.index + (left.map graph.load).sum =
          (pending.map graph.load).sum := List.sum_map_erase graph.load hnew
      have hload := graph.length_dependencies_lt operator hlt
      have hwaiting : waiting.length ≤ (graph.dependencies operator).length :=
        List.length_filter_le _ _
      simp only [List.length_append, List.length_map, List.length_cons] at hcount ⊢
      omega
    · have hround : Traversal.round graph ⟨visited, .enter operator :: rest, listed⟩ =
          .done ⟨visited.set operator.index true,
            waiting.map .enter ++ .emit operator :: rest, listed⟩ := by
        simp only [Traversal.round, Access.read_eq_done ((hflags.mem_iff _).mp hnew),
          Access.done_bind, h.waitingByIndex_eq hmarked operator hlt]
        rfl
      rw [Traversal.rounds, hround, Access.done_bind, runTasks, if_pos hnew]
      exact hfinal
  | case4 pending operator rest hseen ih =>
    have hlt := hplaced operator List.mem_cons_self
    have hflag := hflags.getElem?_eq operator.index hlt
    rw [decide_eq_true hseen] at hflag
    obtain ⟨count, hcount, final, hfinal⟩ := ih visited listed hflags
      fun next hnext => hplaced next (List.mem_cons_of_mem _ hnext)
    refine ⟨count + 1, ?_, final, ?_⟩
    · simp only [List.length_cons]
      omega
    · have hround : Traversal.round graph ⟨visited, .enter operator :: rest, listed⟩ =
          .done ⟨visited, rest, listed⟩ := by
        simp only [Traversal.round, Access.read_eq_done hflag, Access.done_bind]
        rfl
      rw [Traversal.rounds, hround, Access.done_bind, runTasks, if_neg hseen]
      exact hfinal

end HandlesInRange

/-- The loop ends within a round for each marked output, each operator and each of its inputs, and
the schedule that it has emitted then is the depth-first post-order. -/
theorem schedule_eq_postOrder (graph : Graph) (h : graph.HandlesInRange) :
    graph.schedule = graph.postOrder ∧
      ∃ count ≤ graph.outputs.length +
          (graph.nodes.map fun node => node.inputs.values.length + 1).sum,
        ∃ visited, (graph.startTraversal >>= Traversal.rounds graph count) =
          .done ⟨visited, [], graph.postOrder⟩ := by
  have hschedule : graph.schedule = graph.postOrder :=
    graph.schedule_eq_of_walked _ _ (graph.walked_walk _ _)
  have hstart : graph.startTraversal = .done ⟨List.replicate graph.nodes.length false,
      (graph.producers graph.outputs).map .enter, []⟩ := by
    unfold startTraversal
    rw [graph.producersByIndex_eq graph.outputs h.outputs]
    rfl
  obtain ⟨count, hcount, visited, hrounds⟩ := h.rounds_eq (List.range graph.nodes.length)
    ((graph.producers graph.outputs).map .enter) _ [] graph.flags_replicate h.placed_outputs
  have hproducers : (graph.producers graph.outputs).length ≤ graph.outputs.length :=
    List.length_filterMap_le _ _
  rw [List.length_map, graph.sum_load] at hcount
  refine ⟨hschedule, count, by omega, visited, ?_⟩
  rw [hstart, Access.done_bind, hrounds, ← hschedule]
  rfl

/-- An operator with its input bound. -/
def bindingTo (index : Nat) (name : String) (id : VariableId) : Node :=
  { Node.fresh ⟨⟨0⟩, index⟩ name (Parameters.logSoftmax ⟨.batch⟩).operator with
    inputs := (∅ : NameMap VariableId).insert "x" id }

/-- Two operators that have produced each other's inputs. No calls lead to such a graph. -/
def knotted : Graph where
  id := ⟨0⟩
  vars := [⟨strip 2, some ⟨⟨0⟩, 0⟩⟩, ⟨strip 2, some ⟨⟨0⟩, 1⟩⟩]
  nodes := [bindingTo 0 "head" ⟨⟨0⟩, 1⟩, bindingTo 1 "tail" ⟨⟨0⟩, 0⟩]
  inputs := []
  outputs := [⟨⟨0⟩, 0⟩]

theorem schedule_eq_postOrder_knotted :
    knotted.HandlesInRange ∧ knotted.DependsOn ⟨⟨0⟩, 0⟩ ⟨⟨0⟩, 1⟩ ∧
      knotted.DependsOn ⟨⟨0⟩, 1⟩ ⟨⟨0⟩, 0⟩ ∧ knotted.schedule = knotted.postOrder ∧
      knotted.schedule = [⟨⟨0⟩, 1⟩, ⟨⟨0⟩, 0⟩] ∧
      ∃ count ≤ 5, ∃ visited, (knotted.startTraversal >>= Traversal.rounds knotted count) =
        .done ⟨visited, [], [⟨⟨0⟩, 1⟩, ⟨⟨0⟩, 0⟩]⟩ := by
  have hrange : knotted.HandlesInRange := {
    outputs := by decide
    inputs := by decide
    producers := by decide }
  obtain ⟨heq, hloop⟩ := schedule_eq_postOrder knotted hrange
  have hhead : knotted.dependencies ⟨⟨0⟩, 0⟩ = [⟨⟨0⟩, 1⟩] := rfl
  have htail : knotted.dependencies ⟨⟨0⟩, 1⟩ = [⟨⟨0⟩, 0⟩] := rfl
  have hschedule : knotted.schedule = [⟨⟨0⟩, 1⟩, ⟨⟨0⟩, 0⟩] := by
    change knotted.runTasks [0, 1] [.enter ⟨⟨0⟩, 0⟩] = _
    simp [runTasks, hhead, htail]
  have hforth : knotted.DependsOn ⟨⟨0⟩, 0⟩ ⟨⟨0⟩, 1⟩ :=
    ⟨_, ⟨⟨0⟩, 1⟩, rfl, List.mem_singleton.mpr rfl, rfl⟩
  have hback : knotted.DependsOn ⟨⟨0⟩, 1⟩ ⟨⟨0⟩, 0⟩ :=
    ⟨_, ⟨⟨0⟩, 0⟩, rfl, List.mem_singleton.mpr rfl, rfl⟩
  rw [← heq, hschedule] at hloop
  exact ⟨hrange, hforth, hback, heq, hschedule, hloop⟩

end AxisGraph.Graph
