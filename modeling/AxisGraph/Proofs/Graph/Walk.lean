import AxisGraph.Graph.PostOrder
import AxisGraph.Proofs.Graph.Dependency

/-!
The depth-first walk over the dependencies, as a relation. It says which operators a walk lists, in
which order, and which it leaves; the recursion and the stack of tasks both follow it, so what the
relation guarantees holds of the schedule.
-/

namespace AxisGraph.Graph

/-- From the operators that are pending, a walk to these operators lists `listed` and leaves `left`
pending. -/
inductive Walked (graph : Graph) :
    List Nat → List OperatorId → List OperatorId → List Nat → Prop
  | done (pending : List Nat) : Walked graph pending [] [] pending
  | skip (pending : List Nat) (operator : OperatorId) (rest listed : List OperatorId)
      (left : List Nat) (hseen : operator.index ∉ pending)
      (hrest : Walked graph pending rest listed left) :
      Walked graph pending (operator :: rest) listed left
  | enter (pending : List Nat) (operator : OperatorId) (rest above after : List OperatorId)
      (middle left : List Nat) (hnew : operator.index ∈ pending)
      (habove : Walked graph (pending.erase operator.index) (graph.dependencies operator) above
        middle)
      (hafter : Walked graph middle rest after left) :
      Walked graph pending (operator :: rest) (above ++ operator :: after) left

/-- The recursion is a walk. -/
theorem walked_walk (graph : Graph) (pending : List Nat) (operators : List OperatorId) :
    graph.Walked pending operators (graph.walk pending operators).listed
      (graph.walk pending operators).pending := by
  induction pending, operators using walk.induct graph with
  | case1 pending =>
    rw [walk]
    exact .done pending
  | case2 pending operator rest hnew _ _ above left hleft heq after unreached hunreached heq'
      ihabove ihafter =>
    rw [heq] at ihabove
    rw [heq'] at ihafter
    have hlisted : (graph.walk pending (operator :: rest)).listed =
        above ++ operator :: after := by
      rw [walk, dif_pos hnew, heq]
      simp only [heq']
    have hpending : (graph.walk pending (operator :: rest)).pending = unreached := by
      rw [walk, dif_pos hnew, heq]
      simp only [heq']
    rw [hlisted, hpending]
    exact .enter pending operator rest above after left unreached hnew ihabove ihafter
  | case3 pending operator rest hseen ih =>
    rw [walk, dif_neg hseen]
    exact .skip pending operator rest _ _ hseen ih

namespace Walked

variable {graph : Graph} {pending left : List Nat} {operators listed : List OperatorId}

/-- A walk divides what is pending into what it lists and what it leaves. -/
theorem perm (h : graph.Walked pending operators listed left) :
    (listed.map OperatorId.index ++ left).Perm pending := by
  induction h with
  | done pending => exact .refl pending
  | skip pending operator rest listed left hseen hrest ih => exact ih
  | enter pending operator rest above after middle left hnew habove hafter ihabove ihafter =>
    have hinner : (above.map OperatorId.index ++ (after.map OperatorId.index ++ left)).Perm
        (pending.erase operator.index) :=
      (ihafter.append_left _).trans ihabove
    calc
      _ = above.map OperatorId.index ++
          operator.index :: (after.map OperatorId.index ++ left) := by simp
      List.Perm _ (operator.index ::
          (above.map OperatorId.index ++ (after.map OperatorId.index ++ left))) :=
        List.perm_middle
      List.Perm _ (operator.index :: pending.erase operator.index) := hinner.cons _
      List.Perm _ pending := (List.perm_cons_erase hnew).symm

theorem mem_pending_iff (h : graph.Walked pending operators listed left) (i : Nat) :
    i ∈ pending ↔ i ∈ listed.map OperatorId.index ∨ i ∈ left := by
  rw [← h.perm.mem_iff, List.mem_append]

/-- A walk can go on where another one ends. -/
theorem append {middle : List Nat} {others after : List OperatorId}
    (h : graph.Walked pending operators listed middle)
    (hafter : graph.Walked middle others after left) :
    graph.Walked pending (operators ++ others) (listed ++ after) left := by
  induction h with
  | done pending => exact hafter
  | skip pending operator rest listed middle hseen hrest ih =>
    exact .skip pending operator (rest ++ others) (listed ++ after) left hseen (ih hafter)
  | enter pending operator rest above below inner middle hnew habove hbelow ihabove ihbelow =>
    rw [List.append_assoc, List.cons_append, List.cons_append]
    exact .enter pending operator (rest ++ others) above (below ++ after) inner left hnew habove
      (ihbelow hafter)

theorem nodup_left (h : graph.Walked pending operators listed left) (hnodup : pending.Nodup) :
    left.Nodup :=
  (List.nodup_append.mp (h.perm.nodup_iff.mpr hnodup)).2.1

/-- What the stack of tasks does with operators to enter. Operators that are not pending may be
missing among them. -/
theorem runTasks_eq (h : graph.Walked pending operators listed left) (p : OperatorId → Bool)
    (hp : ∀ operator : OperatorId, operator.index ∈ pending → p operator = true)
    (tasks : List Task) :
    graph.runTasks pending ((operators.filter p).map .enter ++ tasks) =
      listed ++ graph.runTasks left tasks := by
  induction h generalizing p tasks with
  | done pending => simp
  | skip pending operator rest listed left hseen hrest ih =>
    by_cases hkept : p operator = true
    · rw [List.filter_cons_of_pos hkept, List.map_cons, List.cons_append, runTasks,
        if_neg hseen]
      exact ih p hp tasks
    · rw [List.filter_cons_of_neg hkept]
      exact ih p hp tasks
  | enter pending operator rest above after middle left hnew habove hafter ihabove ihafter =>
    have hmiddle : ∀ next : OperatorId, next.index ∈ middle → p next = true := by
      intro next hnext
      exact hp next (List.mem_of_mem_erase ((habove.mem_pending_iff next.index).mpr
        (Or.inr hnext)))
    rw [List.filter_cons_of_pos (hp operator hnew), List.map_cons, List.cons_append, runTasks,
      if_pos hnew]
    simp only []
    rw [ihabove (fun next => decide (next.index ∈ pending.erase operator.index))
      (fun next hnext => decide_eq_true hnext), runTasks, ihafter p hmiddle tasks]
    simp

end Walked

/-- The schedule is what any walk from the producers of the outputs lists. -/
theorem schedule_eq_of_walked (graph : Graph) (listed : List OperatorId) (left : List Nat)
    (h : graph.Walked (List.range graph.nodes.length) (graph.producers graph.outputs) listed left) :
    graph.schedule = listed := by
  have htasks := h.runTasks_eq (fun _ => true) (fun _ _ => rfl) []
  rw [List.filter_eq_self.mpr (fun _ _ => rfl), List.append_nil] at htasks
  unfold schedule
  rw [htasks, runTasks, List.append_nil]

/-- The schedule is what the walk from the producers of the outputs lists. -/
theorem walked_schedule (graph : Graph) :
    ∃ left, graph.Walked (List.range graph.nodes.length) (graph.producers graph.outputs)
      graph.schedule left := by
  have hwalked := graph.walked_walk (List.range graph.nodes.length)
    (graph.producers graph.outputs)
  rw [graph.schedule_eq_of_walked _ _ hwalked]
  exact ⟨_, hwalked⟩

end AxisGraph.Graph
