import AxisGraph.Operator.Image
import Mathlib.Data.List.Nodup

/-!
Running bodies step by step. What counts for a graph is the record that a successful run leaves, so
the lemmas speak of the record: results computed beforehand and bound inputs pass straight on to the
rest of the body, and the common end of the operators on images adds one output and its marks.
-/

namespace AxisGraph.Body

variable {α β γ : Type}

/-- What a body leaves in the context, if it succeeds. -/
def record (body : Body Unit) (context : Context) : Except GraphError Context :=
  match body.run context with
  | (.ok (), recorded) => .ok recorded
  | (.error error, _) => .error error

theorem record_eq_ok_iff (body : Body Unit) (context recorded : Context) :
    body.record context = .ok recorded ↔ body.run context = (.ok (), recorded) := by
  unfold record
  obtain ⟨result, after⟩ := body.run context
  cases result <;> simp

theorem record_eq_error_iff (body : Body Unit) (context : Context) (error : GraphError) :
    body.record context = .error error ↔ ∃ after, body.run context = (.error error, after) := by
  unfold record
  obtain ⟨result, after⟩ := body.run context
  cases result <;> simp

theorem run_bind (body : Body α) (f : α → Body β) (context : Context) :
    (body >>= f).run context =
      match body.run context with
      | (.ok value, after) => (f value).run after
      | (.error error, after) => (.error error, after) := by
  change (body.andThen _).run context = _
  rw [run_andThen]
  obtain ⟨result, after⟩ := body.run context
  cases result <;> rfl

theorem ofExcept_bind_bind (result : Except GraphError α) (f : α → Except GraphError β)
    (g : β → Body γ) :
    (ofExcept (result >>= f) >>= g) =
      (ofExcept result >>= fun value => ofExcept (f value) >>= g) := by
  cases result <;> rfl

theorem record_ofExcept_bind (result : Except GraphError α) (f : α → Body Unit)
    (context : Context) :
    (ofExcept result >>= f).record context = result.bind fun value => (f value).record context := by
  cases result <;> rfl

theorem run_read_bind (slot : String) (f : Tensor → Body α) (context : Context) (tensor : Tensor)
    (h : context.inputs.find? slot = some tensor) :
    (read slot >>= f).run context = (f tensor).run context := by
  have hinput : context.input slot = .ok tensor := by
    unfold Context.input
    rw [h]
  have hrun : (read slot).run context = (.ok tensor, context) := by
    rw [← hinput]
    rfl
  rw [run_bind, hrun]

theorem record_read_bind (slot : String) (f : Tensor → Body Unit) (context : Context)
    (tensor : Tensor) (h : context.inputs.find? slot = some tensor) :
    (read slot >>= f).record context = (f tensor).record context := by
  unfold record
  rw [run_read_bind slot f context tensor h]

/-- Attributes that are new and distinct are attached in order. -/
theorem run_attachAll (marks : List Attribute) (context : Context)
    (hnodup : (context.attributes ++ marks).Nodup) :
    (attachAll marks).run context =
      (.ok (), { context with attributes := context.attributes ++ marks }) := by
  induction marks generalizing context with
  | nil => simp [attachAll, run]
  | cons mark rest ih =>
    have hnew : mark ∉ context.attributes := by
      intro hmem
      exact (List.nodup_append.mp hnodup).2.2 mark hmem mark List.mem_cons_self rfl
    have hattach : context.attach mark =
        { context with attributes := context.attributes ++ [mark] } := by
      unfold Context.attach
      rw [if_neg hnew]
    have hstep : (attachAll (mark :: rest)).run context =
        (attachAll rest).run (context.attach mark) := rfl
    rw [hstep, hattach, ih]
    · simp
    · simpa using hnodup

theorem nodup_marks (id : OperatorId) (axes : List Axis) (h : axes.Nodup) :
    (axes.map (Attribute.tensorwise id)).Nodup := by
  refine h.map ?_
  intro a b heq
  exact (Attribute.tensorwise.inj heq).2

/-- An output and marks on distinct axes, added to a context without outputs and attributes. -/
theorem record_publish_attachAll (id : OperatorId) (y : Tensor) (axes : List Axis)
    (context : Context) (houtputs : context.outputs = []) (hattributes : context.attributes = [])
    (hnodup : axes.Nodup) :
    (do publish "y" y; attachAll (axes.map (.tensorwise id)) : Body Unit).record context =
      .ok { context with
        outputs := [("y", y)]
        attributes := axes.map (.tensorwise id) } := by
  have happend : context.appendOutput "y" y = .ok { context with outputs := [("y", y)] } := by
    simp [Context.appendOutput, houtputs]
  have hpublish : (publish "y" y).run context =
      (.ok (), { context with outputs := [("y", y)] }) := by
    simp only [publish, run, happend]
  rw [record_eq_ok_iff, run_bind, hpublish]
  simp only
  rw [run_attachAll]
  · simp [hattributes]
  · simpa [hattributes] using nodup_marks id axes hnodup

end AxisGraph.Body
