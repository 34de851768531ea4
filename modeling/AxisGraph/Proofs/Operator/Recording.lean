import AxisGraph.Operator.Body
import Mathlib.Data.List.Nodup

/-!
What a body can do to its context. Whatever the single steps keep, a whole run keeps; so the
recorded outputs of every run have distinct slots.
-/

namespace AxisGraph.Context

theorem appendOutput_eq_ok_iff (context extended : Context) (slot : String) (tensor : Tensor) :
    context.appendOutput slot tensor = .ok extended ↔
      slot ∉ context.outputs.map Prod.fst ∧
        extended = { context with outputs := context.outputs ++ [(slot, tensor)] } := by
  unfold appendOutput
  split
  · rename_i hmem
    simp [hmem]
  · rename_i hnot
    simp only [Except.ok.injEq, hnot, not_false_eq_true, true_and]
    exact eq_comm

@[simp]
theorem outputs_attach (context : Context) (mark : Attribute) :
    (context.attach mark).outputs = context.outputs := by
  unfold attach
  split <;> rfl

/-- No slot has two recorded outputs. -/
def SlotsDistinct (context : Context) : Prop := (context.outputs.map Prod.fst).Nodup

theorem slotsDistinct_start (id : OperatorId) (name : String) (inputs : NameMap Tensor) :
    (start id name inputs).SlotsDistinct :=
  .nil

theorem slotsDistinct_appendOutput (context extended : Context) (slot : String) (tensor : Tensor)
    (h : context.SlotsDistinct) (happend : context.appendOutput slot tensor = .ok extended) :
    extended.SlotsDistinct := by
  obtain ⟨hnot, rfl⟩ := (appendOutput_eq_ok_iff context extended slot tensor).mp happend
  unfold SlotsDistinct
  rw [List.map_append, List.map_singleton, ← List.concat_eq_append]
  exact List.Nodup.concat hnot h

end AxisGraph.Context

namespace AxisGraph.Body

variable {α : Type}

/-- A property of contexts that every recording step keeps holds at the end of every run. -/
theorem run_preserves (P : Context → Prop)
    (houtput : ∀ context extended slot tensor, P context →
      context.appendOutput slot tensor = .ok extended → P extended)
    (hattach : ∀ context mark, P context → P (context.attach mark))
    (hreport : ∀ context diagnostic, P context → P (context.report diagnostic))
    (body : Body α) (context : Context) (h : P context) : P (body.run context).2 := by
  induction body generalizing context with
  | finish result => exact h
  | input slot next ih => exact ih (context.input slot) context h
  | output slot tensor next ih =>
    simp only [run]
    cases happend : context.appendOutput slot tensor with
    | ok extended => exact ih (.ok ()) extended (houtput context extended slot tensor h happend)
    | error error => exact ih (.error error) context h
  | attach mark next ih => exact ih (context.attach mark) (hattach context mark h)
  | report diagnostic next ih => exact ih (context.report diagnostic) (hreport context diagnostic h)

theorem slotsDistinct_run (body : Body α) (context : Context) (h : context.SlotsDistinct) :
    (body.run context).2.SlotsDistinct := by
  apply run_preserves Context.SlotsDistinct _ _ _ body context h
  · intro context extended slot tensor hdistinct happend
    exact Context.slotsDistinct_appendOutput context extended slot tensor hdistinct happend
  · intro context mark hdistinct
    simpa [Context.SlotsDistinct] using hdistinct
  · intro context diagnostic hdistinct
    exact hdistinct

end AxisGraph.Body
