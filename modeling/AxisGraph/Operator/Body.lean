import AxisGraph.Operator.Context

/-!
Bodies of operators. A body is a tree of the steps that an operator may take, and the answer to
each step selects how it goes on. Running a body walks down one path of the tree from a context; a
body has no other way to learn or to change anything.
-/

namespace AxisGraph

inductive Body (α : Type) where
  | finish (result : Except GraphError α)
  | input (slot : String) (next : Except GraphError Tensor → Body α)
  | output (slot : String) (tensor : Tensor) (next : Except GraphError Unit → Body α)
  | attach (mark : Attribute) (next : Body α)
  | report (diagnostic : Diagnostic) (next : Body α)

namespace Body

variable {α β : Type}

/-- Continue with a body chosen by the result, be it a value or an error. -/
def andThen : Body α → (Except GraphError α → Body β) → Body β
  | finish result, f => f result
  | input slot next, f => input slot fun answer => (next answer).andThen f
  | output slot tensor next, f => output slot tensor fun answer => (next answer).andThen f
  | attach mark next, f => attach mark (next.andThen f)
  | report diagnostic next, f => report diagnostic (next.andThen f)

instance : Monad Body where
  pure value := finish (.ok value)
  bind body f := body.andThen fun
    | .ok value => f value
    | .error error => finish (.error error)

/-- Result of a body, and the context that it leaves behind whether it succeeds or fails. -/
def run : Body α → Context → Except GraphError α × Context
  | finish result, context => (result, context)
  | input slot next, context => (next (context.input slot)).run context
  | output slot tensor next, context =>
    match context.appendOutput slot tensor with
    | .ok extended => (next (.ok ())).run extended
    | .error error => (next (.error error)).run context
  | attach mark next, context => next.run (context.attach mark)
  | report diagnostic next, context => next.run (context.report diagnostic)

theorem run_andThen (body : Body α) (f : Except GraphError α → Body β) (context : Context) :
    (body.andThen f).run context = (f (body.run context).1).run (body.run context).2 := by
  induction body generalizing context with
  | finish => rfl
  | input slot next ih => exact ih _ context
  | output slot tensor next ih =>
    simp only [andThen, run]
    split
    · exact ih _ _
    · exact ih _ _
  | attach mark next ih => exact ih _
  | report diagnostic next ih => exact ih _

/-- Stop with an error, or go on with a value. -/
def ofExcept (result : Except GraphError α) : Body α := finish result

/-- The input bound to a slot. -/
def read (slot : String) : Body Tensor := input slot finish

/-- Publish an output. -/
def publish (slot : String) (tensor : Tensor) : Body Unit := output slot tensor finish

/-- Attach attributes one after the other. -/
def attachAll (marks : List Attribute) : Body Unit :=
  marks.foldr attach (finish (.ok ()))

/-- Run a body for its effects and ignore its error. -/
def attempt (body : Body Unit) : Body Unit :=
  body.andThen fun _ => finish (.ok ())

end Body

end AxisGraph
