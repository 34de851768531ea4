import AxisGraph.Proofs.Operator.Inference
import AxisGraph.Proofs.Operator.Recording

/-!
What a run of a body does to its context, effect by effect. The run only replays its effects, so the
outputs and the diagnostics pile up in the order of the effects, and the log gains an entry for each
diagnostic and for nothing else. A built-in body that fails has reported nothing, unless it is a
pooling whose input has more axes than its output can be arranged in.
-/

namespace AxisGraph

/-- What a body has its context record. -/
inductive Effect where
  | output (slot : String) (tensor : Tensor)
  | attach (mark : Attribute)
  | report (diagnostic : Diagnostic)
  deriving DecidableEq

namespace Effect

def output? : Effect → Option (String × Tensor)
  | output slot tensor => some (slot, tensor)
  | _ => none

def diagnostic? : Effect → Option Diagnostic
  | report diagnostic => some diagnostic
  | _ => none

end Effect

namespace Context

def after (context : Context) : Effect → Context
  | .output slot tensor => { context with outputs := context.outputs ++ [(slot, tensor)] }
  | .attach mark => context.attach mark
  | .report diagnostic => context.report diagnostic

/-- The later context has come from the earlier one through these effects. -/
structure Gains (context : Context) (effects : List Effect) (later : Context) : Prop where
  name_eq : later.name = context.name
  outputs_eq : later.outputs = context.outputs ++ effects.filterMap Effect.output?
  diagnostics_eq : later.diagnostics = context.diagnostics ++ effects.filterMap Effect.diagnostic?
  log_eq : later.log = context.log ++
    (effects.filterMap Effect.diagnostic?).map (.diagnosed context.name)

theorem Gains.refl (context : Context) : context.Gains [] context :=
  ⟨rfl, (List.append_nil _).symm, (List.append_nil _).symm, (List.append_nil _).symm⟩

theorem gains_attach (context : Context) (mark : Attribute) :
    context.Gains [.attach mark] (context.attach mark) := by
  have hgains := Gains.refl context
  unfold attach
  split
  · exact ⟨rfl, hgains.outputs_eq, hgains.diagnostics_eq, hgains.log_eq⟩
  · exact ⟨rfl, hgains.outputs_eq, hgains.diagnostics_eq, hgains.log_eq⟩

theorem gains_after (context : Context) (effect : Effect) :
    context.Gains [effect] (context.after effect) := by
  have hgains := Gains.refl context
  cases effect with
  | output slot tensor => exact ⟨rfl, rfl, hgains.diagnostics_eq, hgains.log_eq⟩
  | attach mark => exact context.gains_attach mark
  | report diagnostic => exact ⟨rfl, hgains.outputs_eq, rfl, rfl⟩

theorem Gains.trans {context between later : Context} {first rest : List Effect}
    (h : context.Gains first between) (h' : between.Gains rest later) :
    context.Gains (first ++ rest) later where
  name_eq := h'.name_eq.trans h.name_eq
  outputs_eq := by
    rw [h'.outputs_eq, h.outputs_eq, List.filterMap_append, List.append_assoc]
  diagnostics_eq := by
    rw [h'.diagnostics_eq, h.diagnostics_eq, List.filterMap_append, List.append_assoc]
  log_eq := by
    rw [h'.log_eq, h.log_eq, h.name_eq, List.filterMap_append, List.map_append, List.append_assoc]

theorem gains_foldl (effects : List Effect) (context : Context) :
    context.Gains effects (effects.foldl after context) := by
  induction effects generalizing context with
  | nil => exact Gains.refl context
  | cons effect rest ih => exact (context.gains_after effect).trans (ih (context.after effect))

end Context

namespace Body

variable {α : Type}

/-- The effects of a run, in their order. An output whose slot is taken has none. -/
def effects : Body α → Context → List Effect
  | finish _, _ => []
  | input slot next, context => (next (context.input slot)).effects context
  | output slot tensor next, context =>
    match context.appendOutput slot tensor with
    | .ok extended => .output slot tensor :: (next (.ok ())).effects extended
    | .error error => (next (.error error)).effects context
  | attach mark next, context => .attach mark :: next.effects (context.attach mark)
  | report diagnostic next, context => .report diagnostic :: next.effects (context.report diagnostic)

theorem run_eq_foldl (body : Body α) (context : Context) :
    (body.run context).2 = (body.effects context).foldl Context.after context := by
  induction body generalizing context with
  | finish result => rfl
  | input slot next ih => exact ih (context.input slot) context
  | output slot tensor next ih =>
    simp only [run, effects]
    cases happend : context.appendOutput slot tensor with
    | ok extended =>
      obtain ⟨-, hextended⟩ := (context.appendOutput_eq_ok_iff extended slot tensor).mp happend
      have hafter : context.after (.output slot tensor) = extended := hextended.symm
      simp only [List.foldl_cons, hafter]
      exact ih (.ok ()) extended
    | error error => exact ih (.error error) context
  | attach mark next ih => exact ih (context.attach mark)
  | report diagnostic next ih => exact ih (context.report diagnostic)

theorem gains_run (body : Body α) (context : Context) :
    context.Gains (body.effects context) (body.run context).2 := by
  rw [run_eq_foldl]
  exact Context.gains_foldl _ context

end Body

/-- The end of an operator on images fails only if the input cannot serve as the layout of the
output. What was reported before stays logged. -/
theorem Image.run_body_error (image : Image) (id : OperatorId) (x : Tensor) (name : String)
    (inputs : NameMap Tensor) (error : GraphError) (after : Context)
    (h : (image.body id x).run (.start id name inputs) = (.error error, after)) :
    ¬ x.layout.IsPermutation .nhwc ∧
      after.log = (Inference.diagnostics id image.ignored).map (.diagnosed name) := by
  have hnot : ¬ x.layout.IsPermutation .nhwc := by
    intro himage
    obtain ⟨inference, hinfer⟩ : ∃ inference, image.infer x = .ok inference :=
      ⟨⟨_, _, _⟩, (image.infer_eq_ok_iff x _).mpr ⟨if_pos himage.symm, rfl, rfl⟩⟩
    have hrecord := (Body.record_eq_error_iff _ _ error).mpr ⟨after, h⟩
    rw [image.record_body, hinfer] at hrecord
    cases hrecord
  -- So it is the layout that fails, right after the report.
  have hchange : image.extents.tensor.changeLayout x.layout =
      .error (.axesDiffer image.extents.tensor.layout x.layout) :=
    if_neg fun himage => hnot himage.symm
  unfold body Body.publishImage at h
  rw [Body.run_bind, run_reportIgnored, hchange] at h
  obtain ⟨-, rfl⟩ := Prod.mk.inj h
  exact ⟨hnot, rfl⟩

theorem Image.ignored_of_logged (result : Except GraphError Image) (id : OperatorId) (x : Tensor)
    (name : String) (inputs : NameMap Tensor) (error : GraphError) (after : Context)
    (h : (Body.ofExcept result >>= fun image => image.body id x).run (.start id name inputs) =
      (.error error, after)) (hlog : after.log ≠ []) :
    ∃ image, result = .ok image ∧ image.ignored ≠ [] ∧ ¬ x.layout.IsPermutation .nhwc := by
  cases result with
  | error cause =>
    obtain ⟨-, rfl⟩ := Prod.mk.inj h
    exact absurd rfl hlog
  | ok image =>
    obtain ⟨hnot, hlogged⟩ := image.run_body_error id x name inputs error after h
    refine ⟨image, rfl, ?_, hnot⟩
    intro hnone
    rw [hlogged, hnone] at hlog
    exact hlog rfl

/-- An operator with a weight has no finding to log. -/
theorem weightedImage_log (name : String) (id : OperatorId) (x w : Tensor) (ksize : Spatial Size)
    (infer : SpatialAxis → Extent → Except ShapeIssue Extent) (inputs : NameMap Tensor)
    (error : GraphError) (after : Context)
    (h : (Body.ofExcept (weightedImage name x w ksize infer) >>= fun image => image.body id x).run
      (.start id name inputs) = (.error error, after)) : after.log = [] := by
  by_contra hlog
  obtain ⟨image, himage, hignored, -⟩ :=
    Image.ignored_of_logged _ id x name inputs error after h hlog
  obtain ⟨-, -, -, -, hnone⟩ := (weightedImage_eq_ok_iff name x w ksize infer image).mp himage
  exact hignored hnone

/-- A layout with the axes of an image batch that is not one of its arrangements has all axes. -/
theorem Layout.mem_of_not_isPermutation (layout : Layout) (h : ¬ layout.IsPermutation .nhwc)
    (himage : ∀ axis ∈ Layout.nhwc, axis ∈ layout) (axis : Axis) : axis ∈ layout := by
  by_contra hnot
  have htime : axis = .time := by
    cases axis with
    | time => rfl
    | _ => exact absurd (himage _ (by decide)) hnot
  subst axis
  refine h (Layout.isPermutation_iff.mpr fun other => ⟨fun hmem => ?_, himage other⟩)
  cases other with
  | time => exact absurd hmem hnot
  | _ => decide

/-- A built-in body that fails after it has logged something is a pooling of an input with all
axes. -/
theorem Parameters.pooling_of_logged (parameters : Parameters) (id : OperatorId) (name : String)
    (inputs : NameMap Tensor) (x w : Tensor) (hx : inputs.find? "x" = some x)
    (hw : parameters.Weighted → inputs.find? "w" = some w) (error : GraphError) (after : Context)
    (h : (parameters.operator.body id name).run (.start id name inputs) = (.error error, after))
    (hlog : after.log ≠ []) :
    (∃ settings, parameters = .pooling settings) ∧ ∀ axis, axis ∈ x.layout := by
  cases parameters with
  | pooling settings =>
    change (settings.body id name).run _ = _ at h
    rw [settings.body_eq, Body.run_read_bind "x" _ (.start id name inputs) x hx] at h
    obtain ⟨image, himage, -, hnot⟩ := Image.ignored_of_logged _ id x name inputs error after h hlog
    refine ⟨⟨settings, rfl⟩, x.layout.mem_of_not_isPermutation hnot fun axis hmem => ?_⟩
    obtain ⟨hbatch, hchannel, pooled, hheight, hwidth, -⟩ :=
      (settings.image_eq_ok_iff name x image).mp himage
    obtain ⟨height, hheight, -⟩ := (inferAlong_eq_ok_iff name x .height _ _).mp hheight
    obtain ⟨width, hwidth, -⟩ := (inferAlong_eq_ok_iff name x .width _ _).mp hwidth
    refine (x.exists_extent_iff axis).mp ?_
    cases axis with
    | batch => exact ⟨_, hbatch⟩
    | channel => exact ⟨_, hchannel⟩
    | height => exact ⟨_, hheight⟩
    | width => exact ⟨_, hwidth⟩
    | time => exact absurd hmem (by decide)
  | convolution settings =>
    change (settings.body id name).run _ = _ at h
    rw [settings.body_eq, Body.run_read_bind "x" _ (.start id name inputs) x hx,
      Body.run_read_bind "w" _ (.start id name inputs) w (hw trivial)] at h
    exact absurd (weightedImage_log name id x w _ _ inputs error after h) hlog
  | deconvolution settings =>
    change (settings.body id name).run _ = _ at h
    rw [settings.body_eq, Body.run_read_bind "x" _ (.start id name inputs) x hx,
      Body.run_read_bind "w" _ (.start id name inputs) w (hw trivial)] at h
    exact absurd (weightedImage_log name id x w _ _ inputs error after h) hlog
  | logSoftmax settings =>
    change (settings.body id name).run _ = _ at h
    have hrecord := (Body.record_eq_error_iff _ _ error).mpr ⟨after, h⟩
    rw [settings.record_body id name inputs x hx] at hrecord
    unfold LogSoftmax.body at h
    rw [Body.run_read_bind "x" _ (.start id name inputs) x hx] at h
    cases hposition : x.layout.position settings.axis with
    | error cause =>
      rw [hposition] at h
      obtain ⟨-, rfl⟩ := Prod.mk.inj h
      exact absurd rfl hlog
    | ok place =>
      have hmem := (x.layout.exists_position_iff settings.axis).mp ⟨place, hposition⟩
      rw [settings.infer_of_mem x hmem] at hrecord
      cases hrecord

end AxisGraph
