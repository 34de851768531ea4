import AxisGraph.Proofs.Access.Graph
import AxisGraph.Proofs.Access.Operator
import AxisGraph.Proofs.Access.Schedule

/-!
No access faults. Tensors are checked when they are made from a shape; those that come from a change
of layout or out of an operator are not checked again, and the handles stored in a graph are not
either. The invariants of tensors and of reachable graphs stand in for these checks.
-/

namespace AxisGraph.Graph

/-- Tensors that the callers of a graph can get: those of its variables, those that pass the checks
of a new tensor, those in another layout, and those that the built-in operators make of them. -/
inductive Offers (graph : Graph) : PlainTensor → Prop
  | stored (id : VariableId) (found : Variable) (h : graph.variableAt id = .ok found) :
      Offers graph found.tensor.plain
  | checked (shape : List Word) (axes : List Axis) (plain : PlainTensor)
      (haxes : Layout.Offered axes)
      (h : PlainTensor.ofShape (shape.map InRange.val) axes = .done plain) : Offers graph plain
  | rearranged (plain changed : PlainTensor) (target : List Axis) (hplain : Offers graph plain)
      (htarget : Layout.Offered target) (h : plain.changeLayout target = .done changed) :
      Offers graph changed
  | inferred (parameters : Parameters) (x w y : PlainTensor) (hx : Offers graph x)
      (hw : Offers graph w) (h : parameters.inferPlain x w = .done y) : Offers graph y

theorem sound_of_ofExcept {α : Type} (result : Except GraphError α) (f : α → Tensor)
    (plain : PlainTensor)
    (h : Access.ofExcept (result.map fun value => (f value).plain) = .done plain) :
    plain.Sound := by
  cases result with
  | error error => cases h
  | ok value =>
    cases h
    exact (f value).sound_plain

theorem Offers.sound {graph : Graph} {plain : PlainTensor} (h : graph.Offers plain) :
    plain.Sound := by
  induction h with
  | stored id found hfound => exact found.tensor.sound_plain
  | checked shape axes plain haxes hnew =>
    refine PlainTensor.sound_ofShape _ axes plain ?_ haxes.nodup hnew
    intro n hn
    obtain ⟨word, -, rfl⟩ := List.mem_map.mp hn
    exact word.le_hi
  | rearranged plain changed target _ htarget hchange ih =>
    obtain ⟨tensor, rfl⟩ := plain.sound_iff_exists_tensor.mp ih
    rw [tensor.changeLayout_plain ⟨target, htarget.nodup⟩] at hchange
    exact sound_of_ofExcept _ (fun tensor => tensor) changed hchange
  | inferred parameters x w y _ _ hinfer ihx ihw =>
    obtain ⟨x, rfl⟩ := x.sound_iff_exists_tensor.mp ihx
    obtain ⟨w, rfl⟩ := w.sound_iff_exists_tensor.mp ihw
    rw [Tensor.inferPlain_plain parameters "" x w] at hinfer
    exact sound_of_ofExcept _ Inference.y y hinfer

/-- Whatever the callers of a graph do, no place is read outside of its list and no number falls
below zero. On the lists of a tensor the reads give what the tensor itself gives, which may be an
error but is never a fault. -/
structure FaultFree (graph : Graph) : Prop where
  sound : ∀ plain, graph.Offers plain → plain.Sound
  extent : ∀ plain, graph.Offers plain → ∀ axis, plain.extent axis ≠ .fault
  extent_eq : ∀ (tensor : Tensor) axis,
    tensor.plain.extent axis = .ofExcept ((tensor.extent axis).map InRange.val)
  changeLayout : ∀ plain, graph.Offers plain → ∀ target, Layout.Offered target →
    plain.changeLayout target ≠ .fault
  changeLayout_eq : ∀ (tensor : Tensor) (target : Layout),
    tensor.plain.changeLayout target.axes =
      .ofExcept ((tensor.changeLayout target).map Tensor.plain)
  infer : ∀ (parameters : Parameters) x w, graph.Offers x → graph.Offers w →
    parameters.inferPlain x w ≠ .fault
  infer_eq : ∀ (parameters : Parameters) name (x w : Tensor),
    parameters.inferPlain x.plain w.plain =
      .ofExcept ((parameters.infer name x w).map fun inference => inference.y.plain)
  dilate : ∀ (convolution : Convolution) dilation,
    Convolution.spansFrom convolution.window.ksize dilation ≠ .fault
  dilate_eq : ∀ (convolution : Convolution) dilation,
    Convolution.spansFrom convolution.window.ksize dilation =
      .ofExcept ((convolution.withDilation dilation).map fun changed =>
        changed.dilatedKsize.map InRange.val)
  variableAt : ∀ id, graph.variableByIndex id = .done (graph.variableAt id)
  nodeAt : ∀ id, graph.nodeByIndex id = .done (graph.nodeAt id)
  producer : ∀ id, graph.producerByIndex id = .done (graph.producer id)
  perform : ∀ call, graph.performByIndex call = .done (graph.perform call)
  schedule : graph.scheduleByIndex = .done graph.schedule

/-- Every access to a reachable graph and to the tensors that can be had with it stays inside, and
each call by index has the outcome that it is meant to have. -/
theorem faultFree_of_reachable (graph : Graph) (h : Reachable graph) : graph.FaultFree where
  sound _ hplain := hplain.sound
  extent plain hplain axis := by
    obtain ⟨tensor, rfl⟩ := plain.sound_iff_exists_tensor.mp hplain.sound
    rw [tensor.extent_plain axis]
    exact Access.ofExcept_ne_fault _
  extent_eq := Tensor.extent_plain
  changeLayout plain hplain target htarget := by
    obtain ⟨tensor, rfl⟩ := plain.sound_iff_exists_tensor.mp hplain.sound
    rw [tensor.changeLayout_plain ⟨target, htarget.nodup⟩]
    exact Access.ofExcept_ne_fault _
  changeLayout_eq := Tensor.changeLayout_plain
  infer parameters x w hx hw := by
    obtain ⟨x, rfl⟩ := x.sound_iff_exists_tensor.mp hx.sound
    obtain ⟨w, rfl⟩ := w.sound_iff_exists_tensor.mp hw.sound
    rw [Tensor.inferPlain_plain parameters "" x w]
    exact Access.ofExcept_ne_fault _
  infer_eq := Tensor.inferPlain_plain
  dilate convolution dilation := by
    rw [convolution.spansFrom_ksize dilation]
    exact Access.ofExcept_ne_fault _
  dilate_eq := Convolution.spansFrom_ksize
  variableAt := graph.variableByIndex_eq
  nodeAt := graph.nodeByIndex_eq
  producer := graph.producerByIndex_eq
  perform := graph.performByIndex_eq h.wellFormed
  schedule := h.wellFormed.scheduleByIndex_eq

theorem faultFree_crossed : Reachable crossed ∧ crossed.FaultFree ∧
    crossed.performByIndex (.logSoftmax ⟨.batch⟩ ⟨⟨0⟩, 2⟩) =
      .done (crossed.perform (.logSoftmax ⟨.batch⟩ ⟨⟨0⟩, 2⟩)) ∧
    (crossed.perform (.logSoftmax ⟨.batch⟩ ⟨⟨0⟩, 2⟩)).answer = .ok (.vars [⟨⟨0⟩, 3⟩]) := by
  have hfree := faultFree_of_reachable crossed reachable_crossed
  exact ⟨reachable_crossed, hfree, hfree.perform _, rfl⟩

end AxisGraph.Graph
