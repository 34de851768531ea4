/-!
Demands that are made one after the other. The first of them that is not met refuses the result with
its error; a result of which all demands are met is a value. Demands on parts of a computation, one
after the other, are demands on the whole.
-/

namespace AxisGraph

/-- Whether something holds, with the error of a refusal where it does not. -/
structure Demand (ε : Type) where
  met : Bool
  error : ε

namespace Demand

variable {ε ε' α β : Type}

def mapError (f : ε → ε') (demand : Demand ε) : Demand ε' := ⟨demand.met, f demand.error⟩

/-- The error of the first demand that is not met. -/
def refusal? : List (Demand ε) → Option ε
  | [] => none
  | demand :: rest => if demand.met then refusal? rest else some demand.error

theorem refusal?_append (demands rest : List (Demand ε)) :
    refusal? (demands ++ rest) = (refusal? demands).or (refusal? rest) := by
  induction demands with
  | nil => rfl
  | cons demand demands ih =>
    simp only [List.cons_append, refusal?]
    split
    · exact ih
    · rfl

theorem refusal?_map (f : ε → ε') (demands : List (Demand ε)) :
    refusal? (demands.map (mapError f)) = (refusal? demands).map f := by
  induction demands with
  | nil => rfl
  | cons demand demands ih =>
    simp only [List.map_cons, refusal?, mapError]
    split
    · exact ih
    · rfl

/-- The result is the error of the first demand that is not met. If all of them are met, it is a
value with the property. -/
def Settle (demands : List (Demand ε)) (result : Except ε α) (P : α → Prop) : Prop :=
  match refusal? demands with
  | some error => result = .error error
  | none => ∃ value, result = .ok value ∧ P value

namespace Settle

variable {demands rest : List (Demand ε)} {result : Except ε α} {P : α → Prop} {Q : β → Prop}

theorem nil (value : α) (h : P value) : Settle ([] : List (Demand ε)) (.ok value) P :=
  ⟨value, rfl, h⟩

theorem mono {P' : α → Prop} (h : Settle demands result P) (hP : ∀ value, P value → P' value) :
    Settle demands result P' := by
  unfold Settle at h ⊢
  split at h
  · exact h
  · obtain ⟨value, hresult, hvalue⟩ := h
    exact ⟨value, hresult, hP value hvalue⟩

theorem cons (demand : Demand ε) (hnot : demand.met = false → result = .error demand.error)
    (hmet : demand.met = true → Settle rest result P) : Settle (demand :: rest) result P := by
  unfold Settle refusal?
  cases h : demand.met with
  | false => exact hnot h
  | true => exact hmet h

theorem ite {p : Prop} [Decidable p] (error : ε) (h : p → Settle rest result P) :
    Settle (⟨p, error⟩ :: rest) (if p then result else .error error) P := by
  refine cons _ ?_ ?_
  · intro hnot
    exact if_neg (of_decide_eq_false hnot)
  · intro hmet
    have hp : p := of_decide_eq_true hmet
    rw [if_pos hp]
    exact h hp

/-- What is demanded after a first result may depend on its value only through the property. -/
theorem bind {f : α → Except ε β} (h : Settle demands result P)
    (hf : ∀ value, P value → Settle rest (f value) Q) :
    Settle (demands ++ rest) (result >>= f) Q := by
  unfold Settle at h ⊢
  rw [refusal?_append]
  cases hrefusal : refusal? demands with
  | some error =>
    rw [hrefusal] at h
    rw [h]
    rfl
  | none =>
    rw [hrefusal] at h
    obtain ⟨value, rfl, hvalue⟩ := h
    exact hf value hvalue

theorem map {f : α → β} (h : Settle demands result P) (hf : ∀ value, P value → Q (f value)) :
    Settle demands (result >>= fun value => pure (f value)) Q := by
  have hbind : Settle (demands ++ []) (result >>= fun value => pure (f value)) Q :=
    h.bind fun value hvalue => nil (f value) (hf value hvalue)
  rwa [List.append_nil] at hbind

theorem mapError (f : ε → ε') (h : Settle demands result P) :
    Settle (demands.map (Demand.mapError f)) (result.mapError f) P := by
  unfold Settle at h ⊢
  rw [refusal?_map]
  cases hrefusal : refusal? demands with
  | some error =>
    rw [hrefusal] at h
    rw [h]
    rfl
  | none =>
    rw [hrefusal] at h
    obtain ⟨value, rfl, hvalue⟩ := h
    exact ⟨value, rfl, hvalue⟩

end Settle

end Demand

end AxisGraph
