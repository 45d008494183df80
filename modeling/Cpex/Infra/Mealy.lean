import Mathlib.Data.List.Induction

/-!
# Machines that answer every event

A machine takes one event at a time, and each step gives the next state and an output. The outputs
of a run are its history.

* `after`, `outputs` — the state a run ends in, and its history
* `exists_of_outputs_eq_append` — a history is cut where the run is
* `history_invariant` — what each step preserves of the state and the history so far
-/

namespace Cpex.Infra

/-- A machine with states `σ`, events `ε` and outputs `ω`. -/
structure Mealy (σ ε ω : Type*) where
  step : σ → ε → σ × ω

namespace Mealy

variable {σ ε ω : Type*} (M : Mealy σ ε ω)

/-- The state after the events. -/
def after : σ → List ε → σ
  | s, [] => s
  | s, e :: es => after (M.step s e).1 es

/-- The outputs of the events, in order. -/
def outputs : σ → List ε → List ω
  | _, [] => []
  | s, e :: es => (M.step s e).2 :: outputs (M.step s e).1 es

theorem after_append (s : σ) (es es' : List ε) :
    M.after s (es ++ es') = M.after (M.after s es) es' := by
  induction es generalizing s with
  | nil => rfl
  | cons e es ih => exact ih (M.step s e).1

theorem outputs_append (s : σ) (es es' : List ε) :
    M.outputs s (es ++ es') = M.outputs s es ++ M.outputs (M.after s es) es' := by
  induction es generalizing s with
  | nil => rfl
  | cons e es ih =>
    rw [List.cons_append, outputs, ih, outputs, List.cons_append]
    rfl

/-- **A history is cut where the run is.** -/
theorem exists_of_outputs_eq_append {s : σ} {es : List ε} {before rest : List ω}
    (h : M.outputs s es = before ++ rest) :
    ∃ es₁ es₂, es = es₁ ++ es₂ ∧ M.outputs s es₁ = before ∧
      M.outputs (M.after s es₁) es₂ = rest := by
  induction before generalizing s es with
  | nil => exact ⟨[], es, rfl, rfl, h⟩
  | cons o before ih =>
    cases es with
    | nil => cases h
    | cons e es =>
      rw [outputs, List.cons_append, List.cons.injEq] at h
      obtain ⟨es₁, es₂, rfl, hbefore, hrest⟩ := ih h.2
      refine ⟨e :: es₁, es₂, rfl, ?_, hrest⟩
      rw [outputs, h.1, hbefore]

/-- A history that goes on is that of a run that goes on. -/
theorem exists_of_outputs_eq_cons {s : σ} {es : List ε} {o : ω} {rest : List ω}
    (h : M.outputs s es = o :: rest) :
    ∃ e es', es = e :: es' ∧ (M.step s e).2 = o ∧ M.outputs (M.step s e).1 es' = rest := by
  cases es with
  | nil => cases h
  | cons e es' =>
    rw [outputs, List.cons.injEq] at h
    exact ⟨e, es', rfl, h.1, h.2⟩

/-- **History rule.** What each step preserves of the history so far and the state holds of every
history and the state it ends in. -/
theorem history_invariant {I : List ω → σ → Prop}
    (hstep : ∀ history s e, I history s → I (history ++ [(M.step s e).2]) (M.step s e).1)
    {s : σ} (hstart : I [] s) (es : List ε) : I (M.outputs s es) (M.after s es) := by
  induction es using List.reverseRecOn with
  | nil => exact hstart
  | append_singleton es e ih =>
    rw [outputs_append, after_append]
    exact hstep _ _ e ih

end Mealy

end Cpex.Infra
