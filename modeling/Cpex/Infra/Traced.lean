import Cpex.Infra.Except

/-!
# Fallible computations with a trace

A computation that may fail, with the events it went through.

* `Traced` — the events, and the outcome
* `Traced.outcome_bind` — the outcome is that of the computation without the events
* `Traced.mem_trace_bind`, `Traced.trace_bind_of_silent` — the events are those of the first part,
  and of what follows on its value
-/

namespace Cpex.Infra

universe u

structure Traced (ω ε : Type*) (α : Type u) where
  trace : List ω
  outcome : Except ε α

namespace Traced

variable {ω ε : Type*} {α β : Type u}

/-- A step without events. -/
def lift (x : Except ε α) : Traced ω ε α := ⟨[], x⟩

/-- A step that is an event. -/
def emit (event : ω) (x : Except ε α) : Traced ω ε α := ⟨[event], x⟩

protected def bind (x : Traced ω ε α) (f : α → Traced ω ε β) : Traced ω ε β :=
  match x.outcome with
  | .error e => ⟨x.trace, .error e⟩
  | .ok a => ⟨x.trace ++ (f a).trace, (f a).outcome⟩

instance : Monad (Traced ω ε) where
  pure a := lift (.ok a)
  bind := Traced.bind

@[simp] theorem outcome_pure (a : α) : (pure a : Traced ω ε α).outcome = .ok a := rfl

@[simp] theorem outcome_lift (x : Except ε α) : (lift x : Traced ω ε α).outcome = x := rfl

@[simp] theorem outcome_emit (event : ω) (x : Except ε α) : (emit event x).outcome = x := rfl

@[simp] theorem trace_pure (a : α) : (pure a : Traced ω ε α).trace = [] := rfl

@[simp] theorem trace_lift (x : Except ε α) : (lift x : Traced ω ε α).trace = [] := rfl

@[simp] theorem trace_emit (event : ω) (x : Except ε α) : (emit event x).trace = [event] := rfl

/-- The events do not matter to the outcome. -/
@[simp] theorem outcome_bind (x : Traced ω ε α) (f : α → Traced ω ε β) :
    (x >>= f).outcome = x.outcome >>= fun a => (f a).outcome := by
  show (Traced.bind x f).outcome = _
  unfold Traced.bind
  cases x.outcome with
  | error e => rfl
  | ok a => rfl

@[simp] theorem lift_ok_bind (a : α) (f : α → Traced ω ε β) : (lift (.ok a) >>= f) = f a := rfl

@[simp] theorem lift_error_bind (e : ε) (f : α → Traced ω ε β) :
    (lift (.error e) >>= f) = lift (.error e) := rfl

theorem mk_ok_bind (events : List ω) (a : α) (f : α → Traced ω ε β) :
    ((⟨events, .ok a⟩ : Traced ω ε α) >>= f) = ⟨events ++ (f a).trace, (f a).outcome⟩ := rfl

theorem mk_error_bind (events : List ω) (e : ε) (f : α → Traced ω ε β) :
    ((⟨events, .error e⟩ : Traced ω ε α) >>= f) = ⟨events, .error e⟩ := rfl

instance : LawfulMonad (Traced ω ε) := by
  refine LawfulMonad.mk' _ ?_ (fun _ _ => rfl) ?_
  · rintro α ⟨trace, outcome⟩
    cases outcome with
    | error e => rfl
    | ok a => exact congrArg (Traced.mk · _) (List.append_nil trace)
  · rintro α β γ ⟨trace, outcome⟩ f g
    cases outcome with
    | error e => rfl
    | ok a =>
      show Traced.bind ⟨trace ++ (f a).trace, (f a).outcome⟩ g =
        ⟨trace ++ (Traced.bind (f a) g).trace, (Traced.bind (f a) g).outcome⟩
      obtain ⟨trace', outcome'⟩ := f a
      cases outcome' with
      | error e => rfl
      | ok b => exact congrArg (Traced.mk · _) (List.append_assoc ..)

/-- What follows without events adds none. -/
theorem trace_bind_of_silent {x : Traced ω ε α} {f : α → Traced ω ε β}
    (h : ∀ a, (f a).trace = []) : (x >>= f).trace = x.trace := by
  show (Traced.bind x f).trace = _
  unfold Traced.bind
  cases x.outcome with
  | error e => rfl
  | ok a =>
    show x.trace ++ (f a).trace = x.trace
    rw [h a, List.append_nil]

/-- Steps without events, one after the other. -/
theorem lift_bind (x : Except ε α) (f : α → Except ε β) :
    (lift (x >>= f) : Traced ω ε β) = lift x >>= fun a => lift (f a) := by
  cases x with
  | error e => rfl
  | ok a => rfl

theorem mem_trace_bind {x : Traced ω ε α} {f : α → Traced ω ε β} {event : ω} :
    event ∈ (x >>= f).trace ↔
      event ∈ x.trace ∨ ∃ a, x.outcome = .ok a ∧ event ∈ (f a).trace := by
  show event ∈ (Traced.bind x f).trace ↔ _
  unfold Traced.bind
  cases x.outcome with
  | error e => simp
  | ok a => simp

/-- What follows a step without events has the events. -/
theorem mem_trace_lift_bind {x : Except ε α} {f : α → Traced ω ε β} {event : ω} :
    event ∈ (lift x >>= f).trace ↔ ∃ a, x = .ok a ∧ event ∈ (f a).trace := by
  rw [mem_trace_bind]
  simp

end Traced

end Cpex.Infra
