import Cpex.Ffi.Library
import Cpex.Infra.Traced

/-!
# Steps of the C interface

What an entry point does on its way to a return code: it decodes arguments, and dispatches hooks on
the engine.

* `Effect` — an argument that is decoded, or a hook that is dispatched
* `Step` — a part of an entry point, with its effects in their order
* `decode`, `dispatch` — the steps that have one
-/

namespace Cpex.Ffi

open Cpex.Infra

variable {T : Types}

/-- The code a failed step returns. -/
def orReturn {α : Type} (rc : Rc) : Option α → Except Rc α
  | some a => .ok a
  | none => .error rc

/-- `RC_TIMEOUT` or `RC_PANIC`. -/
def SafeRun.orReturn {α : Type} : SafeRun α → Except Rc α
  | .ok a => .ok a
  | .timeout => .error .timeout
  | .panicked => .error .panic

def hookIdentityResolve : String := "identity.resolve"

/-- The arguments of an invoke that are encoded. -/
inductive Argument where
  | payload
  | extensions
  | identity
  deriving DecidableEq

/-- The arguments of `invoke_by_name`. -/
inductive Dispatch (T : Types) where
  /-- The identity hook, before the named one. -/
  | identity (payload : IdentityPayload T) (extensions : T.Extensions)
  /-- The hook the caller named. -/
  | named (name : String) (payload : Payload T) (extensions : T.Extensions)
      (contextTable : Option T.Table)

/-- What the engine answers. -/
def Dispatch.answer (inner : Engine T) : Dispatch T → SafeRun (PipelineResult T × T.Tasks)
  | .identity payload extensions =>
    inner.invokeByName hookIdentityResolve (.identity payload) extensions none
  | .named name payload extensions contextTable =>
    inner.invokeByName name payload extensions contextTable

inductive Effect (T : Types) where
  /-- An argument is decoded from these bytes. -/
  | decodes (argument : Argument) (bytes : Bytes)
  | dispatches (d : Dispatch T)

abbrev Step (T : Types) : Type → Type := Traced (Effect T) Rc

/-- Decodes an argument, or returns `RC_PARSE_ERROR`. -/
def decode {α : Type} (argument : Argument) (read : Bytes → Except String α) (bytes : Bytes) :
    Step T α :=
  .emit (.decodes argument bytes) (orReturn .parseError (read bytes).toOption)

/-- Dispatches a hook through `run_safely`. -/
def dispatch (inner : Engine T) (d : Dispatch T) : Step T (PipelineResult T × T.Tasks) :=
  .emit (.dispatches d) (d.answer inner).orReturn

/-! ## What a step comes to -/

theorem orReturn_toOption_eq_ok_iff {α : Type} {rc : Rc} {x : Except String α} {a : α} :
    orReturn rc x.toOption = .ok a ↔ x = .ok a := by
  cases x with
  | error e => simp [orReturn, Except.toOption]
  | ok b => simp [orReturn, Except.toOption]

theorem outcome_decode_eq_ok_iff {α : Type} {argument : Argument} {read : Bytes → Except String α}
    {bytes : Bytes} {a : α} :
    (decode argument read bytes : Step T α).outcome = .ok a ↔ read bytes = .ok a :=
  orReturn_toOption_eq_ok_iff

/-- What follows on an argument that is decoded dispatches the hooks. -/
theorem dispatches_decode_bind {α β : Type} {argument : Argument}
    {read : Bytes → Except String α} {bytes : Bytes} {f : α → Step T β} {d : Dispatch T} :
    .dispatches d ∈ (decode argument read bytes >>= f).trace ↔
      ∃ a, read bytes = .ok a ∧ .dispatches d ∈ (f a).trace := by
  rw [Traced.mem_trace_bind, or_iff_right (by simp [decode])]
  simp only [outcome_decode_eq_ok_iff]

end Cpex.Ffi
