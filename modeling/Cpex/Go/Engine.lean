import Cpex.Ffi.Invoke
import Cpex.Infra.Machine

/-!
# The Go binding

`go/cpex/engine.go`. A `PolicyEngine`, a `ContextTable` and a `BackgroundTasks` each hold a handle
into the memory of the C interface, or nil.

* `Call` — a call in progress, cut at the C call it makes
* `binding` — any number of calls on any number of engines, as a machine

A call holds the read lock of its engine, and `Shutdown` takes the write lock. A context table and
a `BackgroundTasks` are each used by one goroutine at a time. `msgpack` is a dependency: a value is
given with what `Marshal` makes of it, and `Unmarshal` is a function of the bytes.
-/

namespace Cpex.Go

open Cpex.Infra Cpex.Ffi

/-- `msgpack.Unmarshal` at the types of the binding. -/
structure Msgpack (T : Types) where
  unmarshalResult : Bytes → Option FfiPipelineResult
  /-- At the payload type of an `Invoke`. -/
  unmarshalPayload : Bytes → Bool
  unmarshalExtensions : Bytes → Bool
  unmarshalErrors : Bytes → Option (List PluginErrorRecord)

inductive GoError where
  | invalidHandle
  | marshalFailed
  | rc (rc : Rc)
  | resultUnmarshalFailed
  | modifiedPayloadUnmarshalFailed
  | modifiedExtensionsUnmarshalFailed
  | errorDecodeFailed
  deriving DecidableEq

/-- `C.int(n)`. -/
def cInt (n : Nat) : Int32 := Int32.ofNat n

/-- The pointer and the length of a Go slice. -/
def slice (bytes : Bytes) : Slice := ⟨if bytes.isEmpty then none else some bytes, cInt bytes.length⟩

/-- The pointer and the length of a Go string, as a C string. -/
def cString (s : Bytes) : Slice := ⟨some s, cInt s.length⟩

/-- The arguments of a call, marshalled. `none` is a marshal failure. -/
structure Request where
  hookName : Bytes
  payloadType : UInt8
  payload : Option Bytes
  /-- Or nil. -/
  extensions : Option (Option Bytes)

/-- Which of the three calls is made. -/
inductive Entry where
  | invokeByName
  | invokeResolved (identity : Option Bytes)
  /-- The generic `Invoke`. -/
  | invoke

/-- The bytes of an identity, if it is part of the call. -/
def Entry.identity : Entry → Option (Option Bytes)
  | .invokeResolved identity => some identity
  | .invokeByName | .invoke => none

/-- What the C call is made with. -/
structure Marshalled where
  identity : Option Slice
  args : InvokeArgs

def marshal (entry : Entry) (request : Request) : Option Marshalled := do
  let identity ← match entry.identity with
    | none => some none
    | some identity => identity.map fun bytes => some (slice bytes)
  let payload ← request.payload
  let extensions ← match request.extensions with
    | none => some []
    | some extensions => extensions
  return ⟨identity, ⟨cString request.hookName, request.payloadType, slice payload,
    slice extensions⟩⟩

structure BackgroundTasks where
  handle : Option Addr
  engine : Option Nat

/-- Where a call stands. -/
inductive Call where
  /-- About to call C, with the handle it took from the context table. -/
  | invoking (engine : Nat) (entry : Entry) (marshalled : Marshalled) (ctHandle : Option Addr)
  /-- C has returned. `ctHandle` is what it was given. -/
  | invoked (engine : Nat) (entry : Entry) (ctHandle : Option Addr) (rc : Rc) (outs : Outs)
  /-- About to wait for `background`. -/
  | waiting (engine background : Nat)
  | waited (engine : Nat) (rc : Rc) (errors : ErrorsOut)
  /-- `err` is what the call returns. -/
  | returned (err : Option GoError)

/-- The engine whose read lock the call holds. -/
def Call.reads : Call → Option Nat
  | .invoking engine _ _ _ | .invoked engine _ _ _ _ | .waiting engine _ | .waited engine _ _ =>
    some engine
  | .returned _ => none

/-- The `BackgroundTasks` the call uses. -/
def Call.uses : Call → Option Nat
  | .waiting _ background => some background
  | _ => none

structure State (T : Types) where
  memory : Memory T
  /-- The handles of the `PolicyEngine`s. -/
  engines : List (Option Addr)
  /-- The handles of the `ContextTable`s. -/
  tables : List (Option Addr)
  backgrounds : List BackgroundTasks
  calls : List Call

inductive Event (T : Types) where
  /-- `NewPolicyEngineDefault`, or `NewPolicyEngine`. -/
  | newEngine
  /-- One of the three calls on `engine`, with a context table or nil. -/
  | invoke (engine : Nat) (entry : Entry) (request : Request) (contextTable : Option Nat)
  | wait (background : Nat)
  /-- Call `k` calls C. `inner` is what the engine answers. -/
  | callC (k : Nat) (inner : Engine T) (allocates : Nat → Bool)
  /-- Call `k` goes on to its return. -/
  | finish (k : Nat)
  | closeTable (table : Nat)
  | closeBackground (background : Nat)
  | shutdown (engine : Nat)

namespace State

variable {T : Types}

def new : State T := ⟨.empty, [], [], [], []⟩

/-- The handle of an engine that was not shut down. -/
def engineHandle (s : State T) (engine : Nat) : Option Addr := s.engines[engine]?.join

def push (s : State T) (call : Call) : State T := { s with calls := s.calls ++ [call] }

def setCall (s : State T) (k : Nat) (call : Call) : State T :=
  { s with calls := s.calls.set k call }

/-- The start of a call, up to the C call. A context table that is passed on is left nil. -/
def invoke (s : State T) (engine : Nat) (entry : Entry) (request : Request)
    (contextTable : Option Nat) : State T :=
  if (s.engineHandle engine).isNone then s.push (.returned (some .invalidHandle))
  else match marshal entry request with
    | none => s.push (.returned (some .marshalFailed))
    | some marshalled =>
      match contextTable with
      | none => s.push (.invoking engine entry marshalled none)
      | some table =>
        { s.push (.invoking engine entry marshalled s.tables[table]?.join) with
          tables := s.tables.set table none }

/-- The start of a `Wait`. -/
def wait (s : State T) (background : Nat) (bg : BackgroundTasks) : State T :=
  if bg.handle.isNone then s.push (.returned none)
  else match bg.engine with
    | none => s.push (.returned (some .invalidHandle))
    | some engine =>
      if (s.engineHandle engine).isNone then
        -- the engine is shut down: the handle is given up
        { s.push (.returned (some .invalidHandle)) with
          backgrounds := s.backgrounds.set background { bg with handle := none } }
      else s.push (.waiting engine background)

end State

/-- `C.GoBytes`. -/
def goBytes {T : Types} (m : Memory T) (pointer : Option Addr) (len : Int32) : Memory T × Bytes :=
  match pointer with
  | none => (m, [])
  | some p =>
    match m.get? p with
    | some (.bytes data) => (m, data.take len.toInt.toNat)
    | _ => (m.misuse, [])

section

variable {T : Types} (L : Library T) (M : Msgpack T)

/-- The C call of call `k`. -/
def callC (s : State T) (k : Nat) (call : Call) (inner : Engine T) (allocates : Nat → Bool) :
    Option (State T) :=
  match call with
  | .invoking engine entry marshalled ctHandle =>
    let (m, rc, outs) := match marshalled.identity with
      | none => cpexInvoke L inner allocates s.memory (s.engineHandle engine) marshalled.args
          ctHandle
      | some identity => cpexInvokeResolved L inner allocates s.memory (s.engineHandle engine)
          identity marshalled.args ctHandle
    some { s.setCall k (.invoked engine entry ctHandle rc outs) with memory := m }
  | .waiting engine background =>
    match s.backgrounds[background]? with
    | none => none
    | some bg =>
      let (m, rc, errors) := cpexWaitBackground L inner allocates s.memory (s.engineHandle engine)
        bg.handle (none, 0)
      -- consumed by Rust regardless of the code
      some { s.setCall k (.waited engine rc errors) with
        memory := m
        backgrounds := s.backgrounds.set background { bg with handle := none } }
  | _ => none

/-- What `Invoke` makes of a result: the modified payload and extensions have to decode. -/
def typedError (entry : Entry) (raw : FfiPipelineResult) : Option GoError :=
  match entry with
  | .invokeByName | .invokeResolved _ => none
  | .invoke =>
    let payload := raw.modifiedPayload.getD []
    let extensions := raw.modifiedExtensions.getD []
    if payload.length > 0 && !M.unmarshalPayload payload then
      some .modifiedPayloadUnmarshalFailed
    else if extensions.length > 0 && !M.unmarshalExtensions extensions then
      some .modifiedExtensionsUnmarshalFailed
    else none

/-- The rest of call `k`. -/
def finish (s : State T) (k : Nat) (call : Call) : Option (State T) :=
  match call with
  | .invoked engine entry _ rc outs =>
    if rc ≠ .ok then some (s.setCall k (.returned (some (.rc rc))))
    else
      let (m, resultBytes) := goBytes s.memory outs.result outs.resultLen
      let m := cpexFreeBytes m outs.result outs.resultLen
      match M.unmarshalResult resultBytes with
      | none =>
        some { s.setCall k (.returned (some .resultUnmarshalFailed)) with memory := m }
      | some raw =>
        some { s.setCall k (.returned (typedError M entry raw)) with
          memory := m
          tables := s.tables ++ [outs.contextTable]
          backgrounds := s.backgrounds ++ [⟨outs.bgHandle, some engine⟩] }
  | .waited _ rc (pointer, len) =>
    if rc ≠ .ok then some (s.setCall k (.returned (some (.rc rc))))
    else
      let (m, errorsBytes) := goBytes s.memory pointer len
      let m := cpexFreeBytes m pointer len
      some { s.setCall k (.returned (if (M.unmarshalErrors errorsBytes).isNone then
        some .errorDecodeFailed else none)) with memory := m }
  | _ => none

/-- Another goroutine may not use a `BackgroundTasks` that a call uses, and `Shutdown` waits for
the calls on its engine. -/
def step (s : State T) : Event T → Option (State T)
  | .newEngine =>
    let (m, p) := s.memory.alloc .engine
    some { s with memory := m, engines := s.engines ++ [some p] }
  | .invoke engine entry request contextTable =>
    some (s.invoke engine entry request contextTable)
  | .wait background =>
    match s.backgrounds[background]? with
    | some bg =>
      if s.calls.any fun call => call.uses = some background then none
      else some (s.wait background bg)
    | none => none
  | .callC k inner allocates =>
    s.calls[k]?.bind fun call => callC L s k call inner allocates
  | .finish k => s.calls[k]?.bind (finish M s k)
  | .closeTable table =>
    match s.tables[table]? with
    | some ct => some { s with
        memory := cpexFreeContextTable s.memory ct
        tables := s.tables.set table none }
    | none => none
  | .closeBackground background =>
    match s.backgrounds[background]? with
    | some bg =>
      if s.calls.any fun call => call.uses = some background then none
      else some { s with
        memory := cpexFreeBackground s.memory bg.handle
        backgrounds := s.backgrounds.set background { bg with handle := none } }
    | none => none
  | .shutdown engine =>
    if s.calls.any fun call => call.reads = some engine then none
    else match s.engines[engine]? with
      | some handle => some { s with
          memory := cpexShutdown s.memory handle
          engines := s.engines.set engine none }
      | none => none

/-- The calls a Go program makes. -/
def binding : Machine (State T) (Event T) where
  step := step L M

end

end Cpex.Go
