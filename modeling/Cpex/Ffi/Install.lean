import Cpex.Ffi.Library
import Cpex.Infra.Machine

/-!
# Installing the builtins, and the runtime

`crates/cpex-ffi/src/apl.rs`, and `cpex_configure_runtime` and `shared_runtime` of `lib.rs`. Both
set something up once, and any number of threads call them.

* `Install`, `installing` — calls of `cpex_apl_install` on one handle, as a machine
* `RuntimeCall`, `runtimes` — calls that configure or use the runtime of the process
* `parseWorkerThreads` — what the environment asks for

`install_builtins` and the tokio builder are dependencies: whether they fail or panic is a label.
-/

namespace Cpex.Ffi

open Cpex.Infra

/-! ## `cpex_apl_install` -/

/-- `CPEX_APL_ALLOW_PRIVATE_DESTINATIONS`. -/
def aplAllowPrivateDestinations : UInt32 := 1

/-- `CPEX_APL_EXPOSE_DELEGATED_CREDENTIALS`. -/
def aplExposeDelegatedCredentials : UInt32 := 2

/-- `CPEX_APL_KNOWN_FLAGS`. -/
def aplKnownFlags : UInt32 := aplAllowPrivateDestinations ||| aplExposeDelegatedCredentials

/-- `flags & bit != 0`. -/
def hasFlag (flags bit : UInt32) : Bool := flags &&& bit != 0

def unknownFlags (flags : UInt32) : Bool := hasFlag flags (~~~aplKnownFlags)

inductive InstallState where
  | notInstalled
  | installed
  | failed
  deriving DecidableEq, Repr

/-- What `install_host_defaults` sets up on an engine. -/
structure HostDefaults where
  /-- The APL config visitors: `install_builtins` appends one. -/
  visitors : Nat
  /-- Whether the HTTP transport reaches private destinations, once it is set. -/
  transport : Option Bool
  /-- The same of the transport that the secret providers use. -/
  secretProviders : Option Bool
  deriving DecidableEq, Repr

/-- `CpexEngineInner`, with the flags of every install that was started. -/
structure EngineInner where
  installState : InstallState
  exposeDelegatedCredentials : Bool
  engine : HostDefaults
  attempts : List UInt32
  deriving DecidableEq, Repr

/-- A fresh handle. A host may have set a transport and secret providers through Rust. -/
def EngineInner.new (transport secretProviders : Option Bool) : EngineInner :=
  ⟨.notInstalled, false, ⟨0, transport, secretProviders⟩, []⟩

/-- Where a call stands. -/
inductive Install where
  | entered (flags : UInt32)
  | locking (flags : UInt32)
  /-- With the lock on the state. -/
  | locked (flags : UInt32)
  /-- In `install_host_defaults`, about to install the builtins. -/
  | builtins (flags : UInt32)
  | transport (flags : UInt32)
  | secretProviders (flags : UInt32)
  /-- It has returned. -/
  | installed (flags : UInt32)
  /-- The exposure flag is stored. -/
  | exposed (flags : UInt32)
  /-- It has panicked, and `catch_unwind` has the panic. -/
  | panicked (flags : UInt32)
  | unlocking (flags : UInt32) (rc : Rc)
  | returned (flags : UInt32) (rc : Rc)
  deriving DecidableEq, Repr

structure Installs where
  inner : EngineInner
  /-- Who has the lock of `install_state`. -/
  owner : Option Nat
  calls : List Install

def Installs.new (transport secretProviders : Option Bool) : Installs :=
  ⟨.new transport secretProviders, none, []⟩

inductive InstallLabel where
  /-- `cpex_apl_install`, on the handle or on a null one. -/
  | call (null : Bool) (flags : UInt32)
  | advance (k : Nat)
  /-- `install_host_defaults` panics. `appended` tells whether the visitor is there. -/
  | panic (k : Nat) (appended : Bool)

/-- The next step of call `k`: the handle, the lock, and where the call stands then. -/
def Install.advance (inner : EngineInner) (owner : Option Nat) (k : Nat) :
    Install → Option (EngineInner × Option Nat × Install)
  | .entered flags =>
    some (inner, owner,
      if unknownFlags flags then .returned flags .invalidInput else .locking flags)
  | .locking flags => if owner = none then some (inner, some k, .locked flags) else none
  | .locked flags =>
    match inner.installState with
    | .installed => some (inner, owner, .unlocking flags .ok)
    | .failed => some (inner, owner, .unlocking flags .panic)
    | .notInstalled =>
      some ({ inner with attempts := inner.attempts ++ [flags] }, owner, .builtins flags)
  | .builtins flags =>
    some ({ inner with engine.visitors := inner.engine.visitors + 1 }, owner, .transport flags)
  | .transport flags =>
    -- the setters are set-once: what the host installed is kept
    some ({ inner with
      engine.transport := inner.engine.transport.or
        (some (hasFlag flags aplAllowPrivateDestinations)) }, owner, .secretProviders flags)
  | .secretProviders flags =>
    some ({ inner with
      engine.secretProviders := inner.engine.secretProviders.or
        (some (hasFlag flags aplAllowPrivateDestinations)) }, owner, .installed flags)
  | .installed flags =>
    some ({ inner with
      exposeDelegatedCredentials := hasFlag flags aplExposeDelegatedCredentials }, owner,
      .exposed flags)
  | .exposed flags =>
    some ({ inner with installState := .installed }, owner, .unlocking flags .ok)
  | .panicked flags =>
    some ({ inner with installState := .failed }, owner, .unlocking flags .panic)
  | .unlocking flags rc => some (inner, none, .returned flags rc)
  | .returned _ _ => none

/-- A panic inside `install_host_defaults`. -/
def Install.panic (inner : EngineInner) (appended : Bool) :
    Install → Option (EngineInner × Install)
  | .builtins flags =>
    some ({ inner with
      engine.visitors := inner.engine.visitors + if appended then 1 else 0 }, .panicked flags)
  | .transport flags | .secretProviders flags => some (inner, .panicked flags)
  | _ => none

def Installs.step (s : Installs) : InstallLabel → Option Installs
  | .call null flags =>
    some { s with calls := s.calls ++ [if null then .returned flags .invalidHandle
      else .entered flags] }
  | .advance k =>
    s.calls[k]?.bind fun call => (call.advance s.inner s.owner k).map fun (inner, owner, call') =>
      ⟨inner, owner, s.calls.set k call'⟩
  | .panic k appended =>
    s.calls[k]?.bind fun call => (call.panic s.inner appended).map fun (inner, call') =>
      { s with inner := inner, calls := s.calls.set k call' }

/-- Calls of `cpex_apl_install` on one handle. -/
def installing : Machine Installs InstallLabel where
  step := Installs.step

/-! ## The runtime of the process -/

/-- `str::parse::<usize>`. -/
def parseUsize (raw : String) : Option Nat :=
  let digits := match raw.toList with
    | '+' :: rest => rest
    | chars => chars
  if digits.isEmpty ∨ digits.any (fun c => !c.isDigit) then none
  else
    let n := digits.foldl (fun n c => n * 10 + (c.toNat - '0'.toNat)) 0
    if n < UInt64.size then some n else none

/-- `parse_worker_threads`. -/
def parseWorkerThreads (raw : String) : Option Nat :=
  match parseUsize raw with
  | some n => if n > 0 then some n else none
  | none => none

/-- `worker_threads_from_env`, of `CPEX_FFI_WORKER_THREADS`. -/
def workerThreadsFromEnv (env : Option String) : Option Nat := env.bind parseWorkerThreads

/-- A tokio runtime: its worker threads, or the default number. -/
abbrev Runtime : Type := Option Nat

inductive ConfigureRc where
  | ok
  | invalidInput
  | pipelineError
  deriving DecidableEq, Repr

/-- Where a call stands. `shared_runtime` is called by the engine constructors and `run_safely`. -/
inductive RuntimeCall where
  /-- `cpex_configure_runtime`. -/
  | configuring (workerThreads : Int32)
  /-- With a runtime of its own, about to `set` it. -/
  | setting (workerThreads : Int32) (runtime : Runtime)
  | configured (workerThreads : Int32) (rc : ConfigureRc)
  /-- `shared_runtime`, before `get_or_init`. -/
  | getting
  /-- In its initializer. -/
  | building
  /-- It has the runtime. -/
  | got (runtime : Runtime)
  /-- The initializer panicked. -/
  | panicked
  deriving DecidableEq, Repr

/-- `SHARED_RUNTIME`: who initializes it, or the runtime, and the calls. -/
structure Runtimes where
  sharedRuntime : Option Runtime
  initializing : Option Nat
  calls : List RuntimeCall

def Runtimes.new : Runtimes := ⟨none, none, []⟩

inductive RuntimeLabel where
  | configure (workerThreads : Int32)
  | use
  | advance (k : Nat)
  /-- The builder fails. -/
  | fail (k : Nat)

def Runtimes.setCall (s : Runtimes) (k : Nat) (call : RuntimeCall) : Runtimes :=
  { s with calls := s.calls.set k call }

/-- The next step of call `k`. A `OnceLock` that is being initialized blocks. -/
def Runtimes.advance (env : Option String) (s : Runtimes) (k : Nat) :
    RuntimeCall → Option Runtimes
  | .configuring workerThreads =>
    if workerThreads ≤ 0 then some (s.setCall k (.configured workerThreads .invalidInput))
    else some (s.setCall k (.setting workerThreads (some workerThreads.toInt.toNat)))
  | .setting workerThreads runtime =>
    if s.initializing ≠ none then none
    else match s.sharedRuntime with
      | some _ => some (s.setCall k (.configured workerThreads .invalidInput))
      | none => some { s.setCall k (.configured workerThreads .ok) with
          sharedRuntime := some runtime }
  | .getting =>
    match s.sharedRuntime with
    | some runtime => some (s.setCall k (.got runtime))
    | none =>
      if s.initializing ≠ none then none
      else some { s.setCall k .building with initializing := some k }
  | .building =>
    let runtime := workerThreadsFromEnv env
    some { s.setCall k (.got runtime) with sharedRuntime := some runtime, initializing := none }
  | .configured _ _ | .got _ | .panicked => none

/-- A builder that fails: `cpex_configure_runtime` says so, and the initializer of `shared_runtime`
panics and leaves the cell as it was. -/
def Runtimes.fail (s : Runtimes) (k : Nat) : RuntimeCall → Option Runtimes
  | .configuring workerThreads =>
    if workerThreads ≤ 0 then none
    else some (s.setCall k (.configured workerThreads .pipelineError))
  | .building => some { s.setCall k .panicked with initializing := none }
  | _ => none

def Runtimes.step (env : Option String) (s : Runtimes) : RuntimeLabel → Option Runtimes
  | .configure workerThreads => some { s with calls := s.calls ++ [.configuring workerThreads] }
  | .use => some { s with calls := s.calls ++ [.getting] }
  | .advance k => s.calls[k]?.bind (s.advance env k)
  | .fail k => s.calls[k]?.bind (s.fail k)

/-- Calls that configure or use the runtime. The environment does not change. -/
def runtimes (env : Option String) : Machine Runtimes RuntimeLabel where
  step := Runtimes.step env

end Cpex.Ffi
