import Cpex.Infra.Machine

/-!
# The Python engine's lifecycle

`bindings/python/src/manager.rs`. `Lifecycle::initialize` and `Lifecycle::shutdown` take one lock
and run the engine in tasks that own the guard, so that a call that times out or is cancelled
leaves its task to finish.

* `advanceInitialize`, `advanceShutdown` — one call, cut at its awaits
* `lifecycle` — any number of calls over one `Lifecycle`, as a machine

The lock is given to any waiting task; `tokio` gives it to the first. A call's error carries no
payload here: the panic message and the engine's error are passed on unread.
-/

namespace Cpex.Bindings.Manager

open Cpex.Infra

inductive LifecycleError where
  | shutDown
  | timeout
  | panicked
  | engine
  deriving DecidableEq, Repr

/-- What the engine is asked to do, and when it is done. -/
inductive EngineEvent where
  | initializeStarted
  | initializeEnded
  | shutdownStarted
  | shutdownEnded
  deriving DecidableEq, Repr

/-- A task that may hold the lock: the one of an `initialize` call, or of a `shutdown` call. -/
inductive Owner where
  | initializing (i : Nat)
  | shuttingDown (j : Nat)
  deriving DecidableEq, Repr

/-- The state the calls share, and what they had the engine do, the latest first. -/
structure Lifecycle where
  lock : Option Owner
  shutdownStarted : Bool
  shutDown : Bool
  log : List EngineEvent
  deriving DecidableEq, Repr

namespace Lifecycle

def new : Lifecycle := ⟨none, false, false, []⟩

def isShuttingDown (l : Lifecycle) : Bool := l.shutdownStarted

/-- The guard is dropped. -/
def release (l : Lifecycle) : Lifecycle := { l with lock := none }

def record (l : Lifecycle) (e : EngineEvent) : Lifecycle := { l with log := e :: l.log }

/-- `lock_owned`, when the lock is free. -/
def acquire (l : Lifecycle) (o : Owner) : Option Lifecycle :=
  if l.lock = none then some { l with lock := some o } else none

/-- The end of a task that shut the engine down. -/
def settle (l : Lifecycle) : Lifecycle := { l with shutDown := true }.release

end Lifecycle

/-! ## `initialize` -/

/-- The task that runs the engine's `initialize`. It owns the guard, and a finished one keeps it in
its result until that is taken. -/
inductive Work where
  | spawned
  | running
  | finished (ok : Bool)
  | panicked
  deriving DecidableEq, Repr

/-- Where an `initialize` call stands, with the tasks it spawned. -/
inductive Initialize where
  | locking
  | locked
  | awaiting (work : Work)
  /-- The timeout has fired, and the flag is not set yet. -/
  | elapsed (work : Work)
  /-- The call was cancelled; its task goes on. -/
  | detached (work : Work)
  /-- The call has returned a timeout; the rollback awaits its task. -/
  | rollback (work : Work)
  | rollingBack
  | settling
  | rolledBack
  | notRolledBack
  /-- Nothing is left of the call. A cancelled one has no result. -/
  | ended (result : Option (Except LifecycleError Unit))

inductive WorkAct where
  | start
  | finish (ok : Bool)
  | panic
  deriving DecidableEq, Repr

inductive InitializeAct where
  | lockTimesOut
  | acquire
  | check
  | work (act : WorkAct)
  | deliver
  | elapse
  | rollBack
  | stop
  | stopped
  | settle
  | giveUp
  | cancel
  deriving DecidableEq, Repr

/-- The engine's `initialize` starts, ends or panics. A panic drops the guard. -/
def advanceWork (l : Lifecycle) : Work → WorkAct → Option (Lifecycle × Work)
  | .spawned, .start => some (l.record .initializeStarted, .running)
  | .running, .finish ok => some (l.record .initializeEnded, .finished ok)
  | .running, .panic => some ((l.record .initializeEnded).release, .panicked)
  | _, _ => none

/-- The task's handle is dropped: what it still does is its own, and its result is dropped. -/
def detach (l : Lifecycle) : Work → Lifecycle × Initialize
  | .finished _ => (l.release, .ended none)
  | .panicked => (l, .ended none)
  | work => (l, .detached work)

/-- One step of `initialize` call `i`, or of a task it left behind. -/
def advanceInitialize (l : Lifecycle) (i : Nat) :
    Initialize → InitializeAct → Option (Lifecycle × Initialize)
  | .locking, .lockTimesOut => some (l, .ended (some (.error .timeout)))
  | .locking, .acquire => (l.acquire (.initializing i)).map (·, .locked)
  | .locked, .check => some (if l.isShuttingDown then
      (l.release, .ended (some (.error .shutDown))) else (l, .awaiting .spawned))
  | .awaiting work, .work act => (advanceWork l work act).map fun r => (r.1, .awaiting r.2)
  | .elapsed work, .work act => (advanceWork l work act).map fun r => (r.1, .elapsed r.2)
  | .rollback work, .work act => (advanceWork l work act).map fun r => (r.1, .rollback r.2)
  | .detached work, .work act => (advanceWork l work act).map fun r => detach r.1 r.2
  | .awaiting (.finished ok), .deliver =>
    some (l.release, .ended (some (if ok then .ok () else .error .engine)))
  | .awaiting .panicked, .deliver => some (l, .ended (some (.error .panicked)))
  | .awaiting work, .elapse => some (l, .elapsed work)
  | .elapsed work, .rollBack => some ({ l with shutdownStarted := true }, .rollback work)
  -- the rollback
  | .rollback (.finished _), .stop => some (l.record .shutdownStarted, .rollingBack)
  | .rollback .panicked, .giveUp => some (l, .notRolledBack)
  | .rollingBack, .stopped => some (l.record .shutdownEnded, .settling)
  | .settling, .settle => some (l.settle, .rolledBack)
  -- the awaitable is dropped at an await
  | .locking, .cancel => some (l, .ended none)
  | .awaiting work, .cancel => some (detach l work)
  | _, _ => none

/-! ## `shutdown` -/

/-- The task of `start_shutdown`. -/
inductive ShutdownTask where
  | locking
  | locked
  | stopping
  | settling
  | ended
  deriving DecidableEq, Repr

/-- The awaitable of `await_shutdown`. -/
inductive Awaitable where
  | pending
  | dropped
  | returned (result : Except LifecycleError Unit)

structure Shutdown where
  task : ShutdownTask
  awaitable : Awaitable

inductive ShutdownAct where
  | acquire
  | check
  | stopped
  | settle
  | deliver
  | elapse
  | cancel
  deriving DecidableEq, Repr

/-- One step of the task of `shutdown` call `j`. -/
def advanceTask (l : Lifecycle) (j : Nat) :
    ShutdownTask → ShutdownAct → Option (Lifecycle × ShutdownTask)
  | .locking, .acquire => (l.acquire (.shuttingDown j)).map (·, .locked)
  | .locked, .check => some (if l.shutDown then (l.release, .ended)
      else (l.record .shutdownStarted, .stopping))
  | .stopping, .stopped => some (l.record .shutdownEnded, .settling)
  | .settling, .settle => some (l.settle, .ended)
  | _, _ => none

/-- What becomes of the awaitable. The task is not cancelled with it. -/
def awaitShutdown : ShutdownTask → Awaitable → ShutdownAct → Option Awaitable
  | .ended, .pending, .deliver => some (.returned (.ok ()))
  | _, .pending, .elapse => some (.returned (.error .timeout))
  | _, .pending, .cancel => some .dropped
  | _, _, _ => none

def advanceShutdown (l : Lifecycle) (j : Nat) (call : Shutdown) (act : ShutdownAct) :
    Option (Lifecycle × Shutdown) :=
  match advanceTask l j call.task act with
  | some (l, task) => some (l, { call with task })
  | none => (awaitShutdown call.task call.awaitable act).map fun awaitable =>
      (l, { call with awaitable })

/-! ## The machine -/

structure State where
  lifecycle : Lifecycle
  initializes : List Initialize
  shutdowns : List Shutdown

inductive Event where
  /-- `Lifecycle::initialize` is called. -/
  | callInitialize
  /-- `PyPolicyEngine::initialize` is called: `ensure_live` refuses it once the flag is set. -/
  | callPyInitialize
  /-- `Lifecycle::shutdown` is called, and has started its task. -/
  | callShutdown
  | initializeActs (i : Nat) (act : InitializeAct)
  | shutdownActs (j : Nat) (act : ShutdownAct)
  deriving DecidableEq, Repr

def State.beginInitialize (s : State) : State :=
  { s with initializes := s.initializes ++ [.locking] }

/-- `start_shutdown`. -/
def State.startShutdown (s : State) : State where
  lifecycle := { s.lifecycle with shutdownStarted := true }
  initializes := s.initializes
  shutdowns := s.shutdowns ++ [⟨.locking, .pending⟩]

def step (s : State) : Event → Option State
  | .callInitialize => some s.beginInitialize
  | .callPyInitialize => some (if s.lifecycle.isShuttingDown then s else s.beginInitialize)
  | .callShutdown => some s.startShutdown
  | .initializeActs i act =>
    match s.initializes[i]? with
    | some call => (advanceInitialize s.lifecycle i call act).map fun r =>
        { s with lifecycle := r.1, initializes := s.initializes.set i r.2 }
    | none => none
  | .shutdownActs j act =>
    match s.shutdowns[j]? with
    | some call => (advanceShutdown s.lifecycle j call act).map fun r =>
        { s with lifecycle := r.1, shutdowns := s.shutdowns.set j r.2 }
    | none => none

/-- The lifecycle calls of one engine. -/
def lifecycle : Machine State Event where
  step := step

def State.new : State := ⟨.new, [], []⟩

end Cpex.Bindings.Manager
