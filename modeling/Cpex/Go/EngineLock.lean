import Cpex.Infra.Heap
import Cpex.Infra.RwLock
import Cpex.Infra.Simulation

/-!
# The lock of a Go engine

`go/cpex/engine.go`, `apl.go`, `secrets.go`. Every method of a `PolicyEngine` takes the read lock
of `mu`, and `Shutdown` and the finalizer take the write lock. Any number of goroutines call them,
and the code of the host that a method runs may call the engine again.

* `Frame` — one method in progress, cut at what it does to the lock, the handle and C
* `guarded` — the goroutines over one engine, as a machine
* `Gate`, `gate` — what the lock is for: calls that get in while the engine is open

`BackgroundTasks.Wait` is a method here: it takes the lock of its engine. What C answers is in
`Cpex.Go.Engine`.
-/

namespace Cpex.Go

open Cpex.Infra

/-- The methods under the read lock. `initializePlugins` is `Initialize`. -/
inductive Method where
  | registerFactories
  | loadConfig
  | initializePlugins
  | hasHooksFor
  | pluginCount
  | isInitialized
  | pluginNames
  | invokeByName
  | invokeResolved
  | wait
  | enableAPL
  | refreshSecrets
  | secretsLastSuccess
  deriving DecidableEq, Repr

/-- `RegisterFactories` calls a function of the host, and the invokes marshal a value of the host,
which may bring its own encoder. -/
def Method.runsHost : Method → Bool
  | .registerFactories | .invokeByName | .invokeResolved => true
  | _ => false

/-- `Shutdown` is also what the finalizer runs. -/
inductive Op where
  | method (m : Method)
  | shutdown
  deriving DecidableEq, Repr

inductive Outcome where
  /-- The handle was nil: `ErrCpexInvalidHandle`, and `false` or 0 of a query. -/
  | refused
  /-- The code of the host failed or panicked, and C was not called. -/
  | stopped
  | answered
  deriving DecidableEq, Repr

/-- Where a method stands. -/
inductive Frame where
  | locking (m : Method)
  /-- With the read lock, before `m.handle == nil`. -/
  | checking (m : Method)
  /-- The code of the host runs. That of `RegisterFactories` has the handle. -/
  | inHost (m : Method)
  /-- About to call C with the handle. -/
  | entering (m : Method)
  | inC (m : Method)
  /-- The deferred `RUnlock`. -/
  | unlocking (m : Method) (outcome : Outcome)
  | announcing
  | draining
  /-- With the write lock, before `m.handle == nil`. -/
  | shutChecking
  | shutEntering
  /-- In `cpex_shutdown`. -/
  | shuttingDown
  /-- About to set the handle to nil. -/
  | clearing
  | shutUnlocking
  deriving DecidableEq, Repr

def Op.start : Op → Frame
  | .method m => .locking m
  | .shutdown => .announcing

/-- What `cpex_shutdown` makes of the engine that a handle points to. -/
inductive Box where
  | live
  | freeing
  | freed
  deriving DecidableEq, Repr

/-- What the lock protects: whether the handle is set, and the engine it points to. -/
structure Protected where
  handle : Bool
  box : Box
  deriving DecidableEq, Repr

/-- One engine and the goroutines that use it. The calls of a goroutine are nested, the innermost
first. -/
structure PolicyEngine where
  lock : RwLock
  shared : Protected
  goroutines : List (List Frame)

namespace PolicyEngine

/-- `NewPolicyEngineDefault`. -/
def new : PolicyEngine := ⟨.new, ⟨true, .live⟩, []⟩

def handle (s : PolicyEngine) : Bool := s.shared.handle

def box (s : PolicyEngine) : Box := s.shared.box

/-- The frames in progress. -/
def frames (s : PolicyEngine) : List Frame := s.goroutines.flatten

def setStack (s : PolicyEngine) (g : Nat) (stack : List Frame) : PolicyEngine :=
  { s with goroutines := s.goroutines.set g stack }

end PolicyEngine

inductive Label where
  /-- `go`. -/
  | spawn
  | call (g : Nat) (op : Op)
  /-- The code of the host returns. -/
  | hostReturns (g : Nat) (ok : Bool)
  /-- Goroutine `g` goes on. -/
  | advance (g : Nat)

/-- A goroutine calls the engine at its top, or from the code of the host. -/
def mayCall : List Frame → Bool
  | [] => true
  | .inHost _ :: _ => true
  | _ => false

/-- What follows the code of the host. -/
def hosted : Method → Bool → Frame
  | m, false => .unlocking m .stopped
  | .registerFactories, true => .unlocking .registerFactories .answered
  | m, true => .entering m

/-- One step of the innermost frame: the lock, what it protects, and the frame, if it goes on. -/
def advance (l : RwLock) (v : Protected) : Frame → Option (RwLock × Protected × Option Frame)
  | .locking m => (l.turn .readLock).map fun l => (l, v, some (.checking m))
  | .checking m =>
    some (l, v, some (
      if !v.handle then .unlocking m .refused
      else if m.runsHost then .inHost m
      else .entering m))
  | .inHost _ => none
  | .entering m => some (l, v, some (.inC m))
  | .inC m => some (l, v, some (.unlocking m .answered))
  | .unlocking _ _ => (l.turn .readUnlock).map fun l => (l, v, none)
  | .announcing => (l.turn .announce).map fun l => (l, v, some .draining)
  | .draining => (l.turn .writeLock).map fun l => (l, v, some .shutChecking)
  | .shutChecking => some (l, v, some (if v.handle then .shutEntering else .shutUnlocking))
  | .shutEntering => some (l, { v with box := .freeing }, some .shuttingDown)
  | .shuttingDown => some (l, { v with box := .freed }, some .clearing)
  | .clearing => some (l, { v with handle := false }, some .shutUnlocking)
  | .shutUnlocking => (l.turn .writeUnlock).map fun l => (l, v, none)

def PolicyEngine.step (s : PolicyEngine) : Label → Option PolicyEngine
  | .spawn => some { s with goroutines := s.goroutines ++ [[]] }
  | .call g op =>
    match s.goroutines[g]? with
    | some stack => if mayCall stack then some (s.setStack g (op.start :: stack)) else none
    | none => none
  | .hostReturns g ok =>
    match s.goroutines[g]? with
    | some (.inHost m :: rest) => some (s.setStack g (hosted m ok :: rest))
    | _ => none
  | .advance g =>
    match s.goroutines[g]? with
    | some (f :: rest) => (advance s.lock s.shared f).map fun (l, v, next) =>
        { s.setStack g (next.toList ++ rest) with lock := l, shared := v }
    | _ => none

/-- The calls of any number of goroutines on one engine. -/
def guarded : Machine PolicyEngine Label where
  step := PolicyEngine.step

/-- What a goroutine sees: its calls, and what they return. -/
inductive Observed where
  | called (g : Nat) (op : Op)
  | returned (g : Nat) (op : Op) (outcome : Outcome)
  deriving DecidableEq, Repr

/-- What the innermost frame returns with its next step. -/
def Frame.returns : Frame → Option (Op × Outcome)
  | .unlocking m outcome => some (.method m, outcome)
  | .shutUnlocking => some (.shutdown, .answered)
  | _ => none

def observed (s : PolicyEngine) : Label → Option Observed
  | .call g op => some (.called g op)
  | .advance g =>
    match s.goroutines[g]? with
    | some (f :: _) => f.returns.map fun (op, outcome) => .returned g op outcome
    | _ => none
  | .spawn | .hostReturns _ _ => none

/-! ## What the lock is for -/

/-- A call on an engine that is open or closed. -/
inductive Stage where
  | pending (op : Op)
  | inside (m : Method)
  | decided (op : Op) (outcome : Outcome)
  deriving DecidableEq, Repr

structure Gate where
  isOpen : Bool
  goroutines : List (List Stage)

def Gate.new : Gate := ⟨true, []⟩

inductive GateLabel where
  | spawn
  | call (g : Nat) (op : Op)
  /-- The call is let in or turned away, and a `Shutdown` closes the engine. -/
  | decide (g : Nat)
  | finish (g : Nat) (outcome : Outcome)
  | return_ (g : Nat)

namespace Gate

def setStack (s : Gate) (g : Nat) (stack : List Stage) : Gate :=
  { s with goroutines := s.goroutines.set g stack }

/-- No call is inside the engine. -/
def vacant (s : Gate) : Bool :=
  s.goroutines.flatten.all fun
    | .inside _ => false
    | _ => true

def mayCall : List Stage → Bool
  | [] => true
  | .inside m :: _ => m.runsHost
  | _ => false

/-- Each call is decided at one moment: a method by whether the engine is open, and a `Shutdown`
when nobody is inside. -/
def step (s : Gate) : GateLabel → Option Gate
  | .spawn => some { s with goroutines := s.goroutines ++ [[]] }
  | .call g op =>
    match s.goroutines[g]? with
    | some stack => if mayCall stack then some (s.setStack g (.pending op :: stack)) else none
    | none => none
  | .decide g =>
    match s.goroutines[g]? with
    | some (.pending (.method m) :: rest) =>
      some (s.setStack g ((if s.isOpen then .inside m else .decided (.method m) .refused) :: rest))
    | some (.pending .shutdown :: rest) =>
      if s.vacant then
        some { s.setStack g (.decided .shutdown .answered :: rest) with isOpen := false }
      else none
    | _ => none
  | .finish g outcome =>
    match s.goroutines[g]? with
    | some (.inside m :: rest) =>
      if outcome = .answered ∨ outcome = .stopped ∧ m.runsHost then
        some (s.setStack g (.decided (.method m) outcome :: rest))
      else none
    | _ => none
  | .return_ g =>
    match s.goroutines[g]? with
    | some (.decided _ _ :: rest) => some (s.setStack g rest)
    | _ => none

end Gate

def gate : Machine Gate GateLabel where
  step := Gate.step

def gateObserved (s : Gate) : GateLabel → Option Observed
  | .call g op => some (.called g op)
  | .return_ g =>
    match s.goroutines[g]? with
    | some (.decided op outcome :: _) => some (.returned g op outcome)
    | _ => none
  | .spawn | .decide _ | .finish _ _ => none

end Cpex.Go
