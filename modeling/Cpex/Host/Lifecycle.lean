import Cpex.Infra.Machine
import Cpex.Host.Venv
import Cpex.Host.Invoke

/-!
# The lifecycle of a plugin

`crates/cpex-hosts-python/src/plugin.rs`. The `initialize`, `shutdown` and `invoke` calls of one
plugin, run concurrently over its shared state: the worker slot, the `shut_down` flag, the respawn
budget and its lock, and the owner registry of its venv.

A step takes one call from an await to the next one. What a launch, a worker and the registry do,
when a worker dies, what the clock says and when a caller drops a future are labels, so a run is
one schedule in one environment.

* `advance` — one step of one call
* `plugin` — the calls and the plugin's state as a machine
-/

namespace Cpex.Host.Lifecycle

open Cpex.Infra

/-- A worker process, by the order of launches. -/
abbrev WorkerId := Nat

/-- A call, by the order in which calls begin. -/
abbrev CallId := Nat

/-! ## The respawn budget -/

def maxRespawnAttempts : Nat := 3

def respawnBackoffBaseMs : Nat := 100

def respawnBudgetResetSecs : Nat := 60

/-- How many respawns were spent since the budget last reset, and when that was (in
nanoseconds). -/
structure RespawnState where
  attempts : Nat
  windowStarted : Option Nat
  deriving DecidableEq, Repr

namespace RespawnState

def new : RespawnState := ⟨0, none⟩

def expired (r : RespawnState) (now : Nat) : Bool :=
  r.windowStarted.any fun s => respawnBudgetResetSecs ≤ (now - s) / 1000000000

/-- Reserves one attempt, unless the budget is spent. An elapsed window resets it first. -/
def tryReserve (r : RespawnState) (now : Nat) : RespawnState × Option Nat :=
  let r := if r.expired now then new else r
  if maxRespawnAttempts ≤ r.attempts then (r, none)
  else (⟨r.attempts + 1, some (r.windowStarted.getD now)⟩, some (r.attempts + 1))

/-- Returns the budget to full. -/
def recordSuccess (_ : RespawnState) : RespawnState := new

/-- `note_worker_healthy`. -/
def noteHealthy (r : RespawnState) : RespawnState := if 0 < r.attempts then new else r

end RespawnState

/-- The backoff before a respawn attempt. -/
def backoffMs (attempt : Nat) : Nat := respawnBackoffBaseMs * (1 <<< (attempt - 1))

/-! ## Shared state -/

/--
A worker process as the calls that hold it see it. `alive` is the reader's last observation, and
`child` whether the process has not been stopped yet. `answers` is history: what its handshakes
came back with.
-/
structure Client where
  alive : Bool
  child : Bool
  reported : Option WorkerCapabilities
  probeRetrySpent : Bool
  answers : List (Except HostError Json)

/-- A process right after its launch. -/
def Client.spawned : Client := ⟨true, true, none, false, []⟩

/-- `capabilities`: the first handshake that completes sets the report for good. -/
def Client.record (client : Client) (reply : Except HostError Json) : Client :=
  { client with
    reported := client.reported.or (WorkerCapabilities.ofReply reply).toOption
    answers := client.answers ++ [reply] }

/-- The state the calls share. `written` is history: the task written by each invocation, and the
process it was written to. -/
structure World where
  shutDown : Bool
  worker : Option WorkerId
  workers : List Client
  respawn : RespawnState
  respawnLock : Option CallId
  owners : Venv.OwnersFile
  written : List (WorkerId × Json)

namespace World

variable (w : World) (id : WorkerId) (c : CallId)

def client : Client := w.workers.getD id ⟨false, false, none, true, []⟩

def modifyClient (f : Client → Client) : World := { w with workers := w.workers.modify id f }

def spawn : World := { w with workers := w.workers ++ [.spawned] }

def record (reply : Except HostError Json) : World := w.modifyClient id fun k => k.record reply

def stop : World := w.modifyClient id fun k => { k with child := false }

/-- Only a process that was not stopped before can fail to stop. -/
def canStop (r : Except HostError Unit) : Bool := (w.client id).child || r.toBool

def write (task : Json) : World := { w with written := w.written ++ [(id, task)] }

/-- Drops the guard of the respawn lock, where the call holds it. -/
def unlock : World :=
  if w.respawnLock = some c then { w with respawnLock := none } else w

def register (className : String) : World := { w with owners := w.owners.register className }

def release (className : String) : World := { w with owners := w.owners.release className }

/-- A registry write that fails may leave the file truncated. -/
def damage (truncated : Bool) : World := if truncated then { w with owners := .unreadable } else w

variable {w c}

@[simp] theorem workers_unlock : (w.unlock c).workers = w.workers := by
  unfold unlock
  split <;> rfl

@[simp] theorem worker_unlock : (w.unlock c).worker = w.worker := by
  unfold unlock
  split <;> rfl

@[simp] theorem owners_unlock : (w.unlock c).owners = w.owners := by
  unfold unlock
  split <;> rfl

@[simp] theorem written_unlock : (w.unlock c).written = w.written := by
  unfold unlock
  split <;> rfl

@[simp] theorem workers_damage {truncated : Bool} : (w.damage truncated).workers = w.workers := by
  unfold damage
  split <;> rfl

@[simp] theorem worker_damage {truncated : Bool} : (w.damage truncated).worker = w.worker := by
  unfold damage
  split <;> rfl

@[simp] theorem written_damage {truncated : Bool} : (w.damage truncated).written = w.written := by
  unfold damage
  split <;> rfl

end World

/-! ## Calls -/

inductive Kind (T : Types) where
  | initializes
  | invokes (call : Call T)
  | shutsDown

/-- What a call returns. An invocation hands its caller's context back. -/
inductive Outcome (T : Types) where
  | lifecycle (result : Except HostError Unit)
  | invocation (ctx : PluginContext) (result : Except HostError (ResultFields T))

/-- A call that returns early returns the error, and leaves the context as it was. -/
def Kind.failure {T : Types} : Kind T → HostError → Outcome T
  | .initializes, e | .shutsDown, e => .lifecycle (.error e)
  | .invokes call, e => .invocation call.ctx (.error e)

inductive RegistryOp where
  | register
  | release
  deriving DecidableEq, Repr

/-- Where a call stands. The name of a phase says what the call does next. -/
inductive Phase (T : Types) where
  /-- Launching: in `ensure`, before the venv's owner is registered. -/
  | ensuring
  /-- Launching: the registration is on the blocking pool. -/
  | registering
  /-- Launching: the rest of `ensure`, the script and the spawn. -/
  | spawning
  | verifying (id : WorkerId)
  /-- Waits for the slot's write lock. -/
  | installing (id : WorkerId)
  | stoppingUnused (id : WorkerId) (e : HostError)
  | acquiring
  | lockingRespawn
  | rechecking
  | backingOff (dead : WorkerId) (ms : Nat)
  | reaping (dead : WorkerId)
  /-- `worker()` returned this process. -/
  | serving (id : WorkerId)
  /-- Asks a worker without a report once more. -/
  | probing (id : WorkerId)
  | dispatching (id : WorkerId)
  | awaitingReply (id : WorkerId) (shim : Option (ShimmedPayload T))
  /-- Waits for the respawn lock, to note that the worker is healthy. -/
  | answered (shim : Option (ShimmedPayload T)) (response : Json)
  /-- Waits for the slot's write lock, to empty it. -/
  | takingSlot
  | stoppingWorker (id : WorkerId)
  /-- The release is on the blocking pool. -/
  | releasing (result : Except HostError Unit)
  | finished (outcome : Outcome T)
  /-- The caller dropped the future. -/
  | cancelled
  /-- The caller dropped the future, and its work on the blocking pool still completes. -/
  | detached (op : RegistryOp)

/-- A call that holds no more of the plugin's state. -/
def Phase.ended {T : Types} : Phase T → Bool
  | .finished _ | .cancelled => true
  | _ => false

structure Entry (T : Types) where
  kind : Kind T
  phase : Phase T

/-- What a call is taken from one await to the next by. -/
inductive Action where
  | ensureFails (e : HostError)
  | ensured
  | registryWrites
  | registryFails (e : HostError) (truncated : Bool)
  | launchFails (e : HostError)
  | spawn
  | answer (reply : Except HostError Json)
  | install
  | stopped (result : Except HostError Unit)
  | acquire
  | lockRespawn
  | recheck (now : Nat)
  | wake
  | serve
  /-- Sends the task, unless the client refuses it before it reaches the worker. -/
  | dispatch (refusal : Option HostError)
  | reply (result : Except HostError Json)
  | noteHealthy
  | takeSlot
  | cancel

/-- A plugin, its engine and serializer, and how its worker script is found. -/
structure Setup (T : Types) where
  plugin : IsolatedPythonPlugin
  ppe : Ppe T
  toString : Json → Except String String
  workerOverride : Bool
  venvResolved : Bool

/-! ## Steps of a call -/

def shutDownError : HostError :=
  .workerStart "the plugin has been shut down, so its worker is not respawned"

def noWorkerError : HostError :=
  .workerStart "plugin has no worker — initialize() did not run or it failed"

def budgetSpentError : HostError :=
  .workerStart (s!"worker died and could not be respawned after {maxRespawnAttempts} attempts " ++
    "— the plugin's worker is failing to start (check its venv and dependencies)")

variable {T : Types} (σ : Setup T) (c : CallId) (kind : Kind T) (w : World)

def noLayoutError : HostError :=
  let dirs := ", ".intercalate σ.plugin.pluginDirs
  .config (s!"could not resolve a venv layout under {dirs} — check that `class_name` " ++
    s!"('{σ.plugin.className}') begins with a package segment")

/-- The call returns an error. -/
def fails (e : HostError) : World × Phase T := (w.unlock c, .finished (kind.failure e))

/-- `launch_worker`, up to its first await. -/
def launch : World × Phase T :=
  if σ.workerOverride then (w, .spawning)
  else if σ.venvResolved then (w, .ensuring)
  else fails c kind w (noLayoutError σ)

/-- The wire features the declaration requires of a worker. -/
def Setup.required : List String := σ.plugin.config.requiredWorkerFeatures

/-- A process was launched: it is asked for its features when the declaration needs to know. -/
def spawned : World × Phase T :=
  let id := w.workers.length
  if σ.required.isEmpty && !σ.plugin.config.declaresCmfHook then (w.spawn, .installing id)
  else (w.spawn, .verifying id)

/-- `verify_worker_understands`, given what the handshake came back with. -/
def Setup.verifyWorkerUnderstands (reply : Except HostError Json) : Except HostError Unit :=
  if σ.required.isEmpty then .ok () else σ.plugin.config.verifyReported σ.required reply

/-- A process that does not understand is dropped by `initialize`, and stopped by a respawn. -/
def verified (id : WorkerId) (reply : Except HostError Json) : World × Phase T :=
  let w := w.record id reply
  match σ.verifyWorkerUnderstands reply, kind with
  | .ok (), _ => (w, .installing id)
  | .error e, .invokes _ => (w, .stoppingUnused id e)
  | .error e, _ => fails c kind w e

/-- Under the slot's write lock. `initialize` installs whatever the flag says. -/
def install (id : WorkerId) : World × Phase T :=
  match kind with
  | .invokes _ =>
    if w.shutDown then (w, .stoppingUnused id shutDownError)
    else ({ w with worker := some id }.unlock c, .serving id)
  | _ => ({ w with worker := some id }, .finished (.lifecycle (.ok ())))

/-- `worker`, up to the respawn lock. -/
def acquire : World × Phase T :=
  match w.worker with
  | some id => if (w.client id).alive then (w, .serving id) else (w, .lockingRespawn)
  | none => fails c kind w (if w.shutDown then shutDownError else noWorkerError)

/-- `respawn_worker` with the lock held, up to the backoff. -/
def recheck (now : Nat) : World × Phase T :=
  match w.worker with
  | some id =>
    if (w.client id).alive then (w.unlock c, .serving id)
    else if w.shutDown then fails c kind w shutDownError
    else
      let (respawn, attempt) := w.respawn.tryReserve now
      let w := { w with respawn }
      match attempt with
      | some attempt => (w, .backingOff id (backoffMs attempt))
      | none => fails c kind w budgetSpentError
  | none => fails c kind w shutDownError

/-- The probe of a worker that has no report, for a `cmf.*` hook. -/
def serve (call : Call T) (id : WorkerId) : World × Phase T :=
  let client := w.client id
  if isCmfHook call.hookName && client.reported.isNone && !client.probeRetrySpent then
    (w.modifyClient id fun k => { k with probeRetrySpent := true }, .probing id)
  else (w, .dispatching id)

/-- Assembles the task and sends it. -/
def dispatch (call : Call T) (id : WorkerId) (refusal : Option HostError) : World × Phase T :=
  match σ.plugin.assembleTask σ.toString σ.ppe call.hookName (w.client id).reported call.payload
      call.extensions call.ctx call.freshId, refusal with
  | .error e, _ => fails c kind w e
  | .ok _, some e => fails c kind w e
  | .ok (task, shim), none => (w.write id task, .awaitingReply id shim)

/-- What an invocation returns once its worker answered. -/
def converted (call : Call T) (shim : Option (ShimmedPayload T)) (response : Json) : Outcome T :=
  .invocation (applyContextDeltas response call.ctx)
    (convertResponse σ.ppe call.now call.hookName shim call.payload call.extensions response)

/-- The end of a shutdown: the claim on the venv is given up, where there is a venv. -/
def releaseOwner (result : Except HostError Unit) : Phase T :=
  if σ.venvResolved then .releasing result else .finished (.lifecycle result)

def applyRegistry (op : RegistryOp) : World :=
  match op with
  | .register => w.register σ.plugin.className
  | .release => w.release σ.plugin.className

/-- The caller drops the future. A write on the blocking pool is not undone. -/
def dropped (phase : Phase T) : Option (World × Phase T) :=
  match phase with
  | .finished _ | .cancelled | .detached _ => none
  | .registering => some (w.unlock c, .detached .register)
  | .releasing _ => some (w, .detached .release)
  | _ => some (w.unlock c, .cancelled)

/-- One step of call `c`. -/
def advance (phase : Phase T) (action : Action) : Option (World × Phase T) :=
  match phase, action with
  -- `launch_worker`
  | .ensuring, .ensureFails e => some (fails c kind w e)
  | .ensuring, .ensured => some (w, .registering)
  | .registering, .registryFails e truncated => some (fails c kind (w.damage truncated) e)
  | .registering, .registryWrites => some (applyRegistry σ w .register, .spawning)
  | .spawning, .launchFails e => some (fails c kind w e)
  | .spawning, .spawn => some (spawned σ w)
  -- the rest of `initialize` and of `respawn_worker`
  | .verifying id, .answer reply => some (verified σ c kind w id reply)
  | .installing id, .install => some (install c kind w id)
  | .stoppingUnused id e, .stopped r =>
    if w.canStop id r then some (fails c kind (w.stop id) e) else none
  -- `worker` and `respawn_worker`
  | .acquiring, .acquire => some (acquire c kind w)
  | .lockingRespawn, .lockRespawn =>
    if w.respawnLock = none then some ({ w with respawnLock := some c }, .rechecking) else none
  | .rechecking, .recheck now => some (recheck c kind w now)
  | .backingOff dead _, .wake =>
    some (if w.shutDown then fails c kind w shutDownError else (w, .reaping dead))
  | .reaping dead, .stopped r =>
    if w.canStop dead r then some (launch σ c kind (w.stop dead)) else none
  -- `invoke`
  | .serving id, .serve =>
    match kind with
    | .invokes call => some (serve w call id)
    | _ => none
  | .probing id, .answer reply => some (w.record id reply, .dispatching id)
  | .dispatching id, .dispatch refusal =>
    match kind with
    | .invokes call => some (dispatch σ c kind w call id refusal)
    | _ => none
  | .awaitingReply _ _, .reply (.error e) => some (fails c kind w e)
  | .awaitingReply _ shim, .reply (.ok response) => some (w, .answered shim response)
  | .answered shim response, .noteHealthy =>
    match kind with
    | .invokes call =>
      if w.respawnLock = none then
        some ({ w with respawn := w.respawn.noteHealthy },
          .finished (converted σ call shim response))
      else none
    | _ => none
  -- `shutdown`
  | .takingSlot, .takeSlot =>
    let w' := { w with worker := none }
    match w.worker with
    | some id => some (w', .stoppingWorker id)
    | none => some (w', releaseOwner σ (.ok ()))
  | .stoppingWorker id, .stopped r =>
    if w.canStop id r then some (w.stop id, releaseOwner σ r) else none
  | .releasing result, .registryWrites =>
    some (applyRegistry σ w .release, .finished (.lifecycle result))
  -- A failed release is logged.
  | .releasing result, .registryFails _ truncated =>
    some (w.damage truncated, .finished (.lifecycle result))
  -- work that outlived its call
  | .detached op, .registryWrites => some (applyRegistry σ w op, .cancelled)
  | .detached _, .registryFails _ truncated => some (w.damage truncated, .cancelled)
  | phase, .cancel => dropped c w phase
  | _, _ => none

/-! ## The machine -/

structure State (T : Types) where
  world : World
  calls : List (Entry T)

/-- A call begins: everything up to its first await. -/
def begins : World × Phase T :=
  match kind with
  | .initializes => launch σ c kind { w with shutDown := false }
  | .invokes _ => (w, .acquiring)
  | .shutsDown => ({ w with shutDown := true }, .takingSlot)

inductive Label (T : Types) where
  | call (kind : Kind T)
  | act (c : CallId) (action : Action)
  /-- A worker process dies, or is killed with the last handle to it. -/
  | die (id : WorkerId)
  /-- Another plugin of the class root writes the registry. -/
  | coOwner (owners : Venv.OwnersFile)

def step (s : State T) : Label T → Option (State T)
  | .call kind =>
    let (world, phase) := begins σ s.calls.length kind s.world
    some ⟨world, s.calls ++ [⟨kind, phase⟩]⟩
  | .act c action =>
    match s.calls[c]? with
    | some entry =>
      (advance σ c entry.kind s.world entry.phase action).map fun r =>
        ⟨r.1, s.calls.set c { entry with phase := r.2 }⟩
    | none => none
  | .die id => some { s with world := s.world.modifyClient id fun k => { k with alive := false } }
  | .coOwner owners =>
    if σ.plugin.className ∈ owners.load ↔ σ.plugin.className ∈ s.world.owners.load then
      some { s with world := { s.world with owners } }
    else none

/-- The calls of one plugin and the state they share, as a machine. -/
def plugin : Machine (State T) (Label T) where
  step := step σ

/-- A plugin right after `from_config`, beside a venv with these owners. -/
def State.fresh (owners : Venv.OwnersFile) : State T where
  world := {
    shutDown := false
    worker := none
    workers := []
    respawn := .new
    respawnLock := none
    owners
    written := [] }
  calls := []

end Cpex.Host.Lifecycle
