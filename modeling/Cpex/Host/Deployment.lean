import Cpex.Host.Lifecycle
import Cpex.Host.Wire

/-!
# A plugin and the clients of its workers

`crates/cpex-hosts-python/src/plugin.rs` together with `worker.rs`. In `Cpex.Host.Lifecycle` what a
worker answers is data of the run. Here every process that the plugin launches has a client on its
pipes, and a call of the plugin is answered what its `send_task` on that client returns.

* `Send` — a `send_task` of a call of the plugin
* `Deployment`, `deployment` — the calls of a plugin over the clients of its processes, as a machine

How a process is stopped is not tied to the `shutdown` of its client: each takes its own course.
-/

namespace Cpex.Host.Lifecycle

open Cpex.Infra

/-- A `send_task`: the call that makes it, its process, and its number on the client. -/
structure Send where
  call : CallId
  worker : WorkerId
  number : Worker.CallId
  task : Json

/-- The task of `capabilities`. -/
def capabilitiesTask : Json := .object [("task_type", .string "capabilities")]

variable {T : Types}

/-- A plugin, and the client of each process by the order of launches. `sends` is history. -/
structure Deployment (T : Types) where
  plugin : State T
  wires : List Worker.Wire
  /-- The `send_task` that a call is in. -/
  sending : CallId → Option Send
  sends : List Send

/-- A plugin right after `from_config`, which has launched nothing. -/
def Deployment.fresh (owners : Venv.OwnersFile) : Deployment T where
  plugin := .fresh owners
  wires := []
  sending := fun _ => none
  sends := []

/-! ## Where a call meets its client -/

variable (cfg : Worker.Settings) (σ : Setup T)

/-- The process and the task of the `send_task` that comes next, in a call that stands before
one. -/
def outgoing (w : World) (entry : Entry T) : Option (WorkerId × Json) :=
  match entry.phase, entry.kind with
  | .verifying id, _ => some (id, capabilitiesTask)
  | .probing id, _ => some (id, capabilitiesTask)
  | .dispatching id, .invokes call =>
    match σ.plugin.assembleTask σ.toString σ.ppe call.hookName (w.client id).reported call.payload
        call.extensions call.ctx call.freshId with
    | .ok (task, _) => some (id, task)
    | .error _ => none
  | _, _ => none

/-- What the result of a `send_task` is to the call. In `dispatching` the client refused the
task before it was registered. -/
def returned (phase : Phase T) (result : Except HostError Json) : Option Action :=
  match phase, result with
  | .verifying _, r => some (.answer r)
  | .probing _, r => some (.answer r)
  | .awaitingReply _ _, r => some (.reply r)
  | .dispatching _, .error e => some (.dispatch (some e))
  | _, _ => none

/-- The call has registered its task: it goes on to await the reply. -/
def registers : Phase T → Worker.Phase → Bool
  | .dispatching _, .registering _ _ => true
  | _, _ => false

/-- A step of the plugin that is no step of a `send_task`. -/
def aside (s : Deployment T) : Label T → Bool
  | .call _ | .coOwner _ => true
  | .die _ => false
  | .act c action =>
    match action with
    | .answer _ | .reply _ => false
    | .dispatch _ =>
      (s.sending c).isNone && ((s.plugin.calls[c]?).bind (outgoing σ s.plugin.world)).isNone
    | .cancel => (s.sending c).isNone
    | _ => true

/-- Whether a step of the plugin launches a process. -/
def launchesWorker : Label T → Bool
  | .act _ .spawn => true
  | _ => false

/-- A step of a client that is no step of the call that it serves. -/
def ofClient : Worker.WireLabel → Bool
  | .client (.call _ _ _) | .client (.cancel _) => false
  | _ => true

/-- The reader has seen the end of stdout. -/
def observesDeath : Worker.WireLabel → Bool
  | .client .markDead => true
  | _ => false

/-! ## The machine -/

inductive DeploymentLabel (T : Types) where
  | plugin (l : Label T)
  | wire (id : WorkerId) (l : Worker.WireLabel)
  /-- A call begins its `send_task`, which draws `requestId`. -/
  | send (c : CallId) (n : Worker.CallId) (requestId : String)
  /-- Its `send_task` returns. -/
  | returns (c : CallId)
  /-- The caller drops the future, and the `send_task` in it. -/
  | drop (c : CallId)

namespace Deployment

variable (s : Deployment T)

/-- The process dies with its client: the plugin reads the same flag. -/
def observe (id : WorkerId) (l : Worker.WireLabel) : State T :=
  if observesDeath l then (step σ s.plugin (.die id)).getD s.plugin else s.plugin

def stepWire (id : WorkerId) (l : Worker.WireLabel) : Option (Deployment T) := do
  let w ← s.wires[id]?
  let w ← Worker.wireStep cfg w l
  return { s with wires := s.wires.set id w }

def beginSend (c : CallId) (n : Worker.CallId) (requestId : String) : Option (Deployment T) :=
  match s.plugin.calls[c]?, s.sending c with
  | some entry, none => do
    let (id, task) ← outgoing σ s.plugin.world entry
    let w ← s.wires[id]?
    let w ← Worker.wireStep cfg w (.client (.call n requestId task))
    let plugin ← if registers entry.phase (w.client.phase n) then
      step σ s.plugin (.act c (.dispatch none)) else some s.plugin
    let send := ⟨c, id, n, task⟩
    return {
      plugin
      wires := s.wires.set id w
      sending := Function.update s.sending c (some send)
      sends := s.sends ++ [send] }
  | _, _ => none

def endSend (c : CallId) : Option (Deployment T) := do
  let send ← s.sending c
  let w ← s.wires[send.worker]?
  let entry ← s.plugin.calls[c]?
  match w.client.phase send.number with
  | .done result =>
    let action ← returned entry.phase result
    let plugin ← step σ s.plugin (.act c action)
    return { s with plugin, sending := Function.update s.sending c none }
  | _ => none

def dropSend (c : CallId) : Option (Deployment T) := do
  let send ← s.sending c
  let s ← s.stepWire cfg send.worker (.client (.cancel send.number))
  let plugin ← step σ s.plugin (.act c .cancel)
  return { s with plugin, sending := Function.update s.sending c none }

end Deployment

def deploymentStep (s : Deployment T) : DeploymentLabel T → Option (Deployment T)
  | .plugin l =>
    if aside σ s l then
      (step σ s.plugin l).map fun plugin =>
        { s with plugin, wires := if launchesWorker l then s.wires ++ [.spawned] else s.wires }
    else none
  | .wire id l =>
    if ofClient l then
      (s.stepWire cfg id l).map fun s' => { s' with plugin := s.observe σ id l }
    else none
  | .send c n requestId => s.beginSend cfg σ c n requestId
  | .returns c => s.endSend σ c
  | .drop c => s.dropSend cfg σ c

/-- A plugin over the clients of its processes, as a machine. -/
def deployment : Machine (Deployment T) (DeploymentLabel T) where
  step := deploymentStep cfg σ

end Cpex.Host.Lifecycle
