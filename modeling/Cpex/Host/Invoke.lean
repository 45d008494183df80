import Cpex.Host.Plugin

/-!
# One invocation

`PythonHookAdapter::invoke` of `crates/cpex-hosts-python/src/plugin.rs`, from the worker it got to
the result it returns. How it gets the worker is in `Cpex.Host.Lifecycle`.

* `applyTranslatedModification` — a modified payload in the worker's own model, mapped back
* `convertResponse` — everything after the round trip
* `invoke` — the task, the round trip and the conversion
-/

namespace Cpex.Host

open Cpex.Infra

variable {T : Types} (P : Ppe T)

/-- Whether a payload is the engine's identity or delegation payload. -/
def isPpeCredentialPayload : Payload T → Bool
  | .identity _ | .delegation _ => true
  | _ => false

/-- Inserts every entry of a JSON object into a state map. -/
def mergeState (state : HashMap String Json) (entries : List (String × Json)) :
    HashMap String Json :=
  entries.foldl (fun m e => m.insert e.1 e.2) state

/-- Merges the context state a worker returned into the caller's. -/
def applyContextDeltas (response : Json) (ctx : PluginContext) : PluginContext :=
  match response.get? "context" with
  | none => ctx
  | some context =>
    let localEntries := ((context.get? "state").bind Json.asObject).getD []
    let globalEntries := (((context.get? "global_context").bind (Json.get? · "state")).bind
      Json.asObject).getD []
    { localState := mergeState ctx.localState localEntries
      globalState := mergeState ctx.globalState globalEntries }

/-- Maps a modified payload in the worker's own model back onto the dispatched payload. -/
def applyTranslatedModification (now : T.Time) (shim : Option (ShimmedPayload T))
    (payload : Payload T) (modified : Json) (fields : ResultFields T) :
    Except HostError (ResultFields T) :=
  -- A deny modifies nothing, so a result attached to one is not worth failing the deny over.
  if !fields.continueProcessing then .ok { fields with modifiedPayload := none }
  else
    match shim with
    | some shim => do
      let message ← shim.applyModified P modified
      return { fields with modifiedPayload := some (.message message) }
    | none =>
      match payload with
      | .identity identity => do
        match ← identityFromWorker P identity modified with
        | .resolved resolved =>
          return { fields with modifiedPayload := some (.identity resolved) }
        | .rejected violation =>
          return { fields with
            modifiedPayload := none
            continueProcessing := false
            violation := some violation }
      | .delegation delegation => do
        let resolved ← delegationFromWorker P now delegation modified
        return { fields with modifiedPayload := some (.delegation resolved) }
      | _ => .ok fields

/-- The result of a response: the generic conversion, with a translated payload taken out before
and mapped back after it. -/
def convertResponse (now : T.Time) (hookName : String) (shim : Option (ShimmedPayload T))
    (payload : Payload T) (extensions : Extensions T) (response : Json) :
    Except HostError (ResultFields T) :=
  if shim.isSome || isPpeCredentialPayload payload then do
    let (modified, rest) := response.remove "modified_payload"
    let fields ← responseToResult P hookName rest extensions
    match modified.filter (· ≠ .null) with
    | some modified => applyTranslatedModification P now shim payload modified fields
    | none => return fields
  else responseToResult P hookName response extensions

/-- The data of one invocation that is not the plugin's: what the caller passes, and what the
clock and the identifier generator give. -/
structure Call (T : Types) where
  hookName : String
  payload : Payload T
  extensions : Extensions T
  ctx : PluginContext
  freshId : String
  now : T.Time

/-- One invocation on a worker with these reported capabilities and this round trip. -/
def invoke (plugin : IsolatedPythonPlugin) (toString : Json → Except String String)
    (reported : Option WorkerCapabilities) (sendTask : Json → Except HostError Json)
    (call : Call T) : PluginContext × Except HostError (ResultFields T) :=
  match plugin.assembleTask toString P call.hookName reported call.payload call.extensions call.ctx
      call.freshId with
  | .error e => (call.ctx, .error e)
  | .ok (task, shim) =>
    match sendTask task with
    | .error e => (call.ctx, .error e)
    | .ok response => (applyContextDeltas response call.ctx,
        convertResponse P call.now call.hookName shim call.payload call.extensions response)

end Cpex.Host
