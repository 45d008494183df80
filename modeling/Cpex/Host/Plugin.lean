import Cpex.Host.CmfShim
import Cpex.Host.Credentials

/-!
# A Python plugin

`crates/cpex-hosts-python/src/plugin.rs`, and the handshake of `worker.rs`. What a plugin's
declaration commits the host to, how a worker is asked for it, and the task of one invocation.

* `verifyReported` — whether a worker implements every wire feature the declaration needs
* `assembleTask` — the task one invocation writes to the worker
-/

namespace Cpex.Host

open Cpex.Infra Cpex.Infra.Serde

def taskLoadAndRunHook : String := "load_and_run_hook"
def taskCapabilities : String := "capabilities"

/-- Worker feature: reads the task's `credential` field. -/
def featureCredential : String := "credential"

/-- Worker feature: delivers the task's `extensions` field to a hook. -/
def featureExtensions : String := "extensions"

/-- Worker feature: serves `cmf.*` hooks natively. -/
def featureCmfHooks : String := "cmf_hooks"

/-- Capability names the Python `Capability` enum models. -/
def workerKnownCapabilities : List String :=
  ["read_subject", "read_roles", "read_teams", "read_claims", "read_permissions", "read_agent",
    "read_headers", "write_headers", "read_labels", "append_labels", "read_delegation",
    "append_delegation"]

/-- Global-state key of a host's own request id. -/
def globalRequestIdKey : String := "request_id"

/-! ## The handshake -/

/-- A `BTreeSet` of text. -/
def sortedSet (items : List String) : List String :=
  (items.foldl (fun acc item => Assoc.putSorted Json.keyOrder item () acc) []).map Prod.fst

/-- What a worker reported it can do. -/
structure WorkerCapabilities where
  protocolVersion : UInt64
  features : List String
  cpexVersion : Option String
  deriving DecidableEq

namespace WorkerCapabilities

/-- The answer of a worker that does not know the handshake. -/
def none : WorkerCapabilities := ⟨0, [], .none⟩

def has (c : WorkerCapabilities) (feature : String) : Bool := c.features.contains feature

/-- What a response to the handshake reports. -/
def ofResponse (response : Json) : WorkerCapabilities where
  protocolVersion := ((response.get? "protocol_version").bind Json.asU64).getD 0
  features := sortedSet
    ((((response.get? "features").bind Json.asArray).getD []).filterMap Json.asStr)
  cpexVersion := (response.get? "cpex_version").bind Json.asStr

/-- What the outcome of the handshake task reports. An error reply is an empty set. -/
def ofReply : Except HostError Json → Except HostError WorkerCapabilities
  | .ok response => .ok (ofResponse response)
  | .error (.workerError _) => .ok none
  | .error e => .error e

end WorkerCapabilities

/-! ## The declaration -/

structure PluginConfig where
  name : String
  kind : String
  hooks : List String
  capabilities : List String
  config : Option Json

/-- A plugin's fixed part: its entry, its Python class and the directories the worker imports
from. -/
structure IsolatedPythonPlugin where
  config : PluginConfig
  className : String
  pluginDirs : List String

namespace PluginConfig

variable (config : PluginConfig)

/-- The wire features the declaration commits the host to using. -/
def requiredWorkerFeatures : List String :=
  (if config.hooks.any fun h => h == "cmf.llm_input" || h == "cmf.llm_output" then
    [featureCmfHooks] else []) ++
  (if config.capabilities.any fun c => c == capReadInbound || c == capReadDelegated then
    [featureCredential] else []) ++
  (if config.capabilities.any workerKnownCapabilities.contains then [featureExtensions] else [])

/-- The declared capabilities the worker's model accepts. -/
def workerCapabilities : List String :=
  config.capabilities.filter workerKnownCapabilities.contains

def declaresCmfHook : Bool := config.hooks.any isCmfHook

/-- Fails closed unless the outcome of the handshake has every feature of a non-empty list. -/
def verifyReported (required : List String) (reply : Except HostError Json) :
    Except HostError Unit :=
  match WorkerCapabilities.ofReply reply with
  | .error e =>
    if required.contains featureCmfHooks then
      .error (.config (s!"plugin '{config.name}' declares an LLM hook, but the worker's " ++
        s!"`cmf_hooks` support could not be verified ({e.display}); upgrade the cpex package in " ++
        "the plugin's venv"))
    else .error e
  | .ok reported =>
    let missing := required.filter fun f => !reported.has f
    if missing.isEmpty then .ok ()
    else
      let missingNames := ", ".intercalate missing
      let declared := ", ".intercalate (sortedSet config.capabilities)
      let hookNames := ", ".intercalate config.hooks
      let features := ", ".intercalate reported.features
      let version := reported.cpexVersion.getD "version unknown"
      .error (.credential (s!"the installed cpex worker does not implement {missingNames} — which " ++
        s!"plugin '{config.name}' needs given its declared capabilities ({declared}) and hooks " ++
        s!"({hookNames}). The worker reported protocol version {reported.protocolVersion} and " ++
        s!"features [{features}] (cpex {version}). Running anyway would drop those fields " ++
        "silently, so this plugin is failed closed at startup; upgrade the cpex package in the " ++
        "plugin's venv."))

end PluginConfig

/-! ## The task of one invocation -/

structure PluginContext where
  localState : HashMap String Json
  globalState : HashMap String Json

/-- The hook name the worker knows a hook by, given how `cmf.*` hooks are served. -/
def workerHookFor (hookName : String) (legacyCmf : Bool) : String :=
  if legacyCmf then (legacyHookName hookName).getD (workerHookName hookName)
  else workerHookName hookName

/-- Whether a worker gets the legacy payloads: unless its handshake claimed `cmf_hooks`. -/
def needsLegacyCmf (reported : Option WorkerCapabilities) : Bool :=
  !reported.any fun c => c.has featureCmfHooks

namespace IsolatedPythonPlugin

variable (plugin : IsolatedPythonPlugin) (toString : Json → Except String String)

/-- The `load_and_run_hook` task. `freshId` is the identifier generated when the pipeline has no
request id. -/
def buildTask (hookName : String) (legacyCmf : Bool) (payload : Json) (ctx : PluginContext)
    (freshId : String) : Except HostError Json :=
  let configJson := Json.ofFields [
    ("name", .string plugin.config.name),
    ("kind", .string plugin.config.kind),
    ("hooks", strings (plugin.config.hooks.map (workerHookFor · legacyCmf))),
    ("capabilities", strings plugin.config.workerCapabilities),
    ("config", plugin.config.config.getD .null)]
  match toString configJson with
  | .error e => .error (.protocol s!"could not serialize the plugin config for the worker: {e}")
  | .ok configString =>
    let requestId := ((ctx.globalState.get? globalRequestIdKey).bind Json.asStr).getD freshId
    .ok (Json.ofFields [
      ("task_type", .string taskLoadAndRunHook),
      ("plugin_dirs", strings plugin.pluginDirs),
      ("class_name", .string plugin.className),
      ("config", .string configString),
      ("hook_type", .string (workerHookFor hookName legacyCmf)),
      ("plugin_name", .string plugin.config.name),
      ("payload", payload),
      ("context", Json.ofFields [
        ("state", ctx.localState.toObject),
        ("global_context", Json.ofFields [
          ("request_id", .string requestId),
          ("state", ctx.globalState.toObject)]),
        ("metadata", .object [])])])

variable {T : Types} (P : Ppe T)

/-- The payload's shim, for a `cmf.*` hook of a worker that does not serve it natively. -/
def shimFor (hookName : String) (legacyCmf : Bool) (payload : Payload T) :
    Except HostError (Option (ShimmedPayload T)) :=
  if legacyCmf && isCmfHook hookName then (toLegacy P hookName payload).map some else .ok none

/-- The payload's JSON on the task. -/
def payloadJson (shim : Option (ShimmedPayload T)) (payload : Payload T) :
    Except HostError Json :=
  match shim with
  | some shim => .ok shim.json
  | none => serializePayload P payload

/-- The task an invocation writes, and the shim its answer is read through. -/
def assembleTask (hookName : String) (reported : Option WorkerCapabilities) (payload : Payload T)
    (extensions : Extensions T) (ctx : PluginContext) (freshId : String) :
    Except HostError (Json × Option (ShimmedPayload T)) := do
  let legacyCmf := needsLegacyCmf reported
  let shim ← shimFor P hookName legacyCmf payload
  let json ← payloadJson P shim payload
  let task ← plugin.buildTask toString hookName legacyCmf json ctx freshId
  let task ← attachCredentialForPayload P task hookName payload extensions
    plugin.config.capabilities
  let task ← attachExtensions P task extensions
  return (task, shim)

end IsolatedPythonPlugin

end Cpex.Host
