import Cpex.Host.Extensions
import Cpex.Host.Legacy

/-!
# Payloads, hook names and results

`crates/cpex-hosts-python/src/conversion.rs`. The hook table, the JSON a payload goes out as, and
the result the executor gets of a worker's response.

* `serializePayload` — outbound, by the payload's type
* `deserializePayload` — inbound, by the hook's payload kind
* `responseToResult` — decision, violation, modified payload and modified extensions
-/

namespace Cpex.Host

open Cpex.Infra Legacy

/-- A payload, by its concrete type. -/
inductive Payload (T : Types) where
  | identity (payload : IdentityPayload T)
  | delegation (payload : DelegationPayload T)
  | message (payload : MessagePayload T)
  | toolPreInvoke (payload : ToolPreInvokePayload)
  | toolPostInvoke (payload : ToolPostInvokePayload)
  | promptPreFetch (payload : PromptPreFetchPayload)
  | promptPostFetch (payload : PromptPostFetchPayload)
  | resourcePreFetch (payload : ResourcePreFetchPayload)
  | resourcePostFetch (payload : ResourcePostFetchPayload)
  | identityResolve (payload : IdentityResolvePayload)
  | tokenDelegate (payload : TokenDelegatePayload)
  | generic (value : Json)
  /-- A type this host does not know. -/
  | foreign (payload : T.Foreign)

/-- Which payload type a hook name maps to. -/
inductive PayloadKind where
  | cmfMessage
  | toolPreInvoke
  | toolPostInvoke
  | promptPreFetch
  | promptPostFetch
  | resourcePreFetch
  | resourcePostFetch
  | identityResolve
  | tokenDelegate
  | generic
  deriving DecidableEq, Repr

/-! ## The hook table -/

def hookCmfToolPreInvoke : String := "cmf.tool_pre_invoke"
def hookCmfToolPostInvoke : String := "cmf.tool_post_invoke"
def hookCmfLlmInput : String := "cmf.llm_input"
def hookCmfLlmOutput : String := "cmf.llm_output"
def hookCmfPromptPreInvoke : String := "cmf.prompt_pre_invoke"
def hookCmfPromptPostInvoke : String := "cmf.prompt_post_invoke"
def hookCmfResourcePreFetch : String := "cmf.resource_pre_fetch"
def hookCmfResourcePostFetch : String := "cmf.resource_post_fetch"

/-- One row of the hook table: the name the engine dispatches, the payload it carries, and the name
the Python worker knows it by. -/
structure HookRoute where
  dispatched : String
  kind : PayloadKind
  worker : String

def hookRoutes : List HookRoute := [
  ⟨hookCmfToolPreInvoke, .cmfMessage, hookCmfToolPreInvoke⟩,
  ⟨hookCmfToolPostInvoke, .cmfMessage, hookCmfToolPostInvoke⟩,
  ⟨hookCmfLlmInput, .cmfMessage, hookCmfLlmInput⟩,
  ⟨hookCmfLlmOutput, .cmfMessage, hookCmfLlmOutput⟩,
  ⟨hookCmfPromptPreInvoke, .cmfMessage, "cmf.prompt_pre_fetch"⟩,
  ⟨hookCmfPromptPostInvoke, .cmfMessage, "cmf.prompt_post_fetch"⟩,
  ⟨hookCmfResourcePreFetch, .cmfMessage, hookCmfResourcePreFetch⟩,
  ⟨hookCmfResourcePostFetch, .cmfMessage, hookCmfResourcePostFetch⟩,
  ⟨hookIdentityResolve, .identityResolve, "identity_resolve"⟩,
  ⟨hookTokenDelegate, .tokenDelegate, "token_delegate"⟩,
  ⟨"tool_pre_invoke", .toolPreInvoke, "tool_pre_invoke"⟩,
  ⟨"tool_post_invoke", .toolPostInvoke, "tool_post_invoke"⟩,
  ⟨"prompt_pre_fetch", .promptPreFetch, "prompt_pre_fetch"⟩,
  ⟨"prompt_post_fetch", .promptPostFetch, "prompt_post_fetch"⟩,
  ⟨"resource_pre_fetch", .resourcePreFetch, "resource_pre_fetch"⟩,
  ⟨"resource_post_fetch", .resourcePostFetch, "resource_post_fetch"⟩]

def lookupRoute (hookName : String) : Option HookRoute :=
  hookRoutes.find? fun r => r.dispatched == hookName

/-- The payload kind of a hook name. A name outside the table has the generic payload. -/
def payloadKindForHook (hookName : String) : PayloadKind :=
  ((lookupRoute hookName).map HookRoute.kind).getD .generic

/-- The hook name the Python worker knows a hook by. -/
def workerHookName (hookName : String) : String :=
  ((lookupRoute hookName).map HookRoute.worker).getD hookName

variable {T : Types} (P : Ppe T)

/-! ## Outbound -/

/-- The JSON the worker rebuilds a payload from. -/
def serializePayload : Payload T → Except HostError Json
  | .identity payload => identityToWorker P payload
  | .delegation payload => delegationToWorker P payload
  | .message payload => (P.messageToValue payload).mapError fun e =>
      .protocol s!"could not serialize a MessagePayload payload: {e}"
  | .toolPreInvoke payload => .ok payload.toValue
  | .toolPostInvoke payload => .ok payload.toValue
  | .promptPreFetch payload => .ok payload.toValue
  | .promptPostFetch payload => .ok payload.toValue
  | .resourcePreFetch payload => .ok payload.toValue
  | .resourcePostFetch payload => .ok payload.toValue
  | .identityResolve payload => .ok payload.toValue
  | .tokenDelegate payload => .ok payload.toValue
  | .generic value => .ok value
  | .foreign _ => .error (.protocol ("payload type is not one this host can forward to a Python " ++
      "worker (expected a CMF message payload, a PPE identity or delegation payload, a legacy " ++
      "typed payload, or the generic payload)"))

/-! ## Inbound -/

/-- Reads a modified payload of one type. -/
def parsePayload {α : Type} (fromValue : Json → Except String α) (wrap : α → Payload T)
    (hookName : String) (value : Json) : Except HostError (Payload T) :=
  match fromValue value with
  | .ok payload => .ok (wrap payload)
  | .error e => .error (.protocol
      s!"worker returned a modified payload that does not match hook '{hookName}': {e}")

/-- A derived deserializer with `serde`'s error text. -/
def legacyFromValue {α : Type} (expected : String) (fromValue : Json → Option α) (value : Json) :
    Except String α :=
  match fromValue value with
  | some payload => .ok payload
  | none => .error (P.serdeError expected value)

/-- The typed payload of a modified payload's JSON, by the hook's payload kind. -/
def deserializePayload (hookName : String) (value : Json) : Except HostError (Payload T) :=
  match payloadKindForHook hookName with
  | .cmfMessage => parsePayload P.messageFromValue .message hookName value
  | .toolPreInvoke => parsePayload (legacyFromValue P "ToolPreInvokePayload"
      ToolPreInvokePayload.fromValue) .toolPreInvoke hookName value
  | .toolPostInvoke => parsePayload (legacyFromValue P "ToolPostInvokePayload"
      ToolPostInvokePayload.fromValue) .toolPostInvoke hookName value
  | .promptPreFetch => parsePayload (legacyFromValue P "PromptPreFetchPayload"
      PromptPreFetchPayload.fromValue) .promptPreFetch hookName value
  | .promptPostFetch => parsePayload (legacyFromValue P "PromptPostFetchPayload"
      PromptPostFetchPayload.fromValue) .promptPostFetch hookName value
  | .resourcePreFetch => parsePayload (legacyFromValue P "ResourcePreFetchPayload"
      ResourcePreFetchPayload.fromValue) .resourcePreFetch hookName value
  | .resourcePostFetch => parsePayload (legacyFromValue P "ResourcePostFetchPayload"
      ResourcePostFetchPayload.fromValue) .resourcePostFetch hookName value
  | .identityResolve => parsePayload (legacyFromValue P "IdentityResolvePayload"
      IdentityResolvePayload.fromValue) .identityResolve hookName value
  | .tokenDelegate => parsePayload (legacyFromValue P "TokenDelegatePayload"
      TokenDelegatePayload.fromValue) .tokenDelegate hookName value
  | .generic => .ok (.generic value)

/-- The violation a worker returned, tolerating the Python model's extra fields. -/
def parseViolation : Json → Except HostError PluginViolation
  | .object obj =>
    let code := ((Assoc.get? "code" obj).bind Json.asStr).getD ""
    let reason := ((Assoc.get? "reason" obj).bind Json.asStr).getD ""
    .ok { PluginViolation.new code reason with
      description := (Assoc.get? "description" obj).bind Json.asStr
      details := (((Assoc.get? "details" obj).bind Json.asObject).map HashMap.ofList).getD
        HashMap.empty
      protoErrorCode := ((Assoc.get? "mcp_error_code" obj).or
        (Assoc.get? "proto_error_code" obj)).bind Json.asI64 }
  | _ => .error (.protocol "worker returned a violation that is not a JSON object")

/-- `ErasedResultFields`: what the executor gets of an invocation. -/
structure ResultFields (T : Types) where
  continueProcessing : Bool
  modifiedPayload : Option (Payload T)
  modifiedExtensions : Option (OwnedExtensions T)
  violation : Option PluginViolation

/-- A field of the response that is read unless it is absent or `null`. -/
def returnedField {α : Type} (read : Json → Except HostError α) :
    Option Json → Except HostError (Option α)
  | none | some .null => .ok none
  | some raw => (read raw).map some

/-- The returned extensions of a response. -/
def returnedExtensions (inbound : Extensions T) :
    Option Json → Except HostError (Option (OwnedExtensions T))
  | none | some .null => .ok none
  | some raw => ownedFromReturnedSlot P raw inbound

/-- The result a worker's response stands for. -/
def responseToResult (hookName : String) (response : Json) (inbound : Extensions T) :
    Except HostError (ResultFields T) := do
  let continueProcessing := ((response.get? "continue_processing").bind Json.asBool).getD true
  let violation ← returnedField parseViolation (response.get? "violation")
  let modifiedPayload ← returnedField (deserializePayload P hookName)
    (response.get? "modified_payload")
  let modifiedExtensions ← returnedExtensions P inbound (response.get? modifiedExtensionsField)
  return { continueProcessing, modifiedPayload, modifiedExtensions, violation }

end Cpex.Host
