import Cpex.Host.Conversion

/-!
# The legacy payload shim

`crates/cpex-hosts-python/src/legacy/cmf_shim.rs`. For a worker without `cmf.*` hooks, a message
goes out as the legacy payload of the one content part the hook is about, and a modified legacy
payload is written back onto that part.

* `toLegacy` — the legacy payload, or an error for a message it cannot represent
* `ShimmedPayload.applyModified` — the message with the legacy payload's fields replaced
-/

namespace Cpex.Host

open Cpex.Infra Cpex.Infra.Serde Legacy

/-- Which legacy hook a `cmf.*` hook maps to. -/
inductive Shim where
  | toolPreInvoke
  | toolPostInvoke
  | promptPreFetch
  | promptPostFetch
  | resourcePreFetch
  | resourcePostFetch
  deriving DecidableEq, Repr

def shimmedHooks : List (String × Shim) := [
  (hookCmfToolPreInvoke, .toolPreInvoke),
  (hookCmfToolPostInvoke, .toolPostInvoke),
  (hookCmfPromptPreInvoke, .promptPreFetch),
  (hookCmfPromptPostInvoke, .promptPostFetch),
  (hookCmfResourcePreFetch, .resourcePreFetch),
  (hookCmfResourcePostFetch, .resourcePostFetch)]

namespace Shim

def forHook (hookName : String) : Option Shim :=
  (shimmedHooks.find? fun e => e.1 == hookName).map Prod.snd

def legacyHook : Shim → String
  | .toolPreInvoke => "tool_pre_invoke"
  | .toolPostInvoke => "tool_post_invoke"
  | .promptPreFetch => "prompt_pre_fetch"
  | .promptPostFetch => "prompt_post_fetch"
  | .resourcePreFetch => "resource_pre_fetch"
  | .resourcePostFetch => "resource_post_fetch"

def isPost : Shim → Bool
  | .toolPostInvoke | .promptPostFetch | .resourcePostFetch => true
  | .toolPreInvoke | .promptPreFetch | .resourcePreFetch => false

/-- The content part the legacy payload is built from, for diagnostics. -/
def partName : Shim → String
  | .toolPreInvoke => "tool_call"
  | .toolPostInvoke => "tool_result"
  | .promptPreFetch => "prompt_request"
  | .promptPostFetch => "prompt_result"
  | .resourcePreFetch => "resource or resource_ref"
  | .resourcePostFetch => "resource"

/-- Whether a part is of the kind the hook's legacy payload is built from. -/
def accepts {T : Types} : Shim → ContentPart T → Bool
  | .toolPreInvoke, .toolCall _ => true
  | .toolPostInvoke, .toolResult _ => true
  | .promptPreFetch, .promptRequest _ => true
  | .promptPostFetch, .promptResult _ => true
  | .resourcePreFetch, .resource _ | .resourcePreFetch, .resourceRef _ => true
  | .resourcePostFetch, .resource _ | .resourcePostFetch, .resourceRef _ => true
  | _, _ => false

end Shim

/-- Whether a hook is a `cmf.*` hook the engine dispatches. -/
def isCmfHook (hookName : String) : Bool :=
  (Shim.forHook hookName).isSome || hookName == hookCmfLlmInput || hookName == hookCmfLlmOutput

/-- The legacy name a shimmed hook reaches the worker as. -/
def legacyHookName (hookName : String) : Option String :=
  (Shim.forHook hookName).map Shim.legacyHook

def shimError (hookName legacy message : String) : HostError :=
  .legacyShim hookName s!"translating to the legacy '{legacy}' payload: {message}"

variable {T : Types} (P : Ppe T)

/-! ## Parts -/

/-- Whether an optional text holds one. An empty text counts as unset. -/
def isSet (field : Option String) : Bool := field.any fun s => !s.isEmpty

/-- Whether a part the legacy payload does not carry holds anything. -/
def carriesContent : ContentPart T → Bool
  | .text text | .thinking text => !Text.isBlank text
  | _ => true

/-- A content part's `content_type`, for diagnostics. -/
def partKind : ContentPart T → String
  | .text _ => "text"
  | .thinking _ => "thinking"
  | .toolCall _ => "tool_call"
  | .toolResult _ => "tool_result"
  | .resource _ => "resource"
  | .resourceRef _ => "resource_ref"
  | .promptRequest _ => "prompt_request"
  | .promptResult _ => "prompt_result"
  | .image _ => "image"
  | .video _ => "video"
  | .audio _ => "audio"
  | .document _ => "document"

/-- Whether a legacy tool result tells the plugin it is an error. -/
def resultSaysError (result : Json) : Bool := result.get? "isError" = some (.bool true)

/-! ## Outbound -/

/-- The text of a message that is a single text part. -/
def singleText : Message T → Option String
  | .mk _ _ [.text text] _ => some text
  | _ => none

/-- One nested prompt message in the legacy shape. -/
def promptMessageToValue (err : String → HostError) (i : Nat) (message : Message T) :
    Except HostError Json :=
  match singleText message with
  | some text => .ok (Json.ofFields [("role", P.roleToValue message.role),
      ("content", Json.ofFields [("type", .string "text"), ("text", .string text)])])
  | none => .error (err (s!"prompt result message {i} is not a single text part, and the legacy " ++
      "prompt message holds one text content"))

def promptMessagesToValue (err : String → HostError) : Nat → List (Message T) →
    Except HostError (List Json)
  | _, [] => .ok []
  | i, message :: rest => do
    let value ← promptMessageToValue P err i message
    let values ← promptMessagesToValue err (i + 1) rest
    return value :: values

/-- The arguments of a prompt request as text. -/
def promptArguments (err : String → HostError) : List (String × Json) →
    Except HostError (List (String × String))
  | [] => .ok []
  | (key, .string s) :: rest => do
    let args ← promptArguments err rest
    return (key, s) :: args
  | (key, _) :: _ => .error (err (s!"prompt argument '{key}' is not a string, and the legacy " ++
      "payload's `args` is dict[str, str]"))

def refuseResourceVersion (err : String → HostError) (resource : Resource T) :
    Except HostError Unit :=
  if isSet resource.version then
    .error (err ("the resource has a `version`, which the legacy payload cannot carry; a plugin " ++
      "that authorizes by `uri` would approve any revision"))
  else .ok ()

/-- The legacy payload of one content part. -/
def partToLegacy (err : String → HostError) : Shim → ContentPart T → Except HostError Json
  | .toolPreInvoke, .toolCall content =>
    if isSet content.namespace then
      .error (err ("the tool call has a `namespace`, which the legacy payload cannot carry; a " ++
        "plugin that authorizes by bare `name` would approve it in any namespace"))
    else .ok (ToolPreInvokePayload.toValue ⟨content.name, some content.arguments, none⟩)
  | .toolPostInvoke, .toolResult content =>
    if content.isError && !resultSaysError content.content then
      .error (err ("the tool result has `is_error` set, and its `content` does not carry " ++
        "`\"isError\": true` for the legacy plugin to see"))
    else .ok (ToolPostInvokePayload.toValue ⟨content.toolName, content.content⟩)
  | .promptPreFetch, .promptRequest content =>
    if isSet content.serverId then
      .error (err ("the prompt request has a `server_id`, which the legacy payload cannot carry; " ++
        "a plugin that authorizes by bare `prompt_id` would approve it on any server"))
    else do
      let args ← promptArguments err content.arguments.entries
      return PromptPreFetchPayload.toValue ⟨content.name, some (HashMap.ofList args)⟩
  | .promptPostFetch, .promptResult (.mk _ promptName messages content isError errorMessage) =>
    if isSet content then
      .error (err ("the prompt result has rendered `content`, which the legacy payload cannot " ++
        "carry, so a plugin could not inspect or redact it"))
    else if isSet errorMessage then
      .error (err ("the prompt result has an `error_message`, which the legacy payload cannot " ++
        "carry, so a plugin could not inspect or redact it"))
    else if isError then
      .error (err ("the prompt result has `is_error` set, which the legacy payload cannot carry"))
    else do
      let messages ← promptMessagesToValue P err 0 messages
      return PromptPostFetchPayload.toValue ⟨promptName,
        Json.ofFields [("messages", .array messages), ("description", .null)]⟩
  | .resourcePreFetch, .resource content => do
    refuseResourceVersion err content
    return ResourcePreFetchPayload.toValue ⟨content.uri, none⟩
  | .resourcePreFetch, .resourceRef content =>
    .ok (ResourcePreFetchPayload.toValue ⟨content.uri, none⟩)
  | .resourcePostFetch, .resource content => do
    refuseResourceVersion err content
    if content.blob.isSome then
      throw (err ("the resource carries binary `blob` content, which the shim does not translate"))
    return ResourcePostFetchPayload.toValue ⟨content.uri, Json.ofFields [
      ("type", .string "resource"), ("id", .string content.resourceRequestId),
      ("uri", .string content.uri), ("mime_type", nullable .string content.mimeType),
      ("text", nullable .string content.content)]⟩
  | .resourcePostFetch, .resourceRef _ =>
    .error (err ("the message holds a resource_ref with no content, and the legacy post-fetch " ++
      "payload carries the content"))
  | _, _ => .error (err "unexpected content part")

/-- One translated invocation: the legacy payload to send, and the message to write back onto. -/
structure ShimmedPayload (T : Types) where
  shim : Shim
  hookName : String
  original : MessagePayload T
  /-- Index of the content part the legacy payload was built from. -/
  part : Nat
  json : Json

/-- The indices of the parts a shim accepts. -/
def candidates (shim : Shim) (content : List (ContentPart T)) : List Nat :=
  (content.zipIdx.filter fun e => shim.accepts e.1).map Prod.snd

/-- The legacy hook a `cmf.*` invocation reaches a worker without `cmf_hooks` as. -/
def toLegacy (hookName : String) (payload : Payload T) :
    Except HostError (ShimmedPayload T) :=
  match Shim.forHook hookName with
  | none => .error (.legacyShim hookName ("it has no legacy hook equivalent, so only a worker " ++
      "that claims the `cmf_hooks` feature can run it. Upgrade the cpex package in the plugin's " ++
      "venv, or remove the hook from the plugin's `hooks:` list."))
  | some shim =>
    let err := shimError hookName shim.legacyHook
    match payload with
    | .message original =>
      match candidates shim original.message.content with
      | [part] => do
        let sibling := original.message.content.zipIdx.find? fun e =>
          shim.isPost && e.2 ≠ part && carriesContent e.1
        match sibling with
        | some (sibling, _) => throw (err (s!"the message holds a {partKind sibling} content " ++
            s!"part beside the {shim.partName} part, which the legacy payload cannot carry, so " ++
            "a plugin could not inspect or redact it"))
        | none => pure ()
        match original.message.content[part]? with
        | some content =>
          let json ← partToLegacy P err shim content
          return { shim, hookName, original, part, json }
        | none => throw (err "unexpected content part")
      | [] => .error (err s!"the message has no {shim.partName} content part")
      | many => .error (err (s!"the message has {many.length} {shim.partName} content parts and " ++
          "the legacy payload holds one"))
    | _ => .error (err "the payload is not a CMF MessagePayload")

/-! ## Inbound -/

namespace ShimmedPayload

variable (shimmed : ShimmedPayload T)

def error (message : String) : HostError :=
  shimError shimmed.hookName shimmed.shim.legacyHook message

/-- Reads the modified legacy payload. -/
def parse {α : Type} (expected : String) (fromValue : Json → Option α) (modified : Json) :
    Except HostError α :=
  match fromValue modified with
  | some payload => .ok payload
  | none => .error (.protocol ("worker returned a modified payload that does not match the " ++
      s!"legacy hook '{shimmed.shim.legacyHook}' (dispatched as '{shimmed.hookName}'): " ++
      P.serdeError expected modified))

def resourcePreUri (modified : Json) : Except HostError String := do
  let legacy ← shimmed.parse P "ResourcePreFetchPayload" ResourcePreFetchPayload.fromValue modified
  if legacy.metadata.any fun m => !m.isEmpty then
    throw (shimmed.error ("the plugin returned resource `metadata`, which a CMF resource part " ++
      "cannot carry"))
  return legacy.uri

/-- The role and the text of a nested prompt message in the legacy shape. -/
def messageFromLegacy (i : Nat) (item : Json) : Except HostError (T.Role × String) := do
  let role ← match (item.get? "role").bind fun r => (P.roleFromValue r).toOption with
    | some role => pure role
    | none => throw (shimmed.error s!"`result.messages[{i}].role` is not a CMF role")
  let text := ((item.get? "content").bind Json.asObject).bind fun c =>
    if (Assoc.get? "type" c).bind Json.asStr = some "text" then
      (Assoc.get? "text" c).bind Json.asStr
    else none
  match text with
  | some text => return (role, text)
  | none => throw (shimmed.error (s!"`result.messages[{i}].content` must be text content " ++
      "(\x7b\"type\": \"text\", \"text\": ...\x7d)"))

/-- The nested messages of a legacy list. One keeps the original's other fields by position. -/
def messagesFromItems : Nat → List Json → List (Message T) → Except HostError (List (Message T))
  | _, [], _ => .ok []
  | i, item :: items, original => do
    let (role, text) ← messageFromLegacy P shimmed i item
    let kept := original.head?.getD (P.textMessage role "")
    let rest ← messagesFromItems (i + 1) items original.tail
    return .mk kept.schemaVersion role [.text text] kept.channel :: rest

/-- The nested prompt messages of a legacy prompt result. -/
def messagesFromLegacy (result : Json) (original : List (Message T)) :
    Except HostError (List (Message T)) :=
  match result with
  | .object result =>
    if (Assoc.get? "description" result).any (· ≠ .null) then
      .error (shimmed.error ("the plugin returned a prompt result `description`, which a CMF " ++
        "prompt result cannot carry"))
    else
      match Assoc.get? "messages" result with
      | some (.array items) => messagesFromItems P shimmed 0 items original
      | _ => .error (shimmed.error "`result.messages` must be a list")
  | _ => .error (shimmed.error "`result` must be an object with a `messages` list")

/-- A text field of a legacy resource content: `null` clears it. -/
def textOrNull (message : String) : Json → Except HostError (Option String)
  | .null => .ok none
  | .string text => .ok (some text)
  | _ => .error (shimmed.error message)

/-- Text and MIME type of a resource, from the legacy `content` of a post-fetch. -/
def resourceContent (content : Resource T) (uri : String) :
    Json → Except HostError (Option String × Option String)
  | .null => .ok (none, content.mimeType)
  | .string text => .ok (some text, content.mimeType)
  | .object fields => do
    if (Assoc.get? "blob" fields).any (· ≠ .null) then
      throw (shimmed.error ("the plugin returned resource `content.blob`; binary resource " ++
        "content is not carried by the shim"))
    if (Assoc.get? "id" fields).any fun id => id.asStr ≠ some content.resourceRequestId then
      throw (shimmed.error "the plugin changed `content.id`, which is not mapped back")
    if (Assoc.get? "uri" fields).any fun u => u.asStr ≠ some uri && u.asStr ≠ some content.uri then
      throw (shimmed.error ("the plugin changed `content.uri` to a value other than `uri`, and " ++
        "only `uri` is mapped back"))
    let text ← shimmed.textOrNull "`content.text` must be a string or null"
      ((Assoc.get? "text" fields).getD .null)
    let mimeType ← match Assoc.get? "mime_type" fields with
      | none => pure content.mimeType
      | some mime => shimmed.textOrNull "`content.mime_type` must be a string or null" mime
    return (text, mimeType)
  | _ => .error (shimmed.error "`content` must be an object, a string, or null")

/-- The part with the fields of a modified legacy payload written onto it. -/
def applyPart (modified : Json) : Shim → ContentPart T → Except HostError (ContentPart T)
  | .toolPreInvoke, .toolCall content => do
    let legacy ← shimmed.parse P "ToolPreInvokePayload" ToolPreInvokePayload.fromValue modified
    if legacy.headers.any fun h => !h.isEmpty then
      throw (shimmed.error "the plugin returned `headers`, which a CMF tool call cannot carry")
    return .toolCall { content with
      name := legacy.name
      arguments := legacy.args.getD HashMap.empty }
  | .toolPostInvoke, .toolResult content => do
    let legacy ← shimmed.parse P "ToolPostInvokePayload" ToolPostInvokePayload.fromValue modified
    if content.isError && !resultSaysError legacy.result then
      throw (shimmed.error ("the plugin cleared `isError` on an error tool result, and the CMF " ++
        "`is_error` flag is not mapped back"))
    return .toolResult { content with
      isError := content.isError || resultSaysError legacy.result
      toolName := legacy.name
      content := legacy.result }
  | .promptPreFetch, .promptRequest content => do
    let legacy ← shimmed.parse P "PromptPreFetchPayload" PromptPreFetchPayload.fromValue modified
    let args := (legacy.args.getD HashMap.empty).entries
    return .promptRequest { content with
      name := legacy.promptId
      arguments := HashMap.ofList (args.map fun e => (e.1, .string e.2)) }
  | .promptPostFetch, .promptResult (.mk promptRequestId _ messages content isError
      errorMessage) => do
    let legacy ← shimmed.parse P "PromptPostFetchPayload" PromptPostFetchPayload.fromValue modified
    let messages ← messagesFromLegacy P shimmed legacy.result messages
    return .promptResult (.mk promptRequestId legacy.promptId messages content isError
      errorMessage)
  | .resourcePreFetch, .resource content => do
    let uri ← shimmed.resourcePreUri P modified
    if uri ≠ content.uri &&
        (P.isEmbedded content || content.mimeType.isSome || content.sizeBytes.isSome) then
      throw (shimmed.error ("the plugin rewrote the URI of a resource that carries content, " ++
        "mime_type or size_bytes from the original URI"))
    return .resource { content with uri }
  | .resourcePreFetch, .resourceRef content => do
    let uri ← shimmed.resourcePreUri P modified
    return .resourceRef { content with uri }
  | .resourcePostFetch, .resource content => do
    let legacy ← shimmed.parse P "ResourcePostFetchPayload" ResourcePostFetchPayload.fromValue
      modified
    let (text, mimeType) ← shimmed.resourceContent content legacy.uri legacy.content
    -- A size measured from the original text would misstate the returned one.
    let sizeBytes := if text ≠ content.content && content.sizeBytes.isSome then
      text.map fun t => UInt64.ofNat t.utf8ByteSize else content.sizeBytes
    return .resource { content with uri := legacy.uri, content := text, mimeType, sizeBytes }
  | _, _ => .error (shimmed.error "the original content part changed kind")

/-- The original message with a modified legacy payload written back. -/
def applyModified (modified : Json) : Except HostError (MessagePayload T) :=
  match shimmed.original.message with
  | .mk schemaVersion role content channel =>
    match content[shimmed.part]? with
    | none => .error (shimmed.error "the original content part is gone")
    | some part => do
      let part ← applyPart P shimmed modified shimmed.shim part
      return ⟨.mk schemaVersion role (content.set shimmed.part part) channel⟩

end ShimmedPayload

end Cpex.Host
