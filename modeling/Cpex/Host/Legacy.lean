import Cpex.Infra.Serde

/-!
# Legacy payloads

`crates/cpex-hosts-python/src/legacy/payloads.rs`. The typed payloads of the non-CMF hooks, with
the serializers `serde` derives for them.
-/

namespace Cpex.Host.Legacy

open Cpex.Infra Cpex.Infra.Serde

structure ToolPreInvokePayload where
  name : String
  args : Option (HashMap String Json)
  headers : Option (HashMap String String)

def ToolPreInvokePayload.toValue (p : ToolPreInvokePayload) : Json :=
  Json.ofFields ([("name", .string p.name)] ++ optionalField "args" HashMap.toObject p.args ++
    optionalField "headers" stringMap p.headers)

def ToolPreInvokePayload.fromValue (v : Json) : Option ToolPreInvokePayload := do
  let field ← structFields ["name", "args", "headers"] v
  let name ← required readString (field "name")
  let args ← optional (readMap readValue) (field "args")
  let headers ← optional (readMap readString) (field "headers")
  return { name, args, headers }

structure ToolPostInvokePayload where
  name : String
  result : Json

def ToolPostInvokePayload.toValue (p : ToolPostInvokePayload) : Json :=
  Json.ofFields [("name", .string p.name), ("result", p.result)]

def ToolPostInvokePayload.fromValue (v : Json) : Option ToolPostInvokePayload := do
  let field ← structFields ["name", "result"] v
  let name ← required readString (field "name")
  let result ← defaulted .null readValue (field "result")
  return { name, result }

structure PromptPreFetchPayload where
  promptId : String
  args : Option (HashMap String String)

def PromptPreFetchPayload.toValue (p : PromptPreFetchPayload) : Json :=
  Json.ofFields ([("prompt_id", .string p.promptId)] ++ optionalField "args" stringMap p.args)

def PromptPreFetchPayload.fromValue (v : Json) : Option PromptPreFetchPayload := do
  let field ← structFields ["prompt_id", "args"] v
  let promptId ← required readString (field "prompt_id")
  let args ← optional (readMap readString) (field "args")
  return { promptId, args }

structure PromptPostFetchPayload where
  promptId : String
  result : Json

def PromptPostFetchPayload.toValue (p : PromptPostFetchPayload) : Json :=
  Json.ofFields [("prompt_id", .string p.promptId), ("result", p.result)]

def PromptPostFetchPayload.fromValue (v : Json) : Option PromptPostFetchPayload := do
  let field ← structFields ["prompt_id", "result"] v
  let promptId ← required readString (field "prompt_id")
  let result ← defaulted .null readValue (field "result")
  return { promptId, result }

structure ResourcePreFetchPayload where
  uri : String
  metadata : Option (HashMap String Json)

def ResourcePreFetchPayload.toValue (p : ResourcePreFetchPayload) : Json :=
  Json.ofFields ([("uri", .string p.uri)] ++ optionalField "metadata" HashMap.toObject p.metadata)

def ResourcePreFetchPayload.fromValue (v : Json) : Option ResourcePreFetchPayload := do
  let field ← structFields ["uri", "metadata"] v
  let uri ← required readString (field "uri")
  let metadata ← optional (readMap readValue) (field "metadata")
  return { uri, metadata }

structure ResourcePostFetchPayload where
  uri : String
  content : Json

def ResourcePostFetchPayload.toValue (p : ResourcePostFetchPayload) : Json :=
  Json.ofFields [("uri", .string p.uri), ("content", p.content)]

def ResourcePostFetchPayload.fromValue (v : Json) : Option ResourcePostFetchPayload := do
  let field ← structFields ["uri", "content"] v
  let uri ← required readString (field "uri")
  let content ← defaulted .null readValue (field "content")
  return { uri, content }

structure IdentityResolvePayload where
  rawToken : String
  source : String
  headers : HashMap String String
  clientHost : Option String
  clientPort : Option UInt16

def IdentityResolvePayload.toValue (p : IdentityResolvePayload) : Json :=
  Json.ofFields ([("raw_token", .string p.rawToken), ("source", .string p.source),
    ("headers", stringMap p.headers)] ++ optionalField "client_host" .string p.clientHost ++
    optionalField "client_port" (fun port => unsigned port.toNat) p.clientPort)

def IdentityResolvePayload.fromValue (v : Json) : Option IdentityResolvePayload := do
  let field ← structFields ["raw_token", "source", "headers", "client_host", "client_port"] v
  let rawToken ← defaulted "" readString (field "raw_token")
  let source ← defaulted "" readString (field "source")
  let headers ← defaulted HashMap.empty (readMap readString) (field "headers")
  let clientHost ← optional readString (field "client_host")
  let clientPort ← optional readU16 (field "client_port")
  return { rawToken, source, headers, clientHost, clientPort }

/-- Scope-attenuation config. -/
structure AttenuationConfig where
  capabilities : List String
  resourceTemplate : Option String
  actions : List String
  ttlSeconds : Option Int64

def AttenuationConfig.toValue (c : AttenuationConfig) : Json :=
  Json.ofFields ([("capabilities", strings c.capabilities)] ++
    optionalField "resource_template" .string c.resourceTemplate ++
    [("actions", strings c.actions)] ++ optionalField "ttl_seconds" signed c.ttlSeconds)

def AttenuationConfig.fromValue (v : Json) : Option AttenuationConfig := do
  let field ← structFields ["capabilities", "resource_template", "actions", "ttl_seconds"] v
  let capabilities ← defaulted [] readStrings (field "capabilities")
  let resourceTemplate ← optional readString (field "resource_template")
  let actions ← defaulted [] readStrings (field "actions")
  let ttlSeconds ← optional readI64 (field "ttl_seconds")
  return { capabilities, resourceTemplate, actions, ttlSeconds }

structure TokenDelegatePayload where
  targetName : String
  targetType : String
  targetAudience : Option String
  requiredPermissions : List String
  trustDomain : Option String
  authEnforcedBy : String
  routeAttenuation : Option AttenuationConfig
  bearerToken : Option String

def TokenDelegatePayload.toValue (p : TokenDelegatePayload) : Json :=
  Json.ofFields ([("target_name", .string p.targetName), ("target_type", .string p.targetType)] ++
    optionalField "target_audience" .string p.targetAudience ++
    [("required_permissions", strings p.requiredPermissions)] ++
    optionalField "trust_domain" .string p.trustDomain ++
    [("auth_enforced_by", .string p.authEnforcedBy)] ++
    optionalField "route_attenuation" AttenuationConfig.toValue p.routeAttenuation ++
    optionalField "bearer_token" .string p.bearerToken)

def TokenDelegatePayload.fromValue (v : Json) : Option TokenDelegatePayload := do
  let field ← structFields ["target_name", "target_type", "target_audience",
    "required_permissions", "trust_domain", "auth_enforced_by", "route_attenuation",
    "bearer_token"] v
  let targetName ← required readString (field "target_name")
  let targetType ← defaulted "tool" readString (field "target_type")
  let targetAudience ← optional readString (field "target_audience")
  let requiredPermissions ← defaulted [] readStrings (field "required_permissions")
  let trustDomain ← optional readString (field "trust_domain")
  let authEnforcedBy ← defaulted "caller" readString (field "auth_enforced_by")
  let routeAttenuation ← optional AttenuationConfig.fromValue (field "route_attenuation")
  let bearerToken ← optional readString (field "bearer_token")
  return ⟨targetName, targetType, targetAudience, requiredPermissions, trustDomain,
    authEnforcedBy, routeAttenuation, bearerToken⟩

end Cpex.Host.Legacy
