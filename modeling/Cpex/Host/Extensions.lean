import Cpex.Host.CredentialPayloads

/-!
# The extensions wire contract

`crates/cpex-hosts-python/src/extensions.rs`. The capability-filtered view goes out on the task, and
what the worker returns is merged onto a copy of that view, one writable slot at a time.

* `attachExtensions` — outbound: no raw header value, no raw credential
* `ownedFromReturnedSlot` — inbound: a slot is written only where a write token covers it
-/

namespace Cpex.Host

open Cpex.Infra

/-- Task field the extensions ride on. -/
def extensionsField : String := "extensions"

/-- Response field the returned extensions ride on. -/
def modifiedExtensionsField : String := "modified_extensions"

variable {T : Types} (P : Ppe T)

/-! ## Headers -/

/-- Whether a returned header carries a credential by convention. -/
def isSensitive (name : String) : Bool := credentialHeaders.any (Text.eqIgnoreAsciiCase name)

/-- The approved and validated headers. -/
def publicHttpHeaders (headers : HashMap String String) : HashMap String String :=
  headers.filter fun e => isPublicHeader e.1 e.2 none none

/-- Drops the known credential headers. -/
def stripSensitive (headers : HashMap String String) : HashMap String String :=
  headers.filter fun e => !isSensitive e.1

/-- The `http` slot with only approved headers. -/
def sanitizeHttp (http : HttpExtension T) : HttpExtension T :=
  { http with
    requestHeaders := publicHttpHeaders http.requestHeaders
    responseHeaders := publicHttpHeaders http.responseHeaders }

/-- The worker's headers on the inbound request line. -/
def returnedHttp (returned : HttpExtension T) (inbound : Option (HttpExtension T)) :
    HttpExtension T where
  requestHeaders := stripSensitive returned.requestHeaders
  secretHeaders := (inbound.map HttpExtension.secretHeaders).getD P.noSecretHeaders
  responseHeaders := stripSensitive returned.responseHeaders
  status := inbound.bind HttpExtension.status
  method := inbound.bind HttpExtension.method
  path := inbound.bind HttpExtension.path
  host := inbound.bind HttpExtension.host
  scheme := inbound.bind HttpExtension.scheme

/-! ## Outbound -/

/-- The key an immutable slot has on the wire. -/
def ImmutableSlot.key : ImmutableSlot → String
  | .request => "request"
  | .agent => "agent"
  | .mcp => "mcp"
  | .completion => "completion"
  | .provenance => "provenance"
  | .llm => "llm"
  | .framework => "framework"
  | .metadata => "meta"

/-- The field of one slot: none when the slot is absent. -/
def put {α : Type} (key : String) (write : α → Except String Json) :
    Option α → Except HostError (List (String × Json))
  | none => .ok []
  | some a =>
    match write a with
    | .ok value => .ok [(key, value)]
    | .error e =>
      .error (.protocol s!"could not serialize the '{key}' extension for the worker: {e}")

/-- The field of an immutable slot. -/
def putSlot (extensions : Extensions T) (n : ImmutableSlot) :
    Except HostError (List (String × Json)) :=
  put n.key (P.slotToValue n) (extensions.slot n)

/-- The wire form of a filtered view. `raw_credentials` has none. -/
def toWire (extensions : Extensions T) : Except HostError Json := do
  let request ← putSlot P extensions .request
  let agent ← putSlot P extensions .agent
  let http ← put "http" (fun h => P.httpToValue (sanitizeHttp h)) extensions.http
  let security ← put "security" P.securityToValue extensions.security
  let delegation ← put "delegation" P.delegationToValue extensions.delegation
  let mcp ← putSlot P extensions .mcp
  let completion ← putSlot P extensions .completion
  let provenance ← putSlot P extensions .provenance
  let llm ← putSlot P extensions .llm
  let framework ← putSlot P extensions .framework
  let metadata ← putSlot P extensions .metadata
  let custom ← put "custom" (fun m => .ok (HashMap.toObject m)) extensions.custom
  return Json.ofFields (request ++ agent ++ http ++ security ++ delegation ++ mcp ++ completion ++
    provenance ++ llm ++ framework ++ metadata ++ custom)

/-- Puts the wire form on the task, unless no slot is visible. -/
def attachExtensions (task : Json) (extensions : Extensions T) : Except HostError Json := do
  let wire ← toWire P extensions
  if wire = .object [] then return task
  match task with
  | .object _ => return task.set extensionsField wire
  | _ => throw (.protocol "task must be a JSON object to carry extensions")

/-! ## Inbound -/

/-- One slot of the returned object: absent and `null` are no slot. -/
def returnedSlot {α : Type} (parse : Json → Except String α) (object : List (String × Json))
    (key : String) : Except HostError (Option α) :=
  match Assoc.get? key object with
  | none | some .null => .ok none
  | some value =>
    match parse value with
    | .ok a => .ok (some a)
    | .error e => .error (.protocol
        s!"could not deserialize the '{key}' extension returned by the worker: {e}")

/-- The owned copy under construction, and whether any slot was taken from the wire. -/
structure Merge (T : Types) where
  owned : OwnedExtensions T
  applied : Bool

/-- Guarded: header maps only, under the `http` write token. -/
def mergeHttp (object : List (String × Json)) (inbound : Extensions T) (m : Merge T) :
    Except HostError (Merge T) := do
  match ← returnedSlot P.httpFromValue object "http" with
  | some http =>
    if inbound.httpWriteToken then
      return ⟨{ m.owned with http := some (returnedHttp P http inbound.http) }, true⟩
    else return m
  | none => return m

/-- Monotonic: labels only, added to the inbound ones. -/
def mergeSecurity (object : List (String × Json)) (inbound : Extensions T) (m : Merge T) :
    Except HostError (Merge T) := do
  match ← returnedSlot P.securityFromValue object "security" with
  | some security =>
    if inbound.labelsWriteToken then
      let merged := (P.labels security).foldl (fun s label => P.addLabel label s)
        (inbound.security.getD P.defaultSecurity)
      return ⟨{ m.owned with security := some merged }, true⟩
    else return m
  | none => return m

/-- Monotonic: a chain that extends the inbound one. -/
def mergeDelegation (object : List (String × Json)) (inbound : Extensions T) (m : Merge T) :
    Except HostError (Merge T) := do
  match ← returnedSlot P.delegationFromValue object "delegation" with
  | some delegation =>
    if inbound.delegationWriteToken then
      let inboundChain := (inbound.delegation.map P.chain).getD []
      if P.chainExtends inboundChain (P.chain delegation) then
        return ⟨{ m.owned with delegation := some delegation }, true⟩
      else return m
    else return m
  | none => return m

/-- `serde_json::from_value` into the `custom` map. -/
def customFromValue (value : Json) : Except String (HashMap String Json) :=
  match HashMap.ofObject value with
  | some custom => .ok custom
  | none => .error (P.serdeError "map" value)

/-- Mutable: accepted without a token. -/
def mergeCustom (object : List (String × Json)) (m : Merge T) : Except HostError (Merge T) := do
  match ← returnedSlot (customFromValue P) object "custom" with
  | some custom => return ⟨{ m.owned with custom := some custom }, true⟩
  | none => return m

/-- The owned extensions a returned value makes of the inbound view. `none` is no change. -/
def ownedFromReturnedSlot (field : Json) (inbound : Extensions T) :
    Except HostError (Option (OwnedExtensions T)) :=
  match field with
  | .null => .ok none
  | .object object => do
    let m ← mergeHttp P object inbound ⟨P.cowCopy inbound, false⟩
    let m ← mergeSecurity P object inbound m
    let m ← mergeDelegation P object inbound m
    let m ← mergeCustom P object m
    return if m.applied then some m.owned else none
  | _ => .error (.protocol
      s!"the worker returned a '{modifiedExtensionsField}' field that is not a JSON object")

end Cpex.Host
