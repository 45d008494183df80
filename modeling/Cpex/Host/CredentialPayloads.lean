import Cpex.Infra.Serde
import Cpex.Infra.Text
import Cpex.Host.Error
import Cpex.Host.Ppe

/-!
# Identity and delegation payloads on the wire

`crates/cpex-hosts-python/src/credential_payloads.rs`. The engine's identity and delegation payloads
go out as the worker's own models, without any secret, and a plugin's answer is written onto a copy
of the payload that was dispatched.
-/

namespace Cpex.Host

open Cpex.Infra Cpex.Infra.Serde

def hookIdentityResolve : String := "identity.resolve"

def hookTokenDelegate : String := "token.delegate"

/-- Header an identity payload's credential arrives in when it names none. -/
def defaultCredentialHeader : String := "authorization"

/-- Header names that carry credentials by convention, in lower case. -/
def credentialHeaders : List String :=
  ["authorization", "proxy-authorization", "cookie", "set-cookie", "x-api-key", "x-auth-token",
    "x-access-token", "x-amzn-oidc-data", "x-goog-iap-jwt-assertion", "x-amz-security-token"]

/-- Approved header names with a validator for the value. None is approved yet. -/
def publicHeaderValidators : List (String × (String → Bool)) := []

def defaultOutboundHeader : String := "Authorization"

def defaultDelegatedTokenTtlSecs : Int64 := 60

def identityInputFields : List String :=
  ["raw_token", "source", "headers", "client_host", "client_port"]

def delegationInputFields : List String :=
  ["target_name", "target_type", "target_audience", "required_permissions", "trust_domain",
    "auth_enforced_by", "route_attenuation", "bearer_token"]

def identityResultFields : List String :=
  ["subject", "delegation", "raw_claims", "rejected", "reject_status", "reject_reason"]

def delegationResultFields : List String :=
  ["delegated_token", "delegation_update", "forwarded_headers", "cache_key", "cache_ttl"]

variable {T : Types} (P : Ppe T)

/-! ## Errors -/

def protocolError (hook message : String) : HostError := .protocol s!"hook '{hook}': {message}"

def unrepresentable (hook field : String) : HostError :=
  protocolError hook (s!"the plugin returned `{field}`, which the PPE payload has nowhere to " ++
    "hold; refusing to drop it silently")

/-! ## Headers and tokens -/

/-- Case-insensitive header lookup: the first entry, with its key as stored. -/
def headerEntry (headers : HashMap String String) (name : String) : Option (String × String) :=
  headers.entries.find? fun e => Text.eqIgnoreAsciiCase e.1 name

/-- Drops a leading `Bearer `, in any case. -/
def stripBearer (value : String) : String :=
  let trimmed := (Text.trimStart value).toList
  if Text.eqIgnoreAsciiCase (String.ofList (trimmed.take 7)) "bearer " then
    String.ofList (trimmed.drop 7)
  else String.ofList trimmed

namespace IdentityPayload

/-- The header the payload's credential arrives in. -/
def sourceHeaderName (payload : IdentityPayload T) : String :=
  payload.sourceHeader.getD defaultCredentialHeader

/-- The inbound credential an identity payload carries, if any. -/
def inboundToken (payload : IdentityPayload T) : Option String :=
  if !Text.isBlank payload.rawToken then some payload.rawToken
  else
    (headerEntry payload.headers payload.sourceHeaderName).bind fun e =>
      let token := Text.trim (stripBearer e.2)
      if token = "" then none else some token

/-- The header the credential arrived in, spelled as the map spells it. -/
def credentialHeaderName (payload : IdentityPayload T) : String :=
  match headerEntry payload.headers payload.sourceHeaderName with
  | some e => e.1
  | none => payload.sourceHeaderName

end IdentityPayload

/-- Whether a raw header may cross to a worker outside the gated credential channel. -/
def isPublicHeader (name value : String) (sourceHeader token : Option String) : Bool :=
  let lower := Text.toAsciiLowercase name
  if credentialHeaders.contains lower ||
      sourceHeader.any (Text.eqIgnoreAsciiCase lower) ||
      token.any (fun t => Text.contains name t || Text.contains value t) then false
  else publicHeaderValidators.any fun v => lower == v.1 && v.2 value

/-- Public request headers for an identity plugin. -/
def publicHeaders (payload : IdentityPayload T) : HashMap String String :=
  payload.headers.filter fun e =>
    isPublicHeader e.1 e.2 (some payload.sourceHeaderName) payload.inboundToken

/-- **No header is public**: none is approved yet. -/
theorem isPublicHeader_eq_false (name value : String) (sourceHeader token : Option String) :
    isPublicHeader name value sourceHeader token = false := by
  unfold isPublicHeader
  dsimp only
  split
  · rfl
  · rfl

/-! ## Values -/

/-- A value that carries nothing: what Pydantic dumps for an unset field. -/
def isEmptyValue : Json → Bool
  | .null | .bool false => true
  | .string s => s.isEmpty
  | .array items => items.isEmpty
  | .object fields => fields.isEmpty
  | .bool true | .number _ => false

/-- The first field, in order, that neither list names and that carries something. -/
def firstUnknown (known : List String) : List (String × Json) → Option String
  | [] => none
  | (key, value) :: rest =>
    if !known.contains key && !isEmptyValue value then some key else firstUnknown known rest

mutual

/-- The path of the first set field in the first value that the second one lost. -/
def firstDropped : Json → Json → String → Option String
  | .object fields, .object kept, path => firstDroppedField fields kept path
  | .array items, .array kept, path =>
    if items.length ≠ kept.length then some path else firstDroppedItem items kept path 0
  | _, _, _ => none

def firstDroppedField : List (String × Json) → List (String × Json) → String → Option String
  | [], _, _ => none
  | (key, value) :: rest, kept, path =>
    if isEmptyValue value then firstDroppedField rest kept path
    else
      match Assoc.get? key kept with
      | none => some s!"{path}.{key}"
      | some k =>
        match firstDropped value k s!"{path}.{key}" with
        | some lost => some lost
        | none => firstDroppedField rest kept path

def firstDroppedItem : List Json → List Json → String → Nat → Option String
  | item :: items, k :: kept, path, i =>
    match firstDropped item k s!"{path}[{i}]" with
    | some lost => some lost
    | none => firstDroppedItem items kept path (i + 1)
  | _, _, _, _ => none

end

/-- Reads an engine type, and fails closed when that drops a set field. -/
def parseLossless {α : Type} (fromValue : Json → Except String α) (toValue : α → Except String Json)
    (hook field : String) (value : Json) : Except HostError α :=
  match fromValue value with
  | .error _ => .error (protocolError hook s!"`{field}` does not match the PPE type it maps to")
  | .ok parsed =>
    match toValue parsed with
    | .error e => .error (.protocol s!"could not re-serialize `{field}`: {e}")
    | .ok back =>
      match firstDropped value back field with
      | some path => .error (unrepresentable hook path)
      | none => .ok parsed

/-- Refuses a field that carries something and that the host does not know. -/
def refuseUnknown (hook : String) (known : List String) (fields : List (String × Json)) :
    Except HostError Unit :=
  match firstUnknown known fields with
  | some key => .error (unrepresentable hook key)
  | none => .ok ()

/-- A field that is there and not `null`. -/
def present (fields : List (String × Json)) (key : String) : Option Json :=
  (Assoc.get? key fields).filter (· ≠ .null)

def asFields (hook : String) : Json → Except HostError (List (String × Json))
  | .object fields => .ok fields
  | _ => .error (protocolError hook "the modified payload is not a JSON object")

/-! ## `identity.resolve` -/

/-- The worker's `IdentityPayload` for an identity payload. -/
def identityToWorker (payload : IdentityPayload T) : Except HostError Json :=
  match P.tokenSourceToValue payload.source with
  | .error e => .error (.protocol s!"could not serialize the identity payload's source: {e}")
  | .ok source => .ok (Json.ofFields ([("raw_token", .string ""), ("source", source),
      ("headers", stringMap (publicHeaders payload))] ++
      optionalField "client_host" .string payload.clientHost ++
      optionalField "client_port" (fun port => unsigned port.toNat) payload.clientPort))

/-- What an identity plugin's result means for the pipeline. -/
inductive IdentityOutcome (T : Types) where
  | resolved (payload : IdentityPayload T)
  | rejected (violation : PluginViolation)

/-- The reason of a rejection. -/
def rejectReason : Option Json → Except HostError String
  | none | some .null => .ok ""
  | some (.string reason) => .ok reason
  | some _ => .error (protocolError hookIdentityResolve "`reject_reason` must be a string")

/-- The status of a rejection. -/
def rejectStatus : Option Json → Except HostError (Option Int64)
  | none | some .null => .ok none
  | some status =>
    match status.asI64 with
    | some status => .ok (some status)
    | none => .error (protocolError hookIdentityResolve "`reject_status` must be an integer")

/-- The deny a `rejected` identity result stands for. -/
def rejection (fields : List (String × Json)) : Except HostError PluginViolation := do
  let reason ← rejectReason (Assoc.get? "reject_reason" fields)
  let reason := if reason = "" then "the identity plugin rejected the credential" else reason
  let violation := PluginViolation.new "auth.rejected" reason
  match ← rejectStatus (Assoc.get? "reject_status" fields) with
  | none => return violation
  | some status => return { violation with
      protoErrorCode := some status
      details := violation.details.insert "reject_status" (signed status) }

/-- The worker names a subject's kind `type`; the engine names it `subject_type`. -/
def pythonSubject (subject : Json) : Json :=
  match subject with
  | .object fields =>
    if (Assoc.get? "subject_type" fields).isSome then subject
    else
      match Assoc.get? "type" fields with
      | some kind => (Json.object (Assoc.erase "type" fields)).set "subject_type" kind
      | none => subject
  | other => other

def resolvedSubject (original : IdentityPayload T) :
    Option Json → Except HostError (Option T.Subject)
  | none => .ok original.subject
  | some subject => (parseLossless P.subjectFromValue P.subjectToValue hookIdentityResolve
      "subject" (pythonSubject subject)).map some

def resolvedDelegation (original : IdentityPayload T) :
    Option Json → Except HostError (Option T.Delegation)
  | none => .ok original.delegation
  | some delegation => (parseLossless P.delegationFromValue P.delegationToValue
      hookIdentityResolve "delegation" delegation).map some

def resolvedClaims (original : IdentityPayload T) :
    Option Json → Except HostError (HashMap String Json)
  | none | some .null => .ok original.rawClaims
  | some (.object claims) => .ok (claims.foldl (fun m c => m.insert c.1 c.2) original.rawClaims)
  | some _ => .error (protocolError hookIdentityResolve "`raw_claims` must be an object")

/-- Maps an identity plugin's modified payload back onto a copy of the dispatched one. -/
def identityFromWorker (original : IdentityPayload T) (modified : Json) :
    Except HostError (IdentityOutcome T) := do
  let fields ← asFields hookIdentityResolve modified
  refuseUnknown hookIdentityResolve (identityResultFields ++ identityInputFields) fields
  match Assoc.get? "rejected" fields with
  | some (.bool true) =>
    let violation ← rejection fields
    return .rejected violation
  | none | some .null | some (.bool false) =>
    let subject ← resolvedSubject P original (present fields "subject")
    let delegation ← resolvedDelegation P original (present fields "delegation")
    let rawClaims ← resolvedClaims original (Assoc.get? "raw_claims" fields)
    return .resolved { original with subject, delegation, rawClaims }
  | some _ => throw (protocolError hookIdentityResolve "`rejected` must be a boolean")

/-! ## `token.delegate` -/

def toJson (value : Except String Json) : Except HostError Json :=
  value.mapError fun e => .protocol s!"could not serialize a delegation payload field: {e}"

/-- The worker's `DelegationPayload` for a delegation payload. -/
def delegationToWorker (payload : DelegationPayload T) : Except HostError Json := do
  if payload.actorRole.isSome || !payload.actorToken.isEmpty then
    throw (protocolError hookTokenDelegate ("the delegation carries an RFC 8693 actor, which the " ++
      "Python DelegationPayload cannot carry; a token minted without it would lose its `act` " ++
      "attribution"))
  if !P.isUser payload.subject then
    throw (protocolError hookTokenDelegate ("the delegation is for a subject other than `user`, " ++
      "and the Python DelegationPayload reads its bearer token as the user's; a plugin would " ++
      "attribute the minted token to the wrong principal"))
  let targetType ← toJson (P.targetTypeToValue payload.targetType)
  let authEnforcedBy ← toJson (P.authEnforcedByToValue payload.authEnforcedBy)
  let attenuation ← payload.routeAttenuation.mapM fun a => toJson (P.attenuationToValue a)
  return Json.ofFields ([("target_name", .string payload.targetName), ("target_type", targetType),
      ("required_permissions", strings payload.requiredPermissions),
      ("auth_enforced_by", authEnforcedBy)] ++
    optionalField "target_audience" .string payload.targetAudience ++
    optionalField "trust_domain" .string payload.trustDomain ++
    optionalField "route_attenuation" id attenuation)

/-- The header the minted token goes upstream in. -/
def outboundHeader (token : String) : List (String × Json) → Except HostError String
  | [] => .ok defaultOutboundHeader
  | (name, value) :: rest =>
    let carriesToken := value.asStr.any fun v => v == token || stripBearer v == token
    if !rest.isEmpty || !carriesToken then
      .error (protocolError hookTokenDelegate ("the plugin returned `forwarded_headers` other " ++
        "than the single header carrying the minted token, and a PPE delegation payload cannot " ++
        "carry extra headers"))
    else .ok name

def isDefaultDelegation (update : T.Delegation) : Bool :=
  (P.chain update).isEmpty && P.depth update == 0 && (P.originSubjectId update).isNone &&
    (P.actorSubjectId update).isNone && !P.delegated update

/-- The token a delegation plugin returned. -/
def returnedToken : Option Json → Except HostError (Option String)
  | none | some .null => .ok none
  | some (.string token) =>
    if Text.isBlank token then
      .error (protocolError hookTokenDelegate "the plugin returned an empty `delegated_token`")
    else .ok (some token)
  | some _ => .error (protocolError hookTokenDelegate "`delegated_token` must be a string")

/-- The headers a delegation plugin returned. -/
def returnedForwarded : Option Json → Except HostError (List (String × Json))
  | none | some .null => .ok []
  | some (.object headers) => .ok headers
  | some _ => .error (protocolError hookTokenDelegate "`forwarded_headers` must be an object")

/-- The lifetime of the minted token, in seconds. -/
def returnedTtl : Option Json → Except HostError Int64
  | none | some .null => .ok defaultDelegatedTokenTtlSecs
  | some ttl =>
    match ttl.asI64.filter (fun secs => 0 < secs.toInt) with
    | some secs => .ok secs
    | none => .error (protocolError hookTokenDelegate "`cache_ttl` must be a positive integer")

/-- The payload with a minted token, when one was returned. -/
def withMintedToken (now : T.Time) (original : DelegationPayload T)
    (forwarded : List (String × Json)) (ttl : Option Json) :
    Option String → Except HostError (DelegationPayload T)
  | some token => do
    let outboundHeader ← outboundHeader token forwarded
    let ttl ← returnedTtl ttl
    match P.addSeconds now ttl with
    | none => throw (protocolError hookTokenDelegate "`cache_ttl` is out of range")
    | some expiresAt => return { original with
        delegatedToken := some {
          token
          outboundHeader
          audience := original.targetAudience.getD original.targetName
          scopes := original.requiredPermissions
          expiresAt }
        delegationMode := some (P.defaultMode original.subject)
        mintedAt := some now }
  | none =>
    if forwarded.isEmpty then .ok original
    else .error (protocolError hookTokenDelegate ("the plugin returned `forwarded_headers` with " ++
      "no `delegated_token`, and a PPE delegation payload carries headers only as the minted " ++
      "token's outbound header"))

/-- Maps a delegation plugin's modified payload back onto a copy of the dispatched one, at `now`. -/
def delegationFromWorker (now : T.Time) (original : DelegationPayload T) (modified : Json) :
    Except HostError (DelegationPayload T) := do
  let fields ← asFields hookTokenDelegate modified
  refuseUnknown hookTokenDelegate (delegationResultFields ++ delegationInputFields) fields
  let token ← returnedToken (Assoc.get? "delegated_token" fields)
  let forwarded ← returnedForwarded (Assoc.get? "forwarded_headers" fields)
  let resolved ← withMintedToken P now original forwarded (Assoc.get? "cache_ttl" fields) token
  match present fields "delegation_update" with
  | none => return resolved
  | some update =>
    let update ← parseLossless P.delegationFromValue P.delegationToValue hookTokenDelegate
      "delegation_update" update
    return if isDefaultDelegation P update then resolved
      else { resolved with delegationUpdate := some update }

end Cpex.Host
