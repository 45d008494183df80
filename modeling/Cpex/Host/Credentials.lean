import Mathlib.Data.List.Sort
import Cpex.Host.Conversion

/-!
# The credential channel

`crates/cpex-hosts-python/src/credentials.rs`. A token crosses to a worker only in the `credential`
object of a task, for the two hooks that carry one and under a declared capability. A declared
capability that cannot be honoured is an error.
-/

namespace Cpex.Host

open Cpex.Infra Cpex.Infra.Serde

/-- Task field the credential rides on. -/
def credentialField : String := "credential"

/-- Capability a plugin declares to receive the inbound credential. -/
def capReadInbound : String := "read_inbound_credentials"

/-- Capability a plugin declares to receive a delegated token. -/
def capReadDelegated : String := "read_delegated_tokens"

/-- `credential.inbound`. -/
structure InboundCredential where
  token : String
  sourceHeader : String
  kind : String
  headers : Option (HashMap String String)

def InboundCredential.toValue (c : InboundCredential) : Json :=
  Json.ofFields ([("token", .string c.token), ("source_header", .string c.sourceHeader),
    ("kind", .string c.kind)] ++ optionalField "headers" stringMap c.headers)

/-- `credential.delegated`. -/
structure DelegatedCredential where
  token : String
  outboundHeader : String
  audience : String
  scopes : List String

def DelegatedCredential.toValue (c : DelegatedCredential) : Json :=
  Json.ofFields [("token", .string c.token), ("outbound_header", .string c.outboundHeader),
    ("audience", .string c.audience), ("scopes", strings c.scopes)]

/-- The `credential` object. Exactly one part is there. -/
inductive CredentialDto where
  | inbound (credential : InboundCredential)
  | delegated (credential : DelegatedCredential)

def CredentialDto.toValue : CredentialDto → Json
  | .inbound credential => Json.ofFields [("inbound", credential.toValue)]
  | .delegated credential => Json.ofFields [("delegated", credential.toValue)]

def insertDto (task : Json) (dto : CredentialDto) : Except HostError Json :=
  match task with
  | .object _ => .ok (task.set credentialField dto.toValue)
  | _ => .error (.protocol "task must be a JSON object to carry a credential")

variable {T : Types} (P : Ppe T)

/-! ## From the extensions view -/

def tokenKindWireName : TokenKind → String
  | .jwt => "jwt"
  | .opaqueToken => "opaque"
  | .spiffeJwt => "spiffe_jwt"
  | .ucan => "ucan"
  | .txnToken => "txn_token"
  | .other _ => "opaque"

/-- The wire form of one inbound token. -/
def inboundFromToken (token : RawInboundToken) (hookName : String) :
    Except HostError InboundCredential :=
  if Text.isBlank token.token then
    .error (.credential (s!"the inbound token for hook '{hookName}' is empty — refusing to " ++
      "send an empty credential (an empty bearer authenticates nowhere, and a plugin may read " ++
      "it as 'no authentication required')"))
  else .ok {
    token := token.token
    sourceHeader := token.sourceHeader
    kind := tokenKindWireName token.kind
    headers := some (HashMap.ofList [(token.sourceHeader, token.token)]) }

/-- `credential.inbound` from the filtered view: the user's token, else the client's, else a
workload's, else any. -/
def buildInbound (extensions : Extensions T) (hookName : String) :
    Except HostError InboundCredential :=
  match extensions.rawCredentials with
  | none => .error (.credential (s!"plugin declared '{capReadInbound}' for hook '{hookName}' " ++
      "but the request carries no raw-credentials extension — refusing to dispatch without the " ++
      "token it asked for"))
  | some raw =>
    let preferred := [TokenRole.user, .client, .callerWorkload].findSome? raw.inboundTokens.get?
    match preferred.or (raw.inboundTokens.entries.head?.map Prod.snd) with
    | none => .error (.credential (s!"plugin declared '{capReadInbound}' for hook " ++
        s!"'{hookName}' but no inbound token is present — refusing to dispatch without it"))
    | some token => inboundFromToken token hookName

/-- The audience the `token.delegate` hook was invoked for. -/
def requestedAudience (task : Json) : Option String :=
  ((task.get? "payload").bind (Json.get? · "target_audience")).bind Json.asStr

def modeRank : DelegationMode → Nat
  | .onBehalfOfUser => 0
  | .asThisWorkload => 1
  | .other _ => 2

/-- `str::cmp`. -/
def compareText (a b : String) : Ordering :=
  if a = b then .eq else if Json.keyOrder.lt a b then .lt else .gt

/-- `Option::cmp`: `None` comes first. -/
def compareOption : Option String → Option String → Ordering
  | none, none => .eq
  | none, some _ => .lt
  | some _, none => .gt
  | some a, some b => compareText a b

/-- `slice::cmp`: lexicographic. -/
def compareTexts : List String → List String → Ordering
  | [], [] => .eq
  | [], _ :: _ => .lt
  | _ :: _, [] => .gt
  | a :: as, b :: bs => (compareText a b).then (compareTexts as bs)

/-- The preference order of delegated tokens. -/
def compareKeys (left right : DelegationKey) : Ordering :=
  (compare (modeRank left.mode) (modeRank right.mode)).then
    ((compareOption left.subjectId right.subjectId).then
      (compareTexts left.scopes right.scopes))

/-- The wire form of one delegated token. -/
def delegatedFromToken (token : RawDelegatedToken T) (hookName : String) :
    Except HostError DelegatedCredential :=
  if Text.isBlank token.token then
    .error (.credential (s!"the delegated token for hook '{hookName}' is empty — refusing to " ++
      "send an empty credential"))
  else .ok {
    token := token.token
    outboundHeader := token.outboundHeader
    audience := token.audience
    scopes := token.scopes }

/-- `credential.delegated` from the filtered view: the preferred token of the audience. -/
def buildDelegated (extensions : Extensions T) (hookName : String)
    (requestedAudience : Option String) : Except HostError DelegatedCredential :=
  match extensions.rawCredentials with
  | none => .error (.credential (s!"plugin declared '{capReadDelegated}' for hook " ++
      s!"'{hookName}' but the request carries no raw-credentials extension — refusing to " ++
      "dispatch without the token it asked for"))
  | some raw =>
    let candidates := raw.delegatedTokens.entries.filter fun e =>
      requestedAudience.all fun audience => e.1.audience == audience && e.2.audience == audience
    let sorted := candidates.insertionSort fun left right => compareKeys left.1 right.1 ≠ .gt
    match sorted with
    | [] =>
      let scope := (requestedAudience.map fun audience => s!" for audience '{audience}'").getD ""
      .error (.credential (s!"plugin declared '{capReadDelegated}' for hook '{hookName}' but " ++
        s!"no delegated token{scope} is present — refusing to dispatch without it, and " ++
        "refusing to substitute a token minted for a different audience"))
    | (_, token) :: _ => delegatedFromToken token hookName

/-- Attaches a credential of the extensions view, for a credential hook and a declared
capability. -/
def attachCredential (task : Json) (hookName : String) (extensions : Extensions T)
    (capabilities : List String) : Except HostError Json :=
  match payloadKindForHook hookName with
  | .identityResolve =>
    if !capabilities.contains capReadInbound then .ok task
    else do
      let credential ← buildInbound extensions hookName
      insertDto task (.inbound credential)
  | .tokenDelegate =>
    if !capabilities.contains capReadDelegated then .ok task
    else do
      let credential ← buildDelegated extensions hookName (requestedAudience task)
      insertDto task (.delegated credential)
  | _ => .ok task

/-! ## From the payload -/

def tokenSourceKind (source : T.TokenSource) : String :=
  if P.isSpiffeJwtSvid source then "spiffe_jwt" else "opaque"

/-- `credential.inbound` from an identity payload. The header map travels whole. -/
def inboundFromIdentity (identity : IdentityPayload T) (hookName : String) :
    Except HostError InboundCredential :=
  match identity.inboundToken with
  | none => .error (.credential (s!"plugin declared '{capReadInbound}' for hook '{hookName}' " ++
      "but the identity payload carries no credential, in `raw_token` or its source header. " ++
      "Refusing to dispatch without the token it asked for"))
  | some token =>
    let sourceHeader := identity.credentialHeaderName
    let headers :=
      if identity.headers.entries.any fun e => Text.eqIgnoreAsciiCase e.1 sourceHeader then
        identity.headers
      else identity.headers.insert sourceHeader token
    .ok {
      token, sourceHeader
      kind := tokenSourceKind P identity.source
      headers := some headers }

/-- `credential.delegated` from a delegation payload: the caller's bearer token. -/
def delegatedFromPayload (delegation : DelegationPayload T) (hookName : String) :
    Except HostError DelegatedCredential :=
  if Text.isBlank delegation.bearerToken then
    .error (.credential (s!"plugin declared '{capReadInbound}' for hook '{hookName}' but the " ++
      "delegation payload carries no bearer token. Refusing to dispatch without the token it " ++
      "asked for"))
  else .ok {
    token := delegation.bearerToken
    outboundHeader := "Authorization"
    audience := delegation.targetAudience.getD ""
    scopes := delegation.requiredPermissions }

/-- Attaches the credential of this invocation's payload. -/
def attachCredentialForPayload (task : Json) (hookName : String) (payload : Payload T)
    (extensions : Extensions T) (capabilities : List String) : Except HostError Json :=
  match payloadKindForHook hookName, payload with
  | .identityResolve, .identity identity =>
    if !capabilities.contains capReadInbound then .ok task
    else do
      let credential ← inboundFromIdentity P identity hookName
      insertDto task (.inbound credential)
  | .tokenDelegate, .delegation delegation =>
    if !capabilities.contains capReadInbound then .ok task
    else do
      let credential ← delegatedFromPayload delegation hookName
      insertDto task (.delegated credential)
  | _, _ => attachCredential task hookName extensions capabilities

end Cpex.Host
