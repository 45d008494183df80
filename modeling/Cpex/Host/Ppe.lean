import Mathlib.Data.List.Infix
import Cpex.Infra.HashMap

/-!
# The policy engine's types

The engine (`praxis-policy`) is a dependency whose code is not part of this repository. `Types` and
`Ppe` are what the host uses of it: types it passes through, and the functions it calls. The types
whose fields the host reads are spelled out over them.

* `Types` — the types the host never looks into
* `Extensions`, `IdentityPayload`, `DelegationPayload`, `MessagePayload` — the ones it does
* `Ppe` — the functions of the engine, and `serde_json` at the engine's types
* `Documented` — what the engine documents of them
-/

namespace Cpex.Host

open Cpex.Infra

/-- The extension slots of the immutable tier. -/
inductive ImmutableSlot where
  | request
  | agent
  | mcp
  | completion
  | provenance
  | llm
  | framework
  | metadata
  deriving DecidableEq, Repr

/-- Types of the engine that the host passes through unread. -/
structure Types where
  Slot : ImmutableSlot → Type
  SecretHeaders : Type
  Security : Type
  SecurityFields : Type
  Hop : Type
  Delegation : Type
  Subject : Type
  TokenSource : Type
  DelegationSubject : Type
  TargetType : Type
  AuthEnforcedBy : Type
  Attenuation : Type
  ActorRole : Type
  Time : Type
  IdentityOutputs : Type
  DelegationOutputs : Type
  Role : Type
  Channel : Type
  ResourceType : Type
  Media : Type
  /-- A payload of some other host. -/
  Foreign : Type

/-! ## Raw credentials -/

inductive TokenKind where
  | jwt
  | opaqueToken
  | spiffeJwt
  | ucan
  | txnToken
  | other (name : String)
  deriving DecidableEq, Repr

inductive TokenRole where
  | user
  | client
  | callerWorkload
  | other (name : String)
  deriving DecidableEq, Repr

inductive DelegationMode where
  | onBehalfOfUser
  | asThisWorkload
  | other (name : String)
  deriving DecidableEq, Repr

structure RawInboundToken where
  token : String
  sourceHeader : String
  kind : TokenKind
  deriving DecidableEq, Repr

structure DelegationKey where
  mode : DelegationMode
  subjectId : Option String
  audience : String
  scopes : List String
  delegatorName : Option String
  targetName : Option String
  deriving DecidableEq, Repr

structure RawDelegatedToken (T : Types) where
  token : String
  outboundHeader : String
  audience : String
  scopes : List String
  expiresAt : T.Time

structure RawCredentialsExtension (T : Types) where
  inboundTokens : HashMap TokenRole RawInboundToken
  delegatedTokens : HashMap DelegationKey (RawDelegatedToken T)

/-! ## Extensions -/

structure HttpExtension (T : Types) where
  requestHeaders : HashMap String String
  secretHeaders : T.SecretHeaders
  responseHeaders : HashMap String String
  status : Option UInt16
  method : Option String
  path : Option String
  host : Option String
  scheme : Option String

/-- The capability-filtered view a plugin is dispatched with. A write token is there or not. -/
structure Extensions (T : Types) where
  slot : (n : ImmutableSlot) → Option (T.Slot n)
  http : Option (HttpExtension T)
  security : Option T.Security
  delegation : Option T.Delegation
  custom : Option (HashMap String Json)
  rawCredentials : Option (RawCredentialsExtension T)
  httpWriteToken : Bool
  labelsWriteToken : Bool
  delegationWriteToken : Bool

/-- The owned copy a plugin's edits are made on. -/
structure OwnedExtensions (T : Types) where
  slot : (n : ImmutableSlot) → Option (T.Slot n)
  http : Option (HttpExtension T)
  security : Option T.Security
  delegation : Option T.Delegation
  custom : Option (HashMap String Json)

/-! ## Identity and delegation payloads -/

structure IdentityPayload (T : Types) where
  rawToken : String
  source : T.TokenSource
  sourceHeader : Option String
  headers : HashMap String String
  clientHost : Option String
  clientPort : Option UInt16
  subject : Option T.Subject
  delegation : Option T.Delegation
  rawClaims : HashMap String Json
  outputs : T.IdentityOutputs

structure DelegationPayload (T : Types) where
  bearerToken : String
  actorToken : String
  actorRole : Option T.ActorRole
  subject : T.DelegationSubject
  targetName : String
  targetType : T.TargetType
  targetAudience : Option String
  requiredPermissions : List String
  trustDomain : Option String
  authEnforcedBy : T.AuthEnforcedBy
  routeAttenuation : Option T.Attenuation
  delegatedToken : Option (RawDelegatedToken T)
  delegationMode : Option DelegationMode
  mintedAt : Option T.Time
  delegationUpdate : Option T.Delegation
  outputs : T.DelegationOutputs

/-! ## CMF messages -/

structure ToolCall where
  toolCallId : String
  name : String
  arguments : HashMap String Json
  «namespace» : Option String

structure ToolResult where
  toolCallId : String
  toolName : String
  content : Json
  isError : Bool

structure Resource (T : Types) where
  resourceRequestId : String
  uri : String
  name : Option String
  description : Option String
  resourceType : T.ResourceType
  content : Option String
  blob : Option (List UInt8)
  mimeType : Option String
  sizeBytes : Option UInt64
  annotations : HashMap String Json
  version : Option String

structure ResourceReference (T : Types) where
  resourceRequestId : String
  uri : String
  name : Option String
  resourceType : T.ResourceType
  rangeStart : Option UInt64
  rangeEnd : Option UInt64
  selector : Option String

structure PromptRequest where
  promptRequestId : String
  name : String
  arguments : HashMap String Json
  serverId : Option String

mutual

inductive Message (T : Types) where
  | mk (schemaVersion : String) (role : T.Role) (content : List (ContentPart T))
      (channel : Option T.Channel)

inductive PromptResult (T : Types) where
  | mk (promptRequestId promptName : String) (messages : List (Message T))
      (content : Option String) (isError : Bool) (errorMessage : Option String)

inductive ContentPart (T : Types) where
  | text (text : String)
  | thinking (text : String)
  | toolCall (content : ToolCall)
  | toolResult (content : ToolResult)
  | resource (content : Resource T)
  | resourceRef (content : ResourceReference T)
  | promptRequest (content : PromptRequest)
  | promptResult (content : PromptResult T)
  | image (content : T.Media)
  | video (content : T.Media)
  | audio (content : T.Media)
  | document (content : T.Media)

end

namespace Message

variable {T : Types}

def schemaVersion : Message T → String
  | .mk schemaVersion _ _ _ => schemaVersion

def role : Message T → T.Role
  | .mk _ role _ _ => role

def content : Message T → List (ContentPart T)
  | .mk _ _ content _ => content

def channel : Message T → Option T.Channel
  | .mk _ _ _ channel => channel

end Message

structure MessagePayload (T : Types) where
  message : Message T

/-! ## Results -/

structure PluginViolation where
  code : String
  reason : String
  description : Option String
  details : HashMap String Json
  protoErrorCode : Option Int64
  deriving DecidableEq

/-- `PluginViolation::new`. -/
def PluginViolation.new (code reason : String) : PluginViolation :=
  ⟨code, reason, none, HashMap.empty, none⟩

/-! ## Functions -/

/-- The functions of the engine that the host calls, and `serde_json` at the engine's types. -/
structure Ppe (T : Types) where
  slotToValue : (n : ImmutableSlot) → T.Slot n → Except String Json
  httpToValue : HttpExtension T → Except String Json
  httpFromValue : Json → Except String (HttpExtension T)
  noSecretHeaders : T.SecretHeaders
  securityToValue : T.Security → Except String Json
  securityFromValue : Json → Except String T.Security
  defaultSecurity : T.Security
  /-- `security.labels.iter()`. -/
  labels : T.Security → List String
  /-- Every field of a security extension but its labels. -/
  securityFields : T.Security → T.SecurityFields
  addLabel : String → T.Security → T.Security
  delegationToValue : T.Delegation → Except String Json
  delegationFromValue : Json → Except String T.Delegation
  chain : T.Delegation → List T.Hop
  depth : T.Delegation → Nat
  originSubjectId : T.Delegation → Option String
  actorSubjectId : T.Delegation → Option String
  delegated : T.Delegation → Bool
  chainExtends : List T.Hop → List T.Hop → Bool
  cowCopy : Extensions T → OwnedExtensions T
  subjectToValue : T.Subject → Except String Json
  subjectFromValue : Json → Except String T.Subject
  tokenSourceToValue : T.TokenSource → Except String Json
  /-- Whether the source is `TokenSource::SpiffeJwtSvid`. -/
  isSpiffeJwtSvid : T.TokenSource → Bool
  targetTypeToValue : T.TargetType → Except String Json
  authEnforcedByToValue : T.AuthEnforcedBy → Except String Json
  attenuationToValue : T.Attenuation → Except String Json
  /-- Whether the subject is `DelegationSubject::User`. -/
  isUser : T.DelegationSubject → Bool
  defaultMode : T.DelegationSubject → DelegationMode
  /-- `try_seconds` and `checked_add_signed` of `chrono`. -/
  addSeconds : T.Time → Int64 → Option T.Time
  messageToValue : MessagePayload T → Except String Json
  messageFromValue : Json → Except String (MessagePayload T)
  roleToValue : T.Role → Json
  roleFromValue : Json → Except String T.Role
  /-- `Message::text`. -/
  textMessage : T.Role → String → Message T
  /-- `Resource::is_embedded`. -/
  isEmbedded : Resource T → Bool
  /-- The text of `serde_json`'s error for a value that is not of the named type. -/
  serdeError : String → Json → String

/-- What the engine documents of the functions the host relies on. -/
structure Ppe.Documented {T : Types} (P : Ppe T) : Prop where
  /-- `cow_copy` copies the view. -/
  cowCopy_slot : ∀ e n, (P.cowCopy e).slot n = e.slot n
  cowCopy_http : ∀ e, (P.cowCopy e).http = e.http
  cowCopy_security : ∀ e, (P.cowCopy e).security = e.security
  cowCopy_delegation : ∀ e, (P.cowCopy e).delegation = e.delegation
  cowCopy_custom : ∀ e, (P.cowCopy e).custom = e.custom
  /-- Labels are a set, none by default, and adding one leaves the other fields alone. -/
  labels_default : P.labels P.defaultSecurity = []
  mem_labels_addLabel : ∀ l x s, l ∈ P.labels (P.addLabel x s) ↔ l = x ∨ l ∈ P.labels s
  addLabel_of_mem : ∀ x s, x ∈ P.labels s → P.addLabel x s = s
  securityFields_addLabel : ∀ x s, P.securityFields (P.addLabel x s) = P.securityFields s
  /-- `chain_extends` is the prefix test. -/
  chainExtends_iff : ∀ a b, P.chainExtends a b = true ↔ a <+: b

/-- What `serde` keeps of a slot that goes to JSON and back. -/
structure Ppe.RoundTrips {T : Types} (P : Ppe T) : Prop where
  /-- An `http` slot with no headers is an object, and comes back with none. -/
  http : ∀ h v, h.requestHeaders = HashMap.empty → h.responseHeaders = HashMap.empty →
    P.httpToValue h = .ok v → v ≠ .null ∧ ∃ h', P.httpFromValue v = .ok h' ∧
      h'.requestHeaders = HashMap.empty ∧ h'.responseHeaders = HashMap.empty
  /-- A `security` slot keeps its labels. -/
  security : ∀ s v, P.securityToValue s = .ok v →
    ∃ s', P.securityFromValue v = .ok s' ∧ ∀ l, l ∈ P.labels s' ↔ l ∈ P.labels s
  delegation : ∀ d v, P.delegationToValue d = .ok v → P.delegationFromValue v = .ok d

/-- Adding a positive number of seconds to a time moves its timestamp by as many. -/
def Ppe.AddsSeconds {T : Types} (P : Ppe T) (timestamp : T.Time → Int) : Prop :=
  ∀ t secs t', 0 < secs.toInt → P.addSeconds t secs = some t' →
    timestamp t' = timestamp t + secs.toInt

/-- The serde form of a role comes back. -/
def Ppe.RolesRoundTrip {T : Types} (P : Ppe T) : Prop :=
  ∀ role, P.roleFromValue (P.roleToValue role) = .ok role

/-- The forms `serde` takes for a variant without data: its serde form, or an object that names it
and holds `null`. -/
def Ppe.RoleForms {T : Types} (P : Ppe T) : Prop :=
  ∀ v role, P.roleFromValue v = .ok role →
    v = P.roleToValue role ∨ ∃ name, v = .object [(name, .null)]

end Cpex.Host
