import Cpex.Host.Ppe

/-!
# What the C interface is built on

`crates/cpex-ffi` hands the engine's values to a host in MessagePack. The engine (`praxis-policy`)
and the codec (`rmp_serde`) are dependencies: types the interface passes through, and the functions
it calls.

* `Payload`, `IdentityPayload`, `PipelineResult` — the engine's types the interface looks into
* `FfiPipelineResult` — a result as it crosses
* `Library` — the functions of the codec and the engine
* `Engine` — what one engine answers
-/

namespace Cpex.Ffi

open Cpex.Infra

abbrev Bytes : Type := List UInt8

/-- The `RC_*` codes of the calls modelled here. -/
inductive Rc where
  | ok
  | invalidHandle
  | invalidInput
  | parseError
  | serializeError
  | timeout
  | panic
  deriving DecidableEq, Repr

/-- Types the interface passes through unread. -/
structure Types where
  Extensions : Type
  /-- `PluginContextTable` -/
  Table : Type
  /-- `BackgroundTasks` -/
  Tasks : Type
  /-- The CMF `MessagePayload`. -/
  Message : Type
  /-- The fields of an identity payload that a caller may set. -/
  IdentityInputs : Type
  Subject : Type
  Client : Type
  Workload : Type
  Delegation : Type
  RawCredentials : Type
  Time : Type
  /-- The fields of a delegation key that are not read. -/
  KeyFields : Type
  /-- A payload type that the interface does not know. -/
  Foreign : Type

variable (T : Types)

/-! ## The engine's types -/

structure IdentityPayload where
  inputs : T.IdentityInputs
  subject : Option T.Subject
  client : Option T.Client
  callerWorkload : Option T.Workload
  delegation : Option T.Delegation
  rawCredentials : Option T.RawCredentials
  resolvedAt : Option T.Time
  rawClaims : HashMap String Json

/-- A `Box<dyn PluginPayload>`. -/
inductive Payload where
  | generic (value : Json)
  | message (payload : T.Message)
  | identity (payload : IdentityPayload T)
  | foreign (payload : T.Foreign)

structure PluginErrorRecord where
  pluginName : String
  message : String
  code : Option String
  details : HashMap String Json
  protoErrorCode : Option Int64

structure PipelineResult where
  continueProcessing : Bool
  violation : Option Host.PluginViolation
  errors : List PluginErrorRecord
  metadata : Option Json
  modifiedPayload : Option (Payload T)
  payloadModified : Bool
  modifiedExtensions : Option T.Extensions
  contextTable : T.Table

structure DelegationKey where
  delegatorName : String
  targetName : String
  unread : T.KeyFields

structure DelegatedToken where
  token : String
  outboundHeader : String
  outboundPrefix : String
  audience : String
  scopes : List String
  expiresAt : T.Time

/-! ## What crosses -/

structure FfiDelegatedCredential where
  header : String
  value : String
  delegator : String
  target : String
  audience : String
  scopes : List String
  expiresAt : String

structure FfiPipelineResult where
  continueProcessing : Bool
  violation : Option Host.PluginViolation
  errors : List PluginErrorRecord
  metadata : Option Json
  payloadType : UInt8
  modifiedPayload : Option Bytes
  payloadModified : Bool
  modifiedExtensions : Option Bytes
  delegatedCredentials : List FfiDelegatedCredential

/-! ## Functions -/

/-- `rmp_serde` and `serde_json` at the engine's types, and the functions of the engine's types. -/
structure Library where
  readValue : Bytes → Except String Json
  readMessage : Bytes → Except String T.Message
  readIdentity : Bytes → Except String (IdentityPayload T)
  readExtensions : Bytes → Except String T.Extensions
  writeValue : Json → Except String Bytes
  writeMessage : T.Message → Except String Bytes
  identityToValue : IdentityPayload T → Except String Json
  writeExtensions : T.Extensions → Except String Bytes
  writeResult : FfiPipelineResult → Except String Bytes
  writeErrors : List PluginErrorRecord → Except String Bytes
  defaultExtensions : T.Extensions
  /-- `raw_credentials.delegated_tokens`, as the map is iterated. -/
  delegatedTokens : T.Extensions → Option (List (DelegationKey T × DelegatedToken T))
  toRfc3339 : T.Time → String
  /-- `IdentityPayload::from_pipeline_result` -/
  identityOfResult : PipelineResult T → Option (IdentityPayload T)
  applyToExtensions : IdentityPayload T → T.Extensions → T.Extensions

/-- What `run_safely` makes of a call on the engine. -/
inductive SafeRun (α : Type) where
  | ok (value : α)
  | timeout
  | panicked

/-- What an engine answers while it is called. -/
structure Engine where
  exposeDelegatedCredentials : Bool
  hasHooksFor : String → Bool
  invokeByName : String → Payload T → T.Extensions → Option T.Table →
    SafeRun (PipelineResult T × T.Tasks)
  /-- The errors as `PluginErrorRecord::from` gives them. -/
  waitForBackgroundTasks : T.Tasks → SafeRun (List PluginErrorRecord)

end Cpex.Ffi
