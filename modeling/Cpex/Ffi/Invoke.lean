import Mathlib.Data.List.Sort
import Cpex.Ffi.Dispatch
import Cpex.Infra.Heap
import Cpex.Infra.Text

/-!
# The C interface

`crates/cpex-ffi/src/lib.rs`, with the tables of `crates/cpex/src/host.rs`. A host passes bytes with
their lengths, and pointers to boxes that an earlier call gave it. A call gives back a code, and
what it wrote to its out parameters.

* `cpexInvoke`, `cpexInvokeResolved` — consume a context table, and hand out a result and two boxes
* `cpexWaitBackground`, `cpexFreeBackground`, `cpexFreeContextTable`, `cpexFreeBytes`

The engine's answers and whether memory can be had are arguments. Log lines are left out, and so is
the name an entry point is logged under.
-/

namespace Cpex.Ffi

open Cpex.Infra

variable {T : Types}

/-! ## Arguments -/

/-- A pointer to bytes, which may be null, and the length that is passed with it. -/
structure Slice where
  pointer : Option Bytes
  len : Int32

def cBytesToSlice (s : Slice) : Option Bytes :=
  s.pointer.bind fun bytes => if s.len ≤ 0 then none else some (bytes.take s.len.toInt.toNat)

def cStrToSlice (s : Slice) : Option String :=
  (cBytesToSlice s).bind fun bytes => String.fromUTF8? ⟨⟨bytes⟩⟩

structure InvokeArgs where
  hookName : Slice
  payloadType : UInt8
  payload : Slice
  extensions : Slice

def payloadGeneric : UInt8 := 0
def payloadCmfMessage : UInt8 := 1
def payloadIdentity : UInt8 := 2

/-- Says in the error of a codec what failed. -/
def orFailed {α : Type} (what : String) : Except String α → Except String α
  | .ok a => .ok a
  | .error e => .error s!"{what} failed: {e}"

def deserializePayload (L : Library T) (payloadType : UInt8) (bytes : Bytes) :
    Except String (Payload T) :=
  if payloadType = payloadGeneric then
    (orFailed "generic payload deserialize" (L.readValue bytes)).map .generic
  else if payloadType = payloadCmfMessage then
    (orFailed "CMF payload deserialize" (L.readMessage bytes)).map .message
  else if payloadType = payloadIdentity then
    (orFailed "identity payload deserialize" (L.readIdentity bytes)).map .identity
  else .error s!"unknown payload type: {payloadType}"

/-- Hook names removed in 0.3, each with the name that replaced it. -/
def removedHooks : List (String × String) :=
  [("tool_pre_invoke", "cmf.tool_pre_invoke"),
    ("tool_post_invoke", "cmf.tool_post_invoke"),
    ("prompt_pre_fetch", "cmf.prompt_pre_invoke"),
    ("cmf.prompt_pre_fetch", "cmf.prompt_pre_invoke"),
    ("prompt_post_fetch", "cmf.prompt_post_invoke"),
    ("cmf.prompt_post_fetch", "cmf.prompt_post_invoke"),
    ("resource_pre_fetch", "cmf.resource_pre_fetch"),
    ("resource_post_fetch", "cmf.resource_post_fetch"),
    ("identity_resolve", "identity.resolve"),
    ("token_delegate", "token.delegate"),
    ("cmf.http_request", "http.request"),
    ("cmf.http_response", "http.response")]

def removedHookReplacement (hookName : String) : Option String :=
  (removedHooks.find? fun e => e.1 == hookName).map Prod.snd

def rejectRemovedHook (name : String) : Except Rc Unit :=
  if (removedHookReplacement name).isSome then .error .invalidInput else .ok ()

/-- The resolver output fields that are set. -/
def resolvedIdentityFields (payload : IdentityPayload T) : List String :=
  (if payload.subject.isSome then ["subject"] else []) ++
  (if payload.client.isSome then ["client"] else []) ++
  (if payload.callerWorkload.isSome then ["caller_workload"] else []) ++
  (if payload.delegation.isSome then ["delegation"] else []) ++
  (if payload.rawCredentials.isSome then ["raw_credentials"] else []) ++
  (if payload.resolvedAt.isSome then ["resolved_at"] else []) ++
  (if payload.rawClaims.isEmpty then [] else ["raw_claims"])

def rejectResolvedIdentity (payload : IdentityPayload T) : Except Rc Unit :=
  if (resolvedIdentityFields payload).isEmpty then .ok () else .error .invalidInput

def rejectResolvedIdentityPayload (hookName : String) (payload : Payload T) : Except Rc Unit :=
  if hookName ≠ hookIdentityResolve then .ok ()
  else match payload with
    | .identity identity => rejectResolvedIdentity identity
    | _ => .ok ()

/-! ## Results -/

/-- The identity a host sees: without the request headers. -/
def identityResultValue (L : Library T) (payload : IdentityPayload T) : Except String Json :=
  (L.identityToValue payload).map fun value =>
    match value with
    | .object fields => .object (fields.filter fun e => e.1 ≠ "headers")
    | value => value

def serializePayload (L : Library T) : Payload T → Except String (UInt8 × Bytes)
  | .message payload => do
    let bytes ← orFailed "CMF payload serialize" (L.writeMessage payload)
    return (payloadCmfMessage, bytes)
  | .generic value => do
    let bytes ← orFailed "generic payload serialize" (L.writeValue value)
    return (payloadGeneric, bytes)
  | .identity payload => do
    let value ← orFailed "identity payload serialize" (identityResultValue L payload)
    let bytes ← orFailed "identity payload serialize" (L.writeValue value)
    return (payloadIdentity, bytes)
  | .foreign _ => .error "unknown payload type, cannot serialize across FFI"

/-- `str::cmp`, which compares code points. -/
def compareText (a b : String) : Ordering := compare a.toList b.toList

/-- The order of `(target, audience, header)`. -/
def compareCredentials (a b : FfiDelegatedCredential) : Ordering :=
  (compareText a.target b.target).then
    ((compareText a.audience b.audience).then (compareText a.header b.header))

def hostDelegatedCredentials (L : Library T) (inner : Engine T) (result : PipelineResult T) :
    List FfiDelegatedCredential :=
  if !inner.exposeDelegatedCredentials || !result.continueProcessing then []
  else match result.modifiedExtensions.bind L.delegatedTokens with
    | none => []
    | some delegatedTokens =>
      let out := (delegatedTokens.filter fun e => !Text.isBlank e.2.token).map fun (k, t) =>
        { header := t.outboundHeader
          value := t.outboundPrefix ++ t.token
          delegator := k.delegatorName
          target := k.targetName
          audience := t.audience
          scopes := t.scopes
          expiresAt := L.toRfc3339 t.expiresAt }
      out.insertionSort fun a b => compareCredentials a b ≠ .gt

/-- The record of a modified payload that could not be serialized. -/
def serializeError (e : String) : PluginErrorRecord where
  pluginName := "<ffi>"
  message := s!"modified payload could not be serialized across FFI: {e}"
  code := some "ffi_serialize_error"
  details := HashMap.empty
  protoErrorCode := none

/-- The type and the bytes of the modified payload, with what is added to the errors. A payload
that cannot be serialized is dropped and reported. -/
def modifiedPayload (L : Library T) (payloadType : UInt8) :
    Option (Payload T) → UInt8 × Option Bytes × List PluginErrorRecord
  | none => (payloadType, none, [])
  | some p =>
    match serializePayload L p with
    | .ok (t, bytes) => (t, some bytes, [])
    | .error e => (payloadType, none, [serializeError e])

/-- What both entry points send of a result. -/
def ffiResult (L : Library T) (inner : Engine T) (payloadType : UInt8)
    (result : PipelineResult T) : FfiPipelineResult :=
  let (resultPayloadType, modifiedPayloadBytes, unserialized) :=
    modifiedPayload L payloadType result.modifiedPayload
  { continueProcessing := result.continueProcessing
    violation := result.violation
    errors := result.errors ++ unserialized
    metadata := result.metadata
    payloadType := resultPayloadType
    modifiedPayload := modifiedPayloadBytes
    payloadModified := result.payloadModified
    modifiedExtensions := result.modifiedExtensions.bind fun ext =>
      (L.writeExtensions ext).toOption
    delegatedCredentials := hostDelegatedCredentials L inner result }

/-- What an invoke has for its out parameters. -/
structure Reply (T : Types) where
  resultBytes : Bytes
  table : T.Table
  bg : Option T.Tasks

/-- The tail of `finish_pipeline_result`, before the out parameters are written. -/
def finishPipelineResult (L : Library T) (inner : Engine T) (result : PipelineResult T)
    (bg : Option T.Tasks) (payloadType : UInt8) : Except Rc (Reply T) := do
  let resultBytes ← orReturn .serializeError
    (L.writeResult (ffiResult L inner payloadType result)).toOption
  return ⟨resultBytes, result.contextTable, bg⟩

/-! ## The entry points, between their boxes -/

/-- The extensions of a request, which without any has the default ones. -/
def decodeExtensions (L : Library T) (extensions : Slice) : Step T T.Extensions :=
  if extensions.len > 0 then do
    let extBytes ← .lift (orReturn .invalidInput (cBytesToSlice extensions))
    decode .extensions L.readExtensions extBytes
  else return L.defaultExtensions

/-- `cpex_invoke` up to the result of the hook, with the context table it took. -/
def invokedResult (L : Library T) (inner : Engine T) (args : InvokeArgs)
    (inputCtxTable : Option T.Table) : Step T (PipelineResult T × Option T.Tasks) := do
  let name ← .lift (orReturn .invalidInput (cStrToSlice args.hookName))
  .lift (rejectRemovedHook name)
  let payloadBytes ← .lift (orReturn .invalidInput (cBytesToSlice args.payload))
  let payload ← decode .payload (deserializePayload L args.payloadType) payloadBytes
  .lift (rejectResolvedIdentityPayload name payload)
  let extensions ← decodeExtensions L args.extensions
  let (result, bg) ← dispatch inner (.named name payload extensions inputCtxTable)
  return (result, some bg)

/-- `cpex_invoke`, between its boxes. -/
def invoked (L : Library T) (inner : Engine T) (args : InvokeArgs)
    (inputCtxTable : Option T.Table) : Step T (Reply T) := do
  let (result, bg) ← invokedResult L inner args inputCtxTable
  let resultBytes ← .lift (orReturn .serializeError
    (L.writeResult (ffiResult L inner args.payloadType result)).toOption)
  return ⟨resultBytes, result.contextTable, bg⟩

/-- The extensions with the identity that a result holds applied to them. -/
def mergeIdentity (L : Library T) (idResult : PipelineResult T) (baseExtensions : T.Extensions) :
    T.Extensions :=
  match L.identityOfResult idResult with
  | some resolved => L.applyToExtensions resolved baseExtensions
  | none => baseExtensions

/-- The identity hook, in-process: the extensions the named hook runs with, or the result of a
denial. -/
def resolveIdentity (L : Library T) (inner : Engine T) (identity : Slice)
    (baseExtensions : T.Extensions) : Step T (T.Extensions ⊕ PipelineResult T) :=
  if identity.len > 0 && inner.hasHooksFor hookIdentityResolve then do
    let idBytes ← .lift (orReturn .invalidInput (cBytesToSlice identity))
    let idPayload ← decode .identity L.readIdentity idBytes
    .lift (rejectResolvedIdentity idPayload)
    let (idResult, _) ← dispatch inner (.identity idPayload baseExtensions)
    if !idResult.continueProcessing then return .inr idResult
    else return .inl (mergeIdentity L idResult baseExtensions)
  else return .inl baseExtensions

/-- `cpex_invoke_resolved` up to a result, with the context table it took. That of a denied identity
has no background tasks. -/
def resolvedResult (L : Library T) (inner : Engine T) (identity : Slice) (args : InvokeArgs)
    (inputCtxTable : Option T.Table) : Step T (PipelineResult T × Option T.Tasks) := do
  let name ← .lift (orReturn .invalidInput (cStrToSlice args.hookName))
  .lift (rejectRemovedHook name)
  let payloadBytes ← .lift (orReturn .invalidInput (cBytesToSlice args.payload))
  let payload ← decode .payload (deserializePayload L args.payloadType) payloadBytes
  .lift (rejectResolvedIdentityPayload name payload)
  let baseExtensions ← decodeExtensions L args.extensions
  match ← resolveIdentity L inner identity baseExtensions with
  | .inr denied => return (denied, none)
  | .inl mergedExtensions =>
    let (result, bg) ← dispatch inner (.named name payload mergedExtensions inputCtxTable)
    return (result, some bg)

/-- `cpex_invoke_resolved`, between its boxes. Both its results end in `finish_pipeline_result`. -/
def invokedResolved (L : Library T) (inner : Engine T) (identity : Slice) (args : InvokeArgs)
    (inputCtxTable : Option T.Table) : Step T (Reply T) := do
  let (result, bg) ← resolvedResult L inner identity args inputCtxTable
  .lift (finishPipelineResult L inner result bg args.payloadType)

/-! ## Memory -/

/-- What the interface allocates. The engine behind a handle is not a value of the model. -/
inductive Allocation (T : Types) where
  | engine
  | table (table : T.Table)
  | tasks (tasks : T.Tasks)
  | bytes (data : Bytes)

abbrev Memory (T : Types) : Type := Heap (Allocation T)

/-- `c_int::MAX` -/
def cIntMax : Nat := 2147483647

/-- Null for an empty buffer, for one whose length is no C int, and where there is no memory. -/
def allocBytes (allocates : Nat → Bool) (m : Memory T) (data : Bytes) :
    Memory T × Option Addr × Int32 :=
  if data.length = 0 then (m, none, 0)
  else if data.length > cIntMax then (m, none, 0)
  else if !allocates data.length then (m, none, 0)
  else
    let (m, p) := m.alloc (.bytes data)
    (m, some p, Int32.ofNat data.length)

/-- `handle.as_ref()`. -/
def asRef (m : Memory T) : Option Addr → Memory T
  | none => m
  | some p =>
    match m.get? p with
    | some .engine => m
    | _ => m.misuse

/-- `Box::from_raw` of a context table, unless it is null. -/
def takeTable (m : Memory T) : Option Addr → Memory T × Option T.Table
  | none => (m, none)
  | some p =>
    match m.get? p with
    | some (.table table) => (m.release p, some table)
    | _ => (m.misuse, none)

def takeTasks (m : Memory T) : Option Addr → Memory T × Option T.Tasks
  | none => (m, none)
  | some p =>
    match m.get? p with
    | some (.tasks tasks) => (m.release p, some tasks)
    | _ => (m.misuse, none)

/-- `Box::into_raw`, unless there is nothing to box. -/
def boxTasks (m : Memory T) : Option T.Tasks → Memory T × Option Addr
  | none => (m, none)
  | some tasks =>
    let (m, p) := m.alloc (.tasks tasks)
    (m, some p)

/-- The out parameters of an invoke. -/
structure Outs where
  result : Option Addr
  resultLen : Int32
  contextTable : Option Addr
  bgHandle : Option Addr
  deriving DecidableEq

/-- What they are set to on entry. -/
def Outs.null : Outs := ⟨none, 0, none, none⟩

/-- The out parameters are written: the buffer, the context table, the background tasks. -/
def writeOuts (allocates : Nat → Bool) (m : Memory T) : Except Rc (Reply T) → Memory T × Rc × Outs
  | .error rc => (m, rc, .null)
  | .ok reply =>
    let (m, result, resultLen) := allocBytes allocates m reply.resultBytes
    let (m, contextTable) := m.alloc (.table reply.table)
    let (m, bgHandle) := boxTasks m reply.bg
    (m, .ok, ⟨result, resultLen, some contextTable, bgHandle⟩)

/-- `handle` is null, or `inner` is the engine behind it. -/
def cpexInvoke (L : Library T) (inner : Engine T) (allocates : Nat → Bool) (m : Memory T)
    (handle : Option Addr) (args : InvokeArgs) (contextTable : Option Addr) :
    Memory T × Rc × Outs :=
  let (m, inputCtxTable) := takeTable m contextTable
  let m := asRef m handle
  writeOuts allocates m
    (if handle.isNone then .error .invalidHandle
      else (invoked L inner args inputCtxTable).outcome)

def cpexInvokeResolved (L : Library T) (inner : Engine T) (allocates : Nat → Bool) (m : Memory T)
    (handle : Option Addr) (identity : Slice) (args : InvokeArgs) (contextTable : Option Addr) :
    Memory T × Rc × Outs :=
  let (m, inputCtxTable) := takeTable m contextTable
  let m := asRef m handle
  writeOuts allocates m
    (if handle.isNone then .error .invalidHandle
      else (invokedResolved L inner identity args inputCtxTable).outcome)

/-- `cpex_wait_background`, with the tasks it took. Without any there are no errors. -/
def waited (L : Library T) (inner : Engine T) : Option T.Tasks → Except Rc Bytes
  | none => orReturn .serializeError (L.writeErrors []).toOption
  | some tasks => do
    let ffiErrors ← (inner.waitForBackgroundTasks tasks).orReturn
    orReturn .serializeError (L.writeErrors ffiErrors).toOption

/-- The buffer of a list of errors and its length. -/
abbrev ErrorsOut : Type := Option Addr × Int32

/-- The out parameters are as they were unless the code is `RC_OK`. -/
def cpexWaitBackground (L : Library T) (inner : Engine T) (allocates : Nat → Bool) (m : Memory T)
    (handle bgHandle : Option Addr) (outs : ErrorsOut) : Memory T × Rc × ErrorsOut :=
  let m := asRef m handle
  let (m, bg) := takeTasks m bgHandle
  if handle.isNone then (m, .invalidHandle, outs)
  else match waited L inner bg with
    | .error rc => (m, rc, outs)
    | .ok bytes =>
      let (m, p, len) := allocBytes allocates m bytes
      (m, .ok, (p, len))

def cpexFreeBackground (m : Memory T) (bgHandle : Option Addr) : Memory T :=
  (takeTasks m bgHandle).1

def cpexFreeContextTable (m : Memory T) (ct : Option Addr) : Memory T :=
  (takeTable m ct).1

/-- The allocator is told the length, which has to be the one that was allocated. -/
def cpexFreeBytes (m : Memory T) (pointer : Option Addr) (len : Int32) : Memory T :=
  match pointer with
  | none => m
  | some p =>
    if len ≤ 0 then m
    else match m.get? p with
      | some (.bytes data) => if data.length = len.toInt.toNat then m.release p else m.misuse
      | _ => m.misuse

/-- `cpex_shutdown`: the engine is consumed, however its shutdown ends. -/
def cpexShutdown (m : Memory T) : Option Addr → Memory T
  | none => m
  | some p =>
    match m.get? p with
    | some .engine => m.release p
    | _ => m.misuse

end Cpex.Ffi
