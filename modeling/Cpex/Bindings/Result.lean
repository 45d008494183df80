import Cpex.Bindings.Conversions
import Cpex.Ffi.Invoke

/-!
# What a Python host gets of a result

`bindings/python/src/result.rs`, and `serialize_payload` of `bindings/python/src/conversions.rs`.

* `ToValue` — `serde_json::to_value` at the engine's types
* `pipelineResultToPy` — a result as JSON values
* `PyPipelineResult.getModifiedPayload` and the other getters — these as Python objects
-/

namespace Cpex.Bindings

open Cpex.Infra
open Cpex.Ffi (Types Library Payload PipelineResult PluginErrorRecord)

/-- `serde_json::to_value` at the engine's types. -/
structure ToValue (T : Types) where
  message : T.Message → Except String Json
  extensions : T.Extensions → Except String Json
  violation : Host.PluginViolation → Except String Json
  error : PluginErrorRecord → Except String Json
  table : T.Table → Except String Json

variable {T : Types} (L : Library T) (S : ToValue T)

/-- A payload of the binding's own generic type holds its value. -/
def serializePayload : Payload T → Option Json
  | .message payload => (S.message payload).toOption
  | .identity payload => (Ffi.identityResultValue L payload).toOption
  | .generic value => some value
  | .foreign _ => none

structure PyPipelineResult where
  continueProcessing : Bool
  modifiedPayload : Option Json
  payloadModified : Bool
  modifiedExtensions : Option Json
  violation : Option Json
  errors : List Json
  metadata : Option Json
  contextTable : Json

/-! ## The conversion -/

/-- The record of a modified payload that could not be serialized. -/
def serializeError : PluginErrorRecord where
  pluginName := "<py>"
  message := "modified payload could not be serialised across the PyO3 boundary"
  code := some "py_serialize_error"
  details := HashMap.empty
  protoErrorCode := none

/-- The modified payload, with what is added to the errors. -/
def modifiedPayload : Option (Payload T) → Option Json × List PluginErrorRecord
  | none => (none, [])
  | some p =>
    match serializePayload L S p with
    | some v => (some v, [])
    | none => (none, [serializeError])

/-- A step of the conversion that raises when it fails. -/
def orRaise {α : Type} (what : String) (x : Except String α) : Except PyErr α :=
  x.mapError fun e => .runtimeError s!"cpex: {what} serialization failed: {e}"

/-- `map(to_value).transpose()` -/
def optionToValue {α : Type} (toValue : α → Except String Json) :
    Option α → Except String (Option Json)
  | none => .ok none
  | some a => (toValue a).map some

def pipelineResultToPy (result : PipelineResult T) : Except PyErr PyPipelineResult := do
  let (modifiedPayloadValue, unserialized) := modifiedPayload L S result.modifiedPayload
  let modifiedExtensionsValue ← orRaise "modified_extensions"
    (optionToValue S.extensions result.modifiedExtensions)
  let violationValue ← orRaise "violation" (optionToValue S.violation result.violation)
  let errorsValue ← orRaise "errors" ((result.errors ++ unserialized).mapM S.error)
  let contextTableValue ← orRaise "context_table" (S.table result.contextTable)
  return {
    continueProcessing := result.continueProcessing
    modifiedPayload := modifiedPayloadValue
    payloadModified := result.payloadModified
    modifiedExtensions := modifiedExtensionsValue
    violation := violationValue
    errors := errorsValue
    metadata := result.metadata
    contextTable := contextTableValue }

/-! ## The getters -/

abbrev PyDict : Type := List (PyKey × PyObj)

/-- A value as a `dict`. -/
def castIntoDict (what : String) (v : Json) : Except PyErr PyDict := do
  match ← jsonValueToPyobj v with
  | .dict d => return d
  | _ => .error (.runtimeError s!"cpex: {what} is not a dict")

/-- A value that may be missing, which is `None`. -/
def getDict (what : String) : Option Json → Except PyErr (Option PyDict)
  | none => .ok none
  | some v => (castIntoDict what v).map some

namespace PyPipelineResult

variable (r : PyPipelineResult)

def getModifiedPayload : Except PyErr (Option PyDict) :=
  getDict "modified_payload" r.modifiedPayload

def getModifiedExtensions : Except PyErr (Option PyDict) :=
  getDict "modified_extensions" r.modifiedExtensions

def getViolation : Except PyErr (Option PyDict) := getDict "violation" r.violation

def getErrors : Except PyErr (List PyDict) := r.errors.mapM (castIntoDict "error entry")

def getMetadata : Except PyErr (Option PyDict) := getDict "metadata" r.metadata

def getContextTable : Except PyErr PyDict := castIntoDict "context_table" r.contextTable

end PyPipelineResult

end Cpex.Bindings
