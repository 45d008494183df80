import Cpex.Infra.Msgpack

/-!
# Content parts in Go

`go/cpex/cmf.go`. A content part is a union tagged by its content type, and is written and read by
hand; the structs in it go by their `msgpack` tags.

* `ContentPart`, `Message`, `PromptResult` — the types, which contain each other
* `newTextPart` and the other constructors
* `encodeMsgpack`, `decodeMsgpack` — a part as a MessagePack value, and back

An `any` is a value as the codec sees it, whatever its type in Go is. A `nil` map or slice is not
told apart from an empty one. Decoding counts down the nesting of the value.
-/

namespace Cpex.Go.Cmf

open Cpex.Infra
open Cpex.Infra.Msgpack

/-! ## Content types -/

inductive ContentType where
  | text
  | thinking
  | toolCall
  | toolResult
  | resource
  | resourceRef
  | promptRequest
  | promptResult
  | image
  | video
  | audio
  | document
  deriving DecidableEq, Repr

namespace ContentType

def name : ContentType → String
  | .text => "text"
  | .thinking => "thinking"
  | .toolCall => "tool_call"
  | .toolResult => "tool_result"
  | .resource => "resource"
  | .resourceRef => "resource_ref"
  | .promptRequest => "prompt_request"
  | .promptResult => "prompt_result"
  | .image => "image"
  | .video => "video"
  | .audio => "audio"
  | .document => "document"

def all : List ContentType :=
  [.text, .thinking, .toolCall, .toolResult, .resource, .resourceRef, .promptRequest,
    .promptResult, .image, .video, .audio, .document]

/-- The content type a string names, if it is a known one. -/
def ofStr? (s : Str) : Option ContentType := all.find? fun ct => utf8 ct.name == s

end ContentType

def wireKeyContentType : Str := utf8 "content_type"
def wireKeyContent : Str := utf8 "content"
def wireKeyText : Str := utf8 "text"

/-! ## The types -/

structure ToolCall where
  toolCallID : Str
  name : Str
  arguments : Fields
  nameSpace : Str

structure ToolResult where
  toolCallID : Str
  toolName : Str
  content : Value
  isError : Bool

structure Resource where
  resourceRequestID : Str
  uri : Str
  name : Str
  description : Str
  resourceType : Str
  content : Str
  blob : List UInt8
  mimeType : Str
  sizeBytes : Option UInt64
  annotations : Fields
  version : Str

structure ResourceReference where
  resourceRequestID : Str
  uri : Str
  name : Str
  resourceType : Str
  rangeStart : Option UInt64
  rangeEnd : Option UInt64
  selector : Str

structure PromptRequest where
  promptRequestID : Str
  name : Str
  arguments : Fields
  serverID : Str

structure ImageSource where
  sourceType : Str
  data : Str
  mediaType : Str

structure VideoSource where
  sourceType : Str
  data : Str
  mediaType : Str
  durationMs : Option UInt64

structure AudioSource where
  sourceType : Str
  data : Str
  mediaType : Str
  durationMs : Option UInt64

structure DocumentSource where
  sourceType : Str
  data : Str
  mediaType : Str
  title : Str

/-- A message of content parts `π`. -/
structure Message (π : Type) where
  schemaVersion : Str
  role : Str
  content : List π
  channel : Str

/-- A prompt result whose messages are of content parts `π`. -/
structure PromptResult (π : Type) where
  promptRequestID : Str
  promptName : Str
  messages : List (Message π)
  content : Str
  isError : Bool
  errorMessage : Str

structure ContentPart where
  contentType : Str
  text : Str := []
  toolCallContent : Option ToolCall := none
  toolResultContent : Option ToolResult := none
  resourceContent : Option Resource := none
  resourceRefContent : Option ResourceReference := none
  promptRequestContent : Option PromptRequest := none
  promptResultContent : Option (PromptResult ContentPart) := none
  imageContent : Option ImageSource := none
  videoContent : Option VideoSource := none
  audioContent : Option AudioSource := none
  documentContent : Option DocumentSource := none
  /-- The whole value of a content type that is not known. -/
  rawMap : Option Fields := none

/-! ## Constructors -/

def newTextPart (text : Str) : ContentPart :=
  { contentType := utf8 ContentType.text.name, text }

def newThinkingPart (text : Str) : ContentPart :=
  { contentType := utf8 ContentType.thinking.name, text }

def newToolCallPart (tc : ToolCall) : ContentPart :=
  { contentType := utf8 ContentType.toolCall.name, toolCallContent := some tc }

def newToolResultPart (tr : ToolResult) : ContentPart :=
  { contentType := utf8 ContentType.toolResult.name, toolResultContent := some tr }

def newResourcePart (r : Resource) : ContentPart :=
  { contentType := utf8 ContentType.resource.name, resourceContent := some r }

def newResourceRefPart (r : ResourceReference) : ContentPart :=
  { contentType := utf8 ContentType.resourceRef.name, resourceRefContent := some r }

def newPromptRequestPart (pr : PromptRequest) : ContentPart :=
  { contentType := utf8 ContentType.promptRequest.name, promptRequestContent := some pr }

def newPromptResultPart (pr : PromptResult ContentPart) : ContentPart :=
  { contentType := utf8 ContentType.promptResult.name, promptResultContent := some pr }

def newImagePart (img : ImageSource) : ContentPart :=
  { contentType := utf8 ContentType.image.name, imageContent := some img }

def newVideoPart (vid : VideoSource) : ContentPart :=
  { contentType := utf8 ContentType.video.name, videoContent := some vid }

def newAudioPart (aud : AudioSource) : ContentPart :=
  { contentType := utf8 ContentType.audio.name, audioContent := some aud }

def newDocumentPart (doc : DocumentSource) : ContentPart :=
  { contentType := utf8 ContentType.document.name, documentContent := some doc }

/-! ## Structs, written by their tags -/

/-- `ByteArray.EncodeMsgpack`: an array of numbers. A `nil` one is always omitted. -/
def encodeByteArray (b : List UInt8) : Value := .array (b.map fun v => .int v.toNat)

def encodeToolCall (tc : ToolCall) : Value := encodeStruct [
  strField "tool_call_id" tc.toolCallID,
  strField "name" tc.name,
  omitMap "arguments" tc.arguments,
  omitStr "namespace" tc.nameSpace]

def encodeToolResult (tr : ToolResult) : Value := encodeStruct [
  strField "tool_call_id" tr.toolCallID,
  strField "tool_name" tr.toolName,
  omitAny "content" tr.content,
  omitBool "is_error" tr.isError]

def encodeResource (r : Resource) : Value := encodeStruct [
  strField "resource_request_id" r.resourceRequestID,
  strField "uri" r.uri,
  omitStr "name" r.name,
  omitStr "description" r.description,
  strField "resource_type" r.resourceType,
  omitStr "content" r.content,
  omitempty "blob" r.blob.isEmpty (encodeByteArray r.blob),
  omitStr "mime_type" r.mimeType,
  omitUint64 "size_bytes" r.sizeBytes,
  omitMap "annotations" r.annotations,
  omitStr "version" r.version]

def encodeResourceReference (r : ResourceReference) : Value := encodeStruct [
  strField "resource_request_id" r.resourceRequestID,
  strField "uri" r.uri,
  omitStr "name" r.name,
  strField "resource_type" r.resourceType,
  omitUint64 "range_start" r.rangeStart,
  omitUint64 "range_end" r.rangeEnd,
  omitStr "selector" r.selector]

def encodePromptRequest (pr : PromptRequest) : Value := encodeStruct [
  strField "prompt_request_id" pr.promptRequestID,
  strField "name" pr.name,
  omitMap "arguments" pr.arguments,
  omitStr "server_id" pr.serverID]

def encodeImageSource (img : ImageSource) : Value := encodeStruct [
  strField "type" img.sourceType,
  strField "data" img.data,
  omitStr "media_type" img.mediaType]

def encodeVideoSource (vid : VideoSource) : Value := encodeStruct [
  strField "type" vid.sourceType,
  strField "data" vid.data,
  omitStr "media_type" vid.mediaType,
  omitUint64 "duration_ms" vid.durationMs]

def encodeAudioSource (aud : AudioSource) : Value := encodeStruct [
  strField "type" aud.sourceType,
  strField "data" aud.data,
  omitStr "media_type" aud.mediaType,
  omitUint64 "duration_ms" aud.durationMs]

def encodeDocumentSource (doc : DocumentSource) : Value := encodeStruct [
  strField "type" doc.sourceType,
  strField "data" doc.data,
  omitStr "media_type" doc.mediaType,
  omitStr "title" doc.title]

/-- A pointer, which is `nil` when it is null. -/
def encodePointer {α : Type} (encode : α → Value) : Option α → Value
  | none => .nil
  | some a => encode a

/-! ## Parts -/

mutual

/-- `ContentPart.EncodeMsgpack` -/
def encodeMsgpack : ContentPart → Value
  | ⟨contentType, text, toolCall, toolResult, resource, resourceRef, promptRequest, promptResult,
      image, video, audio, document, rawMap⟩ =>
    let body (content : Value) : Value :=
      ofFields [(wireKeyContentType, .str contentType), (wireKeyContent, content)]
    match ContentType.ofStr? contentType with
    | some .text | some .thinking =>
      ofFields [(wireKeyContentType, .str contentType), (wireKeyText, .str text)]
    | some .toolCall => body (encodePointer encodeToolCall toolCall)
    | some .toolResult => body (encodePointer encodeToolResult toolResult)
    | some .resource => body (encodePointer encodeResource resource)
    | some .resourceRef => body (encodePointer encodeResourceReference resourceRef)
    | some .promptRequest => body (encodePointer encodePromptRequest promptRequest)
    | some .promptResult => body (encodePromptPointer promptResult)
    | some .image => body (encodePointer encodeImageSource image)
    | some .video => body (encodePointer encodeVideoSource video)
    | some .audio => body (encodePointer encodeAudioSource audio)
    | some .document => body (encodePointer encodeDocumentSource document)
    | none =>
      match rawMap with
      | some raw => ofFields raw
      | none =>
        ofFields ((wireKeyContentType, .str contentType) ::
          if text.isEmpty then [] else [(wireKeyText, .str text)])

def encodePromptPointer : Option (PromptResult ContentPart) → Value
  | none => .nil
  | some pr => encodePromptResult pr

def encodePromptResult : PromptResult ContentPart → Value
  | ⟨promptRequestID, promptName, messages, content, isError, errorMessage⟩ => encodeStruct [
    strField "prompt_request_id" promptRequestID,
    strField "prompt_name" promptName,
    omitSlice "messages" (encodeMessages messages),
    omitStr "content" content,
    omitBool "is_error" isError,
    omitStr "error_message" errorMessage]

def encodeMessages : List (Message ContentPart) → List Value
  | [] => []
  | m :: rest => encodeMessage m :: encodeMessages rest

def encodeMessage : Message ContentPart → Value
  | ⟨schemaVersion, role, content, channel⟩ => encodeStruct [
    strField "schema_version" schemaVersion,
    strField "role" role,
    omitSlice "content" (encodeParts content),
    omitStr "channel" channel]

def encodeParts : List ContentPart → List Value
  | [] => []
  | part :: rest => encodeMsgpack part :: encodeParts rest

end

/-! ## Structs, read by their tags -/

variable (D : Decoder)

/-- `ByteArray.DecodeMsgpack` -/
def decodeByteArray : Value → Option (List UInt8)
  | .bin raw | .str raw => some raw
  | .nil => some []
  | .array items => items.mapM D.uint8
  | _ => none

def decodeToolCall (v : Value) : Option ToolCall := do
  let fields ← D.struct ["tool_call_id", "name", "arguments", "namespace"] v
  let toolCallID ← readStr D fields "tool_call_id"
  let name ← readStr D fields "name"
  let arguments ← readMap D fields "arguments"
  let nameSpace ← readStr D fields "namespace"
  return { toolCallID, name, arguments, nameSpace }

def decodeToolResult (v : Value) : Option ToolResult := do
  let fields ← D.struct ["tool_call_id", "tool_name", "content", "is_error"] v
  let toolCallID ← readStr D fields "tool_call_id"
  let toolName ← readStr D fields "tool_name"
  let content ← readAny D fields "content"
  let isError ← readBool D fields "is_error"
  return { toolCallID, toolName, content, isError }

def decodeResource (v : Value) : Option Resource := do
  let fields ← D.struct ["resource_request_id", "uri", "name", "description", "resource_type",
    "content", "blob", "mime_type", "size_bytes", "annotations", "version"] v
  let resourceRequestID ← readStr D fields "resource_request_id"
  let uri ← readStr D fields "uri"
  let name ← readStr D fields "name"
  let description ← readStr D fields "description"
  let resourceType ← readStr D fields "resource_type"
  let content ← readStr D fields "content"
  let blob ← fieldOr fields "blob" [] (decodeByteArray D)
  let mimeType ← readStr D fields "mime_type"
  let sizeBytes ← readUint64 D fields "size_bytes"
  let annotations ← readMap D fields "annotations"
  let version ← readStr D fields "version"
  return ⟨resourceRequestID, uri, name, description, resourceType, content, blob, mimeType,
    sizeBytes, annotations, version⟩

def decodeResourceReference (v : Value) : Option ResourceReference := do
  let fields ← D.struct ["resource_request_id", "uri", "name", "resource_type", "range_start",
    "range_end", "selector"] v
  let resourceRequestID ← readStr D fields "resource_request_id"
  let uri ← readStr D fields "uri"
  let name ← readStr D fields "name"
  let resourceType ← readStr D fields "resource_type"
  let rangeStart ← readUint64 D fields "range_start"
  let rangeEnd ← readUint64 D fields "range_end"
  let selector ← readStr D fields "selector"
  return { resourceRequestID, uri, name, resourceType, rangeStart, rangeEnd, selector }

def decodePromptRequest (v : Value) : Option PromptRequest := do
  let fields ← D.struct ["prompt_request_id", "name", "arguments", "server_id"] v
  let promptRequestID ← readStr D fields "prompt_request_id"
  let name ← readStr D fields "name"
  let arguments ← readMap D fields "arguments"
  let serverID ← readStr D fields "server_id"
  return { promptRequestID, name, arguments, serverID }

def decodeImageSource (v : Value) : Option ImageSource := do
  let fields ← D.struct ["type", "data", "media_type"] v
  let sourceType ← readStr D fields "type"
  let data ← readStr D fields "data"
  let mediaType ← readStr D fields "media_type"
  return { sourceType, data, mediaType }

def decodeVideoSource (v : Value) : Option VideoSource := do
  let fields ← D.struct ["type", "data", "media_type", "duration_ms"] v
  let sourceType ← readStr D fields "type"
  let data ← readStr D fields "data"
  let mediaType ← readStr D fields "media_type"
  let durationMs ← readUint64 D fields "duration_ms"
  return { sourceType, data, mediaType, durationMs }

def decodeAudioSource (v : Value) : Option AudioSource := do
  let fields ← D.struct ["type", "data", "media_type", "duration_ms"] v
  let sourceType ← readStr D fields "type"
  let data ← readStr D fields "data"
  let mediaType ← readStr D fields "media_type"
  let durationMs ← readUint64 D fields "duration_ms"
  return { sourceType, data, mediaType, durationMs }

def decodeDocumentSource (v : Value) : Option DocumentSource := do
  let fields ← D.struct ["type", "data", "media_type", "title"] v
  let sourceType ← readStr D fields "type"
  let data ← readStr D fields "data"
  let mediaType ← readStr D fields "media_type"
  let title ← readStr D fields "title"
  return { sourceType, data, mediaType, title }

section

variable {π : Type} (decodePart : Value → Option π)

def decodeMessage (v : Value) : Option (Message π) := do
  let fields ← D.struct ["schema_version", "role", "content", "channel"] v
  let schemaVersion ← readStr D fields "schema_version"
  let role ← readStr D fields "role"
  let content ← readSlice decodePart fields "content"
  let channel ← readStr D fields "channel"
  return { schemaVersion, role, content, channel }

def decodePromptResult (v : Value) : Option (PromptResult π) := do
  let fields ← D.struct ["prompt_request_id", "prompt_name", "messages", "content", "is_error",
    "error_message"] v
  let promptRequestID ← readStr D fields "prompt_request_id"
  let promptName ← readStr D fields "prompt_name"
  let messages ← readSlice (decodeMessage D decodePart) fields "messages"
  let content ← readStr D fields "content"
  let isError ← readBool D fields "is_error"
  let errorMessage ← readStr D fields "error_message"
  return { promptRequestID, promptName, messages, content, isError, errorMessage }

end

/-- A value that was decoded without a type, encoded again and decoded into a struct. A failure
leaves the pointer null. -/
def decodeAs {α : Type} (decode : Value → Option α) : Option Value → Option α
  | none | some .nil => none
  | some v => decode v

/-- A value as a string, which is empty when it is none. -/
def asString : Option Value → Str
  | some (.str s) => s
  | _ => []

/-- The part of a value that was decoded into `raw`, with its structs read by `decodePart`. -/
def partOf (decodePart : Value → Option ContentPart) (raw : Option Fields) : ContentPart :=
  let fields := raw.getD []
  let contentType := asString (Assoc.get? wireKeyContentType fields)
  let content := Assoc.get? wireKeyContent fields
  match ContentType.ofStr? contentType with
  | some .text | some .thinking =>
    { contentType, text := asString (Assoc.get? wireKeyText fields) }
  | some .toolCall => { contentType, toolCallContent := decodeAs (decodeToolCall D) content }
  | some .toolResult => { contentType, toolResultContent := decodeAs (decodeToolResult D) content }
  | some .resource => { contentType, resourceContent := decodeAs (decodeResource D) content }
  | some .resourceRef =>
    { contentType, resourceRefContent := decodeAs (decodeResourceReference D) content }
  | some .promptRequest =>
    { contentType, promptRequestContent := decodeAs (decodePromptRequest D) content }
  | some .promptResult =>
    { contentType, promptResultContent := decodeAs (decodePromptResult D decodePart) content }
  | some .image => { contentType, imageContent := decodeAs (decodeImageSource D) content }
  | some .video => { contentType, videoContent := decodeAs (decodeVideoSource D) content }
  | some .audio => { contentType, audioContent := decodeAs (decodeAudioSource D) content }
  | some .document => { contentType, documentContent := decodeAs (decodeDocumentSource D) content }
  | none => { contentType, rawMap := raw }

/-- A part of at most this many nested parts. -/
def decodePart : Nat → Value → Option ContentPart
  | 0, _ => none
  | fuel + 1, v => (D.map v).map (partOf D (decodePart fuel))

/-- `ContentPart.DecodeMsgpack` -/
def decodeMsgpack (v : Value) : Option ContentPart := decodePart D (v.depth + 1) v

end Cpex.Go.Cmf
