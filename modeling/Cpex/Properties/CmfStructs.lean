import Cpex.Go.Cmf

/-!
# The structs in a content part

Each struct is read back from what is written of it. A tool result comes back without its content
when that is empty.

* `decodeToolCall_encode` and the others, `decodePromptResult_encode`
* `generic_encodeToolCall` and the others — what is written has strings as keys
* `generic_of_decodeToolCall` and the others — and so has what is read
-/

namespace Cpex.Go.Cmf

open Cpex.Infra
open Cpex.Infra.Msgpack

variable {D : Decoder}

/-! ## The structs -/

/-- A tool result without its content when that is empty. -/
def omitted (tr : ToolResult) : ToolResult :=
  { tr with content := if tr.content.isEmpty then .nil else tr.content }

theorem decodeByteArray_encode (hD : D.Lawful) (b : List UInt8) :
    decodeByteArray D (encodeByteArray b) = some b := by
  rw [encodeByteArray, decodeByteArray, List.mapM_map]
  induction b with
  | nil => rfl
  | cons v rest ih =>
    rw [List.mapM_cons, Function.comp_apply, hD.uint8, ih]
    rfl

theorem readBlob_omitted (hD : D.Lawful) (b : List UInt8) {tag : String} {fields : List Field}
    (htag : tag ∉ fields.map Field.tag) :
    fieldOr (encodeFields (omitempty tag b.isEmpty (encodeByteArray b) :: fields)) tag []
      (decodeByteArray D) = some b := by
  rw [fieldOr_omitempty htag, decodeByteArray_encode hD]
  cases b <;> rfl

theorem decodeToolCall_encode (hD : D.Lawful) {tc : ToolCall} (h : GenericFields tc.arguments) :
    decodeToolCall D (encodeToolCall tc) = some tc := by
  rw [decodeToolCall, encodeToolCall, struct_encodeStruct hD (by simp)]
  simp [readStr_strField hD, readStr_omitStr hD, readMap_omitMap hD h]

theorem decodeToolResult_encode (hD : D.Lawful) {tr : ToolResult} (h : tr.content.Generic) :
    decodeToolResult D (encodeToolResult tr) = some (omitted tr) := by
  rw [decodeToolResult, encodeToolResult, struct_encodeStruct hD (by simp), omitted]
  simp [readStr_strField hD, readAny_omitAny hD h, readBool_omitBool hD]

theorem decodeResource_encode (hD : D.Lawful) {r : Resource} (h : GenericFields r.annotations) :
    decodeResource D (encodeResource r) = some r := by
  rw [decodeResource, encodeResource, struct_encodeStruct hD (by simp), Option.bind_eq_bind,
    Option.bind_some]
  -- what each field is read as first, so that nothing is simplified again under every later bind
  simp [readStr_strField hD, readStr_omitStr hD, readUint64_omitUint64 hD, readMap_omitMap hD h,
    fieldOr_cons_ne, readBlob_omitted hD, -Option.bind_eq_bind]
  rfl

theorem decodeResourceReference_encode (hD : D.Lawful) (r : ResourceReference) :
    decodeResourceReference D (encodeResourceReference r) = some r := by
  rw [decodeResourceReference, encodeResourceReference, struct_encodeStruct hD (by simp)]
  simp [readStr_strField hD, readStr_omitStr hD, readUint64_omitUint64 hD]

theorem decodePromptRequest_encode (hD : D.Lawful) {pr : PromptRequest}
    (h : GenericFields pr.arguments) :
    decodePromptRequest D (encodePromptRequest pr) = some pr := by
  rw [decodePromptRequest, encodePromptRequest, struct_encodeStruct hD (by simp)]
  simp [readStr_strField hD, readStr_omitStr hD, readMap_omitMap hD h]

theorem decodeImageSource_encode (hD : D.Lawful) (img : ImageSource) :
    decodeImageSource D (encodeImageSource img) = some img := by
  rw [decodeImageSource, encodeImageSource, struct_encodeStruct hD (by simp)]
  simp [readStr_strField hD, readStr_omitStr hD]

theorem decodeVideoSource_encode (hD : D.Lawful) (vid : VideoSource) :
    decodeVideoSource D (encodeVideoSource vid) = some vid := by
  rw [decodeVideoSource, encodeVideoSource, struct_encodeStruct hD (by simp)]
  simp [readStr_strField hD, readStr_omitStr hD, readUint64_omitUint64 hD]

theorem decodeAudioSource_encode (hD : D.Lawful) (aud : AudioSource) :
    decodeAudioSource D (encodeAudioSource aud) = some aud := by
  rw [decodeAudioSource, encodeAudioSource, struct_encodeStruct hD (by simp)]
  simp [readStr_strField hD, readStr_omitStr hD, readUint64_omitUint64 hD]

theorem decodeDocumentSource_encode (hD : D.Lawful) (doc : DocumentSource) :
    decodeDocumentSource D (encodeDocumentSource doc) = some doc := by
  rw [decodeDocumentSource, encodeDocumentSource, struct_encodeStruct hD (by simp)]
  simp [readStr_strField hD, readStr_omitStr hD]

/-! ## Messages -/

def Message.map {π ρ : Type} (f : π → ρ) (m : Message π) : Message ρ :=
  { m with content := m.content.map f }

def PromptResult.map {π ρ : Type} (f : π → ρ) (pr : PromptResult π) : PromptResult ρ :=
  { pr with messages := pr.messages.map (Message.map f) }

theorem Message.map_map {π ρ τ : Type} (f : ρ → τ) (g : π → ρ) (m : Message π) :
    (m.map g).map f = m.map (f ∘ g) := by
  simp only [Message.map, List.map_map]

theorem Message.map_congr {π ρ : Type} {f g : π → ρ} {m : Message π}
    (h : ∀ part ∈ m.content, f part = g part) : m.map f = m.map g := by
  rw [Message.map, Message.map, List.map_congr_left h]

theorem PromptResult.map_map {π ρ τ : Type} (f : ρ → τ) (g : π → ρ) (pr : PromptResult π) :
    (pr.map g).map f = pr.map (f ∘ g) := by
  simp only [PromptResult.map, List.map_map, Function.comp_def, Message.map_map]

theorem PromptResult.map_congr {π ρ : Type} {f g : π → ρ} {pr : PromptResult π}
    (h : ∀ m ∈ pr.messages, ∀ part ∈ m.content, f part = g part) : pr.map f = pr.map g := by
  have hmessages : ∀ m ∈ pr.messages, m.map f = m.map g := fun m hm => Message.map_congr (h m hm)
  rw [PromptResult.map, PromptResult.map, List.map_congr_left hmessages]

theorem encodeParts_eq_map : ∀ parts : List ContentPart,
    encodeParts parts = parts.map encodeMsgpack
  | [] => rfl
  | part :: rest => congrArg (encodeMsgpack part :: ·) (encodeParts_eq_map rest)

theorem encodeMessages_eq_map : ∀ messages : List (Message ContentPart),
    encodeMessages messages = messages.map encodeMessage
  | [] => rfl
  | m :: rest => congrArg (encodeMessage m :: ·) (encodeMessages_eq_map rest)

section

variable {π : Type} {decodePart : Value → Option π} {f : ContentPart → π}

theorem decodeMessage_encode (hD : D.Lawful) {m : Message ContentPart}
    (h : ∀ part ∈ m.content, decodePart (encodeMsgpack part) = some (f part)) :
    decodeMessage D decodePart (encodeMessage m) = some (m.map f) := by
  rw [decodeMessage, encodeMessage, encodeParts_eq_map, struct_encodeStruct hD (by simp)]
  simp [readStr_strField hD, readStr_omitStr hD, readSlice_omitSlice h, Message.map]

theorem decodePromptResult_encode (hD : D.Lawful) {pr : PromptResult ContentPart}
    (h : ∀ m ∈ pr.messages, ∀ part ∈ m.content, decodePart (encodeMsgpack part) = some (f part)) :
    decodePromptResult D decodePart (encodePromptResult pr) = some (pr.map f) := by
  have hmessages : ∀ m ∈ pr.messages,
      decodeMessage D decodePart (encodeMessage m) = some (m.map f) :=
    fun m hm => decodeMessage_encode hD (h m hm)
  rw [decodePromptResult, encodePromptResult, encodeMessages_eq_map,
    struct_encodeStruct hD (by simp)]
  simp [readStr_strField hD, readStr_omitStr hD, readBool_omitBool hD,
    readSlice_omitSlice hmessages, PromptResult.map]

end

/-! ## What is written is generic -/

theorem generic_encodeToolCall {tc : ToolCall} (h : GenericFields tc.arguments) :
    (encodeToolCall tc).Generic :=
  generic_encodeStruct (by simp) (by simp [generic_omitMap h])

theorem generic_encodeToolResult {tr : ToolResult} (h : tr.content.Generic) :
    (encodeToolResult tr).Generic :=
  generic_encodeStruct (by simp) (by simp [generic_omitAny h])

theorem generic_encodeByteArray (b : List UInt8) : (encodeByteArray b).Generic := by
  refine (genericItems_iff _).mpr fun v hv => ?_
  obtain ⟨byte, -, rfl⟩ := List.mem_map.mp hv
  trivial

theorem generic_encodeResource {r : Resource} (h : GenericFields r.annotations) :
    (encodeResource r).Generic := by
  have hblob : (omitempty "blob" r.blob.isEmpty (encodeByteArray r.blob)).Generic :=
    fun _ => generic_encodeByteArray r.blob
  exact generic_encodeStruct (by simp) (by simp [hblob, generic_omitMap h])

theorem generic_encodeResourceReference (r : ResourceReference) :
    (encodeResourceReference r).Generic :=
  generic_encodeStruct (by simp) (by simp)

theorem generic_encodePromptRequest {pr : PromptRequest} (h : GenericFields pr.arguments) :
    (encodePromptRequest pr).Generic :=
  generic_encodeStruct (by simp) (by simp [generic_omitMap h])

theorem generic_encodeImageSource (img : ImageSource) : (encodeImageSource img).Generic :=
  generic_encodeStruct (by simp) (by simp)

theorem generic_encodeVideoSource (vid : VideoSource) : (encodeVideoSource vid).Generic :=
  generic_encodeStruct (by simp) (by simp)

theorem generic_encodeAudioSource (aud : AudioSource) : (encodeAudioSource aud).Generic :=
  generic_encodeStruct (by simp) (by simp)

theorem generic_encodeDocumentSource (doc : DocumentSource) : (encodeDocumentSource doc).Generic :=
  generic_encodeStruct (by simp) (by simp)

theorem generic_encodeMessage {m : Message ContentPart}
    (h : ∀ part ∈ m.content, (encodeMsgpack part).Generic) : (encodeMessage m).Generic := by
  rw [encodeMessage, encodeParts_eq_map]
  exact generic_encodeStruct (by simp)
    (by simp [generic_omitSlice (List.forall_mem_map.mpr h)])

theorem generic_encodePromptResult {pr : PromptResult ContentPart}
    (h : ∀ m ∈ pr.messages, ∀ part ∈ m.content, (encodeMsgpack part).Generic) :
    (encodePromptResult pr).Generic := by
  have hmessages : ∀ m ∈ pr.messages, (encodeMessage m).Generic :=
    fun m hm => generic_encodeMessage (h m hm)
  rw [encodePromptResult, encodeMessages_eq_map]
  exact generic_encodeStruct (by simp)
    (by simp [generic_omitSlice (List.forall_mem_map.mpr hmessages)])

/-- A part in a message is nested in the prompt result. -/
theorem depth_lt_encodePromptResult {pr : PromptResult ContentPart} {m : Message ContentPart}
    {part : ContentPart} (hm : m ∈ pr.messages) (hpart : part ∈ m.content) :
    (encodeMsgpack part).depth < (encodePromptResult pr).depth := by
  have hmessage : (encodeMsgpack part).depth < (encodeMessage m).depth := by
    rw [encodeMessage, encodeParts_eq_map]
    exact depth_lt_of_mem_slice "content" (List.mem_map_of_mem hpart) (by simp)
  have hresult : (encodeMessage m).depth < (encodePromptResult pr).depth := by
    rw [encodePromptResult, encodeMessages_eq_map]
    exact depth_lt_of_mem_slice "messages" (List.mem_map_of_mem hm) (by simp)
  exact Nat.lt_trans hmessage hresult

/-! ## What is read is generic -/

theorem decodeAs_eq {α : Type} {decode : Value → Option α} {v : Value} {a : α}
    (h : decode v = some a) (hv : v ≠ .nil) : decodeAs decode (some v) = some a := by
  unfold decodeAs
  split
  · contradiction
  · simp_all
  · simp_all

theorem generic_of_decodeToolCall (hD : D.Lawful) {v : Value} {tc : ToolCall}
    (h : decodeToolCall D v = some tc) : GenericFields tc.arguments := by
  simp only [decodeToolCall, Option.bind_eq_bind, Option.bind_eq_some_iff] at h
  obtain ⟨_, _, _, _, _, _, arguments, harguments, _, _, h⟩ := h
  obtain rfl := Option.some.inj h
  exact generic_of_readMap hD harguments

theorem generic_of_decodeToolResult (hD : D.Lawful) {v : Value} {tr : ToolResult}
    (h : decodeToolResult D v = some tr) : tr.content.Generic := by
  simp only [decodeToolResult, Option.bind_eq_bind, Option.bind_eq_some_iff] at h
  obtain ⟨_, _, _, _, _, _, content, hcontent, _, _, h⟩ := h
  obtain rfl := Option.some.inj h
  exact generic_of_readAny hD hcontent

theorem generic_of_decodeResource (hD : D.Lawful) {v : Value} {r : Resource}
    (h : decodeResource D v = some r) : GenericFields r.annotations := by
  unfold decodeResource at h
  iterate 10 obtain ⟨_, _, h⟩ := Option.bind_eq_some_iff.mp h
  obtain ⟨annotations, hannotations, h⟩ := Option.bind_eq_some_iff.mp h
  obtain ⟨_, _, h⟩ := Option.bind_eq_some_iff.mp h
  obtain rfl := Option.some.inj h
  exact generic_of_readMap hD hannotations

theorem generic_of_decodePromptRequest (hD : D.Lawful) {v : Value} {pr : PromptRequest}
    (h : decodePromptRequest D v = some pr) : GenericFields pr.arguments := by
  simp only [decodePromptRequest, Option.bind_eq_bind, Option.bind_eq_some_iff] at h
  obtain ⟨_, _, _, _, _, _, arguments, harguments, _, _, h⟩ := h
  obtain rfl := Option.some.inj h
  exact generic_of_readMap hD harguments

/-- Each part in a prompt result was decoded. -/
theorem exists_of_decodePromptResult {π : Type} {decodePart : Value → Option π} {v : Value}
    {pr : PromptResult π} (h : decodePromptResult D decodePart v = some pr) {m : Message π}
    (hm : m ∈ pr.messages) {part : π} (hpart : part ∈ m.content) :
    ∃ w, decodePart w = some part := by
  simp only [decodePromptResult, Option.bind_eq_bind, Option.bind_eq_some_iff] at h
  obtain ⟨_, _, _, _, _, _, messages, hmessages, _, _, _, _, _, _, h⟩ := h
  obtain rfl := Option.some.inj h
  obtain ⟨w, hw⟩ := exists_of_readSlice hmessages hm
  simp only [decodeMessage, Option.bind_eq_bind, Option.bind_eq_some_iff] at hw
  obtain ⟨_, _, _, _, _, _, content, hcontent, _, _, hw⟩ := hw
  obtain rfl := Option.some.inj hw
  exact exists_of_readSlice hcontent hpart

theorem exists_of_decodeAs {α : Type} {decode : Value → Option α} {content : Option Value} {a : α}
    (h : a ∈ decodeAs decode content) : ∃ v, decode v = some a := by
  unfold decodeAs at h
  split at h
  · cases h
  · cases h
  · exact ⟨_, h⟩

end Cpex.Go.Cmf
