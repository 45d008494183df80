import Cpex.Properties.CmfStructs
import Cpex.Properties.PlainMsgpack

/-!
# Content parts through MessagePack

A part that the constructors build comes back from its encoding, but for a tool result whose content
is `false`, a zero number or an empty string: `omitempty` leaves it out, and it comes back `nil`.

* `Built`, `Within` — the parts that are meant, and the parts in a part
* `mapResults` — a part with its tool results changed
* `readsBack`, `decodeMsgpack_encodeMsgpack` — what comes back of a part
* `allGeneric_of_decodePart` — what can come back at all
* `RoundTrips`, `Passes` — what is meant to hold of a part, and of a value that is passed through
* `round_trips_iff` — when a part comes back
-/

namespace Cpex.Go.Cmf

open Cpex.Infra
open Cpex.Infra.Msgpack

variable {D : Decoder}

@[simp] theorem ofStr?_name (ct : ContentType) : ContentType.ofStr? (utf8 ct.name) = some ct := by
  cases ct <;> simp [ContentType.ofStr?, ContentType.all, ContentType.name, utf8_inj]

/-! ## Tool results in a part -/

mutual

/-- A part with each of its tool results changed. -/
def mapResults (f : ToolResult → ToolResult) : ContentPart → ContentPart
  | ⟨contentType, text, toolCall, toolResult, resource, resourceRef, promptRequest, promptResult,
      image, video, audio, document, rawMap⟩ =>
    ⟨contentType, text, toolCall, toolResult.map f, resource, resourceRef, promptRequest,
      mapPromptPointer f promptResult, image, video, audio, document, rawMap⟩

def mapPromptPointer (f : ToolResult → ToolResult) :
    Option (PromptResult ContentPart) → Option (PromptResult ContentPart)
  | none => none
  | some pr => some (mapPromptResult f pr)

def mapPromptResult (f : ToolResult → ToolResult) :
    PromptResult ContentPart → PromptResult ContentPart
  | ⟨promptRequestID, promptName, messages, content, isError, errorMessage⟩ =>
    ⟨promptRequestID, promptName, mapMessages f messages, content, isError, errorMessage⟩

def mapMessages (f : ToolResult → ToolResult) :
    List (Message ContentPart) → List (Message ContentPart)
  | [] => []
  | m :: rest => mapMessage f m :: mapMessages f rest

def mapMessage (f : ToolResult → ToolResult) : Message ContentPart → Message ContentPart
  | ⟨schemaVersion, role, content, channel⟩ => ⟨schemaVersion, role, mapParts f content, channel⟩

def mapParts (f : ToolResult → ToolResult) : List ContentPart → List ContentPart
  | [] => []
  | part :: rest => mapResults f part :: mapParts f rest

end

section

variable {f g : ToolResult → ToolResult}

theorem mapParts_eq_map : ∀ parts : List ContentPart, mapParts f parts = parts.map (mapResults f)
  | [] => rfl
  | part :: rest => congrArg (mapResults f part :: ·) (mapParts_eq_map rest)

theorem mapMessage_eq_map (m : Message ContentPart) : mapMessage f m = m.map (mapResults f) := by
  rw [mapMessage, mapParts_eq_map]
  rfl

theorem mapMessages_eq_map : ∀ messages : List (Message ContentPart),
    mapMessages f messages = messages.map (Message.map (mapResults f))
  | [] => rfl
  | m :: rest => by
    rw [mapMessages, mapMessages_eq_map rest, mapMessage_eq_map]
    rfl

theorem mapPromptResult_eq_map (pr : PromptResult ContentPart) :
    mapPromptResult f pr = pr.map (mapResults f) := by
  rw [mapPromptResult, mapMessages_eq_map]
  rfl

@[simp] theorem toolResultContent_mapResults (part : ContentPart) :
    (mapResults f part).toolResultContent = part.toolResultContent.map f := by
  cases part
  rfl

@[simp] theorem promptResultContent_mapResults (part : ContentPart) :
    (mapResults f part).promptResultContent =
      part.promptResultContent.map (PromptResult.map (mapResults f)) := by
  obtain ⟨_, _, _, _, _, _, _, promptResult, _, _, _, _, _⟩ := part
  cases promptResult with
  | none => rfl
  | some pr => exact congrArg some (mapPromptResult_eq_map pr)

end

/-- `part` is in the other part, at any depth. -/
inductive Within (part : ContentPart) : ContentPart → Prop
  | self : Within part part
  | nested {outer inner : ContentPart} {pr : PromptResult ContentPart} {m : Message ContentPart} :
    outer.promptResultContent = some pr → m ∈ pr.messages → inner ∈ m.content →
      Within part inner → Within part outer

/-- The parts that the constructors build. -/
inductive Built : ContentPart → Prop
  | text (text : Str) : Built (newTextPart text)
  | thinking (text : Str) : Built (newThinkingPart text)
  | toolCall (tc : ToolCall) : Built (newToolCallPart tc)
  | toolResult (tr : ToolResult) : Built (newToolResultPart tr)
  | resource (r : Resource) : Built (newResourcePart r)
  | resourceRef (r : ResourceReference) : Built (newResourceRefPart r)
  | promptRequest (pr : PromptRequest) : Built (newPromptRequestPart pr)
  | promptResult (pr : PromptResult ContentPart) :
    (∀ m ∈ pr.messages, ∀ part ∈ m.content, Built part) → Built (newPromptResultPart pr)
  | image (img : ImageSource) : Built (newImagePart img)
  | video (vid : VideoSource) : Built (newVideoPart vid)
  | audio (aud : AudioSource) : Built (newAudioPart aud)
  | document (doc : DocumentSource) : Built (newDocumentPart doc)

section

variable {f g : ToolResult → ToolResult}

theorem mapResults_newPromptResultPart (pr : PromptResult ContentPart) :
    mapResults f (newPromptResultPart pr) = newPromptResultPart (pr.map (mapResults f)) := by
  rw [newPromptResultPart, mapResults, mapPromptPointer, mapPromptResult_eq_map]
  rfl

theorem mapResults_comp {part : ContentPart} (hbuilt : Built part) :
    mapResults f (mapResults g part) = mapResults (f ∘ g) part := by
  induction hbuilt with
  | promptResult pr _ ih =>
    rw [mapResults_newPromptResultPart, mapResults_newPromptResultPart,
      mapResults_newPromptResultPart, PromptResult.map_map]
    exact congrArg newPromptResultPart (PromptResult.map_congr ih)
  | text | thinking | toolCall | toolResult | resource | resourceRef | promptRequest | image
  | video | audio | document => rfl

/-- What was done to a part was done to each tool result in it. -/
theorem map_eq_of_mapResults_eq {part outer : ContentPart} (hpart : Within part outer)
    (h : mapResults f outer = mapResults g outer) :
    part.toolResultContent.map f = part.toolResultContent.map g := by
  induction hpart with
  | self =>
    have hresult := congrArg ContentPart.toolResultContent h
    rwa [toolResultContent_mapResults, toolResultContent_mapResults] at hresult
  | @nested outer inner pr m hpr hm hinner _ ih =>
    have hprompt := congrArg ContentPart.promptResultContent h
    rw [promptResultContent_mapResults, promptResultContent_mapResults, hpr] at hprompt
    have hmessages := List.map_inj_left.mp
      (congrArg PromptResult.messages (Option.some.inj hprompt)) m hm
    exact ih (List.map_inj_left.mp (congrArg Message.content hmessages) inner hinner)

theorem mapResults_congr {part : ContentPart} (hbuilt : Built part)
    (h : ∀ inner, Within inner part →
      inner.toolResultContent.map f = inner.toolResultContent.map g) :
    mapResults f part = mapResults g part := by
  induction hbuilt with
  | toolResult tr =>
    have hresult : f tr = g tr := Option.some.inj (h (newToolResultPart tr) .self)
    exact congrArg newToolResultPart hresult
  | promptResult pr _ ih =>
    rw [mapResults_newPromptResultPart, mapResults_newPromptResultPart]
    refine congrArg newPromptResultPart (PromptResult.map_congr fun m hm part hpart => ?_)
    exact ih m hm part hpart fun inner hinner => h inner (.nested rfl hm hpart hinner)
  | text | thinking | toolCall | resource | resourceRef | promptRequest | image | video | audio
  | document => rfl

end

/-! ## What is written of a part -/

/-- The values of any type that a part has itself have strings as keys. -/
structure GenericPart (part : ContentPart) : Prop where
  toolCall : ∀ tc ∈ part.toolCallContent, GenericFields tc.arguments
  toolResult : ∀ tr ∈ part.toolResultContent, tr.content.Generic
  resource : ∀ r ∈ part.resourceContent, GenericFields r.annotations
  promptRequest : ∀ pr ∈ part.promptRequestContent, GenericFields pr.arguments

/-- All values of any type in a part have strings as keys. -/
def AllGeneric (part : ContentPart) : Prop := ∀ inner, Within inner part → GenericPart inner

/-- The fields of a part whose payload is under `content`. -/
def bodyFields (ct : ContentType) (content : Value) : Fields :=
  [(wireKeyContentType, .str (utf8 ct.name)), (wireKeyContent, content)]

theorem genericFields_body (ct : ContentType) {content : Value} (h : content.Generic) :
    GenericFields (bodyFields ct content) := by
  refine ⟨?_, ?_⟩
  · simp [bodyFields, wireKeyContentType, wireKeyContent, utf8_inj]
  · simp [bodyFields, Value.Generic, h]

theorem genericFields_text (ct : ContentType) (text : Str) :
    GenericFields [(wireKeyContentType, .str (utf8 ct.name)), (wireKeyText, .str text)] := by
  refine ⟨?_, ?_⟩
  · simp [wireKeyContentType, wireKeyText, utf8_inj]
  · simp [Value.Generic]

@[simp] theorem get?_text (ct text : Value) :
    Assoc.get? wireKeyText [(wireKeyContentType, ct), (wireKeyText, text)] = some text := by
  simp [Assoc.get?_cons, wireKeyContentType, wireKeyText, utf8_inj]

@[simp] theorem get?_contentType_body (ct : ContentType) (content : Value) :
    Assoc.get? wireKeyContentType (bodyFields ct content) = some (.str (utf8 ct.name)) := by
  simp [bodyFields]

@[simp] theorem get?_content_body (ct : ContentType) (content : Value) :
    Assoc.get? wireKeyContent (bodyFields ct content) = some content := by
  simp [bodyFields, Assoc.get?_cons, wireKeyContentType, wireKeyContent, utf8_inj]

/-! ## What comes back of a part -/

/-- A part is written as generic fields, which are read as the part without its empty contents. -/
def ReadsBack (D : Decoder) (fuel : Nat) (part : ContentPart) : Prop :=
  ∃ fields, encodeMsgpack part = ofFields fields ∧ GenericFields fields ∧
    partOf D (decodePart D fuel) (some fields) = mapResults omitted part

theorem decodePart_ofFields (hD : D.Lawful) {fields : Fields} (h : GenericFields fields)
    {fuel : Nat} :
    decodePart D (fuel + 1) (ofFields fields) =
      some (partOf D (decodePart D fuel) (some fields)) := by
  rw [decodePart, hD.map h, Option.map_some]

theorem ReadsBack.generic {fuel : Nat} {part : ContentPart} (h : ReadsBack D fuel part) :
    (encodeMsgpack part).Generic := by
  obtain ⟨fields, hencode, hfields, -⟩ := h
  rw [hencode]
  exact (generic_ofFields fields).mpr hfields

theorem ReadsBack.decodePart (hD : D.Lawful) {fuel : Nat} {part : ContentPart}
    (h : ReadsBack D fuel part) :
    Cmf.decodePart D (fuel + 1) (encodeMsgpack part) = some (mapResults omitted part) := by
  obtain ⟨fields, hencode, hfields, hread⟩ := h
  rw [hencode, decodePart_ofFields hD hfields, hread]

theorem encodeMsgpack_newPromptResultPart (pr : PromptResult ContentPart) :
    encodeMsgpack (newPromptResultPart pr) =
      ofFields (bodyFields .promptResult (encodePromptResult pr)) := by
  simp [newPromptResultPart, encodeMsgpack, encodePromptPointer, bodyFields]

/-- A prompt result whose parts are read is read. -/
theorem readsBack_newPromptResultPart (hD : D.Lawful) {fuel : Nat} {pr : PromptResult ContentPart}
    (hgeneric : ∀ m ∈ pr.messages, ∀ part ∈ m.content, (encodeMsgpack part).Generic)
    (hread : ∀ m ∈ pr.messages, ∀ part ∈ m.content,
      decodePart D fuel (encodeMsgpack part) = some (mapResults omitted part)) :
    ReadsBack D fuel (newPromptResultPart pr) := by
  have hne : encodePromptResult pr ≠ .nil := by
    rw [encodePromptResult]
    exact encodeStruct_ne_nil _
  have hresult := decodeAs_eq (decodePromptResult_encode hD hread) hne
  refine ⟨_, encodeMsgpack_newPromptResultPart pr,
    genericFields_body .promptResult (generic_encodePromptResult hgeneric), ?_⟩
  rw [mapResults_newPromptResultPart]
  simp [newPromptResultPart, partOf, asString, hresult]

/-- Each nested part is less deep than the prompt result. -/
theorem depth_lt_newPromptResultPart {pr : PromptResult ContentPart} {m : Message ContentPart}
    {part : ContentPart} (hm : m ∈ pr.messages) (hpart : part ∈ m.content) :
    (encodeMsgpack part).depth < (encodeMsgpack (newPromptResultPart pr)).depth := by
  have hcontent : (wireKeyContent, encodePromptResult pr) ∈
      bodyFields .promptResult (encodePromptResult pr) := by
    simp [bodyFields]
  rw [encodeMsgpack_newPromptResultPart]
  exact Nat.lt_trans (depth_lt_encodePromptResult hm hpart) (depth_lt_ofFields hcontent)

/-- **A part that was built is read back**, at any depth that is enough. -/
theorem readsBack (hD : D.Lawful) {part : ContentPart} (hbuilt : Built part) :
    AllGeneric part → ∀ fuel, (encodeMsgpack part).depth ≤ fuel → ReadsBack D fuel part := by
  induction hbuilt with
  | text text =>
    intro _ fuel _
    refine ⟨_, ?_, genericFields_text .text text, ?_⟩
    · simp [newTextPart, encodeMsgpack]
    · simp [newTextPart, partOf, asString, mapResults, mapPromptPointer]
  | thinking text =>
    intro _ fuel _
    refine ⟨_, ?_, genericFields_text .thinking text, ?_⟩
    · simp [newThinkingPart, encodeMsgpack]
    · simp [newThinkingPart, partOf, asString, mapResults, mapPromptPointer]
  | toolCall tc =>
    intro hgeneric fuel _
    have harguments := (hgeneric _ .self).toolCall tc rfl
    have hread := decodeAs_eq (decodeToolCall_encode hD harguments) (encodeStruct_ne_nil _)
    refine ⟨_, ?_, genericFields_body .toolCall (generic_encodeToolCall harguments), ?_⟩
    · simp [newToolCallPart, encodeMsgpack, encodePointer, bodyFields]
    · simp [newToolCallPart, partOf, asString, mapResults, mapPromptPointer, hread]
  | toolResult tr =>
    intro hgeneric fuel _
    have hcontent := (hgeneric _ .self).toolResult tr rfl
    have hread := decodeAs_eq (decodeToolResult_encode hD hcontent) (encodeStruct_ne_nil _)
    refine ⟨_, ?_, genericFields_body .toolResult (generic_encodeToolResult hcontent), ?_⟩
    · simp [newToolResultPart, encodeMsgpack, encodePointer, bodyFields]
    · simp [newToolResultPart, partOf, asString, mapResults, mapPromptPointer, hread]
  | resource r =>
    intro hgeneric fuel _
    have hannotations := (hgeneric _ .self).resource r rfl
    have hread := decodeAs_eq (decodeResource_encode hD hannotations) (encodeStruct_ne_nil _)
    refine ⟨_, ?_, genericFields_body .resource (generic_encodeResource hannotations), ?_⟩
    · simp [newResourcePart, encodeMsgpack, encodePointer, bodyFields]
    · simp [newResourcePart, partOf, asString, mapResults, mapPromptPointer, hread]
  | resourceRef r =>
    intro _ fuel _
    have hread := decodeAs_eq (decodeResourceReference_encode hD r) (encodeStruct_ne_nil _)
    refine ⟨_, ?_, genericFields_body .resourceRef (generic_encodeResourceReference r), ?_⟩
    · simp [newResourceRefPart, encodeMsgpack, encodePointer, bodyFields]
    · simp [newResourceRefPart, partOf, asString, mapResults, mapPromptPointer, hread]
  | promptRequest pr =>
    intro hgeneric fuel _
    have harguments := (hgeneric _ .self).promptRequest pr rfl
    have hread := decodeAs_eq (decodePromptRequest_encode hD harguments) (encodeStruct_ne_nil _)
    refine ⟨_, ?_, genericFields_body .promptRequest (generic_encodePromptRequest harguments), ?_⟩
    · simp [newPromptRequestPart, encodeMsgpack, encodePointer, bodyFields]
    · simp [newPromptRequestPart, partOf, asString, mapResults, mapPromptPointer, hread]
  | promptResult pr _ ih =>
    intro hgeneric fuel hfuel
    -- a nested part is less deep, so one level less is enough for it
    have hnested : ∀ m ∈ pr.messages, ∀ part ∈ m.content,
        ∃ k, fuel = k + 1 ∧ ReadsBack D k part := by
      intro m hm part hpart
      have hlt := Nat.lt_of_lt_of_le (depth_lt_newPromptResultPart hm hpart) hfuel
      obtain ⟨k, rfl⟩ := Nat.exists_eq_succ_of_ne_zero (Nat.ne_zero_of_lt hlt)
      exact ⟨k, rfl, ih m hm part hpart
        (fun inner hinner => hgeneric inner (.nested rfl hm hpart hinner)) k
        (Nat.le_of_lt_succ hlt)⟩
    refine readsBack_newPromptResultPart hD ?_ ?_
    · intro m hm part hpart
      obtain ⟨k, -, hback⟩ := hnested m hm part hpart
      exact hback.generic
    · intro m hm part hpart
      obtain ⟨k, rfl, hback⟩ := hnested m hm part hpart
      exact hback.decodePart hD
  | image img =>
    intro _ fuel _
    have hread := decodeAs_eq (decodeImageSource_encode hD img) (encodeStruct_ne_nil _)
    refine ⟨_, ?_, genericFields_body .image (generic_encodeImageSource img), ?_⟩
    · simp [newImagePart, encodeMsgpack, encodePointer, bodyFields]
    · simp [newImagePart, partOf, asString, mapResults, mapPromptPointer, hread]
  | video vid =>
    intro _ fuel _
    have hread := decodeAs_eq (decodeVideoSource_encode hD vid) (encodeStruct_ne_nil _)
    refine ⟨_, ?_, genericFields_body .video (generic_encodeVideoSource vid), ?_⟩
    · simp [newVideoPart, encodeMsgpack, encodePointer, bodyFields]
    · simp [newVideoPart, partOf, asString, mapResults, mapPromptPointer, hread]
  | audio aud =>
    intro _ fuel _
    have hread := decodeAs_eq (decodeAudioSource_encode hD aud) (encodeStruct_ne_nil _)
    refine ⟨_, ?_, genericFields_body .audio (generic_encodeAudioSource aud), ?_⟩
    · simp [newAudioPart, encodeMsgpack, encodePointer, bodyFields]
    · simp [newAudioPart, partOf, asString, mapResults, mapPromptPointer, hread]
  | document doc =>
    intro _ fuel _
    have hread := decodeAs_eq (decodeDocumentSource_encode hD doc) (encodeStruct_ne_nil _)
    refine ⟨_, ?_, genericFields_body .document (generic_encodeDocumentSource doc), ?_⟩
    · simp [newDocumentPart, encodeMsgpack, encodePointer, bodyFields]
    · simp [newDocumentPart, partOf, asString, mapResults, mapPromptPointer, hread]

/-- **What comes back of a part.** -/
theorem decodeMsgpack_encodeMsgpack (hD : D.Lawful) {part : ContentPart} (hbuilt : Built part)
    (hgeneric : AllGeneric part) :
    decodeMsgpack D (encodeMsgpack part) = some (mapResults omitted part) :=
  (readsBack hD hbuilt hgeneric _ (Nat.le_refl _)).decodePart hD

/-! ## What is read is generic -/

section

variable {dp : Value → Option ContentPart} {raw : Option Fields}

theorem genericPart_partOf (hD : D.Lawful) : GenericPart (partOf D dp raw) := by
  unfold partOf
  dsimp only
  generalize ContentType.ofStr? _ = known
  rcases known with _ | ct
  · exact ⟨nofun, nofun, nofun, nofun⟩
  cases ct with
  | toolCall =>
    refine ⟨fun tc htc => ?_, nofun, nofun, nofun⟩
    obtain ⟨v, hv⟩ := exists_of_decodeAs htc
    exact generic_of_decodeToolCall hD hv
  | toolResult =>
    refine ⟨nofun, fun tr htr => ?_, nofun, nofun⟩
    obtain ⟨v, hv⟩ := exists_of_decodeAs htr
    exact generic_of_decodeToolResult hD hv
  | resource =>
    refine ⟨nofun, nofun, fun r hr => ?_, nofun⟩
    obtain ⟨v, hv⟩ := exists_of_decodeAs hr
    exact generic_of_decodeResource hD hv
  | promptRequest =>
    refine ⟨nofun, nofun, nofun, fun pr hpr => ?_⟩
    obtain ⟨v, hv⟩ := exists_of_decodeAs hpr
    exact generic_of_decodePromptRequest hD hv
  | text | thinking | resourceRef | promptResult | image | video | audio | document =>
    exact ⟨nofun, nofun, nofun, nofun⟩

theorem exists_of_partOf {pr : PromptResult ContentPart}
    (h : pr ∈ (partOf D dp raw).promptResultContent) :
    ∃ v, decodePromptResult D dp v = some pr := by
  unfold partOf at h
  dsimp only at h
  generalize ContentType.ofStr? _ = known at h
  rcases known with _ | ct
  · cases h
  cases ct with
  | promptResult => exact exists_of_decodeAs h
  | text | thinking | toolCall | toolResult | resource | resourceRef | promptRequest | image
  | video | audio | document => cases h

end

/-- **What is read is generic**, at any depth. -/
theorem allGeneric_of_decodePart (hD : D.Lawful) :
    ∀ {fuel : Nat} {v : Value} {part : ContentPart},
      decodePart D fuel v = some part → AllGeneric part
  | 0, _, _, h, _, _ => nomatch h
  | fuel + 1, v, part, h, inner, hinner => by
    obtain ⟨raw, -, rfl⟩ := Option.map_eq_some_iff.mp h
    cases hinner with
    | self => exact genericPart_partOf hD
    | nested hpr hm hpart hinner =>
      obtain ⟨w, hw⟩ := exists_of_partOf hpr
      obtain ⟨u, hu⟩ := exists_of_decodePromptResult hw hm hpart
      exact allGeneric_of_decodePart hD hu inner hinner

/-! ## Parts that come back -/

/-- A container without elements is not told apart from `nil`. -/
def orNil : Value → Value
  | .bin [] | .array [] | .map [] => .nil
  | v => v

/-- A value that `omitempty` leaves out, although `nil` is another value. -/
def isZero : Value → Bool
  | .bool b => !b
  | .int i => i == 0
  | .float32 bits => bits &&& 0x7fffffff == 0
  | .float64 bits => bits &&& 0x7fffffffffffffff == 0
  | .str s => s.isEmpty
  | _ => false

def blank (tr : ToolResult) : ToolResult := { tr with content := orNil tr.content }

/-- The parts are equal, with nil and empty contents not told apart. -/
def SamePart (part part' : ContentPart) : Prop := mapResults blank part = mapResults blank part'

/-- What is read from the encoding of a part is an equal part. -/
def RoundTrips (D : Decoder) (part : ContentPart) : Prop :=
  ∃ part', decodeMsgpack D (encodeMsgpack part) = some part' ∧ SamePart part' part

/-- No tool result in a part has a content that is left out. -/
def NoZero (part : ContentPart) : Prop :=
  ∀ inner, Within inner part → ∀ tr ∈ inner.toolResultContent, isZero tr.content = false

theorem orNil_omitted (v : Value) :
    orNil (if v.isEmpty then .nil else v) = orNil v ↔ isZero v = false := by
  cases v with
  | nil => simp [Value.isEmpty, orNil, isZero]
  | bool b => cases b <;> simp [Value.isEmpty, orNil, isZero]
  | int i => by_cases h : i = 0 <;> simp [Value.isEmpty, orNil, isZero, h]
  | float32 bits =>
    cases h : bits &&& 0x7fffffff == 0 <;> simp [Value.isEmpty, orNil, isZero, h]
  | float64 bits =>
    cases h : bits &&& 0x7fffffffffffffff == 0 <;> simp [Value.isEmpty, orNil, isZero, h]
  | str s => cases s <;> simp [Value.isEmpty, orNil, isZero]
  | bin data => cases data <;> simp [Value.isEmpty, orNil, isZero]
  | array items => cases items <;> simp [Value.isEmpty, orNil, isZero]
  | map entries => cases entries <;> simp [Value.isEmpty, orNil, isZero]

theorem blank_omitted (tr : ToolResult) :
    blank (omitted tr) = blank tr ↔ isZero tr.content = false := by
  rw [← orNil_omitted]
  simp [blank, omitted]

theorem generic_orNil (v : Value) : (orNil v).Generic ↔ v.Generic := by
  unfold orNil
  split <;> simp [Value.Generic, GenericItems, GenericEntries]

/-- A part comes back without its zero contents exactly where it has none. -/
theorem samePart_omitted_iff {part : ContentPart} (hbuilt : Built part) :
    SamePart (mapResults omitted part) part ↔ NoZero part := by
  rw [SamePart, mapResults_comp hbuilt]
  constructor
  · intro h inner hinner tr htr
    have hresult := map_eq_of_mapResults_eq hinner h
    rw [Option.mem_def.mp htr] at hresult
    exact (blank_omitted tr).mp (Option.some.inj hresult)
  · intro h
    refine mapResults_congr hbuilt fun inner hinner => ?_
    cases htr : inner.toolResultContent with
    | none => rfl
    | some tr => exact congrArg some ((blank_omitted tr).mpr (h inner hinner tr htr))

section

variable {f : ToolResult → ToolResult}

theorem within_mapResults {inner outer : ContentPart} (h : Within inner outer) :
    Within (mapResults f inner) (mapResults f outer) := by
  induction h with
  | self => exact .self
  | @nested outer inner pr m hpr hm hinner _ ih =>
    have hmapped : (mapResults f outer).promptResultContent = some (pr.map (mapResults f)) := by
      rw [promptResultContent_mapResults, hpr]
      rfl
    have hmessage : m.map (mapResults f) ∈ (pr.map (mapResults f)).messages :=
      List.mem_map_of_mem hm
    exact .nested hmapped hmessage (List.mem_map_of_mem hinner) ih

theorem exists_within_of_mapResults {inner outer mapped : ContentPart} (h : Within inner mapped)
    (hmapped : mapped = mapResults f outer) :
    ∃ inner', Within inner' outer ∧ inner = mapResults f inner' := by
  induction h generalizing outer with
  | self => exact ⟨outer, .self, hmapped⟩
  | nested hpr hm hinner _ ih =>
    rw [hmapped, promptResultContent_mapResults] at hpr
    obtain ⟨pr, hprompt, rfl⟩ := Option.map_eq_some_iff.mp hpr
    obtain ⟨m, hmem, rfl⟩ := List.mem_map.mp hm
    obtain ⟨part, hpart, rfl⟩ := List.mem_map.mp hinner
    obtain ⟨inner', hwithin, hinner'⟩ := ih rfl
    exact ⟨inner', .nested hprompt hmem hpart hwithin, hinner'⟩

end

theorem genericPart_mapResults_blank (part : ContentPart) :
    GenericPart (mapResults blank part) ↔ GenericPart part := by
  have hresult : (∀ tr ∈ part.toolResultContent.map blank, tr.content.Generic) ↔
      ∀ tr ∈ part.toolResultContent, tr.content.Generic := by
    cases part.toolResultContent with
    | none => simp
    | some tr => simp [blank, generic_orNil]
  obtain ⟨_, _, _, _, _, _, _, _, _, _, _, _, _⟩ := part
  constructor
  · rintro ⟨htc, htr, hr, hpr⟩
    exact ⟨htc, hresult.mp htr, hr, hpr⟩
  · rintro ⟨htc, htr, hr, hpr⟩
    exact ⟨htc, hresult.mpr htr, hr, hpr⟩

/-- An equal part has the same values. -/
theorem allGeneric_of_samePart {part part' : ContentPart} (h : SamePart part part')
    (hgeneric : AllGeneric part) : AllGeneric part' := by
  intro inner hinner
  have hmapped := within_mapResults (f := blank) hinner
  obtain ⟨inner', hinner', heq⟩ := exists_within_of_mapResults hmapped h.symm
  have hpart := (genericPart_mapResults_blank inner').mpr (hgeneric inner' hinner')
  exact (genericPart_mapResults_blank inner).mp (heq ▸ hpart)

theorem roundTrips_built_iff (hD : D.Lawful) {part : ContentPart} (hbuilt : Built part) :
    RoundTrips D part ↔ AllGeneric part ∧ NoZero part := by
  constructor
  · rintro ⟨part', hread, hsame⟩
    have hgeneric := allGeneric_of_samePart hsame (allGeneric_of_decodePart hD hread)
    have homitted := decodeMsgpack_encodeMsgpack hD hbuilt hgeneric
    rw [hread] at homitted
    rw [Option.some.inj homitted] at hsame
    exact ⟨hgeneric, (samePart_omitted_iff hbuilt).mp hsame⟩
  · rintro ⟨hgeneric, hzero⟩
    exact ⟨_, decodeMsgpack_encodeMsgpack hD hbuilt hgeneric,
      (samePart_omitted_iff hbuilt).mpr hzero⟩

/-! ## Values that are passed through -/

/-- The content type of a wire map is not a known one. -/
def UnknownType (fields : Fields) : Prop :=
  ∀ ct, Assoc.get? wireKeyContentType fields = some (.str ct) → ContentType.ofStr? ct = none

/-- The encoding of what is read from a wire map is that map. -/
def Passes (D : Decoder) (fields : Fields) : Prop :=
  ∃ part, decodeMsgpack D (ofFields fields) = some part ∧ encodeMsgpack part = ofFields fields

/-- A part of a known type is written with its type. -/
theorem exists_encodeMsgpack_of_known {part : ContentPart} {ct : ContentType}
    (hct : ContentType.ofStr? part.contentType = some ct) :
    ∃ fields, encodeMsgpack part = ofFields fields ∧
      Assoc.get? wireKeyContentType fields = some (.str part.contentType) := by
  obtain ⟨contentType, _, _, _, _, _, _, _, _, _, _, _, _⟩ := part
  have hknown : ContentType.ofStr? contentType = some ct := hct
  unfold encodeMsgpack
  rw [hknown]
  cases ct <;> exact ⟨_, rfl, Assoc.get?_cons_self ..⟩

theorem ofStr?_nil : ContentType.ofStr? [] = none := by
  have hempty : ([] : Str) = utf8 "" := rfl
  simp [ContentType.ofStr?, ContentType.all, ContentType.name, hempty, utf8_inj]

section

variable {dp : Value → Option ContentPart} {raw : Fields}

theorem contentType_partOf :
    (partOf D dp (some raw)).contentType = asString (Assoc.get? wireKeyContentType raw) := by
  unfold partOf
  dsimp only [Option.getD_some]
  generalize ContentType.ofStr? _ = known
  rcases known with _ | ct
  · rfl
  · cases ct <;> rfl

/-- What is read of a wire map of an unknown type is written as the whole map. -/
theorem encodeMsgpack_partOf_of_unknown
    (h : ContentType.ofStr? (asString (Assoc.get? wireKeyContentType raw)) = none) :
    encodeMsgpack (partOf D dp (some raw)) = ofFields raw := by
  unfold partOf
  simp [encodeMsgpack, h]

/-- What is read of an absent map is written as one without a type. -/
theorem encodeMsgpack_partOf_none :
    encodeMsgpack (partOf D dp none) = ofFields [(wireKeyContentType, .str [])] := by
  have hempty : ContentType.ofStr? (Cmf.asString none) = none := ofStr?_nil
  unfold partOf
  simp [encodeMsgpack, hempty]
  rfl

end

theorem UnknownType.asString {fields : Fields} (h : UnknownType fields) :
    ContentType.ofStr? (asString (Assoc.get? wireKeyContentType fields)) = none := by
  unfold Cmf.asString
  split
  case h_1 ct hct => exact h ct hct
  case h_2 => exact ofStr?_nil

theorem passes_unknown_iff (hD : D.Lawful) {fields : Fields} (hnodup : (fields.map Prod.fst).Nodup)
    (hunknown : UnknownType fields) : Passes D fields ↔ ∀ e ∈ fields, e.2.Generic := by
  constructor
  · rintro ⟨part, hread, hencode⟩
    obtain ⟨raw, hraw, rfl⟩ := Option.map_eq_some_iff.mp hread
    cases raw with
    | none =>
      rw [encodeMsgpack_partOf_none] at hencode
      rw [← ofFields_inj.mp hencode]
      simp [Value.Generic]
    | some fields' =>
      suffices hfields : fields' = fields from (hfields ▸ hD.generic_of_map hraw).2
      cases hct : ContentType.ofStr? (partOf D (decodePart D (ofFields fields).depth)
          (some fields')).contentType with
      | none =>
        rw [contentType_partOf] at hct
        rw [encodeMsgpack_partOf_of_unknown hct] at hencode
        exact ofFields_inj.mp hencode
      | some ct =>
        -- a part of a known type says so, which the wire map does not
        obtain ⟨written, hwritten, hget⟩ := exists_encodeMsgpack_of_known hct
        rw [hencode] at hwritten
        rw [← ofFields_inj.mp hwritten] at hget
        rw [hunknown _ hget] at hct
        cases hct
  · intro hgeneric
    exact ⟨_, decodePart_ofFields hD ⟨hnodup, hgeneric⟩,
      encodeMsgpack_partOf_of_unknown hunknown.asString⟩

/-! ## When a part comes back -/

/-- **When a part comes back.** A part that was built does where no tool result in it has a content
that `omitempty` leaves out, and a wire map of an unknown type is passed through; in both, the maps
in values of any type have strings as keys. -/
theorem round_trips_iff (hD : D.Lawful) :
    (∀ part, Built part → (RoundTrips D part ↔ AllGeneric part ∧ NoZero part)) ∧
      ∀ fields : Fields, (fields.map Prod.fst).Nodup → UnknownType fields →
        (Passes D fields ↔ ∀ e ∈ fields, e.2.Generic) :=
  ⟨fun _ hbuilt => roundTrips_built_iff hD hbuilt,
    fun _ hnodup hunknown => passes_unknown_iff hD hnodup hunknown⟩

/-- An entry of a struct, which has a string as its key. -/
def stringKeyed : Value × Value → Option (Str × Value)
  | (.str key, v) => some (key, v)
  | _ => none

/-- A decoder that reads each type from what it is written as, or from `nil`. -/
def plain : Decoder where
  string := Plain.decodeString
  bool
    | .bool b => some b
    | .nil => some false
    | _ => none
  uint64
    | .int i => some (UInt64.ofInt i)
    | .nil => some 0
    | _ => none
  uint8
    | .int i => some (UInt8.ofInt i)
    | .nil => some 0
    | _ => none
  struct tags
    | .map entries => entries.mapM stringKeyed
    | .array items => some ((tags.zip items).map fun e => (utf8 e.1, e.2))
    | .nil => some []
    | _ => none
  interface := Plain.decodeInterface
  map := Plain.decodeMap

theorem mapM_stringKeyed : ∀ fields : Fields, (fields.map keyed).mapM stringKeyed = some fields
  | [] => rfl
  | e :: rest => by
    rw [List.map_cons, List.mapM_cons, mapM_stringKeyed rest]
    rfl

theorem plain_lawful : plain.Lawful where
  string _ := rfl
  bool _ := rfl
  uint64 n := by
    have hn : UInt64.ofInt (n.toNat : Int) = n := by
      have hlt := n.toNat_lt
      refine Eq.trans (congrArg UInt64.ofNat ?_) UInt64.ofNat_toNat
      omega
    exact congrArg some hn
  uint8 n := by
    have hn : UInt8.ofInt (n.toNat : Int) = n := by
      have hlt := n.toNat_lt
      refine Eq.trans (congrArg UInt8.ofNat ?_) UInt8.ofNat_toNat
      omega
    exact congrArg some hn
  struct _ fields _ := mapM_stringKeyed fields
  interface h := Plain.decodeInterface_of_generic _ h
  generic_of_interface := Plain.generic_of_decodeInterface
  map := Plain.decodeMap_of_generic
  generic_of_map := Plain.generic_of_decodeMap

/-- The tool result of a flag. -/
def flagResult (flag : Bool) : ToolResult :=
  { toolCallID := utf8 "call-1", toolName := utf8 "flag", content := .bool flag, isError := false }

/-- A wire map of a later version. -/
def futureFields : Fields := [
  (wireKeyContentType, .str (utf8 "future_variant_v2")),
  (wireKeyContent, ofFields [(utf8 "foo", .str (utf8 "bar")), (utf8 "n", .int 42)])]

/-- A tool result is all that is in its part. -/
theorem eq_of_within_newToolResultPart {tr : ToolResult} {part : ContentPart}
    (h : Within part (newToolResultPart tr)) : part = newToolResultPart tr := by
  cases h with
  | self => rfl
  | nested hpr => cases hpr

theorem allGeneric_flagResult (flag : Bool) : AllGeneric (newToolResultPart (flagResult flag)) := by
  intro part hpart
  obtain rfl := eq_of_within_newToolResultPart hpart
  refine ⟨nofun, fun tr htr => ?_, nofun, nofun⟩
  obtain rfl := Option.some.inj htr
  trivial

theorem round_trips_iff_small :
    RoundTrips plain (newToolResultPart (flagResult true)) ∧ Passes plain futureFields := by
  constructor
  · refine ((round_trips_iff plain_lawful).1 _ (.toolResult _)).mpr ⟨allGeneric_flagResult true, ?_⟩
    intro part hpart tr htr
    obtain rfl := eq_of_within_newToolResultPart hpart
    obtain rfl := Option.some.inj htr
    rfl
  · refine ((round_trips_iff plain_lawful).2 futureFields ?_ ?_).mpr ?_
    · simp [futureFields, wireKeyContentType, wireKeyContent, utf8_inj]
    · intro ct hct
      obtain rfl := Value.str.inj (Option.some.inj hct)
      simp [ContentType.ofStr?, ContentType.all, ContentType.name, utf8_inj]
    · simp [futureFields, generic_ofFields, GenericFields, Value.Generic, utf8_inj]

/-- A tool result whose content is `false` comes back without it. -/
theorem falseContent_comes_back_nil :
    decodeMsgpack plain (encodeMsgpack (newToolResultPart (flagResult false))) =
        some (newToolResultPart { flagResult false with content := .nil }) ∧
      ¬ RoundTrips plain (newToolResultPart (flagResult false)) := by
  have hread := decodeMsgpack_encodeMsgpack plain_lawful (.toolResult (flagResult false))
    (allGeneric_flagResult false)
  refine ⟨hread, ?_⟩
  rintro ⟨part, hpart, hsame⟩
  rw [hread] at hpart
  obtain rfl := Option.some.inj hpart
  have hresult := Option.some.inj (congrArg ContentPart.toolResultContent hsame)
  cases congrArg ToolResult.content hresult

end Cpex.Go.Cmf
