import Cpex.Properties.LegacyPayloads
import Cpex.Properties.PlainPpe
import Cpex.Properties.Shim

/-!
# What a legacy plugin sees

A plugin approves or redacts a message by its legacy payload alone. Two messages it cannot tell
apart hold the same things to authorize and to read: what the payload does not name is refused when
it is set, and on a post hook so is any other part that is not blank.

* `visible_of_same_payload` — equal payloads come from messages that agree on every such field
-/

namespace Cpex.Host

open Cpex.Infra Cpex.Infra.Serde

variable {T : Types} {P : Ppe T}

/-! ## What two parts agree on -/

/-- An optional text, an empty one counted as absent. -/
def nonEmpty (field : Option String) : Option String := field.filter fun s => !s.isEmpty

theorem nonEmpty_eq_none {field : Option String} (h : isSet field = false) :
    nonEmpty field = none := by
  unfold nonEmpty isSet at *
  cases field with
  | none => rfl
  | some s => simpa using h

theorem nonEmpty_congr {a b : Option String} (ha : isSet a = false) (hb : isSet b = false) :
    nonEmpty a = nonEmpty b := by rw [nonEmpty_eq_none ha, nonEmpty_eq_none hb]

/-- Nested messages of the same role and the same text. -/
def MessagesAgree (a b : Message T) : Prop :=
  a.role = b.role ∧ ∃ text, a.content = [.text text] ∧ b.content = [.text text]

/-- Two mapped parts agree on every field that is authorized or read. -/
inductive PartsAgree : Shim → ContentPart T → ContentPart T → Prop
  | toolCall {a b : ToolCall} (name : a.name = b.name)
      (arguments : a.arguments.Same b.arguments)
      (sameNamespace : nonEmpty a.namespace = nonEmpty b.namespace) :
      PartsAgree .toolPreInvoke (.toolCall a) (.toolCall b)
  | toolResult {a b : ToolResult} (toolName : a.toolName = b.toolName)
      (content : a.content = b.content) :
      PartsAgree .toolPostInvoke (.toolResult a) (.toolResult b)
  | promptRequest {a b : PromptRequest} (name : a.name = b.name)
      (arguments : a.arguments.Same b.arguments)
      (serverId : nonEmpty a.serverId = nonEmpty b.serverId) :
      PartsAgree .promptPreFetch (.promptRequest a) (.promptRequest b)
  | promptResult {idA idB nameA nameB : String} {messagesA messagesB : List (Message T)}
      {renderedA renderedB messageA messageB : Option String} {isErrorA isErrorB : Bool}
      (promptName : nameA = nameB) (messages : List.Forall₂ MessagesAgree messagesA messagesB)
      (rendered : nonEmpty renderedA = nonEmpty renderedB) (isError : isErrorA = isErrorB)
      (errorMessage : nonEmpty messageA = nonEmpty messageB) :
      PartsAgree .promptPostFetch
        (.promptResult (.mk idA nameA messagesA renderedA isErrorA messageA))
        (.promptResult (.mk idB nameB messagesB renderedB isErrorB messageB))
  | resourcePre {a b : Resource T} (uri : a.uri = b.uri)
      (version : nonEmpty a.version = nonEmpty b.version) :
      PartsAgree .resourcePreFetch (.resource a) (.resource b)
  /-- A reference has no version. -/
  | resourceOfRef {a : Resource T} {b : ResourceReference T} (uri : a.uri = b.uri)
      (version : nonEmpty a.version = none) :
      PartsAgree .resourcePreFetch (.resource a) (.resourceRef b)
  | refOfResource {a : ResourceReference T} {b : Resource T} (uri : a.uri = b.uri)
      (version : nonEmpty b.version = none) :
      PartsAgree .resourcePreFetch (.resourceRef a) (.resource b)
  | resourceRef {a b : ResourceReference T} (uri : a.uri = b.uri) :
      PartsAgree .resourcePreFetch (.resourceRef a) (.resourceRef b)
  | resourcePost {a b : Resource T} (uri : a.uri = b.uri)
      (version : nonEmpty a.version = nonEmpty b.version) (text : a.content = b.content)
      (mimeType : a.mimeType = b.mimeType) (blob : a.blob = b.blob) :
      PartsAgree .resourcePostFetch (.resource a) (.resource b)

/-! ## Equal payloads -/

theorem same_of_sameArgs {ν : Type} {a : Option (HashMap String ν)} {m n : HashMap String ν}
    (hm : Legacy.SameArgs a (some m)) (hn : Legacy.SameArgs a (some n)) : m.Same n := by
  cases hm with
  | some hm =>
    cases hn with
    | some hn => exact fun key => (hm key).symm.trans (hn key)

/-- Arguments whose texts agree agree. -/
theorem same_of_strings {a b : HashMap String Json} {argsA argsB : List (String × String)}
    (ha : a.entries = argsA.map fun e => (e.1, .string e.2))
    (hb : b.entries = argsB.map fun e => (e.1, .string e.2))
    (h : (HashMap.ofList argsA).Same (HashMap.ofList argsB)) : a.Same b := by
  have hget : ∀ {m : HashMap String Json} {args : List (String × String)},
      m.entries = args.map (fun e => (e.1, .string e.2)) → ∀ key,
      m.get? key = ((HashMap.ofList args).get? key).map .string := fun {m args} hm key => by
    have hkeys : (args.map Prod.fst).Nodup := by
      have hnodup := m.nodup
      rwa [hm, List.map_map] at hnodup
    rw [HashMap.get?_ofList hkeys, ← Assoc.get?_map_snd, ← hm]
    rfl
  intro key
  rw [hget ha, hget hb, h key]

theorem nullable_injective {a b : Option String}
    (h : nullable Json.string a = nullable Json.string b) : a = b := by
  cases a <;> cases b <;> simp_all [nullable]

theorem messagesAgree_of_same (hroles : P.RolesRoundTrip) {a b : Message T} {item : Json}
    (ha : SendsMessage P a item) (hb : SendsMessage P b item) : MessagesAgree a b := by
  obtain ⟨textA, hcontentA, hitemA⟩ := ha
  obtain ⟨textB, hcontentB, hitemB⟩ := hb
  have hsame := hitemA.symm.trans hitemB
  have hrole : P.roleToValue a.role = P.roleToValue b.role := by
    have h := congrArg (Json.get? · "role") hsame
    simpa [promptMessageValue, Json.get?_ofFields, Assoc.get?_cons] using h
  have htext : textA = textB := by
    have h := congrArg (fun v => (v.get? "content").bind (Json.get? · "text")) hsame
    simpa [promptMessageValue, Json.get?_ofFields, Assoc.get?_cons] using h
  refine ⟨?_, textA, hcontentA, htext ▸ hcontentB⟩
  have hread := hroles a.role
  rw [hrole, hroles b.role] at hread
  exact (Except.ok.inj hread).symm

theorem forall₂_messagesAgree (hroles : P.RolesRoundTrip) {a b : List (Message T)}
    {items : List Json} (ha : List.Forall₂ (SendsMessage P) a items)
    (hb : List.Forall₂ (SendsMessage P) b items) : List.Forall₂ MessagesAgree a b := by
  induction ha generalizing b with
  | nil =>
    cases hb
    exact .nil
  | cons hhead _ ih =>
    cases hb with
    | cons hhead' htail' =>
      exact .cons (messagesAgree_of_same hroles hhead hhead') (ih htail')

/-- A resource's content tells its text and its MIME type. -/
theorem resource_of_value {a b : Resource T} (h : resourceValue a = resourceValue b) :
    a.content = b.content ∧ a.mimeType = b.mimeType := by
  have htext := congrArg (Json.get? · "text") h
  have hmime := congrArg (Json.get? · "mime_type") h
  simp only [resourceValue, Json.get?_ofFields] at htext hmime
  exact ⟨nullable_injective (Option.some.inj htext), nullable_injective (Option.some.inj hmime)⟩

theorem items_of_promptValue {a b : List Json} (h : promptValue a = promptValue b) : a = b := by
  have hitems := congrArg (Json.get? · "messages") h
  simp only [promptValue, Json.get?_ofFields] at hitems
  exact Json.array.inj (Option.some.inj hitems)

theorem uri_of_resourcePre {a b : String}
    (h : Legacy.ResourcePreFetchPayload.toValue ⟨a, none⟩ =
      Legacy.ResourcePreFetchPayload.toValue ⟨b, none⟩) : a = b := by
  obtain ⟨p, hp, huri, -⟩ := Legacy.ResourcePreFetchPayload.fromValue_toValue ⟨a, none⟩
  obtain ⟨q, hq, huri', -⟩ := Legacy.ResourcePreFetchPayload.fromValue_toValue ⟨b, none⟩
  rw [h, hq] at hp
  obtain rfl := Option.some.inj hp
  exact huri.symm.trans huri'

/-- Parts that go out as one payload agree: what it says is read back, and the rest was refused. -/
theorem partsAgree_of_same (hroles : P.RolesRoundTrip) {shim : Shim} {a b : ContentPart T}
    {json : Json} (ha : Sends P shim a json) (hb : Sends P shim b json) :
    PartsAgree shim a b := by
  generalize hjson : json = json' at hb
  cases ha with
  | @toolCall a ha =>
    cases hb with
    | @toolCall b hb =>
      obtain ⟨p, hp, hname, hargs, -⟩ := Legacy.ToolPreInvokePayload.fromValue_toValue
        ⟨a.name, some a.arguments, none⟩
      obtain ⟨q, hq, hname', hargs', -⟩ := Legacy.ToolPreInvokePayload.fromValue_toValue
        ⟨b.name, some b.arguments, none⟩
      rw [hjson, hq] at hp
      obtain rfl := Option.some.inj hp
      exact .toolCall (hname.symm.trans hname') (same_of_sameArgs hargs hargs')
        (nonEmpty_congr ha hb)
  | @toolResult a _ =>
    cases hb with
    | @toolResult b _ =>
      have hp := Legacy.ToolPostInvokePayload.fromValue_toValue ⟨a.toolName, a.content⟩
      rw [hjson, Legacy.ToolPostInvokePayload.fromValue_toValue] at hp
      obtain ⟨hname, hcontent⟩ := Legacy.ToolPostInvokePayload.mk.inj (Option.some.inj hp)
      exact .toolResult hname.symm hcontent.symm
  | @promptRequest a args ha hargs =>
    cases hb with
    | @promptRequest b args' hb hargs' =>
      obtain ⟨p, hp, hname, hsame⟩ := Legacy.PromptPreFetchPayload.fromValue_toValue
        ⟨a.name, some (HashMap.ofList args)⟩
      obtain ⟨q, hq, hname', hsame'⟩ := Legacy.PromptPreFetchPayload.fromValue_toValue
        ⟨b.name, some (HashMap.ofList args')⟩
      rw [hjson, hq] at hp
      obtain rfl := Option.some.inj hp
      exact .promptRequest (hname.symm.trans hname')
        (same_of_strings hargs hargs' (same_of_sameArgs hsame hsame')) (nonEmpty_congr ha hb)
  | @promptResult _ name _ _ _ items hrendered hmessage hitems =>
    cases hb with
    | @promptResult _ name' _ _ _ items' hrendered' hmessage' hitems' =>
      have hp := Legacy.PromptPostFetchPayload.fromValue_toValue ⟨name, promptValue items⟩
      rw [hjson, Legacy.PromptPostFetchPayload.fromValue_toValue] at hp
      obtain ⟨hname, hvalue⟩ := Legacy.PromptPostFetchPayload.mk.inj (Option.some.inj hp)
      obtain rfl := items_of_promptValue hvalue
      exact .promptResult hname.symm (forall₂_messagesAgree hroles hitems hitems')
        (nonEmpty_congr hrendered hrendered') rfl (nonEmpty_congr hmessage hmessage')
  | resourcePre ha =>
    cases hb with
    | resourcePre hb => exact .resourcePre (uri_of_resourcePre hjson) (nonEmpty_congr ha hb)
    | resourceRef b => exact .resourceOfRef (uri_of_resourcePre hjson) (nonEmpty_eq_none ha)
  | resourceRef a =>
    cases hb with
    | resourcePre hb => exact .refOfResource (uri_of_resourcePre hjson) (nonEmpty_eq_none hb)
    | resourceRef b => exact .resourceRef (uri_of_resourcePre hjson)
  | @resourcePost a ha hblob =>
    cases hb with
    | @resourcePost b hb hblob' =>
      have hp := Legacy.ResourcePostFetchPayload.fromValue_toValue ⟨a.uri, resourceValue a⟩
      rw [hjson, Legacy.ResourcePostFetchPayload.fromValue_toValue] at hp
      obtain ⟨huri, hvalue⟩ := Legacy.ResourcePostFetchPayload.mk.inj (Option.some.inj hp)
      obtain ⟨htext, hmime⟩ := resource_of_value hvalue
      exact .resourcePost huri.symm (nonEmpty_congr ha hb) htext.symm hmime.symm
        (hblob.trans hblob'.symm)

/-! ## Nothing unseen -/

/-- Every part of the message but one is a text or a thought with nothing in it. -/
def OthersBlank (m : MessagePayload T) (part : Nat) : Prop :=
  ∀ i other, m.message.content[i]? = some other → i ≠ part →
    ∃ text, (other = .text text ∨ other = .thinking text) ∧ Text.isBlank text = true

theorem othersBlank_of_translates {hookName : String} {m : MessagePayload T}
    {s : ShimmedPayload T} {content : ContentPart T} (h : Translates P hookName m s content)
    (hpost : s.shim.isPost = true) : OthersBlank m s.part := by
  intro i other hother hne
  have hblank := h.siblings hpost i other hother hne
  cases other with
  | text text => exact ⟨text, .inl rfl, by simpa [carriesContent] using hblank⟩
  | thinking text => exact ⟨text, .inr rfl, by simpa [carriesContent] using hblank⟩
  | toolCall _ | toolResult _ | resource _ | resourceRef _ | promptRequest _ | promptResult _
  | image _ | video _ | audio _ | document _ => cases hblank

/-- **Messages that a legacy plugin cannot tell apart agree on what it approves and reads.** -/
theorem visible_of_same_payload (hroles : P.RolesRoundTrip) {hookName : String}
    {m₁ m₂ : MessagePayload T} {s₁ s₂ : ShimmedPayload T}
    (h₁ : toLegacy P hookName (.message m₁) = .ok s₁)
    (h₂ : toLegacy P hookName (.message m₂) = .ok s₂) (hjson : s₁.json = s₂.json) :
    (∃ a b, m₁.message.content[s₁.part]? = some a ∧ m₂.message.content[s₂.part]? = some b ∧
      PartsAgree s₁.shim a b) ∧
    (s₁.shim.isPost = true → OthersBlank m₁ s₁.part ∧ OthersBlank m₂ s₂.part) := by
  obtain ⟨a, ha⟩ := toLegacy_eq_ok_iff.mp h₁
  obtain ⟨b, hb⟩ := toLegacy_eq_ok_iff.mp h₂
  have hshim : s₂.shim = s₁.shim := Option.some.inj (hb.shim.symm.trans ha.shim)
  refine ⟨⟨a, b, ha.part, hb.part, ?_⟩, fun hpost => ⟨?_, ?_⟩⟩
  · exact partsAgree_of_same hroles ha.json (hjson ▸ hshim ▸ hb.json)
  · exact othersBlank_of_translates ha hpost
  · exact othersBlank_of_translates hb (hshim ▸ hpost)

/-- Two results of one tool call: what differs is an identifier and where a blank part stands. -/
def blankFirst : MessagePayload Plain.types :=
  ⟨.mk "2.0" "tool" [.text " ", .toolResult ⟨"call-2", "search", .string "3 hits", false⟩] none⟩

theorem visible_of_same_payload_blank : ∃ s₁ s₂,
    toLegacy Plain.engine hookCmfToolPostInvoke
      (.message (Plain.toolResult (.string "3 hits"))) = .ok s₁ ∧
    toLegacy Plain.engine hookCmfToolPostInvoke (.message blankFirst) = .ok s₂ ∧
    (∃ a b, (Plain.toolResult (.string "3 hits")).message.content[s₁.part]? = some a ∧
      blankFirst.message.content[s₂.part]? = some b ∧ PartsAgree s₁.shim a b) ∧
    OthersBlank blankFirst s₂.part := by
  have h₁ : toLegacy Plain.engine hookCmfToolPostInvoke
    (.message (Plain.toolResult (.string "3 hits"))) = .ok _ := rfl
  have h₂ : toLegacy Plain.engine hookCmfToolPostInvoke (.message blankFirst) = .ok _ := rfl
  obtain ⟨hagree, hblank⟩ := visible_of_same_payload Plain.plain_rolesRoundTrip h₁ h₂ rfl
  exact ⟨_, _, h₁, h₂, hagree, (hblank rfl).2⟩

end Cpex.Host
