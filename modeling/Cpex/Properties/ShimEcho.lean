import Cpex.Properties.LegacyPayloads
import Cpex.Properties.PlainPpe
import Cpex.Properties.Shim

/-!
# A plugin that changes nothing

The worker may answer with the very payload it was sent. The round trip is the identity but for one
flag: a tool result whose content says `isError` while its own flag does not comes back flagged.

* `echo_identity_iff` — the echoed payload gives back the message, unless its flag lags
* `echo_sets_error` — a success that is returned as an error
-/

namespace Cpex.Host

open Cpex.Infra Cpex.Infra.Serde

variable {T : Types} {P : Ppe T}

/-! ## Equal messages -/

/-- Equal parts. The maps of a part that was read back may enumerate in another order. -/
inductive ContentPart.Same : ContentPart T → ContentPart T → Prop
  | refl (part : ContentPart T) : Same part part
  | toolCall (content : ToolCall) (arguments : HashMap String Json)
      (same : arguments.Same content.arguments) :
      Same (.toolCall { content with arguments }) (.toolCall content)
  | promptRequest (content : PromptRequest) (arguments : HashMap String Json)
      (same : arguments.Same content.arguments) :
      Same (.promptRequest { content with arguments }) (.promptRequest content)

theorem same_toolResult_iff {a b : ToolResult} :
    ContentPart.Same (T := T) (.toolResult a) (.toolResult b) ↔ a = b := by
  constructor
  · intro h
    cases h
    rfl
  · rintro rfl
    exact .refl _

/-- Equal messages, part by part. -/
structure MessagePayload.Same (p m : MessagePayload T) : Prop where
  schemaVersion : p.message.schemaVersion = m.message.schemaVersion
  role : p.message.role = m.message.role
  channel : p.message.channel = m.message.channel
  content : List.Forall₂ ContentPart.Same p.message.content m.message.content

/-- Replacing a part gives an equal message exactly when the part is. -/
theorem forall₂_set_iff {new part : ContentPart T} : ∀ {content : List (ContentPart T)} {i : Nat},
    content[i]? = some part →
      (List.Forall₂ ContentPart.Same (content.set i new) content ↔ new.Same part)
  | [], i, h => by cases h
  | head :: rest, 0, h => by
    obtain rfl := Option.some.inj h
    rw [List.set_cons_zero, List.forall₂_cons]
    exact and_iff_left (List.forall₂_same.mpr fun part _ => .refl part)
  | head :: rest, i + 1, h => by
    rw [List.set_cons_succ, List.forall₂_cons, and_iff_right (.refl head)]
    exact forall₂_set_iff h

/-! ## Each hook's echo -/

/-- A tool result whose content says it is an error while its flag does not. -/
def FlagLags : ContentPart T → Prop
  | .toolResult content => content.isError = false ∧ resultSaysError content.content = true
  | _ => False

theorem isEmpty_of_sameArgs_none {ν : Type} {a : Option (HashMap String ν)}
    (h : Legacy.SameArgs a none) : ∀ m, a = some m → m.isEmpty = true := by
  cases h
  rintro m ⟨⟩

theorem getD_same {ν : Type} {a : Option (HashMap String ν)} {m : HashMap String ν}
    (h : Legacy.SameArgs a (some m)) : (a.getD HashMap.empty).Same m := by
  cases h with
  | some hsame => exact hsame

/-- Arguments that are strings come back as the strings they are. -/
theorem stringArgs_same {arguments : HashMap String Json} {args : List (String × String)}
    {m : HashMap String String} (hargs : arguments.entries = args.map fun e => (e.1, .string e.2))
    (h : m.Same (HashMap.ofList args)) :
    (HashMap.ofList (m.entries.map fun e => (e.1, Json.string e.2))).Same arguments := by
  have hkeys : (args.map Prod.fst).Nodup := by
    have hnodup := arguments.nodup
    rwa [hargs, List.map_map] at hnodup
  have hwritten : ((m.entries.map fun e => (e.1, Json.string e.2)).map Prod.fst).Nodup := by
    rw [List.map_map]
    exact m.nodup
  intro key
  calc (HashMap.ofList (m.entries.map fun e => (e.1, Json.string e.2))).get? key
      = (m.get? key).map .string := by
        rw [HashMap.get?_ofList hwritten, Assoc.get?_map_snd]
        rfl
    _ = (Assoc.get? key args).map .string := by rw [h key, HashMap.get?_ofList hkeys]
    _ = arguments.get? key := by
        rw [← Assoc.get?_map_snd, ← hargs]
        rfl

/-- A nested message is read back as its role and its text. -/
theorem readsMessage_sent (hroles : P.RolesRoundTrip) {message : Message T} {item : Json}
    {text : String} (hitem : item = promptMessageValue P message.role text) :
    ReadsMessage P item message.role text := by
  subst hitem
  have hrole : (promptMessageValue P message.role text).get? "role" =
      some (P.roleToValue message.role) := Json.get?_ofFields _ _
  have hinner : (promptMessageValue P message.role text).get? "content" =
      some (Json.ofFields [("type", .string "text"), ("text", .string text)]) :=
    Json.get?_ofFields _ _
  exact ⟨⟨_, hrole, hroles _⟩, _, hinner,
    Json.get?_ofFields "type" [("type", .string "text"), ("text", .string text)],
    Json.get?_ofFields "text" [("type", .string "text"), ("text", .string text)]⟩

theorem readsMessages_sent (hroles : P.RolesRoundTrip) {messages : List (Message T)}
    {items : List Json} (h : List.Forall₂ (SendsMessage P) messages items) :
    ReadsMessages P items messages messages := by
  induction h with
  | nil => exact .nil []
  | @cons message item messages items hsends _ ih =>
    obtain ⟨text, hcontent, hitem⟩ := hsends
    have hread := readsMessage_sent hroles hitem
    obtain ⟨schemaVersion, role, content, channel⟩ := message
    obtain rfl : content = [.text text] := hcontent
    exact .cons hread ih

theorem readsResult_sent (hroles : P.RolesRoundTrip) {messages : List (Message T)}
    {items : List Json} (h : List.Forall₂ (SendsMessage P) messages items) :
    ReadsResult P (promptValue items) messages messages := by
  refine ⟨fun v hv => ?_, items, ?_, readsMessages_sent hroles h⟩
  · rw [promptValue, Json.get?_ofFields] at hv
    exact (Option.some.inj hv).symm
  · rw [promptValue, Json.get?_ofFields]
    rfl

theorem readsContent_sent (content : Resource T) :
    ReadsContent content content.uri (resourceValue content) content.content content.mimeType := by
  have hget : ∀ key, (resourceValue content).get? key = _ := fun key =>
    Json.get?_ofFields key [("type", .string "resource"),
      ("id", .string content.resourceRequestId), ("uri", .string content.uri),
      ("mime_type", nullable .string content.mimeType),
      ("text", nullable .string content.content)]
  refine .object (fun v hv => ?_) (fun v hv => ?_) (fun v hv => .inl ?_) ?_ ?_
  · rw [← Json.get?_object] at hv
    cases (hget "blob").symm.trans hv
  · rw [← Json.get?_object] at hv
    exact (Option.some.inj ((hget "id").symm.trans hv)).symm
  · rw [← Json.get?_object] at hv
    exact (Option.some.inj ((hget "uri").symm.trans hv)).symm
  · rw [← Json.get?_object]
    exact congrArg (Option.getD · .null) (hget "text")
  · rw [← Json.get?_object]
    exact congrArg (Option.getD · _) (hget "mime_type")

theorem rewrittenSize_self (content : Resource T) :
    rewrittenSize content content.content = content.sizeBytes := if_neg (by simp)

/-- The part comes back from its own payload, unless its flag lags. -/
theorem applyPart_sent_iff (hroles : P.RolesRoundTrip) {s : ShimmedPayload T} {shim : Shim}
    {part : ContentPart T} {json : Json} (h : Sends P shim part json) :
    (∃ new, s.applyPart P json shim part = .ok new ∧ new.Same part) ↔ ¬FlagLags part := by
  cases h with
  | @toolCall content _ =>
    obtain ⟨q, hread, hname, hargs, hheaders⟩ := Legacy.ToolPreInvokePayload.fromValue_toValue
      ⟨content.name, some content.arguments, none⟩
    refine iff_of_true ⟨_, applyPart_toolCall.mpr
      ⟨q, hread, isEmpty_of_sameArgs_none hheaders, rfl⟩, ?_⟩ not_false
    rw [hname]
    exact .toolCall content _ (getD_same hargs)
  | @toolResult content herror =>
    have hread := Legacy.ToolPostInvokePayload.fromValue_toValue
      ⟨content.toolName, content.content⟩
    constructor
    · rintro ⟨new, hnew, hsame⟩ ⟨hflag, hsays⟩
      obtain ⟨legacy, hlegacy, -, rfl⟩ := applyPart_toolResult.mp hnew
      obtain rfl := Option.some.inj (hread.symm.trans hlegacy)
      have hset : (content.isError || resultSaysError content.content) = content.isError :=
        congrArg ToolResult.isError (same_toolResult_iff.mp hsame)
      rw [hflag, hsays] at hset
      cases hset
    · intro hnot
      refine ⟨_, applyPart_toolResult.mpr ⟨_, hread, herror, rfl⟩, ?_⟩
      have hflag : (content.isError || resultSaysError content.content) = content.isError := by
        cases hcase : content.isError with
        | true => rfl
        | false =>
          rw [Bool.false_or]
          exact Bool.eq_false_iff.mpr fun hsays => hnot ⟨hcase, hsays⟩
      rw [hflag]
      exact .refl _
  | @promptRequest content args _ hargs =>
    obtain ⟨q, hread, hname, hsame⟩ := Legacy.PromptPreFetchPayload.fromValue_toValue
      ⟨content.name, some (HashMap.ofList args)⟩
    refine iff_of_true ⟨_, applyPart_promptRequest.mpr ⟨q, hread, rfl⟩, ?_⟩ not_false
    rw [hname]
    exact .promptRequest content _ (stringArgs_same hargs (getD_same hsame))
  | @promptResult _ promptName _ _ _ items _ _ hmessages =>
    have hread := Legacy.PromptPostFetchPayload.fromValue_toValue ⟨promptName, promptValue items⟩
    exact iff_of_true ⟨_, applyPart_promptResult.mpr
      ⟨_, _, hread, readsResult_sent hroles hmessages, rfl⟩, .refl _⟩ not_false
  | @resourcePre content _ =>
    obtain ⟨q, hread, huri, hmetadata⟩ :=
      Legacy.ResourcePreFetchPayload.fromValue_toValue ⟨content.uri, none⟩
    have hpre : s.resourcePreUri P (Legacy.ResourcePreFetchPayload.toValue ⟨content.uri, none⟩) =
        .ok content.uri :=
      resourcePreUri_eq_ok_iff.mpr ⟨q, hread, isEmpty_of_sameArgs_none hmetadata, huri⟩
    exact iff_of_true ⟨_, applyPart_resourcePre.mpr ⟨_, hpre, fun _ => rfl, rfl⟩, .refl _⟩
      not_false
  | resourceRef content =>
    obtain ⟨q, hread, huri, hmetadata⟩ :=
      Legacy.ResourcePreFetchPayload.fromValue_toValue ⟨content.uri, none⟩
    have hpre : s.resourcePreUri P (Legacy.ResourcePreFetchPayload.toValue ⟨content.uri, none⟩) =
        .ok content.uri :=
      resourcePreUri_eq_ok_iff.mpr ⟨q, hread, isEmpty_of_sameArgs_none hmetadata, huri⟩
    exact iff_of_true ⟨_, applyPart_resourceRef.mpr ⟨_, hpre, rfl⟩, .refl _⟩ not_false
  | @resourcePost content _ _ =>
    have hread := Legacy.ResourcePostFetchPayload.fromValue_toValue
      ⟨content.uri, resourceValue content⟩
    refine iff_of_true ⟨_, applyPart_resourcePost.mpr
      ⟨_, _, _, hread, readsContent_sent content, rfl⟩, ?_⟩ not_false
    rw [rewrittenSize_self]
    exact .refl _

/-! ## The round trip -/

/-- The message holds a tool result whose flag lags behind its content. -/
def Unflagged (hookName : String) (m : MessagePayload T) : Prop :=
  hookName = hookCmfToolPostInvoke ∧ ∃ content, .toolResult content ∈ m.message.content ∧
    content.isError = false ∧ resultSaysError content.content = true

theorem unflagged_iff {hookName : String} {m : MessagePayload T} {s : ShimmedPayload T}
    {content : ContentPart T} (h : Translates P hookName m s content) :
    Unflagged hookName m ↔ FlagLags content := by
  have hshim := h.shim
  constructor
  · rintro ⟨rfl, result, hmem, hlags⟩
    have hpost : s.shim = .toolPostInvoke := (Option.some.inj hshim).symm
    obtain ⟨i, hi⟩ := List.mem_iff_getElem?.mp hmem
    obtain rfl := (h.selected hi).mp (by rw [hpost]; rfl)
    rw [h.part] at hi
    exact Option.some.inj hi ▸ hlags
  · intro hlags
    cases content with
    | toolResult result =>
      have hpost : s.shim = .toolPostInvoke := by
        have haccepts := h.accepts
        cases hcase : s.shim <;> rw [hcase] at haccepts <;> first | rfl | cases haccepts
      refine ⟨?_, result, List.mem_of_getElem? h.part, hlags⟩
      rw [hpost] at hshim
      exact forHook_eq_toolPostInvoke hshim
    | text _ | thinking _ | toolCall _ | resource _ | resourceRef _ | promptRequest _
    | promptResult _ | image _ | video _ | audio _ | document _ => exact hlags.elim

/-- **The shim's own payload gives back the message exactly when its error flag does not lag.** -/
theorem echo_identity_iff (hroles : P.RolesRoundTrip) {hookName : String} {m : MessagePayload T}
    {s : ShimmedPayload T} (h : toLegacy P hookName (.message m) = .ok s) :
    (∃ p, s.applyModified P s.json = .ok p ∧ p.Same m) ↔ ¬Unflagged hookName m := by
  obtain ⟨content, ht⟩ := toLegacy_eq_ok_iff.mp h
  rw [unflagged_iff ht, ← applyPart_sent_iff hroles (s := s) ht.json]
  constructor
  · rintro ⟨p, hp, hsame⟩
    obtain ⟨new, hnew, rfl⟩ := (applyModified_eq_ok_iff ht).mp hp
    exact ⟨new, hnew, (forall₂_set_iff ht.part).mp hsame.content⟩
  · rintro ⟨new, hnew, hsame⟩
    refine ⟨_, (applyModified_eq_ok_iff ht).mpr ⟨new, hnew, rfl⟩, rfl, rfl, rfl, ?_⟩
    exact (forall₂_set_iff ht.part).mpr hsame

theorem echo_identity_iff_tool_call : ∃ s,
    toLegacy Plain.engine hookCmfToolPreInvoke (.message (Plain.toolCall "search")) = .ok s ∧
    ∃ p, s.applyModified Plain.engine s.json = .ok p ∧ p.Same (Plain.toolCall "search") := by
  have hsent : toLegacy Plain.engine hookCmfToolPreInvoke (.message (Plain.toolCall "search")) =
      .ok _ := rfl
  refine ⟨_, hsent, (echo_identity_iff Plain.plain_rolesRoundTrip hsent).mpr ?_⟩
  rintro ⟨hhook, -⟩
  exact absurd hhook (by decide)

/-- **A success whose content says `isError` comes back as an error.** -/
theorem echo_sets_error :
    ∃ s p, toLegacy Plain.engine hookCmfToolPostInvoke
        (.message (Plain.toolResult (.object [("isError", .bool true)]))) = .ok s ∧
      s.applyModified Plain.engine s.json = .ok p ∧
      ¬p.Same (Plain.toolResult (.object [("isError", .bool true)])) := by
  refine ⟨_, _, rfl, rfl, fun hsame => ?_⟩
  cases hsame.content with
  | cons hpart _ => cases hpart

end Cpex.Host
