import Cpex.Infra.Except
import Cpex.Host.CmfShim

/-!
# What the shim translates

When a message goes out as a legacy payload, and of which of its parts.

* `Translates.selected` — the part a hook selects is the only one it accepts
* `partToLegacy_eq_ok_iff` — what a part goes out as
* `toLegacy_eq_ok_iff` — a message is accepted exactly when its part is and, on a post hook, its
  other parts are blank
* `applyModified_eq_ok_iff` — what is written back goes to that part
* `applyPart_toolCall` and its siblings — what each hook writes onto it
-/

namespace Cpex.Host

open Cpex.Infra

variable {T : Types} {P : Ppe T}

/-! ## The selected part -/

theorem mem_candidates {shim : Shim} {content : List (ContentPart T)} {i : Nat} :
    i ∈ candidates shim content ↔ ∃ part, content[i]? = some part ∧ shim.accepts part = true := by
  unfold candidates
  rw [List.mem_map]
  constructor
  · rintro ⟨⟨part, j⟩, hmem, rfl⟩
    obtain ⟨hzip, haccepts⟩ := List.mem_filter.mp hmem
    exact ⟨part, List.mem_zipIdx_iff_getElem?.mp hzip, haccepts⟩
  · rintro ⟨part, hpart, haccepts⟩
    exact ⟨(part, i), List.mem_filter.mpr ⟨List.mem_zipIdx_iff_getElem?.mpr hpart, haccepts⟩, rfl⟩

/-- Which parts a hook selects depends on their kinds alone. -/
theorem candidates_eq_map (shim : Shim) (content : List (ContentPart T)) :
    candidates shim content =
      (((content.map shim.accepts).zipIdx.filter fun e => e.1).map Prod.snd) := by
  unfold candidates
  rw [List.zipIdx_map, List.filter_map, List.map_map]
  rfl

theorem candidates_set {shim : Shim} {content : List (ContentPart T)} {i : Nat}
    {part new : ContentPart T} (hpart : content[i]? = some part)
    (hkind : shim.accepts new = shim.accepts part) :
    candidates shim (content.set i new) = candidates shim content := by
  have hsame : (content.map shim.accepts).set i (shim.accepts new) = content.map shim.accepts := by
    have hmap : (content.map shim.accepts)[i]? = some (shim.accepts part) := by
      rw [List.getElem?_map, hpart]
      rfl
    refine List.ext_getElem? fun j => ?_
    rw [List.getElem?_set, hkind]
    by_cases hij : i = j
    · subst hij
      have hlt := (List.getElem?_eq_some_iff.mp hmap).1
      rw [if_pos rfl, if_pos hlt, hmap]
    · rw [if_neg hij]
  rw [candidates_eq_map, List.map_set, hsame, ← candidates_eq_map]

/-! ## What each hook sends -/

/-- A prompt's arguments as text, under the keys they had. -/
theorem promptArguments_eq_ok_iff {err : String → HostError} : ∀ {entries : List (String × Json)}
    {args : List (String × String)}, promptArguments err entries = .ok args ↔
      entries = args.map fun e => (e.1, .string e.2)
  | [], args => by
    constructor
    · intro h
      obtain rfl := Except.ok.inj h
      rfl
    · intro h
      rw [List.map_eq_nil_iff.mp h.symm]
      rfl
  | (key, v) :: rest, args => by
    cases v with
    | string t =>
      constructor
      · intro h
        obtain ⟨rest', hrest, h⟩ := bind_eq_ok.mp h
        obtain rfl := Except.ok.inj h
        rw [List.map_cons, ← promptArguments_eq_ok_iff.mp hrest]
      · intro h
        cases args with
        | nil => cases h
        | cons e args =>
          obtain ⟨hhead, htail⟩ := List.cons.inj h
          obtain ⟨rfl, hvalue⟩ := Prod.mk.inj hhead
          obtain rfl := Json.string.inj hvalue
          exact bind_eq_ok.mpr ⟨args, promptArguments_eq_ok_iff.mpr htail, rfl⟩
    | null | bool _ | number _ | array _ | object _ =>
      constructor
      · intro h
        cases h
      · intro h
        cases args with
        | nil => cases h
        | cons e args => cases (Prod.mk.inj (List.cons.inj h).1).2

/-- The legacy form of a nested message. -/
def promptMessageValue (P : Ppe T) (role : T.Role) (text : String) : Json :=
  Json.ofFields [("role", P.roleToValue role),
    ("content", Json.ofFields [("type", .string "text"), ("text", .string text)])]

/-- A nested message of one text part goes out as its role and its text. -/
def SendsMessage (P : Ppe T) (message : Message T) (item : Json) : Prop :=
  ∃ text, message.content = [.text text] ∧ item = promptMessageValue P message.role text

theorem singleText_eq_some {message : Message T} {text : String} :
    singleText message = some text ↔ message.content = [.text text] := by
  obtain ⟨schemaVersion, role, content, channel⟩ := message
  unfold singleText
  split
  · next heq =>
    obtain ⟨-, -, rfl, -⟩ := Message.mk.inj heq
    simp [Message.content]
  · next hnot =>
    constructor
    · intro h
      cases h
    · rintro (rfl : content = _)
      exact absurd rfl (hnot _ _ _ _)

theorem promptMessageToValue_eq_ok_iff {err : String → HostError} {i : Nat} {message : Message T}
    {item : Json} :
    promptMessageToValue P err i message = .ok item ↔ SendsMessage P message item := by
  unfold promptMessageToValue
  constructor
  · intro h
    split at h
    · next text htext =>
      obtain rfl := Except.ok.inj h
      exact ⟨text, singleText_eq_some.mp htext, rfl⟩
    · cases h
  · rintro ⟨text, htext, rfl⟩
    rw [singleText_eq_some.mpr htext]
    rfl

theorem promptMessagesToValue_eq_ok_iff {err : String → HostError} : ∀ {i : Nat}
    {messages : List (Message T)} {items : List Json},
    promptMessagesToValue P err i messages = .ok items ↔
      List.Forall₂ (SendsMessage P) messages items
  | i, [], items => by
    constructor
    · intro h
      obtain rfl := Except.ok.inj h
      exact .nil
    · rintro ⟨⟩
      rfl
  | i, message :: rest, items => by
    constructor
    · intro h
      obtain ⟨item, hitem, h⟩ := bind_eq_ok.mp h
      obtain ⟨items', hitems, h⟩ := bind_eq_ok.mp h
      obtain rfl := Except.ok.inj h
      exact .cons (promptMessageToValue_eq_ok_iff.mp hitem)
        (promptMessagesToValue_eq_ok_iff.mp hitems)
    · intro h
      cases h with
      | cons hitem hitems =>
        refine bind_eq_ok.mpr ⟨_, promptMessageToValue_eq_ok_iff.mpr hitem, ?_⟩
        exact bind_eq_ok.mpr ⟨_, promptMessagesToValue_eq_ok_iff.mpr hitems, rfl⟩

/-- The legacy content of a resource. -/
def resourceValue (content : Resource T) : Json :=
  Json.ofFields [("type", .string "resource"), ("id", .string content.resourceRequestId),
    ("uri", .string content.uri), ("mime_type", Serde.nullable .string content.mimeType),
    ("text", Serde.nullable .string content.content)]

/-- The legacy result of a prompt. -/
def promptValue (items : List Json) : Json :=
  Json.ofFields [("messages", .array items), ("description", .null)]

/-- The legacy payload of a part, and what the part must not hold for it to be sent. -/
inductive Sends (P : Ppe T) : Shim → ContentPart T → Json → Prop
  | toolCall {content : ToolCall} (hnamespace : isSet content.namespace = false) :
      Sends P .toolPreInvoke (.toolCall content)
        (Legacy.ToolPreInvokePayload.toValue ⟨content.name, some content.arguments, none⟩)
  | toolResult {content : ToolResult}
      (herror : content.isError = true → resultSaysError content.content = true) :
      Sends P .toolPostInvoke (.toolResult content)
        (Legacy.ToolPostInvokePayload.toValue ⟨content.toolName, content.content⟩)
  | promptRequest {content : PromptRequest} {args : List (String × String)}
      (hserver : isSet content.serverId = false)
      (hargs : content.arguments.entries = args.map fun e => (e.1, .string e.2)) :
      Sends P .promptPreFetch (.promptRequest content)
        (Legacy.PromptPreFetchPayload.toValue ⟨content.name, some (HashMap.ofList args)⟩)
  | promptResult {promptRequestId promptName : String} {messages : List (Message T)}
      {rendered errorMessage : Option String} {items : List Json}
      (hrendered : isSet rendered = false) (herror : isSet errorMessage = false)
      (hmessages : List.Forall₂ (SendsMessage P) messages items) :
      Sends P .promptPostFetch
        (.promptResult (.mk promptRequestId promptName messages rendered false errorMessage))
        (Legacy.PromptPostFetchPayload.toValue ⟨promptName, promptValue items⟩)
  | resourcePre {content : Resource T} (hversion : isSet content.version = false) :
      Sends P .resourcePreFetch (.resource content)
        (Legacy.ResourcePreFetchPayload.toValue ⟨content.uri, none⟩)
  | resourceRef (content : ResourceReference T) :
      Sends P .resourcePreFetch (.resourceRef content)
        (Legacy.ResourcePreFetchPayload.toValue ⟨content.uri, none⟩)
  | resourcePost {content : Resource T} (hversion : isSet content.version = false)
      (hblob : content.blob = none) :
      Sends P .resourcePostFetch (.resource content)
        (Legacy.ResourcePostFetchPayload.toValue ⟨content.uri, resourceValue content⟩)

theorem refuseResourceVersion_eq_ok_iff {err : String → HostError} {content : Resource T}
    {u : Unit} : refuseResourceVersion err content = .ok u ↔ isSet content.version = false := by
  unfold refuseResourceVersion
  cases isSet content.version <;> simp

/-- **What a part goes out as, hook by hook.** -/
theorem partToLegacy_eq_ok_iff {err : String → HostError} {shim : Shim} {part : ContentPart T}
    {json : Json} : partToLegacy P err shim part = .ok json ↔ Sends P shim part json := by
  constructor
  · intro h
    unfold partToLegacy at h
    split at h
    · split at h
      · cases h
      · next hnamespace =>
        obtain rfl := Except.ok.inj h
        exact .toolCall (by simpa using hnamespace)
    · split at h
      · cases h
      · next herror =>
        obtain rfl := Except.ok.inj h
        exact .toolResult fun he => by simpa [he] using herror
    · split at h
      · cases h
      · next hserver =>
        obtain ⟨args, hargs, h⟩ := bind_eq_ok.mp h
        obtain rfl := Except.ok.inj h
        exact .promptRequest (by simpa using hserver) (promptArguments_eq_ok_iff.mp hargs)
    · split at h
      · cases h
      · next hrendered =>
        split at h
        · cases h
        · next hmessage =>
          split at h
          · cases h
          · next herror =>
            obtain ⟨items, hitems, h⟩ := bind_eq_ok.mp h
            obtain rfl := Except.ok.inj h
            rw [Bool.not_eq_true] at hrendered hmessage herror
            subst herror
            exact .promptResult hrendered hmessage (promptMessagesToValue_eq_ok_iff.mp hitems)
    · obtain ⟨_, hversion, h⟩ := bind_eq_ok.mp h
      obtain rfl := Except.ok.inj h
      exact .resourcePre (refuseResourceVersion_eq_ok_iff.mp hversion)
    · obtain rfl := Except.ok.inj h
      exact .resourceRef _
    · obtain ⟨_, hversion, h⟩ := bind_eq_ok.mp h
      split at h
      · cases h
      · next hblob =>
        obtain rfl := Except.ok.inj h
        exact .resourcePost (refuseResourceVersion_eq_ok_iff.mp hversion) (by simpa using hblob)
    · cases h
    · cases h
  · rintro (hnamespace | herror | ⟨hserver, hargs⟩ | ⟨hrendered, hmessage, hitems⟩ | hversion | _ |
      ⟨hversion, hblob⟩)
    · exact if_neg (by simp [hnamespace])
    · exact if_neg (by simpa using herror)
    · refine (if_neg (by simp [hserver])).trans ?_
      exact bind_eq_ok.mpr ⟨_, promptArguments_eq_ok_iff.mpr hargs, rfl⟩
    · refine (if_neg (by simp [hrendered])).trans ((if_neg (by simp [hmessage])).trans ?_)
      exact bind_eq_ok.mpr ⟨_, promptMessagesToValue_eq_ok_iff.mpr hitems, rfl⟩
    · exact bind_eq_ok.mpr ⟨(), refuseResourceVersion_eq_ok_iff.mpr hversion, rfl⟩
    · rfl
    · refine bind_eq_ok.mpr ⟨(), refuseResourceVersion_eq_ok_iff.mpr hversion, ?_⟩
      rw [hblob]
      rfl

/-- One hook maps to the legacy tool result. -/
theorem forHook_eq_toolPostInvoke {hookName : String}
    (h : Shim.forHook hookName = some .toolPostInvoke) : hookName = hookCmfToolPostInvoke := by
  obtain ⟨e, hfind, hsnd⟩ := Option.map_eq_some_iff.mp h
  have hname : e.1 = hookName := by simpa using List.find?_some hfind
  have hmem := List.mem_of_find?_eq_some hfind
  simp only [shimmedHooks, List.mem_cons, List.not_mem_nil, or_false] at hmem
  rcases hmem with rfl | rfl | rfl | rfl | rfl | rfl
  · cases hsnd
  · exact hname.symm
  · cases hsnd
  · cases hsnd
  · cases hsnd
  · cases hsnd

/-! ## Outbound -/

/-- The shim sends `m` as the legacy payload of its part `content`. -/
structure Translates (P : Ppe T) (hookName : String) (m : MessagePayload T)
    (s : ShimmedPayload T) (content : ContentPart T) : Prop where
  shim : Shim.forHook hookName = some s.shim
  name : s.hookName = hookName
  original : s.original = m
  candidates : candidates s.shim m.message.content = [s.part]
  part : m.message.content[s.part]? = some content
  siblings : s.shim.isPost = true → ∀ i part, m.message.content[i]? = some part → i ≠ s.part →
    carriesContent part = false
  json : Sends P s.shim content s.json

/-- **A message is accepted exactly when its one part is and its siblings may be left out.** -/
theorem toLegacy_eq_ok_iff {hookName : String} {m : MessagePayload T} {s : ShimmedPayload T} :
    toLegacy P hookName (.message m) = .ok s ↔ ∃ content, Translates P hookName m s content := by
  unfold toLegacy
  constructor
  · intro h
    split at h
    · cases h
    · next shim hshim =>
      dsimp only at h
      split at h
      · next part hcandidates =>
        split at h
        · cases h
        · next hnone =>
          split at h
          · next content hcontent =>
            obtain ⟨json, hjson, h⟩ := bind_eq_ok.mp h
            obtain rfl := Except.ok.inj h
            refine ⟨content, hshim, rfl, rfl, hcandidates, hcontent, fun hpost i p hp hne => ?_,
              partToLegacy_eq_ok_iff.mp hjson⟩
            have hnot := List.find?_eq_none.mp hnone (p, i) (List.mem_zipIdx_iff_getElem?.mpr hp)
            simpa [hpost, hne] using hnot
          · cases h
      · cases h
      · cases h
  · rintro ⟨content, ht⟩
    have hnone : (m.message.content.zipIdx.find? fun e =>
        s.shim.isPost && e.2 ≠ s.part && carriesContent e.1) = none := by
      rw [List.find?_eq_none]
      rintro ⟨p, i⟩ hmem htrue
      simp only [Bool.and_eq_true, decide_eq_true_eq] at htrue
      obtain ⟨⟨hpost, hne⟩, hcarries⟩ := htrue
      have hblank := ht.siblings hpost i p (List.mem_zipIdx_iff_getElem?.mp hmem) hne
      rw [hblank] at hcarries
      cases hcarries
    rw [ht.shim]
    dsimp only
    rw [ht.candidates]
    dsimp only
    rw [hnone]
    dsimp only
    rw [ht.part]
    refine bind_eq_ok.mpr ⟨_, partToLegacy_eq_ok_iff.mpr ht.json, ?_⟩
    rw [← ht.original, ← ht.name]
    rfl

namespace Translates

variable {hookName : String} {m : MessagePayload T} {s : ShimmedPayload T}
  {content : ContentPart T}

theorem accepts (h : Translates P hookName m s content) : s.shim.accepts content = true := by
  have hmem : s.part ∈ Host.candidates s.shim m.message.content := by
    rw [h.candidates]
    exact List.mem_singleton_self _
  obtain ⟨part, hpart, haccepts⟩ := mem_candidates.mp hmem
  rw [h.part] at hpart
  exact Option.some.inj hpart ▸ haccepts

/-- The hook selects no other part. -/
theorem selected (h : Translates P hookName m s content) {i : Nat} {part : ContentPart T}
    (hpart : m.message.content[i]? = some part) : s.shim.accepts part = true ↔ i = s.part := by
  constructor
  · intro haccepts
    have hmem := mem_candidates.mpr ⟨part, hpart, haccepts⟩
    rw [h.candidates] at hmem
    exact List.mem_singleton.mp hmem
  · rintro rfl
    rw [h.part] at hpart
    exact Option.some.inj hpart ▸ h.accepts

end Translates

/-! ## Inbound -/

/-- **What is written back goes to the selected part.** -/
theorem applyModified_eq_ok_iff {hookName : String} {m p : MessagePayload T}
    {s : ShimmedPayload T} {content : ContentPart T} (h : Translates P hookName m s content)
    {modified : Json} : s.applyModified P modified = .ok p ↔
      ∃ new, s.applyPart P modified s.shim content = .ok new ∧
        p = ⟨.mk m.message.schemaVersion m.message.role (m.message.content.set s.part new)
          m.message.channel⟩ := by
  obtain ⟨⟨schemaVersion, role, parts, channel⟩⟩ := m
  have hparts : parts[s.part]? = some content := h.part
  unfold ShimmedPayload.applyModified
  rw [h.original]
  dsimp only
  rw [hparts]
  constructor
  · intro happly
    obtain ⟨new, hnew, hp⟩ := bind_eq_ok.mp happly
    exact ⟨new, hnew, (Except.ok.inj hp).symm⟩
  · rintro ⟨new, hnew, rfl⟩
    exact bind_eq_ok.mpr ⟨new, hnew, rfl⟩

/-- A payload the hook cannot carry is one that holds an entry. -/
theorem any_not_isEmpty {ν : Type} {m : Option (HashMap String ν)} :
    (m.any fun h => !h.isEmpty) = false ↔ ∀ h, m = some h → h.isEmpty = true := by
  cases m with
  | none => simp
  | some h => simp

theorem parse_eq_ok_iff {α : Type} {s : ShimmedPayload T} {expected : String}
    {fromValue : Json → Option α} {modified : Json} {legacy : α} :
    s.parse P expected fromValue modified = .ok legacy ↔ fromValue modified = some legacy := by
  unfold ShimmedPayload.parse
  cases fromValue modified with
  | none => simp
  | some a => simp

/-! ## What each hook writes back -/

section

variable {s : ShimmedPayload T} {modified : Json} {new : ContentPart T}

theorem applyPart_toolCall {content : ToolCall} :
    s.applyPart P modified .toolPreInvoke (.toolCall content) = .ok new ↔
      ∃ legacy, Legacy.ToolPreInvokePayload.fromValue modified = some legacy ∧
        (∀ h, legacy.headers = some h → h.isEmpty = true) ∧
        new = .toolCall { content with
          name := legacy.name
          arguments := legacy.args.getD HashMap.empty } := by
  constructor
  · intro h
    obtain ⟨legacy, hlegacy, h⟩ := bind_eq_ok.mp h
    refine ⟨legacy, parse_eq_ok_iff.mp hlegacy, ?_⟩
    split at h
    · cases h
    · next hheaders =>
      exact ⟨any_not_isEmpty.mp (by simpa using hheaders), (Except.ok.inj h).symm⟩
  · rintro ⟨legacy, hlegacy, hheaders, rfl⟩
    refine bind_eq_ok.mpr ⟨legacy, parse_eq_ok_iff.mpr hlegacy, ?_⟩
    rw [any_not_isEmpty.mpr hheaders]
    rfl

theorem applyPart_toolResult {content : ToolResult} :
    s.applyPart P modified .toolPostInvoke (.toolResult content) = .ok new ↔
      ∃ legacy, Legacy.ToolPostInvokePayload.fromValue modified = some legacy ∧
        (content.isError = true → resultSaysError legacy.result = true) ∧
        new = .toolResult { content with
          isError := content.isError || resultSaysError legacy.result
          toolName := legacy.name
          content := legacy.result } := by
  constructor
  · intro h
    obtain ⟨legacy, hlegacy, h⟩ := bind_eq_ok.mp h
    refine ⟨legacy, parse_eq_ok_iff.mp hlegacy, ?_⟩
    split at h
    · cases h
    · next hcleared =>
      exact ⟨fun herror => by simpa [herror] using hcleared, (Except.ok.inj h).symm⟩
  · rintro ⟨legacy, hlegacy, hcleared, rfl⟩
    refine bind_eq_ok.mpr ⟨legacy, parse_eq_ok_iff.mpr hlegacy, ?_⟩
    rw [if_neg (by simpa using hcleared)]
    rfl

theorem applyPart_promptRequest {content : PromptRequest} :
    s.applyPart P modified .promptPreFetch (.promptRequest content) = .ok new ↔
      ∃ legacy, Legacy.PromptPreFetchPayload.fromValue modified = some legacy ∧
        new = .promptRequest { content with
          name := legacy.promptId
          arguments := HashMap.ofList
            ((legacy.args.getD HashMap.empty).entries.map fun e => (e.1, .string e.2)) } := by
  constructor
  · intro h
    obtain ⟨legacy, hlegacy, h⟩ := bind_eq_ok.mp h
    exact ⟨legacy, parse_eq_ok_iff.mp hlegacy, (Except.ok.inj h).symm⟩
  · rintro ⟨legacy, hlegacy, rfl⟩
    exact bind_eq_ok.mpr ⟨legacy, parse_eq_ok_iff.mpr hlegacy, rfl⟩

theorem resourcePreUri_eq_ok_iff {uri : String} :
    s.resourcePreUri P modified = .ok uri ↔
      ∃ legacy, Legacy.ResourcePreFetchPayload.fromValue modified = some legacy ∧
        (∀ m, legacy.metadata = some m → m.isEmpty = true) ∧ legacy.uri = uri := by
  constructor
  · intro h
    obtain ⟨legacy, hlegacy, h⟩ := bind_eq_ok.mp h
    refine ⟨legacy, parse_eq_ok_iff.mp hlegacy, ?_⟩
    split at h
    · cases h
    · next hmetadata =>
      exact ⟨any_not_isEmpty.mp (by simpa using hmetadata), Except.ok.inj h⟩
  · rintro ⟨legacy, hlegacy, hmetadata, rfl⟩
    refine bind_eq_ok.mpr ⟨legacy, parse_eq_ok_iff.mpr hlegacy, ?_⟩
    rw [any_not_isEmpty.mpr hmetadata]
    rfl

/-- A part whose other fields describe the URI it has. -/
def DescribesUri (P : Ppe T) (content : Resource T) : Prop :=
  P.isEmbedded content = true ∨ content.mimeType.isSome = true ∨ content.sizeBytes.isSome = true

theorem applyPart_resourcePre {content : Resource T} :
    s.applyPart P modified .resourcePreFetch (.resource content) = .ok new ↔
      ∃ uri, s.resourcePreUri P modified = .ok uri ∧
        (DescribesUri P content → uri = content.uri) ∧ new = .resource { content with uri } := by
  constructor
  · intro h
    obtain ⟨uri, huri, h⟩ := bind_eq_ok.mp h
    refine ⟨uri, huri, ?_⟩
    split at h
    · cases h
    · next hkeeps =>
      refine ⟨fun hdescribes => ?_, (Except.ok.inj h).symm⟩
      by_contra hne
      have hkept : P.isEmbedded content = true ∨ content.mimeType.isSome = true ∨
          content.sizeBytes.isSome = true := hdescribes
      exact hkeeps (by simpa [hne, or_assoc] using hkept)
  · rintro ⟨uri, huri, hdescribes, rfl⟩
    refine bind_eq_ok.mpr ⟨uri, huri, ?_⟩
    rw [if_neg]
    · rfl
    · intro hkeeps
      simp only [ne_eq, decide_not, Bool.and_eq_true, Bool.not_eq_eq_eq_not, Bool.not_true,
        decide_eq_false_iff_not, Bool.or_eq_true, or_assoc] at hkeeps
      exact hkeeps.1 (hdescribes hkeeps.2)

theorem applyPart_resourceRef {content : ResourceReference T} :
    s.applyPart P modified .resourcePreFetch (.resourceRef content) = .ok new ↔
      ∃ uri, s.resourcePreUri P modified = .ok uri ∧ new = .resourceRef { content with uri } := by
  constructor
  · intro h
    obtain ⟨uri, huri, h⟩ := bind_eq_ok.mp h
    exact ⟨uri, huri, (Except.ok.inj h).symm⟩
  · rintro ⟨uri, huri, rfl⟩
    exact bind_eq_ok.mpr ⟨uri, huri, rfl⟩

/-- One message of a legacy prompt result: its role and its text. -/
structure ReadsMessage (P : Ppe T) (item : Json) (role : T.Role) (text : String) : Prop where
  role : ∃ v, item.get? "role" = some v ∧ P.roleFromValue v = .ok role
  content : ∃ fields, item.get? "content" = some (.object fields) ∧
    Assoc.get? "type" fields = some (.string "text") ∧
    Assoc.get? "text" fields = some (.string text)

theorem messageFromLegacy_eq_ok_iff {i : Nat} {item : Json} {role : T.Role} {text : String} :
    ShimmedPayload.messageFromLegacy P s i item = .ok (role, text) ↔
      ReadsMessage P item role text := by
  have hrole : ∀ r, ((item.get? "role").bind fun r => (P.roleFromValue r).toOption) = some r ↔
      ∃ v, item.get? "role" = some v ∧ P.roleFromValue v = .ok r := fun r => by
    rw [Option.bind_eq_some_iff]
    refine exists_congr fun v => and_congr_right fun _ => ?_
    cases P.roleFromValue v <;> simp [Except.toOption]
  have htext : ∀ t, (((item.get? "content").bind Json.asObject).bind fun c =>
      if (Assoc.get? "type" c).bind Json.asStr = some "text" then
        (Assoc.get? "text" c).bind Json.asStr else none) = some t ↔
      ∃ fields, item.get? "content" = some (.object fields) ∧
        Assoc.get? "type" fields = some (.string "text") ∧
        Assoc.get? "text" fields = some (.string t) := fun t => by
    rw [Option.bind_eq_some_iff]
    refine exists_congr fun fields => and_congr ?_ ?_
    · rw [Option.bind_eq_some_iff]
      constructor
      · rintro ⟨v, hv, hfields⟩
        cases v with
        | object f => exact Option.some.inj hfields ▸ hv
        | null | bool _ | number _ | string _ | array _ => cases hfields
      · intro hv
        exact ⟨_, hv, rfl⟩
    · split
      · next htype =>
        rw [Json.bind_asStr_eq_some, and_iff_right (Json.bind_asStr_eq_some.mp htype)]
      · next htype =>
        rw [Json.bind_asStr_eq_some] at htype
        simp [htype]
  unfold ShimmedPayload.messageFromLegacy
  dsimp only
  constructor
  · intro h
    split at h
    · next r hr =>
      rw [pure_eq_ok, ok_bind] at h
      split at h
      · next t ht =>
        obtain ⟨rfl, rfl⟩ := Prod.mk.inj (Except.ok.inj h)
        exact ⟨(hrole _).mp hr, (htext _).mp ht⟩
      · cases h
    · cases h
  · rintro ⟨hr, ht⟩
    rw [(hrole role).mpr hr, (htext text).mpr ht]
    rfl

/-- What a nested message keeps of the original one at its place. -/
def keptMessage (P : Ppe T) (role : T.Role) (original : List (Message T)) : Message T :=
  original.head?.getD (P.textMessage role "")

/-- The nested messages a legacy list stands for, over the original ones. -/
inductive ReadsMessages (P : Ppe T) : List Json → List (Message T) → List (Message T) → Prop
  | nil (original : List (Message T)) : ReadsMessages P [] original []
  | cons {item : Json} {items : List Json} {original rest : List (Message T)} {role : T.Role}
      {text : String} (head : ReadsMessage P item role text)
      (tail : ReadsMessages P items original.tail rest) :
      ReadsMessages P (item :: items) original
        (.mk (keptMessage P role original).schemaVersion role [.text text]
          (keptMessage P role original).channel :: rest)

theorem messagesFromItems_eq_ok_iff : ∀ {items : List Json} {i : Nat}
    {original messages : List (Message T)},
    ShimmedPayload.messagesFromItems P s i items original = .ok messages ↔
      ReadsMessages P items original messages
  | [], i, original, messages => by
    constructor
    · intro h
      obtain rfl := Except.ok.inj h
      exact .nil original
    · rintro ⟨⟩
      rfl
  | item :: items, i, original, messages => by
    constructor
    · intro h
      obtain ⟨⟨role, text⟩, hhead, h⟩ := bind_eq_ok.mp h
      obtain ⟨rest, htail, h⟩ := bind_eq_ok.mp h
      obtain rfl := Except.ok.inj h
      exact .cons (messageFromLegacy_eq_ok_iff.mp hhead) (messagesFromItems_eq_ok_iff.mp htail)
    · intro h
      cases h with
      | cons hhead htail =>
        refine bind_eq_ok.mpr ⟨_, messageFromLegacy_eq_ok_iff.mpr hhead, ?_⟩
        exact bind_eq_ok.mpr ⟨_, messagesFromItems_eq_ok_iff.mpr htail, rfl⟩

/-- A legacy prompt result the shim can read: a list of messages and no description. -/
structure ReadsResult (P : Ppe T) (result : Json) (original messages : List (Message T)) : Prop where
  description : ∀ v, result.get? "description" = some v → v = .null
  messages : ∃ items, result.get? "messages" = some (.array items) ∧
    ReadsMessages P items original messages

theorem messagesFromLegacy_eq_ok_iff {result : Json} {original messages : List (Message T)} :
    ShimmedPayload.messagesFromLegacy P s result original = .ok messages ↔
      ReadsResult P result original messages := by
  unfold ShimmedPayload.messagesFromLegacy
  constructor
  · intro h
    split at h
    · next fields =>
      split at h
      · cases h
      · next hdescription =>
        split at h
        · next items hitems =>
          refine ⟨fun v hv => ?_, items, hitems, messagesFromItems_eq_ok_iff.mp h⟩
          rw [Json.get?_object] at hv
          simpa [hv] using hdescription
        · cases h
    · cases h
  · rintro ⟨hdescription, items, hitems, hmessages⟩
    cases result with
    | object fields =>
      rw [Json.get?_object] at hitems
      have hnull : (Assoc.get? "description" fields).any (· ≠ .null) = false := by
        cases hget : Assoc.get? "description" fields with
        | none => rfl
        | some v => simp [hdescription v hget]
      dsimp only
      rw [if_neg (by rw [hnull]; exact Bool.false_ne_true), hitems]
      exact messagesFromItems_eq_ok_iff.mpr hmessages
    | null | bool _ | number _ | string _ | array _ => cases hitems

theorem applyPart_promptResult {promptRequestId promptName : String} {messages : List (Message T)}
    {rendered : Option String} {isError : Bool} {errorMessage : Option String} :
    s.applyPart P modified .promptPostFetch
        (.promptResult (.mk promptRequestId promptName messages rendered isError errorMessage)) =
        .ok new ↔
      ∃ legacy messages', Legacy.PromptPostFetchPayload.fromValue modified = some legacy ∧
        ReadsResult P legacy.result messages messages' ∧
        new = .promptResult (.mk promptRequestId legacy.promptId messages' rendered isError
          errorMessage) := by
  constructor
  · intro h
    obtain ⟨legacy, hlegacy, h⟩ := bind_eq_ok.mp h
    obtain ⟨messages', hmessages, h⟩ := bind_eq_ok.mp h
    exact ⟨legacy, messages', parse_eq_ok_iff.mp hlegacy,
      messagesFromLegacy_eq_ok_iff.mp hmessages, (Except.ok.inj h).symm⟩
  · rintro ⟨legacy, messages', hlegacy, hmessages, rfl⟩
    refine bind_eq_ok.mpr ⟨legacy, parse_eq_ok_iff.mpr hlegacy, ?_⟩
    exact bind_eq_ok.mpr ⟨messages', messagesFromLegacy_eq_ok_iff.mpr hmessages, rfl⟩

/-- The text and the MIME type a legacy resource content gives a resource. -/
inductive ReadsContent (content : Resource T) (uri : String) :
    Json → Option String → Option String → Prop
  | null : ReadsContent content uri .null none content.mimeType
  | string (text : String) : ReadsContent content uri (.string text) (some text) content.mimeType
  | object {fields : List (String × Json)} {text mimeType : Option String}
      (blob : ∀ v, Assoc.get? "blob" fields = some v → v = .null)
      (id : ∀ v, Assoc.get? "id" fields = some v → v = .string content.resourceRequestId)
      (sameUri : ∀ v, Assoc.get? "uri" fields = some v →
        v = .string uri ∨ v = .string content.uri)
      (readText : (Assoc.get? "text" fields).getD .null = Serde.nullable .string text)
      (readMime : (Assoc.get? "mime_type" fields).getD
        (Serde.nullable .string content.mimeType) = Serde.nullable .string mimeType) :
      ReadsContent content uri (.object fields) text mimeType

theorem textOrNull_eq_ok_iff {message : String} {v : Json} {text : Option String} :
    s.textOrNull message v = .ok text ↔ v = Serde.nullable .string text := by
  cases v <;> cases text <;> simp [ShimmedPayload.textOrNull, Serde.nullable]

theorem any_eq_false_iff {p : Json → Bool} {v : Option Json} :
    v.any p = false ↔ ∀ w, v = some w → p w = false := by
  cases v with
  | none => simp
  | some v => simp

theorem resourceContent_eq_ok_iff {content : Resource T} {uri : String} {v : Json}
    {text mimeType : Option String} :
    s.resourceContent content uri v = .ok (text, mimeType) ↔
      ReadsContent content uri v text mimeType := by
  constructor
  · intro h
    cases v with
    | null =>
      obtain ⟨rfl, rfl⟩ := Prod.mk.inj (Except.ok.inj h)
      exact .null
    | string t =>
      obtain ⟨rfl, rfl⟩ := Prod.mk.inj (Except.ok.inj h)
      exact .string t
    | object fields =>
      unfold ShimmedPayload.resourceContent at h
      dsimp only at h
      split at h
      · cases h
      · next hblob =>
        split at h
        · cases h
        · next hid =>
          split at h
          · cases h
          · next huri =>
            obtain ⟨t, htext, h⟩ := bind_eq_ok.mp h
            have hmime : t = text ∧ (Assoc.get? "mime_type" fields).getD
                (Serde.nullable .string content.mimeType) = Serde.nullable .string mimeType := by
              split at h
              · next hnone =>
                obtain ⟨rfl, rfl⟩ := Prod.mk.inj (Except.ok.inj h)
                exact ⟨rfl, by rw [hnone, Option.getD_none]⟩
              · next w hsome =>
                obtain ⟨m, hm, h⟩ := bind_eq_ok.mp h
                obtain ⟨rfl, rfl⟩ := Prod.mk.inj (Except.ok.inj h)
                exact ⟨rfl, by rw [hsome, Option.getD_some, textOrNull_eq_ok_iff.mp hm]⟩
            obtain ⟨rfl, hmime⟩ := hmime
            refine .object (fun v hv => ?_) (fun v hv => ?_) (fun v hv => ?_)
              (textOrNull_eq_ok_iff.mp htext) hmime
            · simpa [hv] using hblob
            · simpa [hv, Json.asStr_eq_some] using hid
            · simpa [hv, Json.asStr_eq_some, or_iff_not_imp_left] using huri
    | bool _ | number _ | array _ => cases h
  · intro h
    cases h with
    | null => rfl
    | string t => rfl
    | object hblob hid huri htext hmime =>
      next fields =>
      unfold ShimmedPayload.resourceContent
      dsimp only
      rw [if_neg, if_neg, if_neg]
      · refine bind_eq_ok.mpr ⟨text, textOrNull_eq_ok_iff.mpr htext, ?_⟩
        cases hget : Assoc.get? "mime_type" fields with
        | none =>
          rw [hget, Option.getD_none] at hmime
          have hsame : content.mimeType = mimeType := by
            cases hm : content.mimeType <;> cases mimeType <;>
              simp_all [Serde.nullable]
          rw [hsame]
          rfl
        | some w =>
          rw [hget, Option.getD_some] at hmime
          exact bind_eq_ok.mpr ⟨mimeType, textOrNull_eq_ok_iff.mpr hmime, rfl⟩
      · rw [Bool.not_eq_true, any_eq_false_iff]
        intro w hw
        rcases huri w hw with rfl | rfl
        · simp [Json.asStr]
        · simp [Json.asStr]
      · rw [Bool.not_eq_true, any_eq_false_iff]
        intro w hw
        simp [hid w hw, Json.asStr]
      · rw [Bool.not_eq_true, any_eq_false_iff]
        intro w hw
        simp [hblob w hw]

/-- The size of a resource whose text is replaced. -/
def rewrittenSize (content : Resource T) (text : Option String) : Option UInt64 :=
  if text ≠ content.content && content.sizeBytes.isSome then
    text.map fun t => UInt64.ofNat t.utf8ByteSize else content.sizeBytes

theorem applyPart_resourcePost {content : Resource T} :
    s.applyPart P modified .resourcePostFetch (.resource content) = .ok new ↔
      ∃ legacy text mimeType, Legacy.ResourcePostFetchPayload.fromValue modified = some legacy ∧
        ReadsContent content legacy.uri legacy.content text mimeType ∧
        new = .resource { content with
          uri := legacy.uri
          content := text
          mimeType
          sizeBytes := rewrittenSize content text } := by
  constructor
  · intro h
    obtain ⟨legacy, hlegacy, h⟩ := bind_eq_ok.mp h
    obtain ⟨⟨text, mimeType⟩, hcontent, h⟩ := bind_eq_ok.mp h
    exact ⟨legacy, text, mimeType, parse_eq_ok_iff.mp hlegacy,
      resourceContent_eq_ok_iff.mp hcontent, (Except.ok.inj h).symm⟩
  · rintro ⟨legacy, text, mimeType, hlegacy, hcontent, rfl⟩
    refine bind_eq_ok.mpr ⟨legacy, parse_eq_ok_iff.mpr hlegacy, ?_⟩
    exact bind_eq_ok.mpr ⟨(text, mimeType), resourceContent_eq_ok_iff.mpr hcontent, rfl⟩

end

end Cpex.Host
