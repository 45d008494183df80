import Cpex.Infra.JsonPath
import Cpex.Properties.LegacyPayloads
import Cpex.Properties.PlainPpe
import Cpex.Properties.Shim

/-!
# What becomes of a modification

Every value a plugin returns should be in the message that goes on, or the whole answer refused.
The shim writes back or checks the paths of `Covered`; `serde` reads past every other field.

* `toLegacy_applied` — the message written back goes out again
* `complete_iff` — nothing is dropped exactly when no other path holds a new value
* `unknown_field_dropped` — a top-level field no one reads
-/

namespace Cpex.Host

open Cpex.Infra Cpex.Infra.Serde

variable {T : Types} {P : Ppe T}

/-! ## Written back once more -/

/-- Arguments made of texts are those texts. -/
theorem entries_of_strings (m : HashMap String String) :
    (HashMap.ofList (m.entries.map fun e => (e.1, Json.string e.2))).entries =
      m.entries.map fun e => (e.1, .string e.2) := by
  refine HashMap.entries_ofList ?_
  rw [List.map_map]
  exact m.nodup

theorem exists_sendsMessages {items : List Json} {old new : List (Message T)}
    (h : ReadsMessages P items old new) : ∃ held, List.Forall₂ (SendsMessage P) new held := by
  induction h with
  | nil _ => exact ⟨[], .nil⟩
  | @cons _ _ _ _ role text _ _ ih =>
    obtain ⟨held, hheld⟩ := ih
    exact ⟨promptMessageValue P role text :: held, .cons ⟨text, rfl, rfl⟩ hheld⟩

/-- A part that was written back can be sent again. -/
theorem exists_sends_of_applyPart {s : ShimmedPayload T} {modified json : Json} {shim : Shim}
    {old new : ContentPart T} (hsends : Sends P shim old json)
    (happly : s.applyPart P modified shim old = .ok new) : ∃ held, Sends P shim new held := by
  cases hsends with
  | toolCall hnamespace =>
    obtain ⟨legacy, -, -, rfl⟩ := applyPart_toolCall.mp happly
    exact ⟨_, .toolCall hnamespace⟩
  | toolResult _ =>
    obtain ⟨legacy, -, hcleared, rfl⟩ := applyPart_toolResult.mp happly
    refine ⟨_, .toolResult fun herror => ?_⟩
    rcases Bool.or_eq_true_iff.mp herror with hold | hsays
    · exact hcleared hold
    · exact hsays
  | @promptRequest content _ hserver _ =>
    obtain ⟨legacy, -, rfl⟩ := applyPart_promptRequest.mp happly
    exact ⟨_, .promptRequest hserver (entries_of_strings _)⟩
  | promptResult hrendered hmessage _ =>
    obtain ⟨legacy, messages, -, hresult, rfl⟩ := applyPart_promptResult.mp happly
    obtain ⟨items, -, hmessages⟩ := hresult.messages
    obtain ⟨held, hheld⟩ := exists_sendsMessages hmessages
    exact ⟨_, .promptResult hrendered hmessage hheld⟩
  | resourcePre hversion =>
    obtain ⟨uri, -, -, rfl⟩ := applyPart_resourcePre.mp happly
    exact ⟨_, .resourcePre hversion⟩
  | resourceRef content =>
    obtain ⟨uri, -, rfl⟩ := applyPart_resourceRef.mp happly
    exact ⟨_, .resourceRef _⟩
  | resourcePost hversion hblob =>
    obtain ⟨legacy, text, mimeType, -, -, rfl⟩ := applyPart_resourcePost.mp happly
    exact ⟨_, .resourcePost hversion hblob⟩

theorem Sends.accepts {shim : Shim} {part : ContentPart T} {json : Json}
    (h : Sends P shim part json) : shim.accepts part = true := by
  cases h <;> rfl

/-- The message that was written back is sent by the payload of its new part. -/
theorem translates_applied {hookName : String} {m : MessagePayload T} {s : ShimmedPayload T}
    {content new : ContentPart T} {held : Json} (h : Translates P hookName m s content)
    (hheld : Sends P s.shim new held) :
    Translates P hookName ⟨.mk m.message.schemaVersion m.message.role
      (m.message.content.set s.part new) m.message.channel⟩
      ⟨s.shim, hookName, ⟨.mk m.message.schemaVersion m.message.role
        (m.message.content.set s.part new) m.message.channel⟩, s.part, held⟩ new where
  shim := h.shim
  name := rfl
  original := rfl
  candidates :=
    (candidates_set h.part (hheld.accepts.trans h.json.accepts.symm)).trans h.candidates
  part := List.getElem?_set_self (List.getElem?_eq_some_iff.mp h.part).1
  siblings hpost i part hpart hne := by
    refine h.siblings hpost i part ?_ hne
    rwa [Message.content, List.getElem?_set_ne (Ne.symm hne)] at hpart
  json := hheld

/-- **A message that was written back is accepted again.** -/
theorem toLegacy_applied {hookName : String} {m p : MessagePayload T} {s : ShimmedPayload T}
    {modified : Json} (h : toLegacy P hookName (.message m) = .ok s)
    (happly : s.applyModified P modified = .ok p) :
    ∃ s', toLegacy P hookName (.message p) = .ok s' := by
  obtain ⟨content, ht⟩ := toLegacy_eq_ok_iff.mp h
  obtain ⟨new, hnew, rfl⟩ := (applyModified_eq_ok_iff ht).mp happly
  obtain ⟨held, hheld⟩ := exists_sends_of_applyPart ht.json hnew
  exact ⟨_, toLegacy_eq_ok_iff.mpr ⟨new, translates_applied ht hheld⟩⟩

/-! ## The paths that are read -/

/-- The paths whose returned value is written back, or refused unless it is the one sent. -/
inductive Covered : Shim → Json.Path → Prop
  | toolName : Covered .toolPreInvoke [.key "name"]
  | toolArgs (k : String) (rest : Json.Path) :
      Covered .toolPreInvoke (.key "args" :: .key k :: rest)
  | resultName : Covered .toolPostInvoke [.key "name"]
  | result (rest : Json.Path) : Covered .toolPostInvoke (.key "result" :: rest)
  | promptId : Covered .promptPreFetch [.key "prompt_id"]
  | promptArgs (k : String) : Covered .promptPreFetch [.key "args", .key k]
  | promptName : Covered .promptPostFetch [.key "prompt_id"]
  | messageRole (i : Nat) (rest : Json.Path) : Covered .promptPostFetch
      (.key "result" :: .key "messages" :: .index i :: .key "role" :: rest)
  | messageType (i : Nat) : Covered .promptPostFetch
      [.key "result", .key "messages", .index i, .key "content", .key "type"]
  | messageText (i : Nat) : Covered .promptPostFetch
      [.key "result", .key "messages", .index i, .key "content", .key "text"]
  | resourceUri : Covered .resourcePreFetch [.key "uri"]
  | fetchedUri : Covered .resourcePostFetch [.key "uri"]
  | contentId : Covered .resourcePostFetch [.key "content", .key "id"]
  | contentUri : Covered .resourcePostFetch [.key "content", .key "uri"]
  | contentMime : Covered .resourcePostFetch [.key "content", .key "mime_type"]
  | contentText : Covered .resourcePostFetch [.key "content", .key "text"]

/-- The returned payload with a plain text as `content` put where the text of a resource is. -/
def normalised (shim : Shim) (modified : Json) : Json :=
  match shim, modified.get? "content" with
  | .resourcePostFetch, some (.string text) =>
    modified.set "content" (.object [("text", .string text)])
  | _, _ => modified

/-- Every returned value at a path that is not read is the one that was sent there. -/
def OnlyCovered (shim : Shim) (sent returned : Json) : Prop :=
  ∀ path v, returned.Leaf path v → ¬Covered shim path → sent.at? path = some v

/-! ## Nothing else is sent -/

/-- A nested message's leaves are its role, its type and its text. -/
theorem leaf_promptMessageValue {role : T.Role} {text : String} {path : Json.Path} {v : Json}
    (h : (promptMessageValue P role text).Leaf path v) :
    (∃ rest, path = .key "role" :: rest) ∨ path = [.key "content", .key "type"] ∨
      path = [.key "content", .key "text"] := by
  obtain ⟨k, rest, w, rfl, hget, hw⟩ := Json.leaf_ofFields h
  have hmem := List.mem_reverse.mp (Assoc.mem_of_get? hget)
  simp only [List.mem_cons, Prod.mk.injEq, List.not_mem_nil, or_false] at hmem
  rcases hmem with ⟨rfl, rfl⟩ | ⟨rfl, rfl⟩
  · exact .inl ⟨rest, rfl⟩
  · obtain ⟨k, rest, w, rfl, hget, hw⟩ := Json.leaf_ofFields hw
    have hmem := List.mem_reverse.mp (Assoc.mem_of_get? hget)
    simp only [List.mem_cons, Prod.mk.injEq, List.not_mem_nil, or_false] at hmem
    rcases hmem with ⟨rfl, rfl⟩ | ⟨rfl, rfl⟩
    · obtain ⟨rfl, -⟩ := Json.leaf_string hw
      exact .inr (.inl rfl)
    · obtain ⟨rfl, -⟩ := Json.leaf_string hw
      exact .inr (.inr rfl)

theorem leaf_promptValue {messages : List (Message T)} {items : List Json} {path : Json.Path}
    {v : Json} (hsends : List.Forall₂ (SendsMessage P) messages items)
    (h : (promptValue items).Leaf path v) : Covered .promptPostFetch (.key "result" :: path) := by
  obtain ⟨k, rest, w, rfl, hget, hw⟩ := Json.leaf_ofFields h
  have hmem := List.mem_reverse.mp (Assoc.mem_of_get? hget)
  simp only [List.mem_cons, Prod.mk.injEq, List.not_mem_nil, or_false] at hmem
  rcases hmem with ⟨rfl, rfl⟩ | ⟨rfl, rfl⟩
  · obtain ⟨i, rest, item, rfl, hi, hitem⟩ := Json.leaf_array hw
    obtain ⟨hlt, rfl⟩ := List.getElem?_eq_some_iff.mp hi
    obtain ⟨text, -, heq⟩ := hsends.get (by rw [hsends.length_eq]; exact hlt) hlt
    rw [List.get_eq_getElem] at heq
    rw [heq] at hitem
    rcases leaf_promptMessageValue hitem with ⟨rest, rfl⟩ | rfl | rfl
    · exact .messageRole i rest
    · exact .messageType i
    · exact .messageText i
  · exact absurd hw Json.not_leaf_null

theorem leaf_nullable {a : Option String} {path : Json.Path} {v : Json}
    (h : (nullable .string a).Leaf path v) : path = [] := by
  cases a with
  | none => exact absurd h Json.not_leaf_null
  | some s => exact (Json.leaf_string h).1

/-- Every leaf of a payload is at a path that is read, or is the type of a resource. -/
theorem covered_of_leaf {shim : Shim} {part : ContentPart T} {json : Json}
    (hsends : Sends P shim part json) {path : Json.Path} {v : Json} (h : json.Leaf path v) :
    Covered shim path ∨ shim = .resourcePostFetch ∧ path = [.key "content", .key "type"] ∧
      v = .string "resource" := by
  cases hsends with
  | toolCall _ =>
    obtain ⟨k, rest, w, rfl, hget, hw⟩ := Json.leaf_ofFields h
    have hmem := List.mem_reverse.mp (Assoc.mem_of_get? hget)
    simp only [optionalField, List.append_nil, List.cons_append, List.nil_append, List.mem_cons,
      Prod.mk.injEq, List.not_mem_nil, or_false] at hmem
    rcases hmem with ⟨rfl, rfl⟩ | ⟨rfl, rfl⟩
    · obtain ⟨rfl, -⟩ := Json.leaf_string hw
      exact .inl .toolName
    · obtain ⟨k, rest, w, rfl, -, -⟩ := Json.leaf_ofFields hw
      exact .inl (.toolArgs k rest)
  | toolResult _ =>
    obtain ⟨k, rest, w, rfl, hget, hw⟩ := Json.leaf_ofFields h
    have hmem := List.mem_reverse.mp (Assoc.mem_of_get? hget)
    simp only [List.mem_cons, Prod.mk.injEq, List.not_mem_nil, or_false] at hmem
    rcases hmem with ⟨rfl, rfl⟩ | ⟨rfl, rfl⟩
    · obtain ⟨rfl, -⟩ := Json.leaf_string hw
      exact .inl .resultName
    · exact .inl (.result rest)
  | promptRequest _ _ =>
    obtain ⟨k, rest, w, rfl, hget, hw⟩ := Json.leaf_ofFields h
    have hmem := List.mem_reverse.mp (Assoc.mem_of_get? hget)
    simp only [optionalField, List.cons_append, List.nil_append, List.mem_cons,
      Prod.mk.injEq, List.not_mem_nil, or_false] at hmem
    rcases hmem with ⟨rfl, rfl⟩ | ⟨rfl, rfl⟩
    · obtain ⟨rfl, -⟩ := Json.leaf_string hw
      exact .inl .promptId
    · obtain ⟨k, rest, w, rfl, hget, hw⟩ := Json.leaf_ofFields hw
      obtain ⟨e, -, he⟩ := List.mem_map.mp (List.mem_reverse.mp (Assoc.mem_of_get? hget))
      obtain ⟨-, rfl⟩ := Prod.mk.inj he
      obtain ⟨rfl, -⟩ := Json.leaf_string hw
      exact .inl (.promptArgs k)
  | promptResult _ _ hmessages =>
    obtain ⟨k, rest, w, rfl, hget, hw⟩ := Json.leaf_ofFields h
    have hmem := List.mem_reverse.mp (Assoc.mem_of_get? hget)
    simp only [List.mem_cons, Prod.mk.injEq, List.not_mem_nil, or_false] at hmem
    rcases hmem with ⟨rfl, rfl⟩ | ⟨rfl, rfl⟩
    · obtain ⟨rfl, -⟩ := Json.leaf_string hw
      exact .inl .promptName
    · exact .inl (leaf_promptValue hmessages hw)
  | resourcePre _ | resourceRef _ =>
    obtain ⟨k, rest, w, rfl, hget, hw⟩ := Json.leaf_ofFields h
    have hmem := List.mem_reverse.mp (Assoc.mem_of_get? hget)
    simp only [optionalField, List.append_nil, List.mem_cons, Prod.mk.injEq, List.not_mem_nil,
      or_false] at hmem
    obtain ⟨rfl, rfl⟩ := hmem
    obtain ⟨rfl, -⟩ := Json.leaf_string hw
    exact .inl .resourceUri
  | resourcePost _ _ =>
    obtain ⟨k, rest, w, rfl, hget, hw⟩ := Json.leaf_ofFields h
    have hmem := List.mem_reverse.mp (Assoc.mem_of_get? hget)
    simp only [List.mem_cons, Prod.mk.injEq, List.not_mem_nil, or_false] at hmem
    rcases hmem with ⟨rfl, rfl⟩ | ⟨rfl, rfl⟩
    · obtain ⟨rfl, -⟩ := Json.leaf_string hw
      exact .inl .fetchedUri
    · obtain ⟨k, rest, w, rfl, hget, hw⟩ := Json.leaf_ofFields hw
      have hmem := List.mem_reverse.mp (Assoc.mem_of_get? hget)
      simp only [List.mem_cons, Prod.mk.injEq, List.not_mem_nil, or_false] at hmem
      rcases hmem with ⟨rfl, rfl⟩ | ⟨rfl, rfl⟩ | ⟨rfl, rfl⟩ | ⟨rfl, rfl⟩ | ⟨rfl, rfl⟩
      · obtain ⟨rfl, rfl⟩ := Json.leaf_string hw
        exact .inr ⟨rfl, rfl, rfl⟩
      · obtain ⟨rfl, -⟩ := Json.leaf_string hw
        exact .inl .contentId
      · obtain ⟨rfl, -⟩ := Json.leaf_string hw
        exact .inl .contentUri
      · obtain rfl := leaf_nullable hw
        exact .inl .contentMime
      · obtain rfl := leaf_nullable hw
        exact .inl .contentText

/-! ## What a payload holds -/

/-- A field of a resource's content in the payload. -/
theorem at?_resourceContent (content : Resource T) (k : String) :
    (Legacy.ResourcePostFetchPayload.toValue ⟨content.uri, resourceValue content⟩).at?
      [.key "content", .key k] = (resourceValue content).get? k := by
  have hcontent : (Legacy.ResourcePostFetchPayload.toValue
      ⟨content.uri, resourceValue content⟩).get? "content" = some (resourceValue content) :=
    Json.get?_ofFields _ _
  rw [Json.at?_of_get? hcontent, Json.at?_single]

/-- What a payload holds outside the paths that are read, the one before it held. -/
theorem sent_of_not_covered {shim : Shim} {old new : ContentPart T} {sent held : Json}
    (hsent : Sends P shim old sent) (hheld : Sends P shim new held) {path : Json.Path} {v : Json}
    (h : held.Leaf path v) (hnot : ¬Covered shim path) : sent.at? path = some v := by
  rcases covered_of_leaf hheld h with hcovered | ⟨rfl, rfl, rfl⟩
  · exact absurd hcovered hnot
  · cases hsent
    rw [at?_resourceContent]
    exact Json.get?_ofFields _ _

/-- A nested message that was read is held as its role and its text. -/
theorem held_message {items : List Json} {old new : List (Message T)} {held : List Json}
    (hread : ReadsMessages P items old new) (hsends : List.Forall₂ (SendsMessage P) new held)
    {i : Nat} {item : Json} (hi : items[i]? = some item) :
    ∃ role text, ReadsMessage P item role text ∧
      held[i]? = some (promptMessageValue P role text) := by
  induction hread generalizing held i with
  | nil _ => cases hi
  | @cons _ _ _ _ role text hhead _ ih =>
    cases hsends with
    | cons hsend hrest =>
      cases i with
      | zero =>
        obtain rfl := Option.some.inj hi
        obtain ⟨text', hcontent, rfl⟩ := hsend
        obtain rfl := ContentPart.text.inj (List.cons.inj hcontent).1
        exact ⟨role, text, hhead, rfl⟩
      | succ i => exact ih hrest hi

/-- The value at a path that starts with a key is in an object. -/
theorem exists_fields_of_leaf {modified v : Json} {k : String} {rest : Json.Path}
    (h : modified.Leaf (.key k :: rest) v) : ∃ fields w, modified = .object fields ∧
      Assoc.get? k fields = some w ∧ w.Leaf rest v := by
  obtain ⟨w, hget, hw⟩ := Json.at?_key.mp h.1
  obtain ⟨fields, rfl, hfield⟩ := Json.get?_eq_some_iff.mp hget
  exact ⟨fields, w, rfl, hfield, hw, h.2⟩

/-- The value at a path of two keys is in an object inside an object. -/
theorem exists_fields_of_leaf₂ {modified v : Json} {k l : String} {rest : Json.Path}
    (h : modified.Leaf (.key k :: .key l :: rest) v) : ∃ fields inner w, modified = .object fields ∧
      Assoc.get? k fields = some (.object inner) ∧ Assoc.get? l inner = some w ∧
        w.Leaf rest v := by
  obtain ⟨fields, x, hmodified, hx, hinner⟩ := exists_fields_of_leaf h
  obtain ⟨inner, w, rfl, hw, hleaf⟩ := exists_fields_of_leaf hinner
  exact ⟨fields, inner, w, hmodified, hx, hw, hleaf⟩

theorem nodup_of_get? {fields inner : List (String × Json)} {k : String}
    (hkeys : (Json.object fields).DistinctKeys) (h : Assoc.get? k fields = some (.object inner)) :
    (inner.map Prod.fst).Nodup :=
  (hkeys.of_get? ((Json.get?_object fields k).trans h)).nodup

/-! ## Each hook holds what it reads -/

section

variable {s : ShimmedPayload T} {modified held v : Json} {new : ContentPart T} {path : Json.Path}

theorem held_toolCall (hkeys : modified.DistinctKeys) {content : ToolCall}
    (happly : s.applyPart P modified .toolPreInvoke (.toolCall content) = .ok new)
    (hheld : Sends P .toolPreInvoke new held) (hleaf : modified.Leaf path v)
    (hcovered : Covered .toolPreInvoke path) : held.at? path = some v := by
  obtain ⟨legacy, hread, -, rfl⟩ := applyPart_toolCall.mp happly
  cases hheld
  cases hcovered with
  | toolName =>
    obtain ⟨fields, w, rfl, hget, hw⟩ := exists_fields_of_leaf hleaf
    obtain ⟨hname, -⟩ := Legacy.ToolPreInvokePayload.fromValue_object hread
    exact Json.at?_key.mpr ⟨w, (Json.get?_ofFields _ _).trans (hname.symm.trans hget), hw.1⟩
  | toolArgs k rest =>
    obtain ⟨fields, inner, w, rfl, hargs, hget, hw⟩ := exists_fields_of_leaf₂ hleaf
    obtain ⟨-, hoptional⟩ := Legacy.ToolPreInvokePayload.fromValue_object hread
    rw [hargs] at hoptional
    obtain ⟨m, a, hm, ha, hmget⟩ :=
      exists_of_optional_readMap (nodup_of_get? hkeys hargs) hoptional hget
    obtain rfl : w = a := Option.some.inj ha
    have hobject : m.toObject.get? k = some w := by
      rw [HashMap.toObject, Json.get?_ofFields, HashMap.get?_reverse m.nodup]
      exact hmget
    rw [hm]
    exact Json.at?_key.mpr ⟨_, Json.get?_ofFields _ _, Json.at?_key.mpr ⟨w, hobject, hw.1⟩⟩

theorem held_toolResult {content : ToolResult}
    (happly : s.applyPart P modified .toolPostInvoke (.toolResult content) = .ok new)
    (hheld : Sends P .toolPostInvoke new held) (hleaf : modified.Leaf path v)
    (hcovered : Covered .toolPostInvoke path) : held.at? path = some v := by
  obtain ⟨legacy, hread, -, rfl⟩ := applyPart_toolResult.mp happly
  cases hheld
  cases hcovered with
  | resultName =>
    obtain ⟨fields, w, rfl, hget, hw⟩ := exists_fields_of_leaf hleaf
    obtain ⟨hname, -⟩ := Legacy.ToolPostInvokePayload.fromValue_object hread
    exact Json.at?_key.mpr ⟨w, (Json.get?_ofFields _ _).trans (hname.symm.trans hget), hw.1⟩
  | result rest =>
    obtain ⟨fields, w, rfl, hget, hw⟩ := exists_fields_of_leaf hleaf
    obtain ⟨-, hresult⟩ := Legacy.ToolPostInvokePayload.fromValue_object hread
    rw [hget, Option.getD_some] at hresult
    rw [← hresult]
    exact Json.at?_key.mpr ⟨w, Json.get?_ofFields _ _, hw.1⟩

theorem held_promptRequest (hkeys : modified.DistinctKeys) {content : PromptRequest}
    (happly : s.applyPart P modified .promptPreFetch (.promptRequest content) = .ok new)
    (hheld : Sends P .promptPreFetch new held) (hleaf : modified.Leaf path v)
    (hcovered : Covered .promptPreFetch path) : held.at? path = some v := by
  obtain ⟨legacy, hread, rfl⟩ := applyPart_promptRequest.mp happly
  cases hheld with
  | @promptRequest _ args _ hargs =>
  rw [entries_of_strings] at hargs
  cases hcovered with
  | promptId =>
    obtain ⟨fields, w, rfl, hget, hw⟩ := exists_fields_of_leaf hleaf
    obtain ⟨hname, -⟩ := Legacy.PromptPreFetchPayload.fromValue_object hread
    exact Json.at?_key.mpr ⟨w, (Json.get?_ofFields _ _).trans (hname.symm.trans hget), hw.1⟩
  | promptArgs k =>
    obtain ⟨fields, inner, w, rfl, hinner, hget, hw⟩ := exists_fields_of_leaf₂ hleaf
    obtain ⟨-, hoptional⟩ := Legacy.PromptPreFetchPayload.fromValue_object hread
    rw [hinner] at hoptional
    obtain ⟨m, a, hm, ha, hmget⟩ :=
      exists_of_optional_readMap (nodup_of_get? hkeys hinner) hoptional hget
    obtain rfl := readString_eq_some.mp ha
    rw [hm, Option.getD_some] at hargs
    have hkeys : ((args.map fun e => (e.1, Json.string e.2)).map Prod.fst).Nodup := by
      rw [← hargs, List.map_map]
      exact m.nodup
    have hargsKeys : (args.map Prod.fst).Nodup := by
      rwa [List.map_map] at hkeys
    have hmap : (stringMap (HashMap.ofList args)).get? k = some (.string a) := by
      rw [stringMap, HashMap.entries_ofList hargsKeys, ← hargs, Json.get?_ofFields,
        HashMap.get?_reverse (hargs ▸ hkeys), Assoc.get?_map_snd]
      exact congrArg (Option.map Json.string) hmget
    exact Json.at?_key.mpr ⟨_, Json.get?_ofFields _ _, Json.at?_key.mpr ⟨_, hmap, hw.1⟩⟩

/-- A role comes back in its own form, or in one that holds no leaf. -/
theorem leaf_role (hforms : P.RoleForms) {form : Json} {role : T.Role}
    (hrole : P.roleFromValue form = .ok role) (hleaf : form.Leaf path v) :
    (P.roleToValue role).at? path = some v := by
  rcases hforms form role hrole with rfl | ⟨name, rfl⟩
  · exact hleaf.1
  · obtain ⟨k, rest, w, rfl, hget, hw⟩ := Json.leaf_object hleaf
    obtain ⟨-, rfl⟩ := Prod.mk.inj (List.mem_singleton.mp (Assoc.mem_of_get? hget))
    exact absurd hw Json.not_leaf_null

theorem held_promptResult (hforms : P.RoleForms) {content : PromptResult T}
    (happly : s.applyPart P modified .promptPostFetch (.promptResult content) = .ok new)
    (hheld : Sends P .promptPostFetch new held) (hleaf : modified.Leaf path v)
    (hcovered : Covered .promptPostFetch path) : held.at? path = some v := by
  obtain ⟨promptRequestId, promptName, messages, rendered, isError, errorMessage⟩ := content
  obtain ⟨legacy, messages', hread, hresult, rfl⟩ := applyPart_promptResult.mp happly
  cases hheld with
  | @promptResult _ _ _ _ _ items _ _ hsends =>
  by_cases hname : path = [.key "prompt_id"]
  · subst hname
    obtain ⟨fields, w, rfl, hget, hw⟩ := exists_fields_of_leaf hleaf
    obtain ⟨hpromptId, -⟩ := Legacy.PromptPostFetchPayload.fromValue_object hread
    exact Json.at?_key.mpr
      ⟨w, (Json.get?_ofFields _ _).trans (hpromptId.symm.trans hget), hw.1⟩
  · -- every other covered path goes through one message
    obtain ⟨i, rest, rfl, hrest⟩ : ∃ i rest,
        path = .key "result" :: .key "messages" :: .index i :: rest ∧
          ((∃ tail, rest = .key "role" :: tail) ∨ rest = [.key "content", .key "type"] ∨
            rest = [.key "content", .key "text"]) := by
      cases hcovered with
      | promptName => exact absurd rfl hname
      | messageRole i rest => exact ⟨i, _, rfl, .inl ⟨rest, rfl⟩⟩
      | messageType i => exact ⟨i, _, rfl, .inr (.inl rfl)⟩
      | messageText i => exact ⟨i, _, rfl, .inr (.inr rfl)⟩
    obtain ⟨fields, inner, w, rfl, hget, hmessages, hw⟩ := exists_fields_of_leaf₂ hleaf
    obtain ⟨-, hlegacy⟩ := Legacy.PromptPostFetchPayload.fromValue_object hread
    rw [hget, Option.getD_some] at hlegacy
    obtain ⟨returned, hreturned, hreads⟩ := hresult.messages
    rw [← hlegacy, Json.get?_object, hmessages] at hreturned
    obtain rfl := Option.some.inj hreturned
    obtain ⟨returned', item, heq, hi, hitem⟩ := Json.at?_index.mp hw.1
    obtain rfl := Json.array.inj heq
    obtain ⟨role, text, hmessage, hheld⟩ := held_message hreads hsends hi
    have hvalue : (promptMessageValue P role text).at? rest = some v := by
      rcases hrest with ⟨tail, rfl⟩ | rfl | rfl
      · obtain ⟨form, hform, hrole⟩ := hmessage.role
        obtain ⟨w, hget, htail⟩ := Json.at?_key.mp hitem
        rw [hform] at hget
        obtain rfl := Option.some.inj hget
        exact Json.at?_key.mpr
          ⟨_, Json.get?_ofFields _ _, leaf_role hforms hrole ⟨htail, hleaf.2⟩⟩
      · obtain ⟨inner, hinner, htype, -⟩ := hmessage.content
        rw [Json.at?_of_get? hinner, Json.at?_single, Json.get?_object, htype] at hitem
        rw [← hitem]
        exact Json.at?_key.mpr ⟨_, Json.get?_ofFields _ _,
          (Json.at?_single _ _).trans (Json.get?_ofFields _ _)⟩
      · obtain ⟨inner, hinner, -, htext⟩ := hmessage.content
        rw [Json.at?_of_get? hinner, Json.at?_single, Json.get?_object, htext] at hitem
        rw [← hitem]
        exact Json.at?_key.mpr ⟨_, Json.get?_ofFields _ _,
          (Json.at?_single _ _).trans (Json.get?_ofFields _ _)⟩
    refine Json.at?_key.mpr ⟨promptValue items, Json.get?_ofFields _ _, ?_⟩
    refine Json.at?_key.mpr ⟨.array items, Json.get?_ofFields _ _, ?_⟩
    exact Json.at?_index.mpr ⟨items, _, rfl, hheld, hvalue⟩

/-- The URI of a legacy payload is in what is sent of the part that takes it. -/
theorem at?_resourceUri {legacy : Legacy.ResourcePreFetchPayload}
    (hread : Legacy.ResourcePreFetchPayload.fromValue modified = some legacy)
    (hleaf : modified.Leaf path v) (hcovered : Covered .resourcePreFetch path) :
    (Legacy.ResourcePreFetchPayload.toValue ⟨legacy.uri, none⟩).at? path = some v := by
  cases hcovered with
  | resourceUri =>
    obtain ⟨fields, w, rfl, hget, hw⟩ := exists_fields_of_leaf hleaf
    have huri := Legacy.ResourcePreFetchPayload.fromValue_object hread
    exact Json.at?_key.mpr ⟨w, (Json.get?_ofFields _ _).trans (huri.symm.trans hget), hw.1⟩

theorem held_resourcePre {content : Resource T}
    (happly : s.applyPart P modified .resourcePreFetch (.resource content) = .ok new)
    (hheld : Sends P .resourcePreFetch new held) (hleaf : modified.Leaf path v)
    (hcovered : Covered .resourcePreFetch path) : held.at? path = some v := by
  obtain ⟨uri, hpre, -, rfl⟩ := applyPart_resourcePre.mp happly
  obtain ⟨legacy, hread, -, rfl⟩ := resourcePreUri_eq_ok_iff.mp hpre
  cases hheld
  exact at?_resourceUri hread hleaf hcovered

theorem held_resourceRef {content : ResourceReference T}
    (happly : s.applyPart P modified .resourcePreFetch (.resourceRef content) = .ok new)
    (hheld : Sends P .resourcePreFetch new held) (hleaf : modified.Leaf path v)
    (hcovered : Covered .resourcePreFetch path) : held.at? path = some v := by
  obtain ⟨uri, hpre, rfl⟩ := applyPart_resourceRef.mp happly
  obtain ⟨legacy, hread, -, rfl⟩ := resourcePreUri_eq_ok_iff.mp hpre
  cases hheld
  exact at?_resourceUri hread hleaf hcovered

theorem normalised_of_string {text : String} (h : modified.get? "content" = some (.string text)) :
    normalised .resourcePostFetch modified =
      modified.set "content" (.object [("text", .string text)]) := by
  unfold normalised
  rw [h]

theorem normalised_of_not_string (h : ∀ text, modified.get? "content" ≠ some (.string text)) :
    normalised .resourcePostFetch modified = modified := by
  unfold normalised
  split
  · next text _ hcontent => exact absurd hcontent (h text)
  · rfl

/-- Putting a plain text in its place leaves the URI where it is. -/
theorem normalised_uri :
    (normalised .resourcePostFetch modified).get? "uri" = modified.get? "uri" := by
  by_cases h : ∃ text, modified.get? "content" = some (.string text)
  · obtain ⟨text, htext⟩ := h
    rw [normalised_of_string htext]
    exact Json.get?_set_ne (by decide)
  · rw [normalised_of_not_string fun text htext => h ⟨text, htext⟩]

/-- A field of the returned content, wherever the text was. -/
theorem normalised_content {k : String} {returned : Legacy.ResourcePostFetchPayload}
    (hread : Legacy.ResourcePostFetchPayload.fromValue modified = some returned)
    (hleaf : (normalised .resourcePostFetch modified).Leaf [.key "content", .key k] v) :
    (∃ text, returned.content = .string text ∧ k = "text" ∧ v = .string text) ∨
      ∃ fields, returned.content = .object fields ∧ Assoc.get? k fields = some v := by
  by_cases h : ∃ text, modified.get? "content" = some (.string text)
  · obtain ⟨text, htext⟩ := h
    obtain ⟨fields, rfl, hget⟩ := Json.get?_eq_some_iff.mp htext
    obtain ⟨-, hcontent⟩ := Legacy.ResourcePostFetchPayload.fromValue_object hread
    rw [hget, Option.getD_some] at hcontent
    rw [normalised_of_string htext] at hleaf
    obtain ⟨w, hw, hat⟩ := Json.at?_key.mp hleaf.1
    rw [Json.get?_set_self] at hw
    obtain rfl := Option.some.inj hw
    rw [Json.at?_single, Json.get?_object] at hat
    have hfield := List.mem_singleton.mp (Assoc.mem_of_get? hat)
    obtain ⟨rfl, rfl⟩ := Prod.mk.inj hfield
    exact .inl ⟨text, hcontent.symm, rfl, rfl⟩
  · rw [normalised_of_not_string fun text htext => h ⟨text, htext⟩] at hleaf
    obtain ⟨fields, inner, w, rfl, hget, hw, hat, -⟩ := exists_fields_of_leaf₂ hleaf
    obtain ⟨-, hcontent⟩ := Legacy.ResourcePostFetchPayload.fromValue_object hread
    rw [hget, Option.getD_some] at hcontent
    obtain rfl := Option.some.inj hat
    exact .inr ⟨inner, hcontent.symm, hw⟩

theorem held_resourcePost {content : Resource T} {sent : Json}
    (happly : s.applyPart P modified .resourcePostFetch (.resource content) = .ok new)
    (hsent : Sends P .resourcePostFetch (.resource content) sent)
    (hheld : Sends P .resourcePostFetch new held)
    (hleaf : (normalised .resourcePostFetch modified).Leaf path v)
    (hcovered : Covered .resourcePostFetch path) :
    held.at? path = some v ∨ sent.at? path = some v := by
  obtain ⟨legacy, text, mimeType, hread, hcontent, rfl⟩ := applyPart_resourcePost.mp happly
  cases hsent
  cases hheld
  by_cases huri : path = [.key "uri"]
  · subst huri
    have hat := hleaf.1
    rw [Json.at?_single, normalised_uri] at hat
    obtain ⟨fields, rfl, hget⟩ := Json.get?_eq_some_iff.mp hat
    obtain ⟨hlegacy, -⟩ := Legacy.ResourcePostFetchPayload.fromValue_object hread
    rw [Json.at?_single]
    exact .inl ((Json.get?_ofFields _ _).trans (hlegacy.symm.trans hget))
  · -- every other covered path is a field of the content
    obtain ⟨k, rfl, hk⟩ : ∃ k, path = [.key "content", .key k] ∧
        (k = "id" ∨ k = "uri" ∨ k = "mime_type" ∨ k = "text") := by
      cases hcovered with
      | fetchedUri => exact absurd rfl huri
      | contentId => exact ⟨_, rfl, .inl rfl⟩
      | contentUri => exact ⟨_, rfl, .inr (.inl rfl)⟩
      | contentMime => exact ⟨_, rfl, .inr (.inr (.inl rfl))⟩
      | contentText => exact ⟨_, rfl, .inr (.inr (.inr rfl))⟩
    rw [at?_resourceContent, at?_resourceContent]
    rcases normalised_content hread hleaf with ⟨t, ht, rfl, rfl⟩ | ⟨fields, hfields, hget⟩
    · rw [ht] at hcontent
      cases hcontent
      exact .inl (Json.get?_ofFields _ _)
    · rw [hfields] at hcontent
      cases hcontent with
      | object hblob hid hsameUri hreadText hreadMime =>
        rcases hk with rfl | rfl | rfl | rfl
        · rw [hid v hget]
          exact .inl (Json.get?_ofFields _ _)
        · rcases hsameUri v hget with rfl | rfl
          · exact .inl (Json.get?_ofFields _ _)
          · exact .inr (Json.get?_ofFields _ _)
        · rw [hget, Option.getD_some] at hreadMime
          rw [hreadMime]
          exact .inl (Json.get?_ofFields _ _)
        · rw [hget, Option.getD_some] at hreadText
          rw [hreadText]
          exact .inl (Json.get?_ofFields _ _)

end

/-! ## Nothing dropped -/

/-- A value at a path that is read is held, or is the one that was sent. -/
theorem held_of_covered (hforms : P.RoleForms) {s : ShimmedPayload T} {shim : Shim}
    {modified sent held : Json} {old new : ContentPart T} (hkeys : modified.DistinctKeys)
    (hsent : Sends P shim old sent) (happly : s.applyPart P modified shim old = .ok new)
    (hheld : Sends P shim new held) {path : Json.Path} {v : Json}
    (hleaf : (normalised shim modified).Leaf path v) (hcovered : Covered shim path) :
    held.at? path = some v ∨ sent.at? path = some v := by
  cases old with
  | toolCall content =>
    cases hsent with
    | toolCall _ => exact .inl (held_toolCall hkeys happly hheld hleaf hcovered)
  | toolResult content =>
    cases hsent with
    | toolResult _ => exact .inl (held_toolResult happly hheld hleaf hcovered)
  | promptRequest content =>
    cases hsent with
    | promptRequest _ _ => exact .inl (held_promptRequest hkeys happly hheld hleaf hcovered)
  | promptResult content =>
    cases hsent with
    | promptResult _ _ _ => exact .inl (held_promptResult hforms happly hheld hleaf hcovered)
  | resource content =>
    cases shim with
    | resourcePreFetch => exact .inl (held_resourcePre happly hheld hleaf hcovered)
    | resourcePostFetch => exact held_resourcePost happly hsent hheld hleaf hcovered
    | toolPreInvoke | toolPostInvoke | promptPreFetch | promptPostFetch => cases hsent
  | resourceRef content =>
    cases hsent with
    | resourceRef _ => exact .inl (held_resourceRef happly hheld hleaf hcovered)
  | text _ | thinking _ | image _ | video _ | audio _ | document _ => cases hsent

/-- **Every new value is in the message that goes on exactly when none is at a path that is not
read.** -/
theorem complete_iff (hforms : P.RoleForms) {hookName : String} {m p : MessagePayload T}
    {s : ShimmedPayload T} {modified : Json} (hkeys : modified.DistinctKeys)
    (h : toLegacy P hookName (.message m) = .ok s)
    (happly : s.applyModified P modified = .ok p) :
    (∃ s', toLegacy P hookName (.message p) = .ok s' ∧
      Json.Keeps s.json (normalised s.shim modified) s'.json) ↔
      OnlyCovered s.shim s.json (normalised s.shim modified) := by
  obtain ⟨content, ht⟩ := toLegacy_eq_ok_iff.mp h
  obtain ⟨new, hnew, rfl⟩ := (applyModified_eq_ok_iff ht).mp happly
  obtain ⟨held, hheld⟩ := exists_sends_of_applyPart ht.json hnew
  have hagain := toLegacy_eq_ok_iff.mpr ⟨new, translates_applied ht hheld⟩
  constructor
  · rintro ⟨s', hs', hkeeps⟩ path v hleaf hnot
    obtain rfl := Except.ok.inj (hagain.symm.trans hs')
    by_contra hsent
    have hat : held.at? path = some v := hkeeps path v hleaf hsent
    exact hsent (sent_of_not_covered ht.json hheld ⟨hat, hleaf.2⟩ hnot)
  · intro honly
    refine ⟨_, hagain, fun path v hleaf hne => ?_⟩
    by_cases hcovered : Covered s.shim path
    · rcases held_of_covered hforms hkeys ht.json hnew hheld hleaf hcovered with hat | hsent
      · exact hat
      · exact absurd hsent hne
    · exact absurd (honly path v hleaf hcovered) hne

theorem complete_iff_renamed : ∃ s p,
    toLegacy Plain.engine hookCmfToolPreInvoke (.message (Plain.toolCall "search")) = .ok s ∧
    s.applyModified Plain.engine Plain.renamed = .ok p ∧
    ∃ s', toLegacy Plain.engine hookCmfToolPreInvoke (.message p) = .ok s' ∧
      Json.Keeps s.json Plain.renamed s'.json := by
  have hsent : toLegacy Plain.engine hookCmfToolPreInvoke (.message (Plain.toolCall "search")) =
      .ok _ := rfl
  have hkeys : Plain.renamed.DistinctKeys := by
    refine .object (List.nodup_singleton _) fun f hf => ?_
    obtain rfl := List.mem_singleton.mp hf
    exact .string _
  refine ⟨_, _, hsent, rfl, (complete_iff Plain.plain_roleForms hkeys hsent rfl).mpr ?_⟩
  intro path v hleaf hnot
  obtain ⟨k, rest, w, rfl, hget, hw⟩ := Json.leaf_object hleaf
  obtain ⟨rfl, rfl⟩ := Prod.mk.inj (List.mem_singleton.mp (Assoc.mem_of_get? hget))
  obtain ⟨rfl, -⟩ := Json.leaf_string hw
  exact absurd .toolName hnot

/-- A plugin that asks for more than the tool call can hold. -/
def prioritised : Json := .object [("name", .string "search"), ("priority", .string "high")]

/-- **A top-level field that no one reads is dropped.** -/
theorem unknown_field_dropped : ∃ s p,
    toLegacy Plain.engine hookCmfToolPreInvoke (.message (Plain.toolCall "search")) = .ok s ∧
    s.applyModified Plain.engine prioritised = .ok p ∧
    ∀ s', toLegacy Plain.engine hookCmfToolPreInvoke (.message p) = .ok s' →
      ¬Json.Keeps s.json (normalised s.shim prioritised) s'.json := by
  refine ⟨_, _, rfl, rfl, ?_⟩
  intro s' hs' hkeeps
  obtain rfl := Except.ok.inj hs'
  have hheld := hkeeps [.key "priority"] (.string "high") ⟨rfl, rfl⟩ (by decide)
  exact absurd hheld (by decide)

end Cpex.Host
