import Cpex.Properties.PlainPpe
import Cpex.Properties.Shim

/-!
# What a modified legacy payload may touch

The worker's answer is any JSON at all. Whatever it is, the shim writes it onto the part the hook
selected and onto the fields the legacy payload names, and nowhere else.

* `applyModified_framed` — the frame of `apply_modified`, for every hook and every answer
-/

namespace Cpex.Host

open Cpex.Infra

variable {T : Types} {P : Ppe T}

/-! ## The frame -/

/-- Nested messages rewritten in place. What the legacy form does not name is kept by position. -/
structure MessagesFramed (P : Ppe T) (old new : List (Message T)) : Prop where
  text : ∀ (i : Nat) (message : Message T), new[i]? = some message →
    ∃ text, message.content = [.text text]
  kept : ∀ (i : Nat) (a b : Message T), old[i]? = some a → new[i]? = some b →
    b.schemaVersion = a.schemaVersion ∧ b.channel = a.channel
  appended : ∀ (i : Nat) (b : Message T), old[i]? = none → new[i]? = some b →
    b.schemaVersion = (P.textMessage b.role "").schemaVersion ∧
      b.channel = (P.textMessage b.role "").channel

/-- The fields of a part a hook's answer may replace, and what binds the derived ones. -/
inductive PartFramed (P : Ppe T) (modified : Json) : Shim → ContentPart T → ContentPart T → Prop
  | toolCall (content : ToolCall) (name : String) (arguments : HashMap String Json) :
      PartFramed P modified .toolPreInvoke (.toolCall content)
        (.toolCall { content with name, arguments })
  | toolResult (content : ToolResult) (returned : Legacy.ToolPostInvokePayload) (isError : Bool)
      (read : Legacy.ToolPostInvokePayload.fromValue modified = some returned)
      (neverCleared : content.isError = true → isError = true)
      (onlyIfSaid : content.isError = false → isError = true →
        resultSaysError returned.result = true) :
      PartFramed P modified .toolPostInvoke (.toolResult content)
        (.toolResult { content with
          toolName := returned.name, content := returned.result, isError })
  | promptRequest (content : PromptRequest) (name : String) (arguments : HashMap String Json) :
      PartFramed P modified .promptPreFetch (.promptRequest content)
        (.promptRequest { content with name, arguments })
  | promptResult (promptRequestId oldName newName : String) (old new : List (Message T))
      (rendered : Option String) (isError : Bool) (errorMessage : Option String)
      (nested : MessagesFramed P old new) :
      PartFramed P modified .promptPostFetch
        (.promptResult (.mk promptRequestId oldName old rendered isError errorMessage))
        (.promptResult (.mk promptRequestId newName new rendered isError errorMessage))
  | resourcePre (content : Resource T) (uri : String)
      (bare : uri ≠ content.uri → P.isEmbedded content = false ∧ content.mimeType = none ∧
        content.sizeBytes = none) :
      PartFramed P modified .resourcePreFetch (.resource content) (.resource { content with uri })
  | resourceRef (content : ResourceReference T) (uri : String) :
      PartFramed P modified .resourcePreFetch (.resourceRef content)
        (.resourceRef { content with uri })
  | resourcePost (content : Resource T) (uri : String) (text mimeType : Option String)
      (sizeBytes : Option UInt64)
      (sameText : text = content.content → sizeBytes = content.sizeBytes)
      (unsized : content.sizeBytes = none → sizeBytes = none)
      (resized : content.sizeBytes ≠ none → text ≠ content.content →
        sizeBytes = text.map fun t => UInt64.ofNat t.utf8ByteSize) :
      PartFramed P modified .resourcePostFetch (.resource content)
        (.resource { content with uri, content := text, mimeType, sizeBytes })

/-- `p` is `m` with the fields a hook's answer names replaced in the part the hook selects. -/
structure Framed (P : Ppe T) (s : ShimmedPayload T) (modified : Json)
    (m p : MessagePayload T) : Prop where
  schemaVersion : p.message.schemaVersion = m.message.schemaVersion
  role : p.message.role = m.message.role
  channel : p.message.channel = m.message.channel
  length : p.message.content.length = m.message.content.length
  siblings : ∀ i, i ≠ s.part → p.message.content[i]? = m.message.content[i]?
  selected : ∀ i part, m.message.content[i]? = some part →
    (s.shim.accepts part = true ↔ i = s.part)
  part : ∃ old new, m.message.content[s.part]? = some old ∧
    p.message.content[s.part]? = some new ∧ PartFramed P modified s.shim old new

/-! ## Each hook keeps it -/

theorem readsMessages_framed {items : List Json} {old new : List (Message T)}
    (h : ReadsMessages P items old new) : MessagesFramed P old new := by
  induction h with
  | nil old =>
    refine ⟨fun i message h => ?_, fun i a b _ h => ?_, fun i b _ h => ?_⟩ <;> cases h
  | @cons item items old rest role text _ _ ih =>
    refine ⟨fun i message hnew => ?_, fun i a b hold hnew => ?_, fun i b hold hnew => ?_⟩
    · cases i with
      | zero =>
        obtain rfl := Option.some.inj hnew
        exact ⟨text, rfl⟩
      | succ i => exact ih.text i message hnew
    · cases i with
      | zero =>
        obtain rfl := Option.some.inj hnew
        have hkept : keptMessage P role old = a := by
          rw [keptMessage, List.head?_eq_getElem?, hold]
          rfl
        rw [hkept]
        exact ⟨rfl, rfl⟩
      | succ i => exact ih.kept i a b (by rw [List.getElem?_tail, hold]) hnew
    · cases i with
      | zero =>
        obtain rfl := Option.some.inj hnew
        have hkept : keptMessage P role old = P.textMessage role "" := by
          rw [keptMessage, List.head?_eq_getElem?, hold]
          rfl
        rw [hkept]
        exact ⟨rfl, rfl⟩
      | succ i => exact ih.appended i b (by rw [List.getElem?_tail, hold]) hnew

/-- The size of a rewritten resource is the size of its text. -/
theorem rewrittenSize_framed (content : Resource T) (text : Option String) :
    (text = content.content → rewrittenSize content text = content.sizeBytes) ∧
    (content.sizeBytes = none → rewrittenSize content text = none) ∧
    (content.sizeBytes ≠ none → text ≠ content.content →
      rewrittenSize content text = text.map fun t => UInt64.ofNat t.utf8ByteSize) := by
  unfold rewrittenSize
  refine ⟨fun hsame => ?_, fun hnone => ?_, fun hsized hchanged => ?_⟩
  · rw [if_neg (by simp [hsame])]
  · rw [if_neg (by simp [hnone]), hnone]
  · rw [if_pos (by simp [hchanged, Option.isSome_iff_ne_none, hsized])]

theorem applyPart_framed {s : ShimmedPayload T} {modified json : Json} {shim : Shim}
    {old new : ContentPart T} (hsends : Sends P shim old json)
    (happly : s.applyPart P modified shim old = .ok new) :
    PartFramed P modified shim old new := by
  cases hsends with
  | toolCall _ =>
    obtain ⟨legacy, -, -, rfl⟩ := applyPart_toolCall.mp happly
    exact .toolCall _ _ _
  | toolResult _ =>
    obtain ⟨legacy, hread, hcleared, rfl⟩ := applyPart_toolResult.mp happly
    refine .toolResult _ legacy _ hread (fun herror => ?_) (fun hok hsaid => ?_)
    · rw [herror, Bool.true_or]
    · rwa [hok, Bool.false_or] at hsaid
  | promptRequest _ _ =>
    obtain ⟨legacy, -, rfl⟩ := applyPart_promptRequest.mp happly
    exact .promptRequest _ _ _
  | promptResult _ _ _ =>
    obtain ⟨legacy, messages, -, hresult, rfl⟩ := applyPart_promptResult.mp happly
    obtain ⟨items, -, hmessages⟩ := hresult.messages
    exact .promptResult _ _ _ _ _ _ _ _ (readsMessages_framed hmessages)
  | @resourcePre content _ =>
    obtain ⟨uri, -, hdescribes, rfl⟩ := applyPart_resourcePre.mp happly
    refine .resourcePre _ _ fun hne => ?_
    have hnot : ¬DescribesUri P content := fun h => hne (hdescribes h)
    simpa [DescribesUri] using hnot
  | resourceRef content =>
    obtain ⟨uri, -, rfl⟩ := applyPart_resourceRef.mp happly
    exact .resourceRef _ _
  | @resourcePost content _ _ =>
    obtain ⟨legacy, text, mimeType, -, -, rfl⟩ := applyPart_resourcePost.mp happly
    obtain ⟨hsame, hunsized, hresized⟩ := rewrittenSize_framed content text
    exact .resourcePost _ _ _ _ _ hsame hunsized hresized

/-! ## Whatever the worker answers -/

/-- **A modified legacy payload touches only the mapped fields of the selected part.** -/
theorem applyModified_framed {hookName : String} {m p : MessagePayload T} {s : ShimmedPayload T}
    {modified : Json} (h : toLegacy P hookName (.message m) = .ok s)
    (happly : s.applyModified P modified = .ok p) : Framed P s modified m p := by
  obtain ⟨content, ht⟩ := toLegacy_eq_ok_iff.mp h
  obtain ⟨new, hnew, rfl⟩ := (applyModified_eq_ok_iff ht).mp happly
  have hlt : s.part < m.message.content.length := (List.getElem?_eq_some_iff.mp ht.part).1
  exact {
    schemaVersion := rfl
    role := rfl
    channel := rfl
    length := List.length_set
    siblings := fun i hne => List.getElem?_set_ne (Ne.symm hne)
    selected := fun i part hpart => ht.selected hpart
    part := ⟨content, new, ht.part, List.getElem?_set_self hlt, applyPart_framed ht.json hnew⟩ }

theorem applyModified_framed_renamed : ∃ s p,
    toLegacy Plain.engine hookCmfToolPreInvoke (.message (Plain.toolCall "search")) = .ok s ∧
    s.applyModified Plain.engine Plain.renamed = .ok p ∧
    Framed Plain.engine s Plain.renamed (Plain.toolCall "search") p := by
  have hsent : toLegacy Plain.engine hookCmfToolPreInvoke (.message (Plain.toolCall "search")) =
      .ok _ := rfl
  exact ⟨_, _, hsent, rfl, applyModified_framed hsent rfl⟩

end Cpex.Host
