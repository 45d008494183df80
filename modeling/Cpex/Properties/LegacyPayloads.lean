import Cpex.Host.Legacy

/-!
# Reading legacy payloads back

What `from_value` makes of the JSON that `to_value` wrote: every field comes back, a map up to the
order of its entries.

* `ToolPreInvokePayload.fromValue_toValue` and its five siblings — one for each legacy hook
-/

namespace Cpex.Host.Legacy

open Cpex.Infra Cpex.Infra.Serde

/-! ## Optional maps -/

/-- Two optional maps hold the same values under the same keys. -/
def SameArgs {ν : Type} (a b : Option (HashMap String ν)) : Prop := Option.Rel HashMap.Same a b

theorem SameArgs.symm {ν : Type} {a b : Option (HashMap String ν)} (h : SameArgs a b) :
    SameArgs b a := by
  cases h with
  | some h => exact .some h.symm
  | none => exact .none

theorem toObject_ne_null (m : HashMap String Json) : m.toObject ≠ .null := by
  simp [HashMap.toObject, Json.ofFields]

theorem stringMap_ne_null (m : HashMap String String) : stringMap m ≠ .null := by
  simp [stringMap, Json.ofFields]

theorem readMap_toObject (m : HashMap String Json) :
    ∃ m', readMap readValue m.toObject = some m' ∧ m'.Same m := by
  have hread : ∀ v : Json, readValue (id v) = some v := fun _ => rfl
  have h := readMap_written hread m
  rwa [show (m.entries.map fun e => (e.1, id e.2)) = m.entries from List.map_id _] at h

theorem readMap_stringMap (m : HashMap String String) :
    ∃ m', readMap readString (stringMap m) = some m' ∧ m'.Same m :=
  readMap_written readString_string m

/-- An optional map is read back. -/
theorem optional_readMap {ν : Type} {read : Json → Option (HashMap String ν)}
    {write : HashMap String ν → Json} (hread : ∀ m, ∃ m', read (write m) = some m' ∧ m'.Same m)
    (hnull : ∀ m, write m ≠ .null) (a : Option (HashMap String ν)) :
    ∃ a', Serde.optional read (a.map write) = some a' ∧ SameArgs a' a := by
  cases a with
  | none => exact ⟨none, rfl, .none⟩
  | some m =>
    obtain ⟨m', hm, hsame⟩ := hread m
    refine ⟨some m', ?_, .some hsame⟩
    rw [Option.map_some, Serde.optional, hm]
    · rfl
    · exact hnull m

/-! ## The payloads -/

theorem ToolPreInvokePayload.fromValue_toValue (p : ToolPreInvokePayload) :
    ∃ q, fromValue p.toValue = some q ∧ q.name = p.name ∧ SameArgs q.args p.args ∧
      SameArgs q.headers p.headers := by
  obtain ⟨args, hargs, hsameArgs⟩ := optional_readMap readMap_toObject toObject_ne_null p.args
  obtain ⟨headers, hheaders, hsameHeaders⟩ :=
    optional_readMap readMap_stringMap stringMap_ne_null p.headers
  refine ⟨⟨p.name, args, headers⟩, ?_, rfl, hsameArgs, hsameHeaders⟩
  unfold fromValue toValue
  rw [structFields_ofFields]
  simp only [List.reverse_append, Assoc.get?_append, get?_optionalField, Option.bind_eq_bind,
    Option.bind_some]
  simp [Assoc.get?_cons, required, readString_string, hargs, hheaders]

theorem ToolPostInvokePayload.fromValue_toValue (p : ToolPostInvokePayload) :
    fromValue p.toValue = some p := by
  unfold fromValue toValue
  rw [structFields_ofFields]
  simp [required, defaulted, readString_string, readValue, Assoc.get?_cons]

theorem PromptPreFetchPayload.fromValue_toValue (p : PromptPreFetchPayload) :
    ∃ q, fromValue p.toValue = some q ∧ q.promptId = p.promptId ∧ SameArgs q.args p.args := by
  obtain ⟨args, hargs, hsame⟩ := optional_readMap readMap_stringMap stringMap_ne_null p.args
  refine ⟨⟨p.promptId, args⟩, ?_, rfl, hsame⟩
  unfold fromValue toValue
  rw [structFields_ofFields]
  simp only [List.reverse_append, Assoc.get?_append, get?_optionalField, Option.bind_eq_bind,
    Option.bind_some]
  simp [Assoc.get?_cons, required, readString_string, hargs]

theorem PromptPostFetchPayload.fromValue_toValue (p : PromptPostFetchPayload) :
    fromValue p.toValue = some p := by
  unfold fromValue toValue
  rw [structFields_ofFields]
  simp [required, defaulted, readString_string, readValue, Assoc.get?_cons]

theorem ResourcePreFetchPayload.fromValue_toValue (p : ResourcePreFetchPayload) :
    ∃ q, fromValue p.toValue = some q ∧ q.uri = p.uri ∧ SameArgs q.metadata p.metadata := by
  obtain ⟨metadata, hmetadata, hsame⟩ :=
    optional_readMap readMap_toObject toObject_ne_null p.metadata
  refine ⟨⟨p.uri, metadata⟩, ?_, rfl, hsame⟩
  unfold fromValue toValue
  rw [structFields_ofFields]
  simp only [List.reverse_append, Assoc.get?_append, get?_optionalField, Option.bind_eq_bind,
    Option.bind_some]
  simp [Assoc.get?_cons, required, readString_string, hmetadata]

theorem ResourcePostFetchPayload.fromValue_toValue (p : ResourcePostFetchPayload) :
    fromValue p.toValue = some p := by
  unfold fromValue toValue
  rw [structFields_ofFields]
  simp [required, defaulted, readString_string, readValue, Assoc.get?_cons]

/-! ## Reading an object -/

/-- A value field that is absent is `null`. -/
theorem getD_of_defaulted {field : Option Json} {v : Json}
    (h : defaulted .null readValue field = some v) : field.getD .null = v := by
  cases field with
  | none => exact Option.some.inj h
  | some w => exact Option.some.inj h

theorem ToolPreInvokePayload.fromValue_object {fields : List (String × Json)}
    {p : ToolPreInvokePayload} (h : fromValue (.object fields) = some p) :
    Assoc.get? "name" fields = some (.string p.name) ∧
      Serde.optional (readMap readValue) (Assoc.get? "args" fields) = some p.args := by
  simp only [fromValue, structFields, required, Option.bind_eq_bind, Option.bind_some,
    Option.bind_eq_some_iff] at h
  obtain ⟨name, ⟨v, hv, hname⟩, args, hargs, headers, -, heq⟩ := h
  obtain rfl := Option.some.inj heq
  exact ⟨by rw [hv, readString_eq_some.mp hname], hargs⟩

theorem ToolPostInvokePayload.fromValue_object {fields : List (String × Json)}
    {p : ToolPostInvokePayload} (h : fromValue (.object fields) = some p) :
    Assoc.get? "name" fields = some (.string p.name) ∧
      (Assoc.get? "result" fields).getD .null = p.result := by
  simp only [fromValue, structFields, required, Option.bind_eq_bind, Option.bind_some,
    Option.bind_eq_some_iff] at h
  obtain ⟨name, ⟨v, hv, hname⟩, result, hresult, heq⟩ := h
  obtain rfl := Option.some.inj heq
  exact ⟨by rw [hv, readString_eq_some.mp hname], getD_of_defaulted hresult⟩

theorem PromptPreFetchPayload.fromValue_object {fields : List (String × Json)}
    {p : PromptPreFetchPayload} (h : fromValue (.object fields) = some p) :
    Assoc.get? "prompt_id" fields = some (.string p.promptId) ∧
      Serde.optional (readMap readString) (Assoc.get? "args" fields) = some p.args := by
  simp only [fromValue, structFields, required, Option.bind_eq_bind, Option.bind_some,
    Option.bind_eq_some_iff] at h
  obtain ⟨promptId, ⟨v, hv, hid⟩, args, hargs, heq⟩ := h
  obtain rfl := Option.some.inj heq
  exact ⟨by rw [hv, readString_eq_some.mp hid], hargs⟩

theorem PromptPostFetchPayload.fromValue_object {fields : List (String × Json)}
    {p : PromptPostFetchPayload} (h : fromValue (.object fields) = some p) :
    Assoc.get? "prompt_id" fields = some (.string p.promptId) ∧
      (Assoc.get? "result" fields).getD .null = p.result := by
  simp only [fromValue, structFields, required, Option.bind_eq_bind, Option.bind_some,
    Option.bind_eq_some_iff] at h
  obtain ⟨promptId, ⟨v, hv, hid⟩, result, hresult, heq⟩ := h
  obtain rfl := Option.some.inj heq
  exact ⟨by rw [hv, readString_eq_some.mp hid], getD_of_defaulted hresult⟩

theorem ResourcePreFetchPayload.fromValue_object {fields : List (String × Json)}
    {p : ResourcePreFetchPayload} (h : fromValue (.object fields) = some p) :
    Assoc.get? "uri" fields = some (.string p.uri) := by
  simp only [fromValue, structFields, required, Option.bind_eq_bind, Option.bind_some,
    Option.bind_eq_some_iff] at h
  obtain ⟨uri, ⟨v, hv, huri⟩, metadata, -, heq⟩ := h
  obtain rfl := Option.some.inj heq
  rw [hv, readString_eq_some.mp huri]

theorem ResourcePostFetchPayload.fromValue_object {fields : List (String × Json)}
    {p : ResourcePostFetchPayload} (h : fromValue (.object fields) = some p) :
    Assoc.get? "uri" fields = some (.string p.uri) ∧
      (Assoc.get? "content" fields).getD .null = p.content := by
  simp only [fromValue, structFields, required, Option.bind_eq_bind, Option.bind_some,
    Option.bind_eq_some_iff] at h
  obtain ⟨uri, ⟨v, hv, huri⟩, content, hcontent, heq⟩ := h
  obtain rfl := Option.some.inj heq
  exact ⟨by rw [hv, readString_eq_some.mp huri], getD_of_defaulted hcontent⟩

end Cpex.Host.Legacy
