import Cpex.Infra.Except
import Cpex.Host.Extensions
import Cpex.Properties.PlainPpe

/-!
# What a worker's returned extensions can change

* `returned_extensions_gated` — each slot of the result is the inbound one, or is covered by its
  write token and differs only in what the token is for
* `echo_changes_nothing_iff` — returning the attached extensions changes nothing, unless that
  empties header maps the worker was never shown
-/

namespace Cpex.Host

open Cpex.Infra

variable {T : Types} {P : Ppe T}

/-! ## Headers -/

theorem publicHttpHeaders_eq_empty (headers : HashMap String String) :
    publicHttpHeaders headers = HashMap.empty := by
  unfold publicHttpHeaders HashMap.filter HashMap.empty
  simp only [isPublicHeader_eq_false, List.filter_false]

theorem stripSensitive_empty : stripSensitive HashMap.empty = HashMap.empty := rfl

/-- No spelling of a credential header name is a key of the map. -/
def NoCredentialHeader (headers : HashMap String String) : Prop :=
  ∀ e ∈ headers.entries, ∀ c ∈ credentialHeaders,
    Text.toAsciiLowercase e.1 ≠ Text.toAsciiLowercase c

theorem eqIgnoreAsciiCase_of_toAsciiLowercase_eq {s t : String}
    (h : Text.toAsciiLowercase s = Text.toAsciiLowercase t) :
    Text.eqIgnoreAsciiCase s t = true := by
  have hchars := congrArg String.toList h
  rw [Text.toAsciiLowercase, Text.toAsciiLowercase, String.toList_ofList, String.toList_ofList]
    at hchars
  exact beq_iff_eq.mpr hchars

theorem noCredentialHeader_stripSensitive (headers : HashMap String String) :
    NoCredentialHeader (stripSensitive headers) := by
  intro e he c hc heq
  have hkept : (!isSensitive e.1) = true := (List.mem_filter.mp he).2
  have hsens : isSensitive e.1 = true :=
    List.any_eq_true.mpr ⟨c, hc, eqIgnoreAsciiCase_of_toAsciiLowercase_eq heq⟩
  rw [hsens] at hkept
  exact absurd hkept (by decide)

/-! ## What a write token covers -/

/-- An `http` slot with the inbound request line and no credential header. -/
structure HeadersOnly (P : Ppe T) (inbound : Option (HttpExtension T)) (h : HttpExtension T) :
    Prop where
  request : NoCredentialHeader h.requestHeaders
  response : NoCredentialHeader h.responseHeaders
  secretHeaders : h.secretHeaders = (inbound.map HttpExtension.secretHeaders).getD P.noSecretHeaders
  status : h.status = inbound.bind HttpExtension.status
  method : h.method = inbound.bind HttpExtension.method
  path : h.path = inbound.bind HttpExtension.path
  host : h.host = inbound.bind HttpExtension.host
  scheme : h.scheme = inbound.bind HttpExtension.scheme

theorem headersOnly_returnedHttp (returned : HttpExtension T)
    (inbound : Option (HttpExtension T)) :
    HeadersOnly P inbound (returnedHttp P returned inbound) :=
  ⟨noCredentialHeader_stripSensitive _, noCredentialHeader_stripSensitive _, rfl, rfl, rfl, rfl,
    rfl, rfl⟩

/-- A `security` slot with exactly the inbound and the returned labels. -/
structure LabelsOnly (P : Ppe T) (inbound : Option T.Security) (returned s : T.Security) :
    Prop where
  labels : ∀ l, l ∈ P.labels s ↔
    l ∈ (inbound.map P.labels).getD [] ∨ l ∈ P.labels returned
  fields : P.securityFields s = P.securityFields (inbound.getD P.defaultSecurity)

/-- Every slot is the inbound one, or is covered by a write token and changed only in what the
token is for. -/
structure Gated (P : Ppe T) (object : List (String × Json)) (inbound : Extensions T)
    (o : OwnedExtensions T) : Prop where
  slot : ∀ n, o.slot n = inbound.slot n
  http : o.http = inbound.http ∨
    inbound.httpWriteToken = true ∧ ∃ h, o.http = some h ∧ HeadersOnly P inbound.http h
  security : o.security = inbound.security ∨ inbound.labelsWriteToken = true ∧
    ∃ returned s, returnedSlot P.securityFromValue object "security" = .ok (some returned) ∧
      o.security = some s ∧ LabelsOnly P inbound.security returned s
  delegation : o.delegation = inbound.delegation ∨ inbound.delegationWriteToken = true ∧
    ∃ d, returnedSlot P.delegationFromValue object "delegation" = .ok (some d) ∧
      o.delegation = some d ∧ (inbound.delegation.map P.chain).getD [] <+: P.chain d
  custom : o.custom = inbound.custom ∨
    ∃ c, returnedSlot (customFromValue P) object "custom" = .ok (some c) ∧ o.custom = some c

/-! ## One slot -/

/-- What merging the `http` slot does: nothing, or the returned headers under the token. -/
theorem mergeHttp_cases {object : List (String × Json)} {inbound : Extensions T} {m m' : Merge T}
    (h : mergeHttp P object inbound m = .ok m') :
    m' = m ∨ inbound.httpWriteToken = true ∧ ∃ returned,
      m' = ⟨{ m.owned with http := some (returnedHttp P returned inbound.http) }, true⟩ := by
  unfold mergeHttp at h
  obtain ⟨slot, hslot, h⟩ := bind_eq_ok.mp h
  cases slot with
  | none => exact .inl (Except.ok.inj h).symm
  | some returned =>
    by_cases htoken : inbound.httpWriteToken = true
    · simp only [htoken, ↓reduceIte] at h
      exact .inr ⟨htoken, returned, (Except.ok.inj h).symm⟩
    · simp only [htoken] at h
      exact .inl (Except.ok.inj h).symm

/-- The labels a security extension has once some are added. -/
theorem mem_labels_foldl_addLabel (hdoc : P.Documented) (l : String) : ∀ (added : List String)
    (s : T.Security),
    l ∈ P.labels (added.foldl (fun s label => P.addLabel label s) s) ↔ l ∈ P.labels s ∨ l ∈ added
  | [], s => by simp
  | x :: rest, s => by
    rw [List.foldl_cons, mem_labels_foldl_addLabel hdoc l rest, hdoc.mem_labels_addLabel,
      List.mem_cons]
    tauto

theorem securityFields_foldl_addLabel (hdoc : P.Documented) : ∀ (added : List String)
    (s : T.Security),
    P.securityFields (added.foldl (fun s label => P.addLabel label s) s) = P.securityFields s
  | [], _ => rfl
  | x :: rest, s => by
    rw [List.foldl_cons, securityFields_foldl_addLabel hdoc rest, hdoc.securityFields_addLabel]

theorem labelsOnly_foldl_addLabel (hdoc : P.Documented) (inbound : Option T.Security)
    (returned : T.Security) :
    LabelsOnly P inbound returned ((P.labels returned).foldl (fun s label => P.addLabel label s)
      (inbound.getD P.defaultSecurity)) where
  labels l := by
    rw [mem_labels_foldl_addLabel hdoc]
    cases inbound with
    | none => simp [hdoc.labels_default]
    | some s => rfl
  fields := securityFields_foldl_addLabel hdoc _ _

/-- What merging the `security` slot does: nothing, or the labels under the token. -/
theorem mergeSecurity_cases (hdoc : P.Documented) {object : List (String × Json)}
    {inbound : Extensions T} {m m' : Merge T} (h : mergeSecurity P object inbound m = .ok m') :
    m' = m ∨ inbound.labelsWriteToken = true ∧ ∃ returned s,
      returnedSlot P.securityFromValue object "security" = .ok (some returned) ∧
      m' = ⟨{ m.owned with security := some s }, true⟩ ∧
      LabelsOnly P inbound.security returned s := by
  unfold mergeSecurity at h
  obtain ⟨slot, hslot, h⟩ := bind_eq_ok.mp h
  cases slot with
  | none => exact .inl (Except.ok.inj h).symm
  | some returned =>
    by_cases htoken : inbound.labelsWriteToken = true
    · simp only [htoken, ↓reduceIte] at h
      exact .inr ⟨htoken, returned, _, hslot, (Except.ok.inj h).symm,
        labelsOnly_foldl_addLabel hdoc _ _⟩
    · simp only [htoken] at h
      exact .inl (Except.ok.inj h).symm

/-- What merging the `delegation` slot does: nothing, or a longer chain under the token. -/
theorem mergeDelegation_cases (hdoc : P.Documented) {object : List (String × Json)}
    {inbound : Extensions T} {m m' : Merge T} (h : mergeDelegation P object inbound m = .ok m') :
    m' = m ∨ inbound.delegationWriteToken = true ∧ ∃ d,
      returnedSlot P.delegationFromValue object "delegation" = .ok (some d) ∧
      m' = ⟨{ m.owned with delegation := some d }, true⟩ ∧
      (inbound.delegation.map P.chain).getD [] <+: P.chain d := by
  unfold mergeDelegation at h
  obtain ⟨slot, hslot, h⟩ := bind_eq_ok.mp h
  cases slot with
  | none => exact .inl (Except.ok.inj h).symm
  | some d =>
    by_cases htoken : inbound.delegationWriteToken = true
    · simp only [htoken, ↓reduceIte] at h
      by_cases hext : P.chainExtends ((inbound.delegation.map P.chain).getD []) (P.chain d) = true
      · rw [if_pos hext] at h
        exact .inr ⟨htoken, d, hslot, (Except.ok.inj h).symm, (hdoc.chainExtends_iff _ _).mp hext⟩
      · rw [if_neg hext] at h
        exact .inl (Except.ok.inj h).symm
    · simp only [htoken] at h
      exact .inl (Except.ok.inj h).symm

/-- What merging the `custom` slot does: nothing, or the returned map. -/
theorem mergeCustom_cases {object : List (String × Json)} {m m' : Merge T}
    (h : mergeCustom P object m = .ok m') :
    m' = m ∨ ∃ c, returnedSlot (customFromValue P) object "custom" = .ok (some c) ∧
      m' = ⟨{ m.owned with custom := some c }, true⟩ := by
  unfold mergeCustom at h
  obtain ⟨slot, hslot, h⟩ := bind_eq_ok.mp h
  cases slot with
  | none => exact .inl (Except.ok.inj h).symm
  | some c => exact .inr ⟨c, hslot, (Except.ok.inj h).symm⟩

/-! ## Every slot at once -/

theorem gated_cowCopy (hdoc : P.Documented) (object : List (String × Json))
    (inbound : Extensions T) : Gated P object inbound (P.cowCopy inbound) where
  slot n := hdoc.cowCopy_slot inbound n
  http := .inl (hdoc.cowCopy_http inbound)
  security := .inl (hdoc.cowCopy_security inbound)
  delegation := .inl (hdoc.cowCopy_delegation inbound)
  custom := .inl (hdoc.cowCopy_custom inbound)

theorem Gated.mergeHttp {object : List (String × Json)} {inbound : Extensions T} {m m' : Merge T}
    (hg : Gated P object inbound m.owned) (h : mergeHttp P object inbound m = .ok m') :
    Gated P object inbound m'.owned := by
  rcases mergeHttp_cases h with rfl | ⟨htoken, returned, rfl⟩
  · exact hg
  · exact { hg with
      http := .inr ⟨htoken, _, rfl, headersOnly_returnedHttp returned inbound.http⟩ }

theorem Gated.mergeSecurity (hdoc : P.Documented) {object : List (String × Json)}
    {inbound : Extensions T} {m m' : Merge T} (hg : Gated P object inbound m.owned)
    (h : mergeSecurity P object inbound m = .ok m') : Gated P object inbound m'.owned := by
  rcases mergeSecurity_cases hdoc h with rfl | ⟨htoken, returned, s, hslot, rfl, hlabels⟩
  · exact hg
  · exact { hg with security := .inr ⟨htoken, returned, s, hslot, rfl, hlabels⟩ }

theorem Gated.mergeDelegation (hdoc : P.Documented) {object : List (String × Json)}
    {inbound : Extensions T} {m m' : Merge T} (hg : Gated P object inbound m.owned)
    (h : mergeDelegation P object inbound m = .ok m') : Gated P object inbound m'.owned := by
  rcases mergeDelegation_cases hdoc h with rfl | ⟨htoken, d, hslot, rfl, hchain⟩
  · exact hg
  · exact { hg with delegation := .inr ⟨htoken, d, hslot, rfl, hchain⟩ }

theorem Gated.mergeCustom {object : List (String × Json)} {inbound : Extensions T}
    {m m' : Merge T} (hg : Gated P object inbound m.owned)
    (h : mergeCustom P object m = .ok m') : Gated P object inbound m'.owned := by
  rcases mergeCustom_cases h with rfl | ⟨c, hslot, rfl⟩
  · exact hg
  · exact { hg with custom := .inr ⟨c, hslot, rfl⟩ }

/-- The stages of a merge that returns owned extensions. -/
theorem ownedFromReturnedSlot_eq_some {field : Json} {inbound : Extensions T}
    {o : OwnedExtensions T} (h : ownedFromReturnedSlot P field inbound = .ok (some o)) :
    ∃ object m₁ m₂ m₃ m₄, field = .object object ∧
      mergeHttp P object inbound ⟨P.cowCopy inbound, false⟩ = .ok m₁ ∧
      mergeSecurity P object inbound m₁ = .ok m₂ ∧ mergeDelegation P object inbound m₂ = .ok m₃ ∧
      mergeCustom P object m₃ = .ok m₄ ∧ m₄.applied = true ∧ m₄.owned = o := by
  unfold ownedFromReturnedSlot at h
  split at h
  · exact absurd (Except.ok.inj h) (by simp)
  · next object =>
    obtain ⟨m₁, h₁, h⟩ := bind_eq_ok.mp h
    obtain ⟨m₂, h₂, h⟩ := bind_eq_ok.mp h
    obtain ⟨m₃, h₃, h⟩ := bind_eq_ok.mp h
    obtain ⟨m₄, h₄, h⟩ := bind_eq_ok.mp h
    by_cases happ : m₄.applied = true
    · rw [if_pos happ] at h
      exact ⟨object, m₁, m₂, m₃, m₄, rfl, h₁, h₂, h₃, h₄, happ, Option.some.inj (Except.ok.inj h)⟩
    · rw [if_neg happ] at h
      exact absurd (Except.ok.inj h) (by simp)
  · cases h

/-- **Returned extensions are gated slot by slot.** -/
theorem returned_extensions_gated (hdoc : P.Documented) {field : Json} {inbound : Extensions T}
    {o : OwnedExtensions T} (h : ownedFromReturnedSlot P field inbound = .ok (some o)) :
    ∃ object, field = .object object ∧ Gated P object inbound o := by
  obtain ⟨object, m₁, m₂, m₃, m₄, hfield, h₁, h₂, h₃, h₄, _, rfl⟩ :=
    ownedFromReturnedSlot_eq_some h
  have g₁ : Gated P object inbound m₁.owned := (gated_cowCopy hdoc object inbound).mergeHttp h₁
  have g₂ : Gated P object inbound m₂.owned := g₁.mergeSecurity hdoc h₂
  have g₃ : Gated P object inbound m₃.owned := g₂.mergeDelegation hdoc h₃
  exact ⟨object, hfield, g₃.mergeCustom h₄⟩

/-- A view of a plain engine, with every write token. -/
def writableView : Extensions Plain.types where
  slot n := if n = .agent then some (.object [("agent_id", .string "planner")]) else none
  http := some {
    requestHeaders := HashMap.ofList [("X-Request-Id", "req-1")]
    secretHeaders := []
    responseHeaders := HashMap.empty
    status := none
    method := some "GET"
    path := some "/v1/orders"
    host := some "orders.internal"
    scheme := some "https" }
  security := some ⟨["PII"], some "jwt"⟩
  delegation := some ["gateway"]
  custom := none
  rawCredentials := none
  httpWriteToken := true
  labelsWriteToken := true
  delegationWriteToken := true

/-- A return that goes beyond what the tokens are for in every slot. -/
def greedyReturn : Json := .object [
  ("agent", .object [("agent_id", .string "forged")]),
  ("delegation", .object [("chain", .array [.string "gateway", .string "tool"])]),
  ("http", .object [("host", .string "elsewhere"), ("request_headers",
    .object [("AUTHORIZATION", .string "Bearer x"), ("X-Trace", .string "1")])]),
  ("security", .object [("auth_method", .string "none"), ("labels", .array [.string "SCANNED"])])]

theorem greedyReturn_gated : ∃ o,
    ownedFromReturnedSlot Plain.engine greedyReturn writableView = .ok (some o) ∧
    ∃ object, greedyReturn = .object object ∧ Gated Plain.engine object writableView o :=
  ⟨_, rfl, returned_extensions_gated Plain.plain_documented rfl⟩

/-! ## What was attached -/

theorem put_eq_ok {α : Type} {key : String} {write : α → Except String Json} {a : Option α}
    {fields : List (String × Json)} (h : put key write a = .ok fields) :
    (a = none ∧ fields = []) ∨ ∃ x v, a = some x ∧ write x = .ok v ∧ fields = [(key, v)] := by
  cases a with
  | none => exact .inl ⟨rfl, (Except.ok.inj h).symm⟩
  | some x =>
    rw [put] at h
    cases hw : write x with
    | error e =>
      rw [hw] at h
      cases h
    | ok v =>
      rw [hw] at h
      exact .inr ⟨x, v, rfl, hw, (Except.ok.inj h).symm⟩

/-- A slot and the field under its key: both absent, or the field is what the slot writes. -/
def SlotOnWire {α : Type} (object : List (String × Json)) (key : String)
    (write : α → Except String Json) (a : Option α) : Prop :=
  (a = none ∧ Assoc.get? key object = none) ∨
    ∃ x v, a = some x ∧ write x = .ok v ∧ Assoc.get? key object = some v

/-- The field of a key that only `fields` can hold. -/
theorem slotOnWire_of_put {α : Type} {object fields : List (String × Json)} {key : String}
    {write : α → Except String Json} {a : Option α} (h : put key write a = .ok fields)
    (hget : Assoc.get? key object = Assoc.get? key fields) : SlotOnWire object key write a := by
  rcases put_eq_ok h with ⟨rfl, rfl⟩ | ⟨x, v, rfl, hw, rfl⟩
  · exact .inl ⟨rfl, by rw [hget, Assoc.get?_nil]⟩
  · exact .inr ⟨x, v, rfl, hw, by rw [hget, Assoc.get?_cons_self]⟩

/-- A slot writes under its own key and no other. -/
theorem get?_reverse_put {α : Type} {key : String} {write : α → Except String Json}
    {a : Option α} {fields : List (String × Json)} (h : put key write a = .ok fields)
    (j : String) :
    Assoc.get? j fields.reverse = if key = j then Assoc.get? key fields else none := by
  rcases put_eq_ok h with ⟨_, rfl⟩ | ⟨_, v, _, _, rfl⟩
  · simp
  · rw [List.reverse_singleton, Assoc.get?_cons, Assoc.get?_nil, Assoc.get?_cons_self]

/-- The writable slots on the wire. -/
structure OnWire (P : Ppe T) (inbound : Extensions T) (object : List (String × Json)) : Prop where
  http : SlotOnWire object "http" (fun h => P.httpToValue (sanitizeHttp h)) inbound.http
  security : SlotOnWire object "security" P.securityToValue inbound.security
  delegation : SlotOnWire object "delegation" P.delegationToValue inbound.delegation
  custom : SlotOnWire object "custom" (fun m => .ok (HashMap.toObject m)) inbound.custom

theorem toWire_eq_ok {inbound : Extensions T} {wire : Json} (h : toWire P inbound = .ok wire) :
    ∃ object, wire = .object object ∧ OnWire P inbound object := by
  unfold toWire at h
  obtain ⟨request, h₁, h⟩ := bind_eq_ok.mp h
  obtain ⟨agent, h₂, h⟩ := bind_eq_ok.mp h
  obtain ⟨http, h₃, h⟩ := bind_eq_ok.mp h
  obtain ⟨security, h₄, h⟩ := bind_eq_ok.mp h
  obtain ⟨delegation, h₅, h⟩ := bind_eq_ok.mp h
  obtain ⟨mcp, h₆, h⟩ := bind_eq_ok.mp h
  obtain ⟨completion, h₇, h⟩ := bind_eq_ok.mp h
  obtain ⟨provenance, h₈, h⟩ := bind_eq_ok.mp h
  obtain ⟨llm, h₉, h⟩ := bind_eq_ok.mp h
  obtain ⟨framework, h₁₀, h⟩ := bind_eq_ok.mp h
  obtain ⟨metadata, h₁₁, h⟩ := bind_eq_ok.mp h
  obtain ⟨custom, h₁₂, h⟩ := bind_eq_ok.mp h
  refine ⟨_, (Except.ok.inj h).symm, slotOnWire_of_put h₃ ?_, slotOnWire_of_put h₄ ?_,
    slotOnWire_of_put h₅ ?_, slotOnWire_of_put h₁₂ ?_⟩
  all_goals
    simp only [Json.get?_foldl_putSorted, List.reverse_append, Assoc.get?_append,
      get?_reverse_put h₁, get?_reverse_put h₂, get?_reverse_put h₃, get?_reverse_put h₄,
      get?_reverse_put h₅, get?_reverse_put h₆, get?_reverse_put h₇, get?_reverse_put h₈,
      get?_reverse_put h₉, get?_reverse_put h₁₀, get?_reverse_put h₁₁, get?_reverse_put h₁₂]
    simp [ImmutableSlot.key]

/-! ## Echo -/

theorem returnedSlot_of_none {α : Type} {parse : Json → Except String α}
    {object : List (String × Json)} {key : String} (h : Assoc.get? key object = none) :
    returnedSlot parse object key = .ok none := by
  rw [returnedSlot, h]

theorem returnedSlot_of_parse {α : Type} {parse : Json → Except String α}
    {object : List (String × Json)} {key : String} {v : Json} {a : α}
    (h : Assoc.get? key object = some v) (hv : v ≠ .null) (hparse : parse v = .ok a) :
    returnedSlot parse object key = .ok (some a) := by
  unfold returnedSlot
  rw [h]
  split
  · next he => exact absurd he (by simp)
  · next he => exact absurd (Option.some.inj he) hv
  · next w _ he =>
    rw [← Option.some.inj he, hparse]

/-- A slot that is `null` or parses is read without an error. -/
theorem returnedSlot_of_parse' {α : Type} {parse : Json → Except String α}
    {object : List (String × Json)} {key : String} {v : Json} {a : α}
    (h : Assoc.get? key object = some v) (hparse : parse v = .ok a) :
    returnedSlot parse object key = .ok none ∨ returnedSlot parse object key = .ok (some a) := by
  by_cases hv : v = .null
  · subst hv
    exact .inl (by rw [returnedSlot, h])
  · exact .inr (returnedSlot_of_parse h hv hparse)

/-- Two `custom` slots hold the same values under the same keys. -/
def SameCustom (a b : Option (HashMap String Json)) : Prop :=
  ∀ key, a.map (HashMap.get? · key) = b.map (HashMap.get? · key)

/-- The owned copy is the inbound view. -/
structure Unchanged (inbound : Extensions T) (o : OwnedExtensions T) : Prop where
  slot : ∀ n, o.slot n = inbound.slot n
  http : o.http = inbound.http
  security : o.security = inbound.security
  delegation : o.delegation = inbound.delegation
  custom : SameCustom o.custom inbound.custom

/-- An `http` slot whose header maps are emptied. -/
def withoutHeaders (http : HttpExtension T) : HttpExtension T :=
  { http with requestHeaders := HashMap.empty, responseHeaders := HashMap.empty }

/-- The owned copy is the inbound view, but for the header maps when the token is there. -/
structure Echoed (inbound : Extensions T) (m : Merge T) : Prop where
  slot : ∀ n, m.owned.slot n = inbound.slot n
  http : m.owned.http =
    if inbound.httpWriteToken then inbound.http.map withoutHeaders else inbound.http
  applied : inbound.httpWriteToken = true → inbound.http.isSome → m.applied = true
  security : m.owned.security = inbound.security
  delegation : m.owned.delegation = inbound.delegation
  custom : SameCustom m.owned.custom inbound.custom

theorem returnedHttp_of_empty {returned h : HttpExtension T}
    (hreq : returned.requestHeaders = HashMap.empty)
    (hresp : returned.responseHeaders = HashMap.empty) :
    returnedHttp P returned (some h) = withoutHeaders h := by
  unfold returnedHttp withoutHeaders
  rw [hreq, hresp, stripSensitive_empty]
  rfl

theorem echoed_mergeHttp (hdoc : P.Documented) (hrt : P.RoundTrips)
    {object : List (String × Json)} {inbound : Extensions T} (hwire : OnWire P inbound object) :
    ∃ m, mergeHttp P object inbound ⟨P.cowCopy inbound, false⟩ = .ok m ∧ Echoed inbound m := by
  unfold mergeHttp
  rcases hwire.http with ⟨hnone, hget⟩ | ⟨h, v, hsome, hw, hget⟩
  · rw [returnedSlot_of_none hget]
    refine ⟨_, rfl, hdoc.cowCopy_slot inbound, ?_, ?_, hdoc.cowCopy_security inbound,
      hdoc.cowCopy_delegation inbound, fun _ => by rw [hdoc.cowCopy_custom]⟩
    · rw [hdoc.cowCopy_http, hnone]
      simp
    · rw [hnone]
      exact fun _ hno => absurd hno (by simp)
  · obtain ⟨hv, h', hparse, hreq, hresp⟩ := hrt.http (sanitizeHttp h) v
      (publicHttpHeaders_eq_empty _) (publicHttpHeaders_eq_empty _) hw
    rw [returnedSlot_of_parse hget hv hparse]
    by_cases htoken : inbound.httpWriteToken = true
    · simp only [ok_bind, htoken, ↓reduceIte, pure_eq_ok]
      refine ⟨_, rfl, hdoc.cowCopy_slot inbound, ?_, fun _ _ => rfl,
        hdoc.cowCopy_security inbound, hdoc.cowCopy_delegation inbound,
        fun _ => by rw [hdoc.cowCopy_custom]⟩
      rw [hsome, returnedHttp_of_empty hreq hresp, htoken]
      rfl
    · simp only [ok_bind, htoken]
      refine ⟨_, rfl, hdoc.cowCopy_slot inbound, ?_, fun hno => absurd hno htoken,
        hdoc.cowCopy_security inbound, hdoc.cowCopy_delegation inbound,
        fun _ => by rw [hdoc.cowCopy_custom]⟩
      rw [hdoc.cowCopy_http, if_neg htoken]

/-- Adding labels that are there already changes nothing. -/
theorem foldl_addLabel_of_mem (hdoc : P.Documented) {s : T.Security} : ∀ {added : List String},
    (∀ l ∈ added, l ∈ P.labels s) → added.foldl (fun s label => P.addLabel label s) s = s
  | [], _ => rfl
  | x :: rest, h => by
    rw [List.foldl_cons, hdoc.addLabel_of_mem x s (h x List.mem_cons_self)]
    exact foldl_addLabel_of_mem hdoc fun l hl => h l (List.mem_cons_of_mem _ hl)

theorem Echoed.mergeSecurity (hdoc : P.Documented) (hrt : P.RoundTrips)
    {object : List (String × Json)} {inbound : Extensions T} {m : Merge T}
    (hwire : OnWire P inbound object) (hm : Echoed inbound m) :
    ∃ m', mergeSecurity P object inbound m = .ok m' ∧ Echoed inbound m' := by
  unfold Host.mergeSecurity
  rcases hwire.security with ⟨_, hget⟩ | ⟨s, v, hsome, hw, hget⟩
  · rw [returnedSlot_of_none hget]
    exact ⟨m, rfl, hm⟩
  · obtain ⟨s', hparse, hlabels⟩ := hrt.security s v hw
    rcases returnedSlot_of_parse' hget hparse with hslot | hslot
    · rw [hslot]
      exact ⟨m, rfl, hm⟩
    · rw [hslot]
      by_cases htoken : inbound.labelsWriteToken = true
      · simp only [ok_bind, htoken, ↓reduceIte, pure_eq_ok]
        refine ⟨_, rfl, { hm with applied := fun _ _ => rfl, security := ?_ }⟩
        rw [hsome, Option.getD_some, foldl_addLabel_of_mem hdoc fun l hl => (hlabels l).mp hl]
      · simp only [ok_bind, htoken]
        exact ⟨m, rfl, hm⟩

theorem Echoed.mergeDelegation (hdoc : P.Documented) (hrt : P.RoundTrips)
    {object : List (String × Json)} {inbound : Extensions T} {m : Merge T}
    (hwire : OnWire P inbound object) (hm : Echoed inbound m) :
    ∃ m', mergeDelegation P object inbound m = .ok m' ∧ Echoed inbound m' := by
  unfold Host.mergeDelegation
  rcases hwire.delegation with ⟨_, hget⟩ | ⟨d, v, hsome, hw, hget⟩
  · rw [returnedSlot_of_none hget]
    exact ⟨m, rfl, hm⟩
  · rcases returnedSlot_of_parse' hget (hrt.delegation d v hw) with hslot | hslot
    · rw [hslot]
      exact ⟨m, rfl, hm⟩
    · rw [hslot]
      by_cases htoken : inbound.delegationWriteToken = true
      · have hext :
            P.chainExtends ((inbound.delegation.map P.chain).getD []) (P.chain d) = true := by
          rw [hsome, hdoc.chainExtends_iff]
          exact List.prefix_rfl
        simp only [ok_bind, htoken, ↓reduceIte, hext, pure_eq_ok]
        exact ⟨_, rfl, { hm with applied := fun _ _ => rfl, delegation := hsome.symm }⟩
      · simp only [ok_bind, htoken]
        exact ⟨m, rfl, hm⟩

theorem Echoed.mergeCustom {object : List (String × Json)} {inbound : Extensions T}
    {m : Merge T} (hwire : OnWire P inbound object) (hm : Echoed inbound m) :
    ∃ m', mergeCustom P object m = .ok m' ∧ Echoed inbound m' := by
  unfold Host.mergeCustom
  rcases hwire.custom with ⟨_, hget⟩ | ⟨c, v, hsome, hw, hget⟩
  · rw [returnedSlot_of_none hget]
    exact ⟨m, rfl, hm⟩
  · obtain rfl : HashMap.toObject c = v := Except.ok.inj hw
    obtain ⟨c', hread, hsame⟩ := HashMap.same_ofObject_toObject c
    have hparse : customFromValue P (HashMap.toObject c) = .ok c' := by
      rw [customFromValue, hread]
    rw [returnedSlot_of_parse hget (by simp [HashMap.toObject, Json.ofFields]) hparse]
    refine ⟨_, rfl, { hm with applied := fun _ _ => rfl, custom := fun key => ?_ }⟩
    rw [hsome, Option.map_some, Option.map_some, hsame key]

/-- Returning what was attached never fails, and changes at most the header maps. -/
theorem ownedFromReturnedSlot_echo (hdoc : P.Documented) (hrt : P.RoundTrips)
    {object : List (String × Json)} {inbound : Extensions T} (hwire : OnWire P inbound object) :
    ∃ m, Echoed inbound m ∧ ownedFromReturnedSlot P (.object object) inbound =
      .ok (if m.applied then some m.owned else none) := by
  obtain ⟨m₁, h₁, e₁⟩ := echoed_mergeHttp hdoc hrt hwire
  obtain ⟨m₂, h₂, e₂⟩ := e₁.mergeSecurity hdoc hrt hwire
  obtain ⟨m₃, h₃, e₃⟩ := e₂.mergeDelegation hdoc hrt hwire
  obtain ⟨m₄, h₄, e₄⟩ := e₃.mergeCustom hwire
  refine ⟨m₄, e₄, ?_⟩
  simp only [ownedFromReturnedSlot, h₁, h₂, h₃, h₄, ok_bind, pure_eq_ok]

/-- Nothing is returned, or owned extensions that are the inbound view. -/
def ChangesNothing (inbound : Extensions T)
    (result : Except HostError (Option (OwnedExtensions T))) : Prop :=
  ∃ r, result = .ok r ∧ ∀ o, r = some o → Unchanged inbound o

/-- There is no header for an echo to empty, or no token to empty it with. -/
def NoHeadersToLose (inbound : Extensions T) : Prop :=
  inbound.httpWriteToken = false ∨ ∀ h, inbound.http = some h →
    h.requestHeaders = HashMap.empty ∧ h.responseHeaders = HashMap.empty

theorem withoutHeaders_eq_self {h : HttpExtension T} :
    withoutHeaders h = h ↔
      h.requestHeaders = HashMap.empty ∧ h.responseHeaders = HashMap.empty := by
  constructor
  · intro he
    exact ⟨(congrArg HttpExtension.requestHeaders he).symm,
      (congrArg HttpExtension.responseHeaders he).symm⟩
  · rintro ⟨hreq, hresp⟩
    cases h
    simp only [withoutHeaders] at hreq hresp ⊢
    rw [hreq, hresp]

theorem attachExtensions_eq_ok {task task' wire : Json} {inbound : Extensions T}
    (hattach : attachExtensions P task inbound = .ok task')
    (hfresh : task.get? extensionsField = none) (hwire : task'.get? extensionsField = some wire) :
    toWire P inbound = .ok wire := by
  obtain ⟨w, hw, h⟩ := bind_eq_ok.mp hattach
  by_cases hempty : w = .object []
  · rw [if_pos hempty] at h
    rw [← Except.ok.inj h, hfresh] at hwire
    exact absurd hwire (by simp)
  · rw [if_neg hempty] at h
    cases task with
    | object fields =>
      rw [← Except.ok.inj h, Json.get?_set_self] at hwire
      rw [hw, Option.some.inj hwire]
    | null | bool _ | number _ | string _ | array _ => cases h

/-- **An echo changes nothing exactly when it has no header to lose.** -/
theorem echo_changes_nothing_iff (hdoc : P.Documented) (hrt : P.RoundTrips)
    {task task' wire : Json} {inbound : Extensions T}
    (hfresh : task.get? extensionsField = none)
    (hattach : attachExtensions P task inbound = .ok task')
    (hwire : task'.get? extensionsField = some wire) :
    ChangesNothing inbound (ownedFromReturnedSlot P wire inbound) ↔ NoHeadersToLose inbound := by
  obtain ⟨object, rfl, honwire⟩ := toWire_eq_ok (attachExtensions_eq_ok hattach hfresh hwire)
  obtain ⟨m, hm, hresult⟩ := ownedFromReturnedSlot_echo hdoc hrt honwire
  rw [hresult]
  constructor
  · rintro ⟨r, hr, hsame⟩
    by_cases htoken : inbound.httpWriteToken = true
    · refine .inr fun h hsome => withoutHeaders_eq_self.mp ?_
      have happlied : m.applied = true := hm.applied htoken (by rw [hsome]; rfl)
      rw [happlied] at hr
      have hhttp : m.owned.http = inbound.http := (hsame m.owned (Except.ok.inj hr).symm).http
      rw [hm.http, if_pos htoken, hsome] at hhttp
      exact Option.some.inj hhttp
    · exact .inl (by simpa using htoken)
  · intro hlose
    refine ⟨_, rfl, fun o ho => ?_⟩
    obtain ⟨_, rfl⟩ : m.applied = true ∧ m.owned = o := by simpa using ho
    refine ⟨hm.slot, ?_, hm.security, hm.delegation, hm.custom⟩
    rw [hm.http]
    rcases hlose with hno | hempty
    · rw [if_neg (by simp [hno])]
    · cases hhttp : inbound.http with
      | none => simp
      | some h => simp [withoutHeaders_eq_self.mpr (hempty h hhttp)]

/-- The view without the `http` token. -/
def readableView : Extensions Plain.types := { writableView with httpWriteToken := false }

theorem readableView_echo : ∃ task wire,
    attachExtensions Plain.engine (.object []) readableView = .ok task ∧
    task.get? extensionsField = some wire ∧
    ChangesNothing readableView (ownedFromReturnedSlot Plain.engine wire readableView) := by
  refine ⟨_, _, rfl, rfl, ?_⟩
  have hfresh : (Json.object []).get? extensionsField = none := rfl
  exact (echo_changes_nothing_iff Plain.plain_documented Plain.plain_roundTrips hfresh rfl rfl).mpr
    (.inl rfl)

/-- **With the `http` token an echo deletes the headers the worker was never shown.** -/
theorem writableView_echo_loses_headers : ∃ task wire,
    attachExtensions Plain.engine (.object []) writableView = .ok task ∧
    task.get? extensionsField = some wire ∧
    ¬ChangesNothing writableView (ownedFromReturnedSlot Plain.engine wire writableView) := by
  refine ⟨_, _, rfl, rfl, ?_⟩
  rintro ⟨r, hr, hsame⟩
  have hhttp := (hsame _ (Except.ok.inj hr).symm).http
  have hheaders := congrArg (Option.map fun h => h.requestHeaders.entries) hhttp
  exact absurd hheaders (by decide)

end Cpex.Host
