import Cpex.Infra.Except
import Cpex.Host.Invoke
import Cpex.Properties.PlainPpe

/-!
# Denials

A worker denies with `continue_processing: false`, or by rejecting an identity. Every other field
of the response is parsed too, and a field that does not parse turns the answer into an error.

* `deny_preserved_iff` — a deny reaches the executor exactly when the other fields can be read
* `native_deny_becomes_error` — a modified payload the deny should have made irrelevant
-/

namespace Cpex.Host

open Cpex.Infra

variable {T : Types} {P : Ppe T}

/-! ## What can be read -/

/-- A slot that is absent, `null` or parses. -/
def SlotReadable {α : Type} (parse : Json → Except String α) (object : List (String × Json))
    (key : String) : Prop :=
  ∀ v, Assoc.get? key object = some v → v ≠ .null → ∃ a, parse v = .ok a

/-- Returned extensions that are absent, `null`, or an object whose writable slots parse. -/
def ExtensionsReadable (P : Ppe T) (field : Option Json) : Prop :=
  ∀ v, field = some v → v ≠ .null → ∃ object, v = .object object ∧
    SlotReadable P.httpFromValue object "http" ∧
    SlotReadable P.securityFromValue object "security" ∧
    SlotReadable P.delegationFromValue object "delegation" ∧
    SlotReadable (customFromValue P) object "custom"

/-- A violation that is absent, `null` or an object. -/
def ViolationReadable (field : Option Json) : Prop :=
  ∀ v, field = some v → v ≠ .null → ∃ object, v = .object object

/-- Reject details of the types the host expects, and no field it does not know. -/
structure RejectionReadable (fields : List (String × Json)) : Prop where
  known : firstUnknown (identityResultFields ++ identityInputFields) fields = none
  reason : ∀ v, Assoc.get? "reject_reason" fields = some v → v ≠ .null → ∃ s, v = .string s
  status : ∀ v, Assoc.get? "reject_status" fields = some v → v ≠ .null → ∃ i, v.asI64 = some i

/-- A modified payload that is absent or `null`. -/
def PayloadAbsent (field : Option Json) : Prop := ∀ v, field = some v → v = .null

theorem returnedSlot_isOk_iff {α : Type} {parse : Json → Except String α}
    {object : List (String × Json)} {key : String} :
    (∃ a, returnedSlot parse object key = .ok a) ↔ SlotReadable parse object key := by
  unfold returnedSlot SlotReadable
  constructor
  · rintro ⟨a, h⟩ v hget hne
    rw [hget] at h
    cases hparse : parse v with
    | ok x => exact ⟨x, rfl⟩
    | error e =>
      cases v with
      | null => exact absurd rfl hne
      | bool _ | number _ | string _ | array _ | object _ => simp [hparse] at h
  · intro h
    split
    · exact ⟨_, rfl⟩
    · exact ⟨_, rfl⟩
    · next v hne hget =>
      obtain ⟨a, ha⟩ := h v hget hne
      exact ⟨some a, by rw [ha]⟩

theorem mergeHttp_isOk_iff {object : List (String × Json)} {inbound : Extensions T} {m : Merge T} :
    (∃ m', mergeHttp P object inbound m = .ok m') ↔
      SlotReadable P.httpFromValue object "http" := by
  refine (exists_bind_eq_ok_iff fun slot => ?_).trans returnedSlot_isOk_iff
  split
  · split
    · exact ⟨_, rfl⟩
    · exact ⟨_, rfl⟩
  · exact ⟨_, rfl⟩

theorem mergeSecurity_isOk_iff {object : List (String × Json)} {inbound : Extensions T}
    {m : Merge T} : (∃ m', mergeSecurity P object inbound m = .ok m') ↔
      SlotReadable P.securityFromValue object "security" := by
  refine (exists_bind_eq_ok_iff fun slot => ?_).trans returnedSlot_isOk_iff
  split
  · split
    · exact ⟨_, rfl⟩
    · exact ⟨_, rfl⟩
  · exact ⟨_, rfl⟩

theorem mergeDelegation_isOk_iff {object : List (String × Json)} {inbound : Extensions T}
    {m : Merge T} : (∃ m', mergeDelegation P object inbound m = .ok m') ↔
      SlotReadable P.delegationFromValue object "delegation" := by
  refine (exists_bind_eq_ok_iff fun slot => ?_).trans returnedSlot_isOk_iff
  split
  · split
    · dsimp only
      split
      · exact ⟨_, rfl⟩
      · exact ⟨_, rfl⟩
    · exact ⟨_, rfl⟩
  · exact ⟨_, rfl⟩

theorem mergeCustom_isOk_iff {object : List (String × Json)} {m : Merge T} :
    (∃ m', mergeCustom P object m = .ok m') ↔
      SlotReadable (customFromValue P) object "custom" := by
  refine (exists_bind_eq_ok_iff fun slot => ?_).trans returnedSlot_isOk_iff
  split
  · exact ⟨_, rfl⟩
  · exact ⟨_, rfl⟩

/-- Returned extensions are accepted exactly when they can be read. -/
theorem ownedFromReturnedSlot_isOk_iff {v : Json} {inbound : Extensions T} :
    (∃ r, ownedFromReturnedSlot P v inbound = .ok r) ↔ ExtensionsReadable P (some v) := by
  constructor
  · rintro ⟨r, h⟩ w hw hne
    obtain rfl := Option.some.inj hw
    cases v with
    | null => exact absurd rfl hne
    | object object =>
      obtain ⟨m₁, h₁, h⟩ := bind_eq_ok.mp h
      obtain ⟨m₂, h₂, h⟩ := bind_eq_ok.mp h
      obtain ⟨m₃, h₃, h⟩ := bind_eq_ok.mp h
      obtain ⟨m₄, h₄, -⟩ := bind_eq_ok.mp h
      exact ⟨object, rfl, mergeHttp_isOk_iff.mp ⟨m₁, h₁⟩, mergeSecurity_isOk_iff.mp ⟨m₂, h₂⟩,
        mergeDelegation_isOk_iff.mp ⟨m₃, h₃⟩, mergeCustom_isOk_iff.mp ⟨m₄, h₄⟩⟩
    | bool _ | number _ | string _ | array _ => cases h
  · intro h
    by_cases hnull : v = .null
    · subst hnull
      exact ⟨none, rfl⟩
    · obtain ⟨object, rfl, hhttp, hsecurity, hdelegation, hcustom⟩ := h v rfl hnull
      obtain ⟨m₁, h₁⟩ : ∃ m, mergeHttp P object inbound ⟨P.cowCopy inbound, false⟩ = .ok m :=
        mergeHttp_isOk_iff.mpr hhttp
      obtain ⟨m₂, h₂⟩ : ∃ m, mergeSecurity P object inbound m₁ = .ok m :=
        mergeSecurity_isOk_iff.mpr hsecurity
      obtain ⟨m₃, h₃⟩ : ∃ m, mergeDelegation P object inbound m₂ = .ok m :=
        mergeDelegation_isOk_iff.mpr hdelegation
      obtain ⟨m₄, h₄⟩ : ∃ m, mergeCustom P object m₃ = .ok m := mergeCustom_isOk_iff.mpr hcustom
      refine ⟨if m₄.applied then some m₄.owned else none, ?_⟩
      simp only [ownedFromReturnedSlot, h₁, h₂, h₃, h₄, ok_bind, pure_eq_ok]

/-! ## The generic conversion -/

theorem returnedField_isOk_iff {α : Type} {read : Json → Except HostError α}
    {field : Option Json} : (∃ r, returnedField read field = .ok r) ↔
      ∀ v, field = some v → v ≠ .null → ∃ a, read v = .ok a := by
  unfold returnedField
  constructor
  · rintro ⟨r, h⟩ v rfl hne
    obtain ⟨a, ha, -⟩ := map_eq_ok.mp (show (read v).map some = .ok r by simpa [hne] using h)
    exact ⟨a, ha⟩
  · intro h
    split
    · exact ⟨_, rfl⟩
    · exact ⟨_, rfl⟩
    · next v hne =>
      obtain ⟨a, ha⟩ := h v rfl hne
      exact ⟨some a, by rw [ha]; rfl⟩

theorem parseViolation_isOk_iff {field : Option Json} :
    (∃ r, returnedField parseViolation field = .ok r) ↔ ViolationReadable field := by
  rw [returnedField_isOk_iff]
  refine forall_congr' fun v => imp_congr_right fun _ => imp_congr_right fun _ => ?_
  cases v <;> simp [parseViolation]

/-- A modified payload that is not there is not read. -/
theorem returnedField_eq_none_iff {α : Type} {read : Json → Except HostError α}
    {field : Option Json} : returnedField read field = .ok none ↔ PayloadAbsent field := by
  unfold returnedField PayloadAbsent
  split
  · simp
  · simp
  · next v hne =>
    constructor
    · intro h
      obtain ⟨a, -, ha⟩ := map_eq_ok.mp h
      exact absurd ha (by simp)
    · intro h
      exact absurd (h v rfl) hne

/-- The decision a response carries. -/
def decision (fields : List (String × Json)) : Bool :=
  ((Assoc.get? "continue_processing" fields).bind Json.asBool).getD true

theorem returnedExtensions_isOk_iff {inbound : Extensions T} {field : Option Json} :
    (∃ r, returnedExtensions P inbound field = .ok r) ↔ ExtensionsReadable P field := by
  unfold returnedExtensions
  split
  · simp [ExtensionsReadable]
  · simp [ExtensionsReadable]
  · exact ownedFromReturnedSlot_isOk_iff

/-- The fields of a result, each from its own field of the response. -/
theorem responseToResult_eq_ok_iff {hookName : String} {fields : List (String × Json)}
    {inbound : Extensions T} {f : ResultFields T} :
    responseToResult P hookName (.object fields) inbound = .ok f ↔
      returnedField parseViolation (Assoc.get? "violation" fields) = .ok f.violation ∧
      returnedField (deserializePayload P hookName) (Assoc.get? "modified_payload" fields) =
        .ok f.modifiedPayload ∧
      returnedExtensions P inbound (Assoc.get? modifiedExtensionsField fields) =
        .ok f.modifiedExtensions ∧ f.continueProcessing = decision fields := by
  constructor
  · intro h
    obtain ⟨violation, hv, h⟩ := bind_eq_ok.mp h
    obtain ⟨payload, hp, h⟩ := bind_eq_ok.mp h
    obtain ⟨extensions, he, h⟩ := bind_eq_ok.mp h
    obtain rfl := Except.ok.inj h
    exact ⟨hv, hp, he, rfl⟩
  · rintro ⟨hv, hp, he, hc⟩
    refine bind_eq_ok.mpr ⟨_, hv, bind_eq_ok.mpr ⟨_, hp, bind_eq_ok.mpr ⟨_, he, ?_⟩⟩⟩
    cases f
    simp only at hc
    rw [hc]
    rfl

/-- A result with no modified payload is there exactly when the other fields can be read. -/
theorem responseToResult_isOk_none_iff {hookName : String} {fields : List (String × Json)}
    {inbound : Extensions T} :
    (∃ f, responseToResult P hookName (.object fields) inbound = .ok f ∧
      f.modifiedPayload = none ∧ f.continueProcessing = decision fields) ↔
      ViolationReadable (Assoc.get? "violation" fields) ∧
      PayloadAbsent (Assoc.get? "modified_payload" fields) ∧
      ExtensionsReadable P (Assoc.get? modifiedExtensionsField fields) := by
  rw [← parseViolation_isOk_iff,
    ← @returnedField_eq_none_iff _ (deserializePayload P hookName),
    ← @returnedExtensions_isOk_iff _ _ inbound]
  constructor
  · rintro ⟨f, h, hnone, -⟩
    obtain ⟨hv, hp, he, -⟩ := responseToResult_eq_ok_iff.mp h
    exact ⟨⟨_, hv⟩, hnone ▸ hp, ⟨_, he⟩⟩
  · rintro ⟨⟨violation, hv⟩, hp, ⟨extensions, he⟩⟩
    exact ⟨⟨decision fields, none, extensions, violation⟩,
      responseToResult_eq_ok_iff.mpr ⟨hv, hp, he, rfl⟩, rfl, rfl⟩

/-! ## Rejected identities -/

theorem rejectReason_isOk_iff {field : Option Json} :
    (∃ r, rejectReason field = .ok r) ↔ ∀ v, field = some v → v ≠ .null → ∃ s, v = .string s := by
  cases field with
  | none => simp [rejectReason]
  | some v => cases v <;> simp [rejectReason]

theorem rejectStatus_isOk_iff {field : Option Json} :
    (∃ r, rejectStatus field = .ok r) ↔
      ∀ v, field = some v → v ≠ .null → ∃ i, v.asI64 = some i := by
  unfold rejectStatus
  split
  · simp
  · simp
  · next status hne =>
    cases hstatus : status.asI64 with
    | some i => exact ⟨fun _ v hv _ => ⟨i, Option.some.inj hv ▸ hstatus⟩, fun _ => ⟨_, rfl⟩⟩
    | none =>
      constructor
      · rintro ⟨r, hr⟩
        cases hr
      · intro h
        obtain ⟨i, hi⟩ := h status rfl hne
        rw [hstatus] at hi
        cases hi

theorem rejection_isOk_iff {fields : List (String × Json)} :
    (∃ v, rejection fields = .ok v) ↔
      (∃ r, rejectReason (Assoc.get? "reject_reason" fields) = .ok r) ∧
      ∃ r, rejectStatus (Assoc.get? "reject_status" fields) = .ok r := by
  constructor
  · rintro ⟨v, h⟩
    obtain ⟨reason, hreason, h⟩ := bind_eq_ok.mp h
    obtain ⟨status, hstatus, -⟩ := bind_eq_ok.mp h
    exact ⟨⟨reason, hreason⟩, ⟨status, hstatus⟩⟩
  · rintro ⟨⟨reason, hreason⟩, ⟨status, hstatus⟩⟩
    unfold rejection
    rw [hreason, ok_bind, hstatus]
    cases status with
    | none => exact ⟨_, rfl⟩
    | some status => exact ⟨_, rfl⟩

theorem refuseUnknown_eq_ok_iff {hook : String} {known : List String}
    {fields : List (String × Json)} {u : Unit} :
    refuseUnknown hook known fields = .ok u ↔ firstUnknown known fields = none := by
  unfold refuseUnknown
  cases firstUnknown known fields with
  | none => simp
  | some key => simp

/-- A rejected identity is read as a rejection or not at all. -/
theorem identityFromWorker_of_rejected {original : IdentityPayload T}
    {fields : List (String × Json)} (hrejected : Assoc.get? "rejected" fields = some (.bool true))
    {outcome : IdentityOutcome T} :
    identityFromWorker P original (.object fields) = .ok outcome ↔
      firstUnknown (identityResultFields ++ identityInputFields) fields = none ∧
      ∃ v, rejection fields = .ok v ∧ outcome = .rejected v := by
  unfold identityFromWorker
  rw [asFields, ok_bind, hrejected]
  constructor
  · intro h
    obtain ⟨u, hknown, h⟩ := bind_eq_ok.mp h
    obtain ⟨v, hv, h⟩ := bind_eq_ok.mp h
    exact ⟨refuseUnknown_eq_ok_iff.mp hknown, v, hv, (Except.ok.inj h).symm⟩
  · rintro ⟨hknown, v, hv, rfl⟩
    exact bind_eq_ok.mpr ⟨(), refuseUnknown_eq_ok_iff.mpr hknown, bind_eq_ok.mpr ⟨v, hv, rfl⟩⟩

theorem identityFromWorker_isOk_iff {original : IdentityPayload T}
    {fields : List (String × Json)} (hrejected : Assoc.get? "rejected" fields = some (.bool true)) :
    (∃ v, identityFromWorker P original (.object fields) = .ok (.rejected v)) ↔
      RejectionReadable fields := by
  constructor
  · rintro ⟨v, h⟩
    obtain ⟨hknown, w, hw, -⟩ := (identityFromWorker_of_rejected hrejected).mp h
    obtain ⟨hreason, hstatus⟩ := rejection_isOk_iff.mp ⟨w, hw⟩
    exact ⟨hknown, rejectReason_isOk_iff.mp hreason, rejectStatus_isOk_iff.mp hstatus⟩
  · rintro ⟨hknown, hreason, hstatus⟩
    obtain ⟨v, hv⟩ := rejection_isOk_iff.mpr
      ⟨rejectReason_isOk_iff.mpr hreason, rejectStatus_isOk_iff.mpr hstatus⟩
    exact ⟨v, (identityFromWorker_of_rejected hrejected).mpr ⟨hknown, v, hv, rfl⟩⟩

/-! ## Both routes -/

/-- Whether the answer to a call is mapped back by the shim or the credential translation. -/
def Call.translated (call : Call T) (reported : Option WorkerCapabilities) : Bool :=
  (needsLegacyCmf reported && isCmfHook call.hookName) || isPpeCredentialPayload call.payload

/-- The response denies. -/
def SaysDeny (fields : List (String × Json)) : Prop :=
  Assoc.get? "continue_processing" fields = some (.bool false)

/-- The response rejects the identity of an identity payload. -/
def RejectsIdentity (call : Call T) (fields : List (String × Json)) : Prop :=
  call.hookName = hookIdentityResolve ∧ (∃ identity, call.payload = .identity identity) ∧
    ∃ modified, Assoc.get? "modified_payload" fields = some (.object modified) ∧
      Assoc.get? "rejected" modified = some (.bool true)

/-- The executor gets a deny, with no modified payload. -/
def Denies (result : Except HostError (ResultFields T)) : Prop :=
  ∃ f, result = .ok f ∧ f.continueProcessing = false ∧ f.modifiedPayload = none

/-- The other fields of a denying response can be read. -/
structure DenyReadable (P : Ppe T) (translated : Bool) (fields : List (String × Json)) : Prop where
  violation : ViolationReadable (Assoc.get? "violation" fields)
  extensions : ExtensionsReadable P (Assoc.get? modifiedExtensionsField fields)
  /-- A native deny comes with no modified payload. -/
  payload : SaysDeny fields → translated = false →
    PayloadAbsent (Assoc.get? "modified_payload" fields)
  /-- A rejection that is not a deny as well can be read. -/
  rejection : ¬SaysDeny fields → ∀ modified,
    Assoc.get? "modified_payload" fields = some (.object modified) → RejectionReadable modified

theorem decision_eq_false_iff {fields : List (String × Json)} :
    decision fields = false ↔ SaysDeny fields := by
  unfold decision SaysDeny
  cases Assoc.get? "continue_processing" fields with
  | none => simp
  | some v => cases v <;> simp [Json.asBool]

/-- A response without its modified payload is read like the response. -/
theorem responseToResult_erase_isOk_iff {hookName : String} {fields : List (String × Json)}
    {inbound : Extensions T} :
    (∃ f, responseToResult P hookName (.object (Assoc.erase "modified_payload" fields)) inbound =
      .ok f ∧ f.modifiedPayload = none ∧ f.continueProcessing = decision fields) ↔
      ViolationReadable (Assoc.get? "violation" fields) ∧
      ExtensionsReadable P (Assoc.get? modifiedExtensionsField fields) := by
  have hne : ∀ key, key ≠ "modified_payload" →
      Assoc.get? key (Assoc.erase "modified_payload" fields) = Assoc.get? key fields :=
    fun key hkey => Assoc.get?_erase_ne hkey fields
  have hdecision : decision (Assoc.erase "modified_payload" fields) = decision fields := by
    unfold decision
    rw [hne _ (by decide)]
  rw [← hdecision, responseToResult_isOk_none_iff, hne "violation" (by decide),
    hne modifiedExtensionsField (by decide), Assoc.get?_erase_self]
  constructor
  · rintro ⟨hv, -, he⟩
    exact ⟨hv, he⟩
  · rintro ⟨hv, he⟩
    exact ⟨hv, fun v hno => absurd hno (by simp), he⟩

/-- A result is read off a response whenever the parts of it can be, modified payload apart. -/
theorem readable_of_responseToResult_erase {hookName : String} {fields : List (String × Json)}
    {inbound : Extensions T} {f : ResultFields T}
    (h : responseToResult P hookName (.object (Assoc.erase "modified_payload" fields)) inbound =
      .ok f) :
    ViolationReadable (Assoc.get? "violation" fields) ∧
      ExtensionsReadable P (Assoc.get? modifiedExtensionsField fields) ∧
      f.modifiedPayload = none ∧ f.continueProcessing = decision fields := by
  obtain ⟨hv, hp, he, hc⟩ := responseToResult_eq_ok_iff.mp h
  rw [Assoc.get?_erase_ne (by decide)] at hv he
  rw [Assoc.get?_erase_self] at hp
  refine ⟨parseViolation_isOk_iff.mp ⟨_, hv⟩, returnedExtensions_isOk_iff.mp ⟨_, he⟩,
    (Except.ok.inj hp).symm, ?_⟩
  rw [hc, decision, decision, Assoc.get?_erase_ne (by decide)]

/-- The conversion of a response whose modified payload is translated. -/
theorem convertResponse_of_translated {now : T.Time} {hookName : String}
    {shim : Option (ShimmedPayload T)} {payload : Payload T} {extensions : Extensions T}
    {fields : List (String × Json)}
    (htranslated : (shim.isSome || isPpeCredentialPayload payload) = true) :
    convertResponse P now hookName shim payload extensions (.object fields) =
      (responseToResult P hookName (.object (Assoc.erase "modified_payload" fields)) extensions
        >>= fun f => match (Assoc.get? "modified_payload" fields).filter (· ≠ .null) with
          | some modified => applyTranslatedModification P now shim payload modified f
          | none => .ok f) := by
  unfold convertResponse
  rw [if_pos htranslated]
  rfl

/-- A deny modifies nothing. -/
theorem applyTranslatedModification_of_deny {now : T.Time} {shim : Option (ShimmedPayload T)}
    {payload : Payload T} {modified : Json} {f : ResultFields T}
    (hdeny : f.continueProcessing = false) :
    applyTranslatedModification P now shim payload modified f =
      .ok { f with modifiedPayload := none } := by
  unfold applyTranslatedModification
  rw [if_pos (by rw [hdeny]; rfl)]

/-- On a result that allows, an identity payload is rejected or resolved. -/
theorem applyTranslatedModification_identity {now : T.Time} {identity : IdentityPayload T}
    {modified : Json} {f : ResultFields T} (hallow : f.continueProcessing = true) :
    applyTranslatedModification P now none (.identity identity) modified f =
      (identityFromWorker P identity modified >>= fun outcome => match outcome with
        | .resolved resolved => .ok { f with modifiedPayload := some (.identity resolved) }
        | .rejected violation => .ok { f with
            modifiedPayload := none
            continueProcessing := false
            violation := some violation }) := by
  unfold applyTranslatedModification
  rw [if_neg (by rw [hallow]; decide)]
  rfl

/-- Through either route, a response that says deny. -/
theorem denies_convertResponse_iff {now : T.Time} {hookName : String}
    {shim : Option (ShimmedPayload T)} {payload : Payload T} {extensions : Extensions T}
    {fields : List (String × Json)} {translated : Bool}
    (htranslated : (shim.isSome || isPpeCredentialPayload payload) = translated)
    (hdeny : SaysDeny fields) :
    Denies (convertResponse P now hookName shim payload extensions (.object fields)) ↔
      DenyReadable P translated fields := by
  have hdecision : decision fields = false := decision_eq_false_iff.mpr hdeny
  cases translated with
  | true =>
    rw [convertResponse_of_translated htranslated]
    constructor
    · rintro ⟨g, hg, -, -⟩
      obtain ⟨f, hf, -⟩ := bind_eq_ok.mp hg
      obtain ⟨hv, he, -, -⟩ := readable_of_responseToResult_erase hf
      exact ⟨hv, he, fun _ hno => absurd hno (by decide), fun hno => absurd hdeny hno⟩
    · intro h
      obtain ⟨f, hf, hnone, hcontinue⟩ :=
        responseToResult_erase_isOk_iff.mpr ⟨h.violation, h.extensions⟩
      rw [hdecision] at hcontinue
      rw [hf, ok_bind]
      split
      · exact ⟨_, applyTranslatedModification_of_deny hcontinue, hcontinue, rfl⟩
      · exact ⟨f, rfl, hcontinue, hnone⟩
  | false =>
    unfold convertResponse
    rw [if_neg (by rw [htranslated]; decide)]
    constructor
    · rintro ⟨f, hf, -, hnone⟩
      obtain ⟨hv, hp, he, -⟩ := responseToResult_eq_ok_iff.mp hf
      rw [hnone] at hp
      exact ⟨parseViolation_isOk_iff.mp ⟨_, hv⟩, returnedExtensions_isOk_iff.mp ⟨_, he⟩,
        fun _ _ => returnedField_eq_none_iff.mp hp, fun hno => absurd hdeny hno⟩
    · intro h
      obtain ⟨f, hf, hnone, hcontinue⟩ := responseToResult_isOk_none_iff.mpr
        ⟨h.violation, h.payload hdeny rfl, h.extensions⟩
      exact ⟨f, hf, hcontinue.trans hdecision, hnone⟩

/-- An identity that is rejected without a deny beside it. -/
theorem denies_convertResponse_of_rejected {now : T.Time} {hookName : String}
    {identity : IdentityPayload T} {extensions : Extensions T} {fields modified :
    List (String × Json)} (hmodified : Assoc.get? "modified_payload" fields =
      some (.object modified)) (hrejected : Assoc.get? "rejected" modified = some (.bool true))
    (hallow : ¬SaysDeny fields) :
    Denies (convertResponse P now hookName none (.identity identity) extensions
      (.object fields)) ↔ DenyReadable P true fields := by
  have hdecision : decision fields = true := by
    simpa using mt decision_eq_false_iff.mp hallow
  rw [convertResponse_of_translated rfl, hmodified]
  show Denies (_ >>= fun f => applyTranslatedModification P now none (.identity identity)
    (.object modified) f) ↔ _
  constructor
  · rintro ⟨g, hg, -, -⟩
    obtain ⟨f, hf, hg⟩ := bind_eq_ok.mp hg
    obtain ⟨hv, he, -, hcontinue⟩ := readable_of_responseToResult_erase hf
    rw [applyTranslatedModification_identity (hcontinue.trans hdecision)] at hg
    obtain ⟨outcome, houtcome, -⟩ := bind_eq_ok.mp hg
    obtain ⟨-, v, -, rfl⟩ := (identityFromWorker_of_rejected hrejected).mp houtcome
    refine ⟨hv, he, fun hno => absurd hno hallow, fun _ m hm => ?_⟩
    obtain rfl : modified = m := by simpa [hmodified] using hm
    exact (identityFromWorker_isOk_iff hrejected).mp ⟨v, houtcome⟩
  · intro h
    obtain ⟨f, hf, hnone, hcontinue⟩ :=
      responseToResult_erase_isOk_iff.mpr ⟨h.violation, h.extensions⟩
    obtain ⟨v, hv⟩ : ∃ v, identityFromWorker P identity (.object modified) = .ok (.rejected v) :=
      (identityFromWorker_isOk_iff hrejected).mpr (h.rejection hallow _ hmodified)
    rw [hf, ok_bind, applyTranslatedModification_identity (hcontinue.trans hdecision), hv, ok_bind]
    exact ⟨_, rfl, rfl, rfl⟩

/-! ## Whole calls -/

theorem isSome_of_shimFor {hookName : String} {legacyCmf : Bool} {payload : Payload T}
    {shim : Option (ShimmedPayload T)}
    (h : IsolatedPythonPlugin.shimFor P hookName legacyCmf payload = .ok shim) :
    shim.isSome = (legacyCmf && isCmfHook hookName) := by
  unfold IsolatedPythonPlugin.shimFor at h
  split at h
  · next hshim =>
    obtain ⟨s, -, rfl⟩ := map_eq_ok.mp h
    rw [hshim]
    rfl
  · next hshim =>
    obtain rfl := Except.ok.inj h
    simpa using hshim

theorem shim_isSome_of_assembleTask {plugin : IsolatedPythonPlugin}
    {toString : Json → Except String String} {reported : Option WorkerCapabilities}
    {call : Call T} {task : Json} {shim : Option (ShimmedPayload T)}
    (h : plugin.assembleTask toString P call.hookName reported call.payload call.extensions call.ctx
      call.freshId = .ok (task, shim)) :
    shim.isSome = (needsLegacyCmf reported && isCmfHook call.hookName) := by
  obtain ⟨s, hs, h⟩ := bind_eq_ok.mp h
  obtain ⟨json, -, h⟩ := bind_eq_ok.mp h
  obtain ⟨t₁, -, h⟩ := bind_eq_ok.mp h
  obtain ⟨t₂, -, h⟩ := bind_eq_ok.mp h
  obtain ⟨t₃, -, h⟩ := bind_eq_ok.mp h
  obtain ⟨-, rfl⟩ := Prod.mk.inj (Except.ok.inj h)
  exact isSome_of_shimFor hs

/-- **A deny is preserved exactly when the other fields of the response can be read.** -/
theorem deny_preserved_iff {plugin : IsolatedPythonPlugin}
    {toString : Json → Except String String} {reported : Option WorkerCapabilities}
    {sendTask : Json → Except HostError Json} {call : Call T} {task : Json}
    {shim : Option (ShimmedPayload T)} {fields : List (String × Json)}
    (hdispatch : plugin.assembleTask toString P call.hookName reported call.payload call.extensions
      call.ctx call.freshId = .ok (task, shim))
    (hreply : sendTask task = .ok (.object fields))
    (hdeny : SaysDeny fields ∨ RejectsIdentity call fields) :
    Denies (invoke P plugin toString reported sendTask call).2 ↔
      DenyReadable P (call.translated reported) fields := by
  have hshim := shim_isSome_of_assembleTask hdispatch
  unfold invoke
  rw [hdispatch]
  dsimp only
  rw [hreply]
  by_cases hsays : SaysDeny fields
  · exact denies_convertResponse_iff (by rw [hshim, Call.translated]) hsays
  · obtain ⟨hhook, ⟨identity, hpayload⟩, modified, hmodified, hrejected⟩ :=
      hdeny.resolve_left hsays
    have hnone : shim = none := by
      rw [hhook] at hshim
      simpa [show isCmfHook hookIdentityResolve = false by decide] using hshim
    have htranslated : call.translated reported = true := by
      rw [Call.translated, hpayload]
      simp [isPpeCredentialPayload]
    rw [hnone, hpayload, htranslated]
    exact denies_convertResponse_of_rejected hmodified hrejected hsays

/-- A plugin that filters tool calls and resolves identities. -/
def filterPlugin : IsolatedPythonPlugin where
  config := ⟨"filter", "isolated_venv", ["tool_pre_invoke", "identity.resolve"], [], none⟩
  className := "pkg.Filter"
  pluginDirs := ["/srv/plugins"]

/-- An invocation of a plain engine with no extensions and no context. -/
def plainCall (hookName : String) (payload : Payload Plain.types) : Call Plain.types :=
  ⟨hookName, payload, Plain.emptyView, ⟨HashMap.empty, HashMap.empty⟩, "id-1", 0⟩

/-- A rejection of an identity, with a status. -/
def rejectingReply : List (String × Json) :=
  [("modified_payload", .object [("reject_status", .number (.posInt 401)),
    ("rejected", .bool true)])]

theorem rejectingReply_denies : ∃ task,
    filterPlugin.assembleTask (fun _ => .ok "config") Plain.engine hookIdentityResolve none
      (.identity (Plain.identity "t0ken")) Plain.emptyView ⟨HashMap.empty, HashMap.empty⟩ "id-1" =
        .ok (task, none) ∧
    Denies (invoke Plain.engine filterPlugin (fun _ => .ok "config") none
      (fun _ => .ok (.object rejectingReply))
      (plainCall hookIdentityResolve (.identity (Plain.identity "t0ken")))).2 := by
  refine ⟨_, rfl, Iff.mpr (deny_preserved_iff rfl rfl (.inr ⟨rfl, ⟨_, rfl⟩, _, rfl, rfl⟩))
    ⟨?_, ?_, ?_, ?_⟩⟩
  · exact fun v hno => by cases hno
  · exact fun v hno => by cases hno
  · exact fun hno => by cases hno
  · intro _ modified hmodified
    obtain rfl := Json.object.inj (Option.some.inj hmodified)
    refine ⟨rfl, ?_, ?_⟩
    · exact fun v hno => by cases hno
    · intro v hstatus _
      obtain rfl := Option.some.inj hstatus
      exact ⟨401, rfl⟩

/-- A deny that comes with a modified payload of the wrong shape. -/
def denyWithPayload : List (String × Json) :=
  [("continue_processing", .bool false), ("modified_payload", .string "blocked")]

/-- **A native deny becomes an error when a modified payload it should ignore does not parse.** -/
theorem native_deny_becomes_error : ∃ task,
    filterPlugin.assembleTask (fun _ => .ok "config") Plain.engine "tool_pre_invoke" none
      (.toolPreInvoke ⟨"search", none, none⟩) Plain.emptyView ⟨HashMap.empty, HashMap.empty⟩
      "id-1" = .ok (task, none) ∧
    SaysDeny denyWithPayload ∧
    ¬Denies (invoke Plain.engine filterPlugin (fun _ => .ok "config") none
      (fun _ => .ok (.object denyWithPayload))
      (plainCall "tool_pre_invoke" (.toolPreInvoke ⟨"search", none, none⟩))).2 := by
  refine ⟨_, rfl, rfl, ?_⟩
  rintro ⟨f, hf, -, -⟩
  cases hf

end Cpex.Host
