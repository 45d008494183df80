import Cpex.Infra.Except
import Cpex.Host.Plugin

/-!
# The fields of a task

Where the fields of an assembled task come from, and when it has a `credential` field.

* `assembleTask_fields` — the `payload` and the `extensions` fields
* `assembleTask_credential` — a task with a `credential` field needs a declared capability
-/

namespace Cpex.Host

open Cpex.Infra

variable {T : Types} {P : Ppe T} {plugin : IsolatedPythonPlugin}
  {toString : Json → Except String String} {hookName : String}
  {reported : Option WorkerCapabilities} {ctx : PluginContext} {freshId : String}

theorem insertDto_get? {task task' : Json} {dto : CredentialDto} {key : String}
    (hne : key ≠ credentialField) (h : insertDto task dto = .ok task') :
    task'.get? key = task.get? key := by
  unfold insertDto at h
  split at h
  · rw [← Except.ok.inj h, Json.get?_set_ne hne]
  · cases h

theorem attachCredential_get? {task task' : Json} {hookName key : String} {e : Extensions T}
    {capabilities : List String} (hne : key ≠ credentialField)
    (h : attachCredential task hookName e capabilities = .ok task') :
    task'.get? key = task.get? key := by
  unfold attachCredential at h
  split at h
  · split at h
    · rw [Except.ok.inj h]
    · obtain ⟨c, -, h⟩ := bind_eq_ok.mp h
      exact insertDto_get? hne h
  · split at h
    · rw [Except.ok.inj h]
    · obtain ⟨c, -, h⟩ := bind_eq_ok.mp h
      exact insertDto_get? hne h
  · rw [Except.ok.inj h]

/-- Attaching a credential leaves every other field of the task alone. -/
theorem attachCredentialForPayload_get? {task task' : Json} {hookName key : String}
    {p : Payload T} {e : Extensions T} {capabilities : List String}
    (hne : key ≠ credentialField)
    (h : attachCredentialForPayload P task hookName p e capabilities = .ok task') :
    task'.get? key = task.get? key := by
  unfold attachCredentialForPayload at h
  split at h
  · split at h
    · rw [Except.ok.inj h]
    · obtain ⟨c, -, h⟩ := bind_eq_ok.mp h
      exact insertDto_get? hne h
  · split at h
    · rw [Except.ok.inj h]
    · obtain ⟨c, -, h⟩ := bind_eq_ok.mp h
      exact insertDto_get? hne h
  · exact attachCredential_get? hne h

theorem attachExtensions_get? {task task' : Json} {key : String} {e : Extensions T}
    (hne : key ≠ extensionsField) (h : attachExtensions P task e = .ok task') :
    task'.get? key = task.get? key := by
  obtain ⟨wire, -, h⟩ := bind_eq_ok.mp h
  split at h
  · rw [Except.ok.inj h]
  · split at h
    · rw [← Except.ok.inj h, Json.get?_set_ne hne]
    · cases h

/-- The `extensions` field is the wire form of the view, unless that is empty. -/
theorem attachExtensions_get?_self {task task' : Json} {e : Extensions T}
    (hfresh : task.get? extensionsField = none) (h : attachExtensions P task e = .ok task') :
    ∃ wire, toWire P e = .ok wire ∧
      task'.get? extensionsField = if wire = .object [] then none else some wire := by
  obtain ⟨wire, hwire, h⟩ := bind_eq_ok.mp h
  refine ⟨wire, hwire, ?_⟩
  split at h
  · next hempty => rw [← Except.ok.inj h, hfresh, if_pos hempty]
  · next hempty =>
    rw [if_neg hempty]
    split at h
    · rw [← Except.ok.inj h, Json.get?_set_self]
    · cases h

theorem buildTask_get? {plugin : IsolatedPythonPlugin} {toString : Json → Except String String}
    {hookName : String} {legacyCmf : Bool} {payload task : Json} {ctx : PluginContext}
    {freshId : String}
    (h : plugin.buildTask toString hookName legacyCmf payload ctx freshId = .ok task) :
    task.get? "payload" = some payload ∧ task.get? extensionsField = none ∧
      task.get? credentialField = none := by
  unfold IsolatedPythonPlugin.buildTask at h
  dsimp only at h
  split at h
  · cases h
  · rw [← Except.ok.inj h, Json.get?_ofFields, Json.get?_ofFields, Json.get?_ofFields]
    simp [Assoc.get?_cons, extensionsField, credentialField]

/-- Where the `payload` and the `extensions` fields of a task come from. -/
theorem assembleTask_fields {p : Payload T} {e : Extensions T} {task : Json}
    {shim : Option (ShimmedPayload T)}
    (h : plugin.assembleTask toString P hookName reported p e ctx freshId = .ok (task, shim)) :
    (∃ json, (IsolatedPythonPlugin.shimFor P hookName (needsLegacyCmf reported) p >>= fun s =>
      IsolatedPythonPlugin.payloadJson P s p) = .ok json ∧ task.get? "payload" = some json) ∧
    ∃ wire, toWire P e = .ok wire ∧
      task.get? extensionsField = if wire = .object [] then none else some wire := by
  obtain ⟨s, hshim, h⟩ := bind_eq_ok.mp h
  obtain ⟨json, hjson, h⟩ := bind_eq_ok.mp h
  obtain ⟨t₁, hbuild, h⟩ := bind_eq_ok.mp h
  obtain ⟨t₂, hcredential, h⟩ := bind_eq_ok.mp h
  obtain ⟨t₃, hattach, h⟩ := bind_eq_ok.mp h
  obtain ⟨rfl, rfl⟩ := Prod.mk.inj (Except.ok.inj h)
  obtain ⟨hpayload, hfresh, -⟩ := buildTask_get? hbuild
  constructor
  · refine ⟨json, bind_eq_ok.mpr ⟨s, hshim, hjson⟩, ?_⟩
    rw [attachExtensions_get? (by decide) hattach,
      attachCredentialForPayload_get? (by decide) hcredential, hpayload]
  · refine attachExtensions_get?_self ?_ hattach
    rw [attachCredentialForPayload_get? (by decide) hcredential, hfresh]

/-! ## The credential -/

/-- Without a credential capability nothing is attached. -/
theorem attachCredentialForPayload_of_undeclared {capabilities : List String}
    (hinbound : capReadInbound ∉ capabilities) (hdelegated : capReadDelegated ∉ capabilities)
    (task : Json) (p : Payload T) (e : Extensions T) :
    attachCredentialForPayload P task hookName p e capabilities = .ok task := by
  have hno : (!capabilities.contains capReadInbound) = true := by simpa using hinbound
  have hno' : (!capabilities.contains capReadDelegated) = true := by simpa using hdelegated
  unfold attachCredentialForPayload
  split
  · rw [if_pos hno]
  · rw [if_pos hno]
  · unfold attachCredential
    split
    · rw [if_pos hno]
    · rw [if_pos hno']
    · rfl

/-- A plugin that declares a credential capability needs the worker's credential feature. -/
theorem featureCredential_mem_required {config : PluginConfig}
    (h : capReadInbound ∈ config.capabilities ∨ capReadDelegated ∈ config.capabilities) :
    featureCredential ∈ config.requiredWorkerFeatures := by
  have hany : (config.capabilities.any fun c => c == capReadInbound || c == capReadDelegated) =
      true := by
    rcases h with h | h
    · exact List.any_eq_true.mpr ⟨_, h, by simp⟩
    · exact List.any_eq_true.mpr ⟨_, h, by simp⟩
  unfold PluginConfig.requiredWorkerFeatures
  rw [if_pos hany]
  simp

/-- **A task with a `credential` field is one of a plugin that needs the credential feature.** -/
theorem assembleTask_credential {p : Payload T} {e : Extensions T} {task : Json}
    {shim : Option (ShimmedPayload T)}
    (h : plugin.assembleTask toString P hookName reported p e ctx freshId = .ok (task, shim))
    (hfield : task.get? credentialField ≠ none) :
    featureCredential ∈ plugin.config.requiredWorkerFeatures := by
  by_contra hnot
  have hundeclared := mt featureCredential_mem_required hnot
  rw [not_or] at hundeclared
  obtain ⟨s, -, h⟩ := bind_eq_ok.mp h
  obtain ⟨json, -, h⟩ := bind_eq_ok.mp h
  obtain ⟨t₁, hbuild, h⟩ := bind_eq_ok.mp h
  obtain ⟨t₂, hcredential, h⟩ := bind_eq_ok.mp h
  obtain ⟨t₃, hattach, h⟩ := bind_eq_ok.mp h
  obtain ⟨rfl, rfl⟩ := Prod.mk.inj (Except.ok.inj h)
  rw [attachCredentialForPayload_of_undeclared hundeclared.1 hundeclared.2] at hcredential
  obtain rfl := Except.ok.inj hcredential
  refine hfield ?_
  rw [attachExtensions_get? (by decide) hattach]
  exact (buildTask_get? hbuild).2.2

end Cpex.Host
