import Cpex.Properties.Extensions
import Cpex.Properties.Task

/-!
# What a task tells about the secrets of a call

Each kind of secret has a projection that forgets it. A builder of the task that ignores a kind of
secret gives the same answer on a value and on its projection, so two calls with one projection
write one task.

* `task_noninterference` — per capability, for the whole task; for any capability, for the
  `payload` and the `extensions` fields
-/

namespace Cpex.Host

open Cpex.Infra

variable {T : Types} {P : Ppe T}

/-! ## Forgetting secrets -/

/-- The payload without the caller's credential: raw token, header map and bearer token. -/
def Payload.withoutCredential : Payload T → Payload T
  | .identity p => .identity { p with rawToken := "", headers := HashMap.empty }
  | .delegation p => .delegation { p with bearerToken := "" }
  | p => p

namespace Extensions

/-- The view without its inbound tokens. -/
def withoutInboundTokens (e : Extensions T) : Extensions T :=
  { e with rawCredentials := e.rawCredentials.map fun r =>
      { r with inboundTokens := HashMap.empty } }

/-- The view without its delegated tokens. -/
def withoutDelegatedTokens (e : Extensions T) : Extensions T :=
  { e with rawCredentials := e.rawCredentials.map fun r =>
      { r with delegatedTokens := HashMap.empty } }

/-- The view without the headers of its `http` slot. -/
def withoutHttpHeaders (e : Extensions T) : Extensions T :=
  { e with http := e.http.map withoutHeaders }

/-- The view without any secret. -/
def withoutSecrets (e : Extensions T) : Extensions T :=
  { e.withoutHttpHeaders with rawCredentials := none }

end Extensions

/-! ## The payload -/

theorem publicHeaders_eq_empty (payload : IdentityPayload T) :
    publicHeaders payload = HashMap.empty := by
  unfold publicHeaders HashMap.filter HashMap.empty
  simp only [isPublicHeader_eq_false, List.filter_false]

theorem serializePayload_withoutCredential (p : Payload T) :
    serializePayload P p.withoutCredential = serializePayload P p := by
  cases p with
  | identity p =>
    show identityToWorker P _ = identityToWorker P p
    unfold identityToWorker
    rw [publicHeaders_eq_empty, publicHeaders_eq_empty]
  | delegation p => rfl
  | message _ | toolPreInvoke _ | toolPostInvoke _ | promptPreFetch _ | promptPostFetch _
  | resourcePreFetch _ | resourcePostFetch _ | identityResolve _ | tokenDelegate _ | generic _
  | foreign _ => rfl

theorem toLegacy_withoutCredential (hookName : String) (p : Payload T) :
    toLegacy P hookName p.withoutCredential = toLegacy P hookName p := by
  unfold toLegacy
  cases p <;> rfl

theorem shimFor_withoutCredential (hookName : String) (legacyCmf : Bool) (p : Payload T) :
    IsolatedPythonPlugin.shimFor P hookName legacyCmf p.withoutCredential =
      IsolatedPythonPlugin.shimFor P hookName legacyCmf p := by
  unfold IsolatedPythonPlugin.shimFor
  rw [toLegacy_withoutCredential]

theorem payloadJson_withoutCredential (shim : Option (ShimmedPayload T)) (p : Payload T) :
    IsolatedPythonPlugin.payloadJson P shim p.withoutCredential =
      IsolatedPythonPlugin.payloadJson P shim p := by
  unfold IsolatedPythonPlugin.payloadJson
  rw [serializePayload_withoutCredential]

/-! ## The extensions -/

theorem sanitizeHttp_withoutHeaders (h : HttpExtension T) :
    sanitizeHttp (withoutHeaders h) = sanitizeHttp h := by
  unfold sanitizeHttp
  simp only [publicHttpHeaders_eq_empty]
  rfl

/-- A slot is written the same when what changes in it is not written. -/
theorem put_map {α : Type} {key : String} {write : α → Except String Json} {f : α → α}
    {a : Option α} (h : ∀ x, write (f x) = write x) : put key write (a.map f) = put key write a := by
  cases a with
  | none => rfl
  | some x =>
    rw [Option.map_some, put, put, h]

theorem toWire_withoutHttpHeaders (e : Extensions T) :
    toWire P e.withoutHttpHeaders = toWire P e := by
  have hhttp : put "http" (fun h => P.httpToValue (sanitizeHttp h)) e.withoutHttpHeaders.http =
      put "http" (fun h => P.httpToValue (sanitizeHttp h)) e.http :=
    put_map fun h => by rw [sanitizeHttp_withoutHeaders]
  unfold toWire
  rw [hhttp]
  rfl

theorem toWire_withoutSecrets (e : Extensions T) : toWire P e.withoutSecrets = toWire P e := by
  rw [← toWire_withoutHttpHeaders e]
  rfl

/-! ## The credential -/

theorem buildInbound_withoutDelegatedTokens (e : Extensions T) (hookName : String) :
    buildInbound e.withoutDelegatedTokens hookName = buildInbound e hookName := by
  unfold buildInbound Extensions.withoutDelegatedTokens
  cases e.rawCredentials <;> rfl

theorem buildDelegated_withoutInboundTokens (e : Extensions T) (hookName : String)
    (audience : Option String) :
    buildDelegated e.withoutInboundTokens hookName audience =
      buildDelegated e hookName audience := by
  unfold buildDelegated Extensions.withoutInboundTokens
  cases e.rawCredentials <;> rfl

theorem attachCredential_withoutInboundTokens {capabilities : List String}
    (hcap : capReadInbound ∉ capabilities) (task : Json) (hookName : String) (e : Extensions T) :
    attachCredential task hookName e.withoutInboundTokens capabilities =
      attachCredential task hookName e capabilities := by
  have hno : (!capabilities.contains capReadInbound) = true := by simpa using hcap
  unfold attachCredential
  split
  · rw [if_pos hno, if_pos hno]
  · rw [buildDelegated_withoutInboundTokens]
  · rfl

theorem attachCredential_withoutDelegatedTokens {capabilities : List String}
    (hcap : capReadDelegated ∉ capabilities) (task : Json) (hookName : String)
    (e : Extensions T) :
    attachCredential task hookName e.withoutDelegatedTokens capabilities =
      attachCredential task hookName e capabilities := by
  have hno : (!capabilities.contains capReadDelegated) = true := by simpa using hcap
  unfold attachCredential
  split
  · rw [buildInbound_withoutDelegatedTokens]
  · rw [if_pos hno, if_pos hno]
  · rfl

/-- Without the capability, a payload's own credential is not read. -/
theorem attachCredentialForPayload_withoutCredential {capabilities : List String}
    (hcap : capReadInbound ∉ capabilities) (task : Json) (hookName : String) (p : Payload T)
    (e : Extensions T) :
    attachCredentialForPayload P task hookName p.withoutCredential e.withoutInboundTokens
      capabilities = attachCredentialForPayload P task hookName p e capabilities := by
  have hno : (!capabilities.contains capReadInbound) = true := by simpa using hcap
  have hview := attachCredential_withoutInboundTokens hcap task hookName e
  unfold attachCredentialForPayload
  cases p with
  | identity p =>
    cases payloadKindForHook hookName <;>
      simp only [Payload.withoutCredential, hno, ↓reduceIte, hview]
  | delegation p =>
    cases payloadKindForHook hookName <;>
      simp only [Payload.withoutCredential, hno, ↓reduceIte, hview]
  | message _ | toolPreInvoke _ | toolPostInvoke _ | promptPreFetch _ | promptPostFetch _
  | resourcePreFetch _ | resourcePostFetch _ | identityResolve _ | tokenDelegate _ | generic _
  | foreign _ => simp only [Payload.withoutCredential, hview]

theorem attachCredentialForPayload_withoutDelegatedTokens {capabilities : List String}
    (hcap : capReadDelegated ∉ capabilities) (task : Json) (hookName : String) (p : Payload T)
    (e : Extensions T) :
    attachCredentialForPayload P task hookName p e.withoutDelegatedTokens capabilities =
      attachCredentialForPayload P task hookName p e capabilities := by
  unfold attachCredentialForPayload
  rw [attachCredential_withoutDelegatedTokens hcap]

/-! ## Whole tasks -/

variable {plugin : IsolatedPythonPlugin} {toString : Json → Except String String}
  {hookName : String} {reported : Option WorkerCapabilities} {ctx : PluginContext}
  {freshId : String}

theorem assembleTask_withoutCredential (hcap : capReadInbound ∉ plugin.config.capabilities)
    (p : Payload T) (e : Extensions T) :
    plugin.assembleTask toString P hookName reported p.withoutCredential e.withoutInboundTokens ctx
      freshId = plugin.assembleTask toString P hookName reported p e ctx freshId := by
  unfold IsolatedPythonPlugin.assembleTask
  simp only [shimFor_withoutCredential, payloadJson_withoutCredential,
    attachCredentialForPayload_withoutCredential hcap]
  rfl

theorem assembleTask_withoutDelegatedTokens
    (hcap : capReadDelegated ∉ plugin.config.capabilities) (p : Payload T) (e : Extensions T) :
    plugin.assembleTask toString P hookName reported p e.withoutDelegatedTokens ctx freshId =
      plugin.assembleTask toString P hookName reported p e ctx freshId := by
  unfold IsolatedPythonPlugin.assembleTask
  simp only [attachCredentialForPayload_withoutDelegatedTokens hcap]
  rfl

theorem assembleTask_withoutHttpHeaders (p : Payload T) (e : Extensions T) :
    plugin.assembleTask toString P hookName reported p e.withoutHttpHeaders ctx freshId =
      plugin.assembleTask toString P hookName reported p e ctx freshId := by
  unfold IsolatedPythonPlugin.assembleTask attachExtensions
  simp only [toWire_withoutHttpHeaders]
  rfl

/-- The task an invocation writes, or the error it fails with before anything is written. -/
def writtenTask (P : Ppe T) (plugin : IsolatedPythonPlugin)
    (toString : Json → Except String String) (hookName : String)
    (reported : Option WorkerCapabilities) (ctx : PluginContext) (freshId : String)
    (p : Payload T) (e : Extensions T) : Except HostError Json :=
  (plugin.assembleTask toString P hookName reported p e ctx freshId).map Prod.fst

/-- **A task tells no secret its plugin has no capability for.** -/
theorem task_noninterference (P : Ppe T) (plugin : IsolatedPythonPlugin)
    (toString : Json → Except String String) (hookName : String)
    (reported : Option WorkerCapabilities) (ctx : PluginContext) (freshId : String)
    (p q : Payload T) (e f : Extensions T) :
    (capReadInbound ∉ plugin.config.capabilities →
      p.withoutCredential = q.withoutCredential → e.withoutInboundTokens = f.withoutInboundTokens →
      writtenTask P plugin toString hookName reported ctx freshId p e =
        writtenTask P plugin toString hookName reported ctx freshId q f) ∧
    (capReadDelegated ∉ plugin.config.capabilities →
      e.withoutDelegatedTokens = f.withoutDelegatedTokens →
      writtenTask P plugin toString hookName reported ctx freshId p e =
        writtenTask P plugin toString hookName reported ctx freshId p f) ∧
    (e.withoutHttpHeaders = f.withoutHttpHeaders →
      writtenTask P plugin toString hookName reported ctx freshId p e =
        writtenTask P plugin toString hookName reported ctx freshId p f) ∧
    (p.withoutCredential = q.withoutCredential → e.withoutSecrets = f.withoutSecrets →
      ∀ t u, writtenTask P plugin toString hookName reported ctx freshId p e = .ok t →
        writtenTask P plugin toString hookName reported ctx freshId q f = .ok u →
        t.get? "payload" = u.get? "payload" ∧ t.get? extensionsField = u.get? extensionsField) := by
  refine ⟨fun hcap hp he => ?_, fun hcap he => ?_, fun he => ?_, fun hp he t u ht hu => ?_⟩
  · unfold writtenTask
    rw [← assembleTask_withoutCredential hcap p e, ← assembleTask_withoutCredential hcap q f, hp,
      he]
  · unfold writtenTask
    rw [← assembleTask_withoutDelegatedTokens hcap p e,
      ← assembleTask_withoutDelegatedTokens hcap p f, he]
  · unfold writtenTask
    rw [← assembleTask_withoutHttpHeaders p e, ← assembleTask_withoutHttpHeaders p f, he]
  · obtain ⟨⟨t, s₁⟩, hassemble₁, rfl⟩ := map_eq_ok.mp ht
    obtain ⟨⟨u, s₂⟩, hassemble₂, rfl⟩ := map_eq_ok.mp hu
    obtain ⟨⟨json₁, hjson₁, hpayload₁⟩, wire₁, hwire₁, hfield₁⟩ :=
      assembleTask_fields hassemble₁
    obtain ⟨⟨json₂, hjson₂, hpayload₂⟩, wire₂, hwire₂, hfield₂⟩ :=
      assembleTask_fields hassemble₂
    have hjson : json₁ = json₂ := by
      rw [← shimFor_withoutCredential] at hjson₁ hjson₂
      simp only [← payloadJson_withoutCredential _ p] at hjson₁
      simp only [← payloadJson_withoutCredential _ q] at hjson₂
      rw [hp, hjson₂] at hjson₁
      exact (Except.ok.inj hjson₁).symm
    have hwire : wire₁ = wire₂ := by
      have hsame : toWire P e.withoutSecrets = toWire P f.withoutSecrets := by rw [he]
      rw [toWire_withoutSecrets, toWire_withoutSecrets, hwire₁, hwire₂] at hsame
      exact Except.ok.inj hsame
    rw [hpayload₁, hpayload₂, hfield₁, hfield₂, hjson, hwire]
    exact ⟨rfl, rfl⟩

/-- An identity resolver of a plain engine. -/
def resolver (capabilities : List String) : IsolatedPythonPlugin where
  config := ⟨"resolver", "isolated_venv", [hookIdentityResolve], capabilities, none⟩
  className := "pkg.Resolver"
  pluginDirs := ["/srv/plugins"]

/-- The task of a resolver for an identity payload with this token. -/
def resolverTask (capabilities : List String) (e : Extensions Plain.types) (token : String) :
    Except HostError Json :=
  writtenTask Plain.engine (resolver capabilities) (fun _ => .ok "config") hookIdentityResolve none
    ⟨HashMap.empty, HashMap.empty⟩ "id-1" (.identity (Plain.identity token)) e

theorem resolverTask_noninterference :
    resolverTask [] writableView "alpha" = resolverTask [] writableView "beta" ∧
    resolverTask [capReadInbound] writableView "alpha" =
      resolverTask [capReadInbound] writableView.withoutHttpHeaders "alpha" ∧
    ∃ t u, resolverTask [capReadInbound] writableView "alpha" = .ok t ∧
      resolverTask [capReadInbound] writableView "beta" = .ok u ∧ t ≠ u ∧
      t.get? "payload" = u.get? "payload" ∧ t.get? extensionsField = u.get? extensionsField := by
  refine ⟨?_, ?_, _, _, rfl, rfl, by decide, ?_⟩
  · exact (task_noninterference _ _ _ _ _ _ _ _ _ _ _).1 (by decide) rfl rfl
  · exact (task_noninterference _ _ _ _ _ _ _ _ (.identity (Plain.identity "alpha")) _ _).2.2.1 rfl
  · exact (task_noninterference Plain.engine (resolver [capReadInbound]) (fun _ => .ok "config")
      hookIdentityResolve none ⟨HashMap.empty, HashMap.empty⟩ "id-1"
      (.identity (Plain.identity "alpha")) (.identity (Plain.identity "beta")) writableView
      writableView).2.2.2 rfl rfl _ _ rfl rfl

end Cpex.Host
