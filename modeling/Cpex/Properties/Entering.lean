import Cpex.Properties.Handles
import Cpex.Properties.ResolvedInvoke

/-!
# What an entry point decodes and dispatches

An invoke that is taken decodes each argument that is there, and dispatches the hooks with what the
arguments stand for. One that is refused dispatches nothing.

* `received`, `Accepted` — the bytes of each argument, and when Rust takes them
* `Dispatch.Of` — a hook is dispatched with what these bytes stand for
* `DecodingHook`, `DecodingExtensions`, `Resolving` — what comes of each part of an entry point
* `Refused`, `Taken`, `entering` — what comes of a call
-/

namespace Cpex.Ffi

open Cpex.Infra Cpex.Go

variable {T : Types}

/-! ## What is received -/

/-- Either entry point. -/
def entered (L : Library T) (inner : Engine T) (marshalled : Marshalled)
    (inputCtxTable : Option T.Table) : Step T (Reply T) :=
  match marshalled.identity with
  | none => invoked L inner marshalled.args inputCtxTable
  | some identity => invokedResolved L inner identity marshalled.args inputCtxTable

/-- The bytes that are received of an identity, by an engine that has a hook for it. -/
def receivedIdentity (inner : Engine T) (identity : Option Slice) : Option Bytes :=
  if inner.hasHooksFor hookIdentityResolve then identity.bind cBytesToSlice else none

/-- The bytes that are received of each argument. -/
def received (inner : Engine T) (marshalled : Marshalled) : Argument → Option Bytes
  | .payload => cBytesToSlice marshalled.args.payload
  | .extensions => cBytesToSlice marshalled.args.extensions
  | .identity => receivedIdentity inner marshalled.identity

/-- The extensions that the bytes stand for, or the default ones. -/
def ExtensionsOf (L : Library T) : Option Bytes → T.Extensions → Prop
  | none, extensions => extensions = L.defaultExtensions
  | some bytes, extensions => L.readExtensions bytes = .ok extensions

/-- The identity that the bytes stand for was resolved and allowed, and `merged` has what came of
it. -/
def ResolvedFrom (L : Library T) (inner : Engine T) (bytes : Bytes)
    (baseExtensions merged : T.Extensions) : Prop :=
  ∃ payload result bg, L.readIdentity bytes = .ok payload ∧
    inner.invokeByName hookIdentityResolve (.identity payload) baseExtensions none =
      .ok (result, bg) ∧
    result.continueProcessing = true ∧ merged = mergeIdentity L result baseExtensions

/-- A hook is dispatched with what these bytes of the arguments stand for. -/
inductive Dispatch.Of (L : Library T) (inner : Engine T) (payloadType : UInt8)
    (arguments : Argument → Option Bytes) : Dispatch T → Prop
  | identity {bytes : Bytes} {payload : IdentityPayload T} {base : T.Extensions}
      (hbytes : arguments .identity = some bytes) (hread : L.readIdentity bytes = .ok payload)
      (hbase : ExtensionsOf L (arguments .extensions) base) :
      Of L inner payloadType arguments (.identity payload base)
  /-- There is no identity to resolve. -/
  | named {bytes : Bytes} {payload : Payload T} {base : T.Extensions} {name : String}
      {table : Option T.Table} (hnone : arguments .identity = none)
      (hbytes : arguments .payload = some bytes)
      (hread : deserializePayload L payloadType bytes = .ok payload)
      (hbase : ExtensionsOf L (arguments .extensions) base) :
      Of L inner payloadType arguments (.named name payload base table)
  /-- The identity was resolved before. -/
  | resolved {bytes idBytes : Bytes} {payload : Payload T} {base merged : T.Extensions}
      {name : String} {table : Option T.Table} (hidentity : arguments .identity = some idBytes)
      (hresolved : ResolvedFrom L inner idBytes base merged)
      (hbytes : arguments .payload = some bytes)
      (hread : deserializePayload L payloadType bytes = .ok payload)
      (hbase : ExtensionsOf L (arguments .extensions) base) :
      Of L inner payloadType arguments (.named name payload merged table)

/-- The name and the payload are decoded, and the hook takes the payload. -/
def HookAccepted (L : Library T) (args : InvokeArgs) : Prop :=
  ∃ name bytes payload, cStrToSlice args.hookName = some name ∧
    rejectRemovedHook name = .ok () ∧ cBytesToSlice args.payload = some bytes ∧
    deserializePayload L args.payloadType bytes = .ok payload ∧
    rejectResolvedIdentityPayload name payload = .ok ()

/-- Extensions that are there are decoded. -/
def ExtensionsAccepted (L : Library T) (s : Slice) : Prop :=
  s.len > 0 → ∃ bytes extensions, cBytesToSlice s = some bytes ∧
    L.readExtensions bytes = .ok extensions

/-- An identity for which the engine has a hook is decoded, and sets no resolver output. -/
def IdentityAccepted (L : Library T) (inner : Engine T) (identity : Option Slice) : Prop :=
  ∀ s, identity = some s → s.len > 0 → inner.hasHooksFor hookIdentityResolve = true →
    ∃ bytes payload, cBytesToSlice s = some bytes ∧ L.readIdentity bytes = .ok payload ∧
      rejectResolvedIdentity payload = .ok ()

/-- Rust takes the arguments it receives. -/
structure Accepted (L : Library T) (inner : Engine T) (marshalled : Marshalled) : Prop where
  hook : HookAccepted L marshalled.args
  extensions : ExtensionsAccepted L marshalled.args.extensions
  identity : IdentityAccepted L inner marshalled.identity

variable {L : Library T} {inner : Engine T} {marshalled : Marshalled} {table : Option T.Table}
  {args : InvokeArgs}

/-! ## The parts of an entry point -/

/-- The name of the hook, and its payload. -/
def decodeHook (L : Library T) (args : InvokeArgs) : Step T (String × Payload T) := do
  let name ← .lift (orReturn .invalidInput (cStrToSlice args.hookName))
  .lift (rejectRemovedHook name)
  let payloadBytes ← .lift (orReturn .invalidInput (cBytesToSlice args.payload))
  let payload ← decode .payload (deserializePayload L args.payloadType) payloadBytes
  .lift (rejectResolvedIdentityPayload name payload)
  return (name, payload)

/-- The identity, where the entry point has one. -/
def resolveSupplied (L : Library T) (inner : Engine T) (identity : Option Slice)
    (baseExtensions : T.Extensions) : Step T (T.Extensions ⊕ PipelineResult T) :=
  match identity with
  | none => return .inl baseExtensions
  | some identity => resolveIdentity L inner identity baseExtensions

/-- The named hook, unless the identity was denied. -/
def runNamed (inner : Engine T) (inputCtxTable : Option T.Table) (name : String)
    (payload : Payload T) :
    T.Extensions ⊕ PipelineResult T → Step T (PipelineResult T × Option T.Tasks)
  | .inr denied => return (denied, none)
  | .inl extensions => do
    let (result, bg) ← dispatch inner (.named name payload extensions inputCtxTable)
    return (result, some bg)

theorem entered_eq (L : Library T) (inner : Engine T) (marshalled : Marshalled)
    (table : Option T.Table) :
    entered L inner marshalled table = (do
      let (name, payload) ← decodeHook L marshalled.args
      let base ← decodeExtensions L marshalled.args.extensions
      let resolved ← resolveSupplied L inner marshalled.identity base
      let (result, bg) ← runNamed inner table name payload resolved
      .lift (finishPipelineResult L inner result bg marshalled.args.payloadType)) := by
  unfold entered
  cases marshalled.identity with
  | none =>
    simp only [invoked_eq_finish, invokedResult, decodeHook, resolveSupplied, runNamed,
      bind_assoc, pure_bind]
  | some identity =>
    simp only [invokedResolved, resolvedResult, decodeHook, resolveSupplied, bind_assoc,
      pure_bind]
    refine bind_congr fun name => bind_congr fun _ => bind_congr fun payloadBytes => ?_
    refine bind_congr fun payload => bind_congr fun _ => bind_congr fun base => ?_
    refine bind_congr fun resolved => ?_
    cases resolved with
    | inr denied => rfl
    | inl merged => rfl

/-- What is decoded of an argument that is there. -/
def decodesOf (argument : Argument) (bytes : Option Bytes) : List (Effect T) :=
  (bytes.map (.decodes argument)).toList

theorem decodes_mem_decodesOf {a b : Argument} {bytes : Bytes} {o : Option Bytes} :
    (.decodes a bytes : Effect T) ∈ decodesOf b o ↔ a = b ∧ o = some bytes := by
  cases o with
  | none => simp [decodesOf]
  | some bytes' => simp [decodesOf, eq_comm]

theorem dispatches_not_mem_decodesOf {d : Dispatch T} {argument : Argument} {o : Option Bytes} :
    .dispatches d ∉ decodesOf argument o := by
  cases o with
  | none => simp [decodesOf]
  | some bytes => simp [decodesOf]

/-- What comes of the extensions: they are refused, or decoded from what is received. -/
inductive DecodingExtensions (L : Library T) (s : Slice) : Step T T.Extensions → Prop
  | refused (effects : List (Effect T)) (rc : Rc) (hnone : ∀ d, .dispatches d ∉ effects)
      (hrefused : ¬ ExtensionsAccepted L s) : DecodingExtensions L s ⟨effects, .error rc⟩
  | taken (base : T.Extensions) (hbase : ExtensionsOf L (cBytesToSlice s) base)
      (haccepted : ExtensionsAccepted L s) :
      DecodingExtensions L s ⟨decodesOf .extensions (cBytesToSlice s), .ok base⟩

theorem cBytesToSlice_of_not_pos {s : Slice} (h : ¬ s.len > 0) : cBytesToSlice s = none := by
  unfold cBytesToSlice
  cases s.pointer with
  | none => rfl
  | some bytes => exact if_pos (Int32.not_lt.mp h)

theorem decode_of_error {α : Type} {argument : Argument} {read : Bytes → Except String α}
    {bytes : Bytes} {e : String} (h : read bytes = .error e) :
    decode argument read bytes = (⟨[.decodes argument bytes], .error .parseError⟩ : Step T α) := by
  rw [decode, h]
  rfl

theorem decode_of_ok {α : Type} {argument : Argument} {read : Bytes → Except String α}
    {bytes : Bytes} {a : α} (h : read bytes = .ok a) :
    decode argument read bytes = (⟨[.decodes argument bytes], .ok a⟩ : Step T α) := by
  rw [decode, h]
  rfl

theorem decodingExtensions (L : Library T) (s : Slice) :
    DecodingExtensions L s (decodeExtensions L s) := by
  unfold decodeExtensions
  split
  · next hlen =>
    cases hbytes : cBytesToSlice s with
    | none =>
      refine .refused [] .invalidInput (fun _ => List.not_mem_nil) fun haccepts => ?_
      obtain ⟨bytes, extensions, hsome, -⟩ := haccepts hlen
      cases hbytes.symm.trans hsome
    | some bytes =>
      show DecodingExtensions L s (decode .extensions L.readExtensions bytes)
      cases hread : L.readExtensions bytes with
      | error e =>
        rw [decode_of_error hread]
        refine .refused _ _ (fun d => by simp) fun haccepts => ?_
        obtain ⟨bytes', extensions, hsome, hok⟩ := haccepts hlen
        obtain rfl := Option.some.inj (hbytes.symm.trans hsome)
        cases hread.symm.trans hok
      | ok extensions =>
        have htaken : (⟨[.decodes .extensions bytes], .ok extensions⟩ : Step T T.Extensions) =
            ⟨decodesOf .extensions (cBytesToSlice s), .ok extensions⟩ := by
          rw [hbytes]
          rfl
        rw [decode_of_ok hread, htaken]
        exact .taken extensions (by rw [hbytes]; exact hread)
          fun _ => ⟨bytes, extensions, hbytes, hread⟩
  · next hlen =>
    have hnone := cBytesToSlice_of_not_pos hlen
    have hdefault : (pure L.defaultExtensions : Step T T.Extensions) =
        ⟨decodesOf .extensions (cBytesToSlice s), .ok L.defaultExtensions⟩ := by
      rw [hnone]
      rfl
    rw [hdefault]
    exact .taken _ (by rw [hnone]; rfl) fun hpos => absurd hpos hlen

/-- What comes of the name and the payload. -/
inductive DecodingHook (L : Library T) (args : InvokeArgs) : Step T (String × Payload T) → Prop
  | refused (effects : List (Effect T)) (rc : Rc) (hnone : ∀ d, .dispatches d ∉ effects)
      (hrefused : ¬ HookAccepted L args) : DecodingHook L args ⟨effects, .error rc⟩
  | taken (name : String) (payload : Payload T) (bytes : Bytes)
      (hbytes : cBytesToSlice args.payload = some bytes)
      (hread : deserializePayload L args.payloadType bytes = .ok payload)
      (haccepted : HookAccepted L args) :
      DecodingHook L args ⟨[.decodes .payload bytes], .ok (name, payload)⟩

theorem decodingHook (L : Library T) (args : InvokeArgs) :
    DecodingHook L args (decodeHook L args) := by
  unfold decodeHook
  cases hname : cStrToSlice args.hookName with
  | none =>
    refine .refused [] .invalidInput (fun _ => List.not_mem_nil) ?_
    rintro ⟨name, bytes, payload, hsome, -⟩
    cases hname.symm.trans hsome
  | some name =>
    show DecodingHook L args (.lift (rejectRemovedHook name) >>= _)
    cases hremoved : rejectRemovedHook name with
    | error rc =>
      refine .refused [] rc (fun _ => List.not_mem_nil) ?_
      rintro ⟨name', bytes, payload, hsome, hnot, -⟩
      obtain rfl := Option.some.inj (hname.symm.trans hsome)
      cases hremoved.symm.trans hnot
    | ok _ =>
      cases hbytes : cBytesToSlice args.payload with
      | none =>
        refine .refused [] .invalidInput (fun _ => List.not_mem_nil) ?_
        rintro ⟨name', bytes, payload, -, -, hsome, -⟩
        cases hbytes.symm.trans hsome
      | some bytes =>
        show DecodingHook L args
          (decode .payload (deserializePayload L args.payloadType) bytes >>= _)
        cases hread : deserializePayload L args.payloadType bytes with
        | error e =>
          rw [decode_of_error hread]
          refine .refused [.decodes .payload bytes] .parseError (fun d => by simp) ?_
          rintro ⟨name', bytes', payload, -, -, hsome, hok, -⟩
          obtain rfl := Option.some.inj (hbytes.symm.trans hsome)
          cases hread.symm.trans hok
        | ok payload =>
          rw [decode_of_ok hread, Traced.mk_ok_bind]
          cases hset : rejectResolvedIdentityPayload name payload with
          | error rc =>
            refine .refused [.decodes .payload bytes] rc (fun d => by simp) ?_
            rintro ⟨name', bytes', payload', hsome, -, hsome', hok, hunset⟩
            obtain rfl := Option.some.inj (hname.symm.trans hsome)
            obtain rfl := Option.some.inj (hbytes.symm.trans hsome')
            obtain rfl := Except.ok.inj (hread.symm.trans hok)
            cases hset.symm.trans hunset
          | ok _ =>
            exact .taken name payload bytes hbytes hread
              ⟨name, bytes, payload, hname, hremoved, hbytes, hread, hset⟩

/-- What comes of the engine's answer to an identity. -/
def answered (L : Library T) (base : T.Extensions) :
    SafeRun (PipelineResult T × T.Tasks) → Except Rc (T.Extensions ⊕ PipelineResult T)
  | .timeout => .error .timeout
  | .panicked => .error .panic
  | .ok (result, _) =>
    .ok (if !result.continueProcessing then .inr result else .inl (mergeIdentity L result base))

theorem dispatch_identity_bind (L : Library T) (inner : Engine T) (payload : IdentityPayload T)
    (base : T.Extensions) :
    (do
      let (idResult, _) ← dispatch inner (.identity payload base)
      if !idResult.continueProcessing then return .inr idResult
      else return .inl (mergeIdentity L idResult base) :
        Step T (T.Extensions ⊕ PipelineResult T)) =
      ⟨[.dispatches (.identity payload base)], answered L base
        (inner.invokeByName hookIdentityResolve (.identity payload) base none)⟩ := by
  have hdispatch : dispatch inner (.identity payload base) =
      ⟨[.dispatches (.identity payload base)],
        (inner.invokeByName hookIdentityResolve (.identity payload) base none).orReturn⟩ := rfl
  rw [hdispatch]
  cases inner.invokeByName hookIdentityResolve (.identity payload) base none with
  | timeout => rfl
  | panicked => rfl
  | ok answer =>
    obtain ⟨⟨continueProcessing, _⟩, bg⟩ := answer
    cases continueProcessing with
    | false => rfl
    | true => rfl

/-- What comes of the identity: it is refused, not resolved, or resolved by what the engine has for
it. -/
inductive Resolving (L : Library T) (inner : Engine T) (identity : Option Slice)
    (base : T.Extensions) : Step T (T.Extensions ⊕ PipelineResult T) → Prop
  | refused (effects : List (Effect T)) (rc : Rc) (hnone : ∀ d, .dispatches d ∉ effects)
      (hrefused : ¬ IdentityAccepted L inner identity) :
      Resolving L inner identity base ⟨effects, .error rc⟩
  | skipped (hnone : receivedIdentity inner identity = none)
      (haccepted : IdentityAccepted L inner identity) :
      Resolving L inner identity base ⟨[], .ok (.inl base)⟩
  | asked (bytes : Bytes) (payload : IdentityPayload T)
      (hbytes : receivedIdentity inner identity = some bytes)
      (hread : L.readIdentity bytes = .ok payload)
      (haccepted : IdentityAccepted L inner identity) :
      Resolving L inner identity base
        ⟨[.decodes .identity bytes, .dispatches (.identity payload base)],
          answered L base (inner.invokeByName hookIdentityResolve (.identity payload) base none)⟩

theorem resolving (L : Library T) (inner : Engine T) (identity : Option Slice)
    (base : T.Extensions) :
    Resolving L inner identity base (resolveSupplied L inner identity base) := by
  cases identity with
  | none =>
    refine .skipped ?_ nofun
    unfold receivedIdentity
    split
    · rfl
    · rfl
  | some s =>
    show Resolving L inner (some s) base (resolveIdentity L inner s base)
    unfold resolveIdentity
    split
    · next htries =>
      obtain ⟨hlen, hhook⟩ : s.len > 0 ∧ inner.hasHooksFor hookIdentityResolve = true := by
        simpa using htries
      have hreceived : receivedIdentity inner (some s) = cBytesToSlice s := if_pos hhook
      cases hbytes : cBytesToSlice s with
      | none =>
        refine .refused [] .invalidInput (fun _ => List.not_mem_nil) fun haccepted => ?_
        obtain ⟨bytes, payload, hsome, -⟩ := haccepted s rfl hlen hhook
        cases hbytes.symm.trans hsome
      | some bytes =>
        show Resolving L inner (some s) base (decode .identity L.readIdentity bytes >>= _)
        cases hread : L.readIdentity bytes with
        | error e =>
          rw [decode_of_error hread]
          refine .refused [.decodes .identity bytes] .parseError (fun d => by simp)
            fun haccepted => ?_
          obtain ⟨bytes', payload, hsome, hok, -⟩ := haccepted s rfl hlen hhook
          obtain rfl := Option.some.inj (hbytes.symm.trans hsome)
          cases hread.symm.trans hok
        | ok payload =>
          rw [decode_of_ok hread, Traced.mk_ok_bind]
          cases hset : rejectResolvedIdentity payload with
          | error rc =>
            refine .refused [.decodes .identity bytes] rc (fun d => by simp) fun haccepted => ?_
            obtain ⟨bytes', payload', hsome, hok, hunset⟩ := haccepted s rfl hlen hhook
            obtain rfl := Option.some.inj (hbytes.symm.trans hsome)
            obtain rfl := Except.ok.inj (hread.symm.trans hok)
            cases hset.symm.trans hunset
          | ok _ =>
            rw [Traced.lift_ok_bind, dispatch_identity_bind]
            refine .asked bytes payload (hreceived.trans hbytes) hread ?_
            rintro s' hs - -
            obtain rfl := Option.some.inj hs
            exact ⟨bytes, payload, hbytes, hread, hset⟩
    · next hskips =>
      have hskips : ¬ (s.len > 0 ∧ inner.hasHooksFor hookIdentityResolve = true) := by
        simpa using hskips
      refine .skipped ?_ ?_
      · unfold receivedIdentity
        split
        · next hhook => exact cBytesToSlice_of_not_pos fun hlen => hskips ⟨hlen, hhook⟩
        · rfl
      · rintro s' hs hlen hhook
        obtain rfl := Option.some.inj hs
        exact absurd ⟨hlen, hhook⟩ hskips

theorem resolvedFrom_of_answered {base merged : T.Extensions} {bytes : Bytes}
    {payload : IdentityPayload T} (hread : L.readIdentity bytes = .ok payload)
    (h : answered L base (inner.invokeByName hookIdentityResolve (.identity payload) base none) =
      .ok (.inl merged)) : ResolvedFrom L inner bytes base merged := by
  cases hanswer : inner.invokeByName hookIdentityResolve (.identity payload) base none with
  | timeout =>
    rw [hanswer] at h
    cases h
  | panicked =>
    rw [hanswer] at h
    cases h
  | ok answer =>
    obtain ⟨result, bg⟩ := answer
    rw [hanswer] at h
    have h := Except.ok.inj h
    split at h
    · cases h
    · next hallowed =>
      exact ⟨payload, result, bg, hread, hanswer, by simpa using hallowed, (Sum.inl.inj h).symm⟩

/-- What is dispatched with a payload and extensions. -/
theorem trace_runNamed_bind (L : Library T) (inner : Engine T) (table : Option T.Table)
    (name : String) (payload : Payload T) (payloadType : UInt8)
    (resolved : T.Extensions ⊕ PipelineResult T) :
    (do
      let (result, bg) ← runNamed inner table name payload resolved
      .lift (finishPipelineResult L inner result bg payloadType) : Step T (Reply T)).trace =
      (resolved.getLeft?.map fun base => .dispatches (.named name payload base table)).toList := by
  rw [Traced.trace_bind_of_silent fun _ => rfl]
  cases resolved with
  | inr denied => rfl
  | inl base => exact Traced.trace_bind_of_silent fun _ => rfl

/-- The call fails before any hook is dispatched, because an argument is not taken. -/
structure Refused (L : Library T) (inner : Engine T) (marshalled : Marshalled)
    (step : Step T (Reply T)) : Prop where
  fails : ∃ rc, step.outcome = .error rc
  nothing : ∀ d, .dispatches d ∉ step.trace
  unaccepted : ¬ Accepted L inner marshalled

/-- The arguments are taken: all that is received is decoded, and hooks are dispatched with it. -/
structure Taken (L : Library T) (inner : Engine T) (marshalled : Marshalled)
    (step : Step T (Reply T)) : Prop where
  accepted : Accepted L inner marshalled
  decodes : ∀ argument bytes, .decodes argument bytes ∈ step.trace ↔
    received inner marshalled argument = some bytes
  dispatches : ∃ d, .dispatches d ∈ step.trace
  dispatched : ∀ d, .dispatches d ∈ step.trace →
    d.Of L inner marshalled.args.payloadType (received inner marshalled)

/-- What is received is decoded, and then the hooks are dispatched. -/
theorem taken_of_trace (ds : List (Dispatch T)) {step : Step T (Reply T)}
    {bytes : Bytes} (haccepted : Accepted L inner marshalled)
    (hbytes : cBytesToSlice marshalled.args.payload = some bytes)
    (htrace : step.trace =
      .decodes .payload bytes :: (decodesOf .extensions (received inner marshalled .extensions) ++
        (decodesOf .identity (received inner marshalled .identity) ++ ds.map .dispatches)))
    (hne : ds ≠ [])
    (hof : ∀ d ∈ ds, d.Of L inner marshalled.args.payloadType (received inner marshalled)) :
    Taken L inner marshalled step := by
  have hreceived : received inner marshalled .payload = some bytes := hbytes
  refine ⟨haccepted, ?_, ?_, ?_⟩
  · intro argument seen
    rw [htrace]
    cases argument with
    | payload => simp [decodes_mem_decodesOf, hreceived, eq_comm]
    | extensions => simp [decodes_mem_decodesOf]
    | identity => simp [decodes_mem_decodesOf]
  · obtain ⟨d, hmem⟩ := List.exists_mem_of_ne_nil ds hne
    exact ⟨d, by rw [htrace]; simp [hmem]⟩
  · intro d hmem
    rw [htrace] at hmem
    exact hof d (by simpa [dispatches_not_mem_decodesOf] using hmem)

/-- **What comes of a call**: the steps of the entry point are refused or taken one by one. -/
theorem entering (L : Library T) (inner : Engine T) (marshalled : Marshalled)
    (table : Option T.Table) :
    Refused L inner marshalled (entered L inner marshalled table) ∨
      Taken L inner marshalled (entered L inner marshalled table) := by
  rw [entered_eq]
  have hhook := decodingHook L marshalled.args
  generalize decodeHook L marshalled.args = hookStep at hhook
  cases hhook with
  | refused effects rc hnone hrefused =>
    exact .inl ⟨⟨rc, rfl⟩, hnone, fun h => hrefused h.hook⟩
  | taken name payload bytes hbytes hread hhook =>
    simp only [Traced.mk_ok_bind]
    have hextensions := decodingExtensions L marshalled.args.extensions
    generalize decodeExtensions L marshalled.args.extensions = extensionsStep at hextensions
    cases hextensions with
    | refused effects rc hnone hrefused =>
      simp only [Traced.mk_error_bind]
      refine .inl ⟨⟨rc, rfl⟩, fun d => ?_, fun h => hrefused h.extensions⟩
      simp [hnone d]
    | taken base hbase hextensions =>
      simp only [Traced.mk_ok_bind]
      have hidentity := resolving L inner marshalled.identity base
      generalize resolveSupplied L inner marshalled.identity base = identityStep at hidentity
      cases hidentity with
      | refused effects rc hnone hrefused =>
        simp only [Traced.mk_error_bind]
        refine .inl ⟨⟨rc, rfl⟩, fun d => ?_, fun h => hrefused h.identity⟩
        simp [dispatches_not_mem_decodesOf, hnone d]
      | skipped hnone hidentity =>
        have hreceived : received inner marshalled .identity = none := hnone
        simp only [Traced.mk_ok_bind]
        refine .inr <| taken_of_trace [.named name payload base table]
          ⟨hhook, hextensions, hidentity⟩ hbytes ?_ (List.cons_ne_nil _ _) ?_
        · dsimp only
          rw [trace_runNamed_bind, hreceived]
          rfl
        · intro d hmem
          obtain rfl := List.mem_singleton.mp hmem
          exact .named hreceived hbytes hread hbase
      | asked idBytes idPayload hidBytes hidRead hidentity =>
        have hreceived : received inner marshalled .identity = some idBytes := hidBytes
        have hasked : (Dispatch.identity idPayload base).Of L inner marshalled.args.payloadType
            (received inner marshalled) := .identity hreceived hidRead hbase
        cases houtcome : answered L base
            (inner.invokeByName hookIdentityResolve (.identity idPayload) base none) with
        | error rc =>
          simp only [Traced.mk_error_bind]
          refine .inr <| taken_of_trace [.identity idPayload base]
            ⟨hhook, hextensions, hidentity⟩ hbytes ?_ (List.cons_ne_nil _ _) ?_
          · rw [hreceived]
            rfl
          · intro d hmem
            obtain rfl := List.mem_singleton.mp hmem
            exact hasked
        | ok resolved =>
          simp only [Traced.mk_ok_bind]
          refine .inr <| taken_of_trace (.identity idPayload base ::
              (resolved.getLeft?.map fun merged => .named name payload merged table).toList)
            ⟨hhook, hextensions, hidentity⟩ hbytes ?_ (List.cons_ne_nil _ _) ?_
          · dsimp only
            rw [trace_runNamed_bind, hreceived]
            cases resolved with
            | inr denied => rfl
            | inl merged => rfl
          · intro d hmem
            rcases List.mem_cons.mp hmem with rfl | hmem
            · exact hasked
            · cases resolved with
              | inr denied => cases hmem
              | inl merged =>
                obtain rfl := List.mem_singleton.mp hmem
                exact .resolved hreceived (resolvedFrom_of_answered hidRead houtcome) hbytes hread
                  hbase

end Cpex.Ffi
