import Cpex.Properties.PlainFfi

/-!
# An invoke with an identity, against one without

Without an identity, or on an engine that resolves none, `cpex_invoke_resolved` is `cpex_invoke`.
With an identity that does not resolve, the named hook is not dispatched.

* `Skips` — no identity is resolved
* `Unresolved` — the ways an identity does not resolve
* `resolved_degenerates` — what follows from each
-/

namespace Cpex.Ffi

open Cpex.Infra

variable {T : Types} {L : Library T} {inner : Engine T} {identity : Slice} {args : InvokeArgs}
  {table : Option T.Table}

/-- There is no identity payload, or no hook for it. -/
def Skips (inner : Engine T) (identity : Slice) : Prop :=
  identity.len ≤ 0 ∨ inner.hasHooksFor hookIdentityResolve = false

/-- A dispatch of the hook the caller named. -/
def Dispatch.IsNamed : Dispatch T → Prop
  | .identity _ _ => False
  | .named _ _ _ _ => True

/-- The identity is not bytes, is malformed, sets what a resolver fills in, times out, panics or
is denied. -/
inductive Unresolved (L : Library T) (inner : Engine T) (identity : Slice)
    (baseExtensions : T.Extensions) : Prop where
  | unreadable : cBytesToSlice identity = none → Unresolved L inner identity baseExtensions
  | malformed {bytes : Bytes} {e : String} : cBytesToSlice identity = some bytes →
      L.readIdentity bytes = .error e → Unresolved L inner identity baseExtensions
  | prefilled {bytes : Bytes} {payload : IdentityPayload T} : cBytesToSlice identity = some bytes →
      L.readIdentity bytes = .ok payload → resolvedIdentityFields payload ≠ [] →
      Unresolved L inner identity baseExtensions
  | timesOut {bytes : Bytes} {payload : IdentityPayload T} : cBytesToSlice identity = some bytes →
      L.readIdentity bytes = .ok payload →
      inner.invokeByName hookIdentityResolve (.identity payload) baseExtensions none = .timeout →
      Unresolved L inner identity baseExtensions
  | panics {bytes : Bytes} {payload : IdentityPayload T} : cBytesToSlice identity = some bytes →
      L.readIdentity bytes = .ok payload →
      inner.invokeByName hookIdentityResolve (.identity payload) baseExtensions none = .panicked →
      Unresolved L inner identity baseExtensions
  | denied {bytes : Bytes} {payload : IdentityPayload T} {result : PipelineResult T}
      {bg : T.Tasks} : cBytesToSlice identity = some bytes → L.readIdentity bytes = .ok payload →
      inner.invokeByName hookIdentityResolve (.identity payload) baseExtensions none =
        .ok (result, bg) →
      result.continueProcessing = false → Unresolved L inner identity baseExtensions

/-! ## Without an identity -/

theorem resolveIdentity_of_skips (h : Skips inner identity) (baseExtensions : T.Extensions) :
    resolveIdentity L inner identity baseExtensions = pure (.inl baseExtensions) := by
  unfold resolveIdentity
  rw [if_neg]
  rcases h with hlen | hhook
  · simp [Int32.not_lt.mpr hlen]
  · simp [hhook]

theorem resolvedResult_of_skips (h : Skips inner identity) :
    resolvedResult L inner identity args table = invokedResult L inner args table := by
  simp only [resolvedResult, invokedResult, resolveIdentity_of_skips h, pure_bind]

/-- The inlined tail of `cpex_invoke` is `finish_pipeline_result`. -/
theorem invoked_eq_finish (L : Library T) (inner : Engine T) (args : InvokeArgs)
    (table : Option T.Table) :
    invoked L inner args table = (do
      let (result, bg) ← invokedResult L inner args table
      .lift (finishPipelineResult L inner result bg args.payloadType)) := by
  unfold invoked
  refine bind_congr fun (result, bg) => ?_
  exact (Traced.lift_bind _ _).symm

/-- The two entry points return the same, and do the same on the way. -/
theorem invokedResolved_of_skips (h : Skips inner identity) :
    invokedResolved L inner identity args table = invoked L inner args table := by
  rw [invoked_eq_finish, invokedResolved, resolvedResult_of_skips h]

/-! ## With an identity that does not resolve -/

/-- The extensions are not what dispatches a hook. -/
theorem dispatches_decodeExtensions_bind {α : Type} {extensions : Slice}
    {f : T.Extensions → Step T α} {d : Dispatch T} :
    .dispatches d ∈ (decodeExtensions L extensions >>= f).trace ↔
      ∃ base, (decodeExtensions L extensions).outcome = .ok base ∧
        .dispatches d ∈ (f base).trace := by
  rw [Traced.mem_trace_bind, or_iff_right]
  unfold decodeExtensions
  split
  · intro hmem
    obtain ⟨extBytes, -, hmem⟩ := Traced.mem_trace_lift_bind.mp hmem
    simp [decode] at hmem
  · simp

/-- What is dispatched to resolve an identity is the identity hook. -/
theorem not_isNamed_of_mem_resolveIdentity {baseExtensions : T.Extensions} {d : Dispatch T}
    (hmem : .dispatches d ∈ (resolveIdentity L inner identity baseExtensions).trace) :
    ¬ d.IsNamed := by
  unfold resolveIdentity at hmem
  split at hmem
  · obtain ⟨idBytes, -, hmem⟩ := Traced.mem_trace_lift_bind.mp hmem
    obtain ⟨idPayload, -, hmem⟩ := dispatches_decode_bind.mp hmem
    obtain ⟨_, -, hmem⟩ := Traced.mem_trace_lift_bind.mp hmem
    rcases Traced.mem_trace_bind.mp hmem with hdispatch | ⟨⟨idResult, bg⟩, -, hrest⟩
    · obtain rfl := Effect.dispatches.inj (List.mem_singleton.mp hdispatch)
      exact id
    · dsimp only at hrest
      split at hrest
      · cases hrest
      · cases hrest
  · cases hmem

/-- The extensions that were merged come from a result that allows. -/
theorem resolveIdentity_ne_inl {baseExtensions : T.Extensions} (hlen : 0 < identity.len)
    (hhook : inner.hasHooksFor hookIdentityResolve = true)
    (h : Unresolved L inner identity baseExtensions) (mergedExtensions : T.Extensions) :
    (resolveIdentity L inner identity baseExtensions).outcome ≠ .ok (.inl mergedExtensions) := by
  intro hok
  unfold resolveIdentity at hok
  rw [if_pos (by simp [hlen, hhook])] at hok
  simp only [Traced.outcome_bind, Traced.outcome_lift] at hok
  obtain ⟨idBytes, hbytes, hok⟩ := bind_eq_ok.mp hok
  obtain ⟨idPayload, hpayload, hok⟩ := bind_eq_ok.mp hok
  obtain ⟨_, hunset, hok⟩ := bind_eq_ok.mp hok
  obtain ⟨⟨idResult, bg⟩, hanswer, hok⟩ := bind_eq_ok.mp hok
  have hread : ∀ bytes, cBytesToSlice identity = some bytes → idBytes = bytes := by
    intro bytes hsome
    rw [hsome] at hbytes
    exact (Except.ok.inj hbytes).symm
  have hdecoded : ∀ bytes payload, cBytesToSlice identity = some bytes →
      L.readIdentity bytes = .ok payload → idPayload = payload := by
    intro bytes payload hsome hread'
    have hpayload := outcome_decode_eq_ok_iff.mp hpayload
    rw [hread bytes hsome, hread'] at hpayload
    exact (Except.ok.inj hpayload).symm
  cases h with
  | unreadable hnone =>
    rw [hnone] at hbytes
    cases hbytes
  | malformed hsome herror =>
    have hpayload := outcome_decode_eq_ok_iff.mp hpayload
    rw [hread _ hsome, herror] at hpayload
    cases hpayload
  | prefilled hsome hread' hset =>
    obtain rfl := hdecoded _ _ hsome hread'
    unfold rejectResolvedIdentity at hunset
    rw [if_neg (by simpa using hset)] at hunset
    cases hunset
  | timesOut hsome hread' htimeout =>
    obtain rfl := hdecoded _ _ hsome hread'
    change SafeRun.orReturn (inner.invokeByName _ _ _ _) = _ at hanswer
    rw [htimeout] at hanswer
    cases hanswer
  | panics hsome hread' hpanic =>
    obtain rfl := hdecoded _ _ hsome hread'
    change SafeRun.orReturn (inner.invokeByName _ _ _ _) = _ at hanswer
    rw [hpanic] at hanswer
    cases hanswer
  | denied hsome hread' hdenied hstops =>
    obtain rfl := hdecoded _ _ hsome hread'
    change SafeRun.orReturn (inner.invokeByName _ _ _ _) = _ at hanswer
    rw [hdenied] at hanswer
    obtain ⟨rfl, rfl⟩ := Prod.mk.inj (Except.ok.inj hanswer)
    dsimp only at hok
    rw [hstops, Bool.not_false, if_pos rfl] at hok
    cases hok

theorem not_isNamed_of_unresolved (hlen : 0 < identity.len)
    (hhook : inner.hasHooksFor hookIdentityResolve = true)
    (h : ∀ baseExtensions, (decodeExtensions L args.extensions).outcome = .ok baseExtensions →
      Unresolved L inner identity baseExtensions)
    {d : Dispatch T}
    (hmem : .dispatches d ∈ (invokedResolved L inner identity args table).trace) :
    ¬ d.IsNamed := by
  rcases Traced.mem_trace_bind.mp hmem with hmem | ⟨r, -, hrest⟩
  · obtain ⟨name, -, hmem⟩ := Traced.mem_trace_lift_bind.mp hmem
    obtain ⟨_, -, hmem⟩ := Traced.mem_trace_lift_bind.mp hmem
    obtain ⟨payloadBytes, -, hmem⟩ := Traced.mem_trace_lift_bind.mp hmem
    obtain ⟨payload, -, hmem⟩ := dispatches_decode_bind.mp hmem
    obtain ⟨_, -, hmem⟩ := Traced.mem_trace_lift_bind.mp hmem
    obtain ⟨baseExtensions, hbase, hmem⟩ := dispatches_decodeExtensions_bind.mp hmem
    rcases Traced.mem_trace_bind.mp hmem with hidentity | ⟨resolved, houtcome, hrest⟩
    · exact not_isNamed_of_mem_resolveIdentity hidentity
    · cases resolved with
      | inr denied => cases hrest
      | inl mergedExtensions =>
        exact absurd houtcome (resolveIdentity_ne_inl hlen hhook (h baseExtensions hbase) _)
  · cases hrest

/--
**An invoke with an identity is one without where no identity is resolved, and stops where one does
not resolve.** For every engine, codec, memory and arguments: without an identity payload or a hook
for it, the two entry points leave the same memory, return the same code, write the same outputs,
and decode and dispatch the same on the way. With both, if the identity does not resolve against the
extensions that were passed, then the hook the caller named is not dispatched.
-/
theorem resolved_degenerates (L : Library T) (inner : Engine T) (allocates : Nat → Bool)
    (m : Memory T) (handle : Option Addr) (identity : Slice) (args : InvokeArgs)
    (contextTable : Option Addr) :
    (Skips inner identity →
      cpexInvokeResolved L inner allocates m handle identity args contextTable =
          cpexInvoke L inner allocates m handle args contextTable ∧
        ∀ table, (invokedResolved L inner identity args table).trace =
          (invoked L inner args table).trace) ∧
    (¬ Skips inner identity →
      (∀ baseExtensions, (decodeExtensions L args.extensions).outcome = .ok baseExtensions →
        Unresolved L inner identity baseExtensions) →
      ∀ table d, .dispatches d ∈ (invokedResolved L inner identity args table).trace →
        ¬ d.IsNamed) := by
  constructor
  · intro hskips
    refine ⟨?_, fun table => by rw [invokedResolved_of_skips hskips]⟩
    simp only [cpexInvokeResolved, cpexInvoke, invokedResolved_of_skips hskips]
  · intro hresolves hunresolved table d hmem
    have hlen : 0 < identity.len := Int32.not_le.mp fun hle => hresolves (.inl hle)
    have hhook : inner.hasHooksFor hookIdentityResolve = true := by
      simpa using fun hfalse => hresolves (.inr hfalse)
    exact not_isNamed_of_unresolved hlen hhook hunresolved hmem

/-! ## An identity that is denied -/

namespace Plain

/-- An engine whose identity hook denies. -/
def denyingEngine : Engine types where
  exposeDelegatedCredentials := false
  hasHooksFor name := name = hookIdentityResolve
  invokeByName name _ _ _ :=
    if name = hookIdentityResolve then .ok ({ allowed with continueProcessing := false }, ())
    else .ok (allowed, ())
  waitForBackgroundTasks _ := .ok []

end Plain

/-- The denial is returned as a result, and the payload and the identity are all that is decoded. -/
theorem resolved_degenerates_denied :
    (cpexInvokeResolved Plain.library Plain.engine (fun _ => true) Plain.memory (some 0) ⟨none, 0⟩
        Plain.invokeArgs none =
      cpexInvoke Plain.library Plain.engine (fun _ => true) Plain.memory (some 0) Plain.invokeArgs
        none) ∧
    (∀ d, .dispatches d ∈ (invokedResolved Plain.library Plain.denyingEngine
        ⟨some Plain.nilBytes, 1⟩ Plain.invokeArgs none).trace → ¬ d.IsNamed) ∧
    (invokedResolved Plain.library Plain.denyingEngine ⟨some Plain.nilBytes, 1⟩ Plain.invokeArgs
      none).trace.length = 3 := by
  refine ⟨((resolved_degenerates _ _ _ _ _ _ _ _).1 (.inl (by decide))).1, ?_, rfl⟩
  refine (resolved_degenerates _ _ (fun _ => true) Heap.empty none _ _ none).2 ?_ ?_ none
  · rintro (hlen | hhook)
    · exact absurd hlen (by decide)
    · exact absurd hhook (by decide)
  · intro baseExtensions hbase
    exact .denied rfl rfl rfl rfl

end Cpex.Ffi
