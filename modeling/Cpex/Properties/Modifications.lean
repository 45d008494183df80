import Cpex.Bindings.Result
import Cpex.Properties.OkResults
import Cpex.Properties.ResolvedInvoke

/-!
# What becomes of a modification

A result may hold a modified payload and modified extensions. Where one of them cannot be encoded,
the host is told, or it is not: the C interface drops extensions without a word, and a null buffer
drops everything with `RC_OK`. The Python binding raises, or adds an error.

* `InvokeCall.result` — the result an entry point encodes
* `Accounted` — each modification was handed over, or has an error of its own
* `accounts_iff` — when that holds, for each way a result crosses
-/

namespace Cpex.Ffi

open Cpex.Infra

variable {T : Types}

/-! ## Calls -/

/-- A call of an entry point that hands out a result of the engine. -/
inductive InvokeCall where
  | invoke (args : InvokeArgs)
  | invokeResolved (identity : Slice) (args : InvokeArgs)

namespace InvokeCall

/-- The payload type the caller passed, which a result without a modified payload keeps. -/
def payloadType : InvokeCall → UInt8
  | .invoke args | .invokeResolved _ args => args.payloadType

def run (L : Library T) (inner : Engine T) (allocates : Nat → Bool) (m : Memory T)
    (handle contextTable : Option Addr) : InvokeCall → Memory T × Rc × Outs
  | .invoke args => cpexInvoke L inner allocates m handle args contextTable
  | .invokeResolved identity args =>
    cpexInvokeResolved L inner allocates m handle identity args contextTable

/-- The result that the call encodes, or the code it returns before it has one. -/
def result (L : Library T) (inner : Engine T) (handle : Option Addr)
    (inputCtxTable : Option T.Table) (call : InvokeCall) :
    Except Rc (PipelineResult T × Option T.Tasks) :=
  if handle.isNone then .error .invalidHandle
  else match call with
    | .invoke args => (invokedResult L inner args inputCtxTable).outcome
    | .invokeResolved identity args => (resolvedResult L inner identity args inputCtxTable).outcome

end InvokeCall

theorem outcome_invoked (L : Library T) (inner : Engine T) (args : InvokeArgs)
    (inputCtxTable : Option T.Table) :
    (invoked L inner args inputCtxTable).outcome = (do
      let r ← (invokedResult L inner args inputCtxTable).outcome
      finishPipelineResult L inner r.1 r.2 args.payloadType) := by
  rw [invoked_eq_finish, Traced.outcome_bind]
  rfl

theorem outcome_invokedResolved (L : Library T) (inner : Engine T) (identity : Slice)
    (args : InvokeArgs) (inputCtxTable : Option T.Table) :
    (invokedResolved L inner identity args inputCtxTable).outcome = (do
      let r ← (resolvedResult L inner identity args inputCtxTable).outcome
      finishPipelineResult L inner r.1 r.2 args.payloadType) := by
  rw [invokedResolved, Traced.outcome_bind]
  rfl

/-- Both entry points encode their result in one way. -/
theorem run_eq (L : Library T) (inner : Engine T) (allocates : Nat → Bool) (m : Memory T)
    (handle contextTable : Option Addr) (call : InvokeCall) :
    call.run L inner allocates m handle contextTable =
      writeOuts allocates (asRef (takeTable m contextTable).1 handle) (do
        let r ← call.result L inner handle (takeTable m contextTable).2
        finishPipelineResult L inner r.1 r.2 call.payloadType) := by
  cases handle with
  | none => cases call <;> rfl
  | some p =>
    cases call with
    | invoke args =>
      have hinvoked := outcome_invoked L inner args (takeTable m contextTable).2
      exact congrArg (writeOuts allocates _) hinvoked
    | invokeResolved identity args =>
      have hinvoked := outcome_invokedResolved L inner identity args (takeTable m contextTable).2
      exact congrArg (writeOuts allocates _) hinvoked

/-! ## Delivered or reported -/

variable {L : Library T} {inner : Engine T} {allocates : Nat → Bool} {m : Memory T}
variable {result : PipelineResult T}

/-- What became of two modifications, with these records added to the errors: each was handed
over, or has a record of its own. -/
inductive Accounted {α : Type} (payload extensions : Prop) (reports : List α) : Prop where
  | handed (hpayload : payload) (hextensions : extensions)
  | payloadLost (hextensions : extensions) (reported : 1 ≤ reports.length)
  | extensionsLost (hpayload : payload) (reported : 1 ≤ reports.length)
  | bothLost (reported : 2 ≤ reports.length)

/-- Without a report nothing was lost. -/
theorem Accounted.of_nil {α : Type} {payload extensions : Prop}
    (h : Accounted payload extensions ([] : List α)) : payload ∧ extensions := by
  cases h with
  | handed hpayload hextensions => exact ⟨hpayload, hextensions⟩
  | payloadLost _ reported => exact absurd reported (Nat.not_succ_le_zero 0)
  | extensionsLost _ reported => exact absurd reported (Nat.not_succ_le_zero 0)
  | bothLost reported => exact absurd reported (Nat.not_succ_le_zero 1)

/-- One report is not enough for both. -/
theorem Accounted.of_lost {α : Type} {payload extensions : Prop} {report : α}
    (h : Accounted payload extensions [report]) (hlost : ¬ payload) : extensions := by
  cases h with
  | handed hpayload hextensions => exact hextensions
  | payloadLost hextensions _ => exact hextensions
  | extensionsLost hpayload _ => exact absurd hpayload hlost
  | bothLost reported => exact absurd reported (by simp)

/-- The result pointer is to the bytes of this envelope. -/
def Received (L : Library T) (envelope : FfiPipelineResult) (r : Memory T × Rc × Outs) : Prop :=
  ∃ p bytes, r.2.2.result = some p ∧ r.1.get? p = some (.bytes bytes) ∧
    L.writeResult envelope = .ok bytes

/-- A modified payload arrives, under its type. -/
def HandsPayload (L : Library T) (result : PipelineResult T) (envelope : FfiPipelineResult)
    (r : Memory T × Rc × Outs) : Prop :=
  ∀ p, result.modifiedPayload = some p → Received L envelope r ∧
    ∃ t bytes, serializePayload L p = .ok (t, bytes) ∧ envelope.payloadType = t ∧
      envelope.modifiedPayload = some bytes

def HandsExtensions (L : Library T) (result : PipelineResult T) (envelope : FfiPipelineResult)
    (r : Memory T × Rc × Outs) : Prop :=
  ∀ extensions, result.modifiedExtensions = some extensions → Received L envelope r ∧
    ∃ bytes, L.writeExtensions extensions = .ok bytes ∧ envelope.modifiedExtensions = some bytes

/-- What is meant to hold of a call that encodes this envelope: another code than `RC_OK`, or each
modification is accounted for in an envelope that arrives. -/
def FfiAccounts (L : Library T) (result : PipelineResult T) (envelope : FfiPipelineResult)
    (r : Memory T × Rc × Outs) : Prop :=
  r.2.1 = .ok → ∃ reports, envelope.errors = result.errors ++ reports ∧
    (reports ≠ [] → Received L envelope r) ∧
      Accounted (HandsPayload L result envelope r) (HandsExtensions L result envelope r) reports

/-- The getter raises, or gives the object that stands for the value. -/
def Reads (v : Json) (got : Except Bindings.PyErr (Option Bindings.PyDict)) : Prop :=
  (∃ e, got = .error e) ∨ ∃ d, Bindings.jsonValueToPyobj v = .ok (.dict d) ∧ got = .ok (some d)

/-- What is meant to hold of the conversion for a Python host: it raises, or each modification is
accounted for. -/
def PyAccounts (L : Library T) (S : Bindings.ToValue T) (result : PipelineResult T)
    (r : Except Bindings.PyErr Bindings.PyPipelineResult) : Prop :=
  ∀ r', r = .ok r' → ∃ reports, (result.errors ++ reports).mapM S.error = .ok r'.errors ∧
    Accounted
      (∀ p, result.modifiedPayload = some p → ∃ v, Bindings.serializePayload L S p = some v ∧
        Reads v r'.getModifiedPayload)
      (∀ extensions, result.modifiedExtensions = some extensions →
        ∃ v, S.extensions extensions = .ok v ∧ Reads v r'.getModifiedExtensions)
      reports

/-- A result on its way to a host. -/
inductive Crossing (T : Types) where
  | c (call : InvokeCall) (handle contextTable : Option Addr)
  | python (result : PipelineResult T)

/-- What is meant to hold of each crossing. -/
def Crossing.Accounts (L : Library T) (S : Bindings.ToValue T) (inner : Engine T)
    (allocates : Nat → Bool) (m : Memory T) : Crossing T → Prop
  | .c call handle ct => ∀ result bg,
    call.result L inner handle (takeTable m ct).2 = .ok (result, bg) →
      FfiAccounts L result (ffiResult L inner call.payloadType result)
        (call.run L inner allocates m handle ct)
  | .python result => PyAccounts L S result (Bindings.pipelineResultToPy L S result)

/-- An envelope that is encoded is carried where there is a modification, and modified extensions
are encoded too. -/
def Carries (L : Library T) (allocates : Nat → Bool) (result : PipelineResult T)
    (envelope : FfiPipelineResult) : Prop :=
  ∀ bytes, L.writeResult envelope = .ok bytes →
    (result.modifiedPayload ≠ none ∨ result.modifiedExtensions ≠ none →
      Carriable allocates bytes) ∧
    ∀ extensions, result.modifiedExtensions = some extensions →
      ∃ bytes, L.writeExtensions extensions = .ok bytes

/-- The condition on each crossing. There is none on a crossing to Python. -/
def Crossing.Carries (L : Library T) (inner : Engine T) (allocates : Nat → Bool) (m : Memory T) :
    Crossing T → Prop
  | .c call handle ct => ∀ result bg,
    call.result L inner handle (takeTable m ct).2 = .ok (result, bg) →
      Ffi.Carries L allocates result (ffiResult L inner call.payloadType result)
  | .python _ => True

/-! ## The C interface -/

theorem get?_alloc_of_get? {p : Addr} {content : Allocation T} (h : m.get? p = some content)
    (content' : Allocation T) : (m.alloc content').1.get? p = some content := by
  rw [Heap.get?_alloc, if_neg (Heap.get?_lt h).ne, h]

theorem get?_boxTasks {p : Addr} {content : Allocation T} (h : m.get? p = some content)
    (bg : Option T.Tasks) : (boxTasks m bg).1.get? p = some content := by
  cases bg with
  | none => exact h
  | some tasks => exact get?_alloc_of_get? h (.tasks tasks)

/-- Bytes that can be carried are in the buffer. -/
theorem get?_allocBytes {bytes : Bytes} (h : Carriable allocates bytes) :
    ∃ p, (allocBytes allocates m bytes).2.1 = some p ∧
      (allocBytes allocates m bytes).1.get? p = some (.bytes bytes) := by
  have hempty : bytes.length ≠ 0 := Nat.ne_of_gt h.nonempty
  have hlarge : ¬ bytes.length > cIntMax := Nat.not_lt.mpr h.le
  unfold allocBytes
  rw [if_neg hempty, if_neg hlarge, h.memory]
  refine ⟨(m.alloc (.bytes bytes)).2, rfl, ?_⟩
  exact (Heap.get?_alloc m (.bytes bytes) _).trans (if_pos rfl)

/-- The bytes of a reply arrive exactly when they can be carried. -/
theorem received_writeOuts_iff {reply : Reply T} {envelope : FfiPipelineResult}
    (h : L.writeResult envelope = .ok reply.resultBytes) :
    Received L envelope (writeOuts allocates m (.ok reply)) ↔
      Carriable allocates reply.resultBytes := by
  constructor
  · rintro ⟨p, bytes, hresult, -, -⟩
    refine (allocBytes_ne_none_iff (m := m)).mp ?_
    exact fun hnone => Option.some_ne_none p (hresult.symm.trans hnone)
  · intro hcarriable
    obtain ⟨p, hp, hget⟩ := get?_allocBytes (m := m) hcarriable
    exact ⟨p, reply.resultBytes, hp,
      get?_boxTasks (get?_alloc_of_get? hget (.table reply.table)) reply.bg, h⟩

/-! ### One envelope -/

/-- The errors of an envelope are those of the result and those of the modified payload. -/
theorem errors_ffiResult (payloadType : UInt8) :
    (ffiResult L inner payloadType result).errors =
      result.errors ++ (modifiedPayload L payloadType result.modifiedPayload).2.2 := rfl

theorem finishPipelineResult_of_ok {bg : Option T.Tasks} {payloadType : UInt8} {bytes : Bytes}
    (h : L.writeResult (ffiResult L inner payloadType result) = .ok bytes) :
    finishPipelineResult L inner result bg payloadType = .ok ⟨bytes, result.contextTable, bg⟩ := by
  rw [finishPipelineResult, h]
  rfl

theorem finishPipelineResult_of_error {bg : Option T.Tasks} {payloadType : UInt8} {e : String}
    (h : L.writeResult (ffiResult L inner payloadType result) = .error e) :
    finishPipelineResult L inner result bg payloadType = .error .serializeError := by
  rw [finishPipelineResult, h]
  rfl

/-- The payload is encoded and nothing is reported, or it is not encoded and has one report. -/
theorem modifiedPayload_cases (L : Library T) (inner : Engine T) (result : PipelineResult T)
    (payloadType : UInt8) :
    ((modifiedPayload L payloadType result.modifiedPayload).2.2 = [] ∧
      ∀ p, result.modifiedPayload = some p → ∃ t bytes, serializePayload L p = .ok (t, bytes) ∧
        (ffiResult L inner payloadType result).payloadType = t ∧
        (ffiResult L inner payloadType result).modifiedPayload = some bytes) ∨
    ∃ p e, result.modifiedPayload = some p ∧ serializePayload L p = .error e ∧
      (modifiedPayload L payloadType result.modifiedPayload).2.2 = [serializeError e] := by
  cases hpayload : result.modifiedPayload with
  | none => exact .inl ⟨rfl, nofun⟩
  | some p =>
    cases hserialized : serializePayload L p with
    | error e =>
      refine .inr ⟨p, e, rfl, hserialized, ?_⟩
      rw [modifiedPayload, hserialized]
    | ok out =>
      obtain ⟨t, bytes⟩ := out
      have hmodified : modifiedPayload L payloadType (some p) = (t, some bytes, []) := by
        rw [modifiedPayload, hserialized]
      refine .inl ⟨congrArg (fun out => out.2.2) hmodified, fun p' hp' => ?_⟩
      obtain rfl := Option.some.inj hp'
      refine ⟨t, bytes, hserialized, ?_, ?_⟩
      · rw [ffiResult, hpayload, hmodified]
      · rw [ffiResult, hpayload, hmodified]

theorem HandsExtensions.encoded {envelope : FfiPipelineResult} {r : Memory T × Rc × Outs}
    (h : HandsExtensions L result envelope r) : ∀ extensions,
    result.modifiedExtensions = some extensions →
      ∃ bytes, L.writeExtensions extensions = .ok bytes := by
  intro extensions hextensions
  obtain ⟨-, bytes, hbytes, -⟩ := h extensions hextensions
  exact ⟨bytes, hbytes⟩

/-- Modified extensions that can be encoded are in the envelope. -/
theorem handsExtensions_of_encoded {payloadType : UInt8} {r : Memory T × Rc × Outs}
    (hreceived : result.modifiedExtensions ≠ none →
      Received L (ffiResult L inner payloadType result) r)
    (hencoded : ∀ extensions, result.modifiedExtensions = some extensions →
      ∃ bytes, L.writeExtensions extensions = .ok bytes) :
    HandsExtensions L result (ffiResult L inner payloadType result) r := by
  intro extensions hextensions
  obtain ⟨bytes, hbytes⟩ := hencoded extensions hextensions
  have hne : result.modifiedExtensions ≠ none := by
    rw [hextensions]
    exact Option.some_ne_none extensions
  refine ⟨hreceived hne, bytes, hbytes, ?_⟩
  rw [ffiResult, hextensions, Option.bind_some, hbytes]
  rfl

section

variable {bg : Option T.Tasks} {payloadType : UInt8} {bytes : Bytes}

theorem carries_of_ffiAccounts
    (h : L.writeResult (ffiResult L inner payloadType result) = .ok bytes)
    (haccounts : FfiAccounts L result (ffiResult L inner payloadType result)
      (writeOuts allocates m (.ok ⟨bytes, result.contextTable, bg⟩))) :
    Carries L allocates result (ffiResult L inner payloadType result) := by
  have hreceived : Received L (ffiResult L inner payloadType result)
      (writeOuts allocates m (.ok ⟨bytes, result.contextTable, bg⟩)) → Carriable allocates bytes :=
    (received_writeOuts_iff h).mp
  intro bytes' hbytes'
  obtain rfl : bytes' = bytes := Except.ok.inj (hbytes'.symm.trans h)
  obtain ⟨reports, herrors, hreported, haccounted⟩ := haccounts rfl
  rw [errors_ffiResult, List.append_cancel_left_eq] at herrors
  rcases modifiedPayload_cases L inner result payloadType with
    ⟨hnone, -⟩ | ⟨p, e, hp, hfailed, hone⟩
  · obtain rfl : reports = [] := herrors.symm.trans hnone
    obtain ⟨hpayload, hextensions⟩ := haccounted.of_nil
    refine ⟨fun hmodified => hreceived ?_, hextensions.encoded⟩
    rcases hmodified with hne | hne
    · obtain ⟨p, hp⟩ := Option.ne_none_iff_exists'.mp hne
      exact (hpayload p hp).1
    · obtain ⟨extensions, hext⟩ := Option.ne_none_iff_exists'.mp hne
      exact (hextensions extensions hext).1
  · -- the one report is of the payload
    obtain rfl : reports = [serializeError e] := herrors.symm.trans hone
    have hlost : ¬ HandsPayload L result (ffiResult L inner payloadType result)
        (writeOuts allocates m (.ok ⟨bytes', result.contextTable, bg⟩)) := by
      intro hpayload
      obtain ⟨-, t, bytes, hok, -⟩ := hpayload p hp
      cases hok.symm.trans hfailed
    exact ⟨fun _ => hreceived (hreported (List.cons_ne_nil _ _)),
      (haccounted.of_lost hlost).encoded⟩

theorem ffiAccounts_of_carries
    (h : L.writeResult (ffiResult L inner payloadType result) = .ok bytes)
    (hcarries : Carries L allocates result (ffiResult L inner payloadType result)) :
    FfiAccounts L result (ffiResult L inner payloadType result)
      (writeOuts allocates m (.ok ⟨bytes, result.contextTable, bg⟩)) := by
  intro _
  obtain ⟨hcarriable, hencodes⟩ := hcarries bytes h
  have hreceived : result.modifiedPayload ≠ none ∨ result.modifiedExtensions ≠ none →
      Received L (ffiResult L inner payloadType result)
        (writeOuts allocates m (.ok ⟨bytes, result.contextTable, bg⟩)) :=
    fun hmodified => (received_writeOuts_iff h).mpr (hcarriable hmodified)
  have hextensions := handsExtensions_of_encoded (fun hne => hreceived (.inr hne)) hencodes
  refine ⟨_, errors_ffiResult payloadType, ?_⟩
  rcases modifiedPayload_cases L inner result payloadType with
    ⟨hnone, hencoded⟩ | ⟨p, e, hp, hfailed, hone⟩
  · rw [hnone]
    refine ⟨fun hne => absurd rfl hne, .handed (fun p hp => ⟨?_, hencoded p hp⟩) hextensions⟩
    exact hreceived (.inl (hp ▸ Option.some_ne_none p))
  · rw [hone]
    exact ⟨fun _ => hreceived (.inl (hp ▸ Option.some_ne_none p)),
      .payloadLost hextensions (Nat.le_refl 1)⟩

end

theorem c_accounts_iff (call : InvokeCall) (handle ct : Option Addr) (S : Bindings.ToValue T) :
    (Crossing.c call handle ct).Accounts L S inner allocates m ↔
      (Crossing.c call handle ct).Carries L inner allocates m := by
  refine forall_congr' fun result => forall_congr' fun bg => forall_congr' fun hresult => ?_
  rw [run_eq, hresult, ok_bind]
  cases hwrite : L.writeResult (ffiResult L inner call.payloadType result) with
  | error e =>
    rw [finishPipelineResult_of_error hwrite]
    refine iff_of_true nofun fun bytes hbytes => ?_
    cases hwrite.symm.trans hbytes
  | ok bytes =>
    rw [finishPipelineResult_of_ok hwrite]
    exact ⟨carries_of_ffiAccounts hwrite, ffiAccounts_of_carries hwrite⟩

/-! ## Python -/

theorem castIntoDict_eq_ok {what : String} {v : Json} {d : Bindings.PyDict}
    (h : Bindings.castIntoDict what v = .ok d) : Bindings.jsonValueToPyobj v = .ok (.dict d) := by
  obtain ⟨obj, hobj, hdict⟩ := bind_eq_ok.mp h
  cases obj with
  | dict d' =>
    obtain rfl := Except.ok.inj hdict
    exact hobj
  | _ => cases hdict

/-- A value that is there is read as an object, or the getter raises. -/
theorem getDict_reads (what : String) (v : Json) :
    Reads v (Bindings.getDict what (some v)) := by
  cases hcast : Bindings.castIntoDict what v with
  | error e => exact .inl ⟨e, congrArg (Except.map some) hcast⟩
  | ok d => exact .inr ⟨d, castIntoDict_eq_ok hcast, congrArg (Except.map some) hcast⟩

theorem orRaise_eq_ok {α : Type} {what : String} {x : Except String α} {a : α}
    (h : Bindings.orRaise what x = .ok a) : x = .ok a := by
  cases x with
  | error e => cases h
  | ok b => exact congrArg Except.ok (Except.ok.inj h)

/-- What a conversion that raised nothing consists of. -/
theorem pipelineResultToPy_eq_ok {S : Bindings.ToValue T} {r : Bindings.PyPipelineResult}
    (h : Bindings.pipelineResultToPy L S result = .ok r) :
    r.modifiedPayload = (Bindings.modifiedPayload L S result.modifiedPayload).1 ∧
    Bindings.optionToValue S.extensions result.modifiedExtensions = .ok r.modifiedExtensions ∧
    (result.errors ++ (Bindings.modifiedPayload L S result.modifiedPayload).2).mapM S.error =
      .ok r.errors := by
  unfold Bindings.pipelineResultToPy at h
  obtain ⟨extensions, hextensions, h⟩ := bind_eq_ok.mp h
  obtain ⟨violation, -, h⟩ := bind_eq_ok.mp h
  obtain ⟨errors, herrors, h⟩ := bind_eq_ok.mp h
  obtain ⟨table, -, h⟩ := bind_eq_ok.mp h
  obtain rfl := Except.ok.inj h
  exact ⟨rfl, orRaise_eq_ok hextensions, orRaise_eq_ok herrors⟩

theorem python_accounts (L : Library T) (S : Bindings.ToValue T) (result : PipelineResult T) :
    PyAccounts L S result (Bindings.pipelineResultToPy L S result) := by
  intro r hr
  obtain ⟨hpayload, hextensions, herrors⟩ := pipelineResultToPy_eq_ok hr
  have hhands : ∀ extensions, result.modifiedExtensions = some extensions →
      ∃ v, S.extensions extensions = .ok v ∧ Reads v r.getModifiedExtensions := by
    intro extensions hext
    rw [hext] at hextensions
    obtain ⟨v, hv, hsome⟩ := map_eq_ok.mp hextensions
    refine ⟨v, hv, ?_⟩
    rw [Bindings.PyPipelineResult.getModifiedExtensions, ← hsome]
    exact getDict_reads _ v
  refine ⟨_, herrors, ?_⟩
  cases hmodified : result.modifiedPayload with
  | none => exact .handed nofun hhands
  | some p =>
    rw [hmodified] at hpayload
    cases hserialized : Bindings.serializePayload L S p with
    | none =>
      refine .payloadLost hhands ?_
      rw [Bindings.modifiedPayload, hserialized]
      exact Nat.le_refl 1
    | some v =>
      refine .handed (fun p' hp' => ⟨v, ?_, ?_⟩) hhands
      · rw [← Option.some.inj hp', hserialized]
      · rw [Bindings.modifiedPayload, hserialized] at hpayload
        rw [Bindings.PyPipelineResult.getModifiedPayload, hpayload]
        exact getDict_reads _ v

/--
**A modification is delivered or reported exactly where the envelope is carried and the extensions
are encoded.** For every engine, codec and memory, and every crossing: a call of an entry point
accounts for each modification of the result it encodes if and only if, where the envelope is
encoded, modified extensions are too, and the envelope of a modified result finds a buffer. The
Python binding always does.
-/
theorem accounts_iff (L : Library T) (S : Bindings.ToValue T) (inner : Engine T)
    (allocates : Nat → Bool) (m : Memory T) (crossing : Crossing T) :
    crossing.Accounts L S inner allocates m ↔ crossing.Carries L inner allocates m := by
  cases crossing with
  | c call handle ct => exact c_accounts_iff call handle ct S
  | python result => exact iff_of_true (python_accounts L S result) trivial

/-! ## Extensions that cannot be encoded -/

/-- A codec that refuses the modified extensions. -/
def refusing : Library Plain.types := { Plain.library with writeExtensions _ := .error "refused" }

/-- A hook that modifies the extensions. -/
def labelling : Engine Plain.types := { Plain.engine with
  invokeByName _ _ _ _ := .ok ({ Plain.allowed with modifiedExtensions := some [] }, ()) }

def plainInvoke : InvokeCall := .invoke Plain.invokeArgs

def plainToValue : Bindings.ToValue Plain.types where
  message _ := .ok .null
  extensions _ := .ok (.object [])
  violation _ := .ok (.object [])
  error _ := .ok (.object [])
  table _ := .ok (.object [])

/-- **They are dropped**: the code is `RC_OK`, and the envelope has no extensions and no error. -/
theorem extensions_dropped_silently :
    plainInvoke.result refusing labelling (some 0) none =
      .ok ({ Plain.allowed with modifiedExtensions := some [] }, some ()) ∧
    (plainInvoke.run refusing labelling (fun _ => true) Plain.memory (some 0) none).2 =
      (.ok, ⟨some 1, 1, some 2, some 3⟩) ∧
    (ffiResult refusing labelling payloadGeneric
      { Plain.allowed with modifiedExtensions := some [] }).modifiedExtensions = none ∧
    (ffiResult refusing labelling payloadGeneric
      { Plain.allowed with modifiedExtensions := some [] }).errors = [] ∧
    ¬ (Crossing.c plainInvoke (some 0) none).Accounts refusing plainToValue labelling
      (fun _ => true) Plain.memory := by
  refine ⟨rfl, rfl, rfl, rfl, fun haccounts => ?_⟩
  obtain ⟨reports, herrors, -, haccounted⟩ := haccounts _ _ rfl rfl
  obtain rfl : [] = reports := herrors
  cases haccounted with
  | handed hpayload hextensions =>
    obtain ⟨-, bytes, hbytes, -⟩ := hextensions [] rfl
    cases hbytes
  | payloadLost hextensions reported => exact absurd reported (by decide)
  | extensionsLost hpayload reported => exact absurd reported (by decide)
  | bothLost reported => exact absurd reported (by decide)

end Cpex.Ffi
