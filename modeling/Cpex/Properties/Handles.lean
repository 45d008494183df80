import Cpex.Properties.PlainFfi

/-!
# Handles across the C interface

Every context table, `BackgroundTasks` and buffer that the interface hands out is held by one
wrapper, or by the call in progress, until it is released. A call that fails to decode a result
drops two handles, and so does a `Wait` after `Shutdown` its own.

* `writeOuts_exchange`, `cpexWaitBackground_spec` — what the C calls take and give
* `State.held` — who holds a handle
* `Owned` — the accounting of a state
* `owned_iff` — when every handle is accounted for
* `abandoned_wait_leaks` — one of the two drops
-/

namespace Cpex.Ffi

open Cpex.Infra

/-- What kind of cell an allocation is. A buffer is released with its length. -/
inductive Kind where
  | engine
  | table
  | tasks
  | bytes (len : Nat)
  deriving DecidableEq

def kind {T : Types} : Allocation T → Kind
  | .engine => .engine
  | .table _ => .table
  | .tasks _ => .tasks
  | .bytes data => .bytes data.length

/-- The handle of a pointer that may be null. -/
def handle (t : Kind) (p : Option Addr) : Option (Handle Kind) := p.map fun p => (p, t)

/-- The handle of a buffer, which is released with `len`. -/
def buffer (p : Option Addr) (len : Int32) : Option (Handle Kind) :=
  handle (.bytes len.toInt.toNat) p

/-- How often the out parameters of an invoke are the handle. -/
def Outs.holds (outs : Outs) (x : Handle Kind) : Nat :=
  holding (buffer outs.result outs.resultLen) x + holding (handle .table outs.contextTable) x +
    holding (handle .tasks outs.bgHandle) x

@[simp] theorem handle_none (t : Kind) : handle t none = none := rfl

@[simp] theorem handle_some (t : Kind) (p : Addr) : handle t (some p) = some (p, t) := rfl

variable {T : Types}

/-! ## The C calls -/

/-- A length that is a C int is told as it is. -/
theorem toInt_ofNat {n : Nat} (h : ¬ n > cIntMax) : (Int32.ofNat n).toInt = n := by
  apply Int32.toInt_ofNat_of_lt
  unfold cIntMax at h
  omega

/-- A buffer comes with its length. -/
theorem allocBytes_exchange (allocates : Nat → Bool) (m : Memory T) (data : Bytes) :
    Exchange kind m (allocBytes allocates m data).1 (fun _ => 0)
      (holding (buffer (allocBytes allocates m data).2.1 (allocBytes allocates m data).2.2)) := by
  unfold allocBytes
  split_ifs with hempty hlarge hmemory
  · exact .refl fun _ => rfl
  · exact .refl fun _ => rfl
  · exact .refl fun _ => rfl
  · have hbuffer : buffer (some (m.alloc (.bytes data)).2) (Int32.ofNat data.length) =
        some ((m.alloc (.bytes data)).2, .bytes data.length) := by
      rw [buffer, toInt_ofNat hlarge, Int.toNat_natCast]
      rfl
    show Exchange kind m (m.alloc (.bytes data)).1 (fun _ => 0) (holding (buffer _ _))
    rw [hbuffer]
    exact .alloc m (.bytes data)

theorem boxTasks_exchange (m : Memory T) (tasks : Option T.Tasks) :
    Exchange kind m (boxTasks m tasks).1 (fun _ => 0)
      (holding (handle .tasks (boxTasks m tasks).2)) := by
  cases tasks with
  | none => exact .refl fun _ => rfl
  | some tasks => exact .alloc m (.tasks tasks)

/-- **What an invoke hands out**, and that it hands out nothing unless its code is `RC_OK`. -/
theorem writeOuts_exchange (allocates : Nat → Bool) (m : Memory T) (reply : Except Rc (Reply T)) :
    Exchange kind m (writeOuts allocates m reply).1 (fun _ => 0)
      (Outs.holds (writeOuts allocates m reply).2.2) := by
  cases reply with
  | error rc => exact .refl fun _ => rfl
  | ok reply =>
    have hbytes := allocBytes_exchange allocates m reply.resultBytes
    have htable : Exchange kind _ _ _ _ :=
      .alloc (allocBytes allocates m reply.resultBytes).1 (.table reply.table)
    have htasks := boxTasks_exchange
      ((allocBytes allocates m reply.resultBytes).1.alloc (.table reply.table)).1 reply.bg
    exact (hbytes.trans htable).trans htasks

theorem writeOuts_null {allocates : Nat → Bool} {m : Memory T} {reply : Except Rc (Reply T)}
    (h : (writeOuts allocates m reply).2.1 ≠ .ok) : (writeOuts allocates m reply).2.2 = .null := by
  cases reply with
  | error rc => rfl
  | ok reply => exact absurd rfl h

/-- A step whose failures are not `RC_OK`. -/
def Coded {α : Type} (x : Except Rc α) : Prop := x ≠ .error .ok

theorem Coded.ok {α : Type} (a : α) : Coded (.ok a : Except Rc α) := nofun

theorem Coded.error {α : Type} {rc : Rc} (h : rc ≠ .ok) : Coded (.error rc : Except Rc α) :=
  fun heq => h (Except.error.inj heq)

theorem Coded.bind {α β : Type} {x : Except Rc α} {f : α → Except Rc β} (hx : Coded x)
    (hf : ∀ a, Coded (f a)) : Coded (x >>= f) := by
  cases x with
  | error rc => exact fun heq => hx (congrArg _ (Except.error.inj heq))
  | ok a => exact hf a

theorem orReturn_coded {α : Type} {rc : Rc} (h : rc ≠ .ok) (o : Option α) :
    Coded (orReturn rc o) := by
  cases o with
  | none => exact .error h
  | some a => exact .ok a

theorem SafeRun.orReturn_coded {α : Type} (run : SafeRun α) : Coded run.orReturn := by
  cases run with
  | ok a => exact .ok a
  | timeout => exact .error nofun
  | panicked => exact .error nofun

theorem rejectRemovedHook_coded (name : String) : Coded (rejectRemovedHook name) := by
  unfold rejectRemovedHook
  split
  · exact .error nofun
  · exact .ok ()

theorem rejectResolvedIdentity_coded (payload : IdentityPayload T) :
    Coded (rejectResolvedIdentity payload) := by
  unfold rejectResolvedIdentity
  split
  · exact .ok ()
  · exact .error nofun

theorem rejectResolvedIdentityPayload_coded (name : String) (payload : Payload T) :
    Coded (rejectResolvedIdentityPayload name payload) := by
  unfold rejectResolvedIdentityPayload
  split
  · exact .ok ()
  · split
    · exact rejectResolvedIdentity_coded _
    · exact .ok ()

theorem finishPipelineResult_coded (L : Library T) (inner : Engine T) (result : PipelineResult T)
    (bg : Option T.Tasks) (payloadType : UInt8) :
    Coded (finishPipelineResult L inner result bg payloadType) :=
  (orReturn_coded (by decide) _).bind fun _ => .ok _

/-- The steps of an entry point, one after the other. -/
theorem Coded.step {α β : Type} {x : Step T α} {f : α → Step T β} (hx : Coded x.outcome)
    (hf : ∀ a, Coded (f a).outcome) : Coded (x >>= f).outcome := by
  rw [Traced.outcome_bind]
  exact hx.bind hf

theorem decode_coded {α : Type} (argument : Argument) (read : Bytes → Except String α)
    (bytes : Bytes) : Coded (decode argument read bytes : Step T α).outcome :=
  orReturn_coded (by decide) _

theorem dispatch_coded (inner : Engine T) (d : Dispatch T) : Coded (dispatch inner d).outcome :=
  SafeRun.orReturn_coded _

theorem resolveIdentity_coded (L : Library T) (inner : Engine T) (identity : Slice)
    (baseExtensions : T.Extensions) :
    Coded (resolveIdentity L inner identity baseExtensions).outcome := by
  unfold resolveIdentity
  split
  · refine Coded.step (orReturn_coded (by decide) _) fun idBytes => ?_
    refine Coded.step (decode_coded _ _ idBytes) fun idPayload => ?_
    refine Coded.step (rejectResolvedIdentity_coded idPayload) fun _ => ?_
    refine Coded.step (dispatch_coded inner _) fun (idResult, _) => ?_
    dsimp only
    split
    · exact .ok _
    · exact .ok _
  · exact .ok _

theorem decodeExtensions_coded (L : Library T) (extensions : Slice) :
    Coded (decodeExtensions L extensions).outcome := by
  unfold decodeExtensions
  split
  · exact Coded.step (orReturn_coded (by decide) _) fun extBytes => decode_coded _ _ extBytes
  · exact .ok _

theorem invoked_coded (L : Library T) (inner : Engine T) (args : InvokeArgs)
    (table : Option T.Table) : Coded (invoked L inner args table).outcome := by
  refine Coded.step ?_ fun (result, bg) => ?_
  · refine Coded.step (orReturn_coded (by decide) _) fun name => ?_
    refine Coded.step (rejectRemovedHook_coded name) fun _ => ?_
    refine Coded.step (orReturn_coded (by decide) _) fun payloadBytes => ?_
    refine Coded.step (decode_coded _ _ payloadBytes) fun payload => ?_
    refine Coded.step (rejectResolvedIdentityPayload_coded name payload) fun _ => ?_
    refine Coded.step (decodeExtensions_coded L args.extensions) fun extensions => ?_
    exact Coded.step (dispatch_coded inner _) fun _ => .ok _
  · exact Coded.step (orReturn_coded (by decide) _) fun _ => .ok _

theorem invokedResolved_coded (L : Library T) (inner : Engine T) (identity : Slice)
    (args : InvokeArgs) (table : Option T.Table) :
    Coded (invokedResolved L inner identity args table).outcome := by
  refine Coded.step ?_ fun (result, bg) => finishPipelineResult_coded L inner result bg _
  refine Coded.step (orReturn_coded (by decide) _) fun name => ?_
  refine Coded.step (rejectRemovedHook_coded name) fun _ => ?_
  refine Coded.step (orReturn_coded (by decide) _) fun payloadBytes => ?_
  refine Coded.step (decode_coded _ _ payloadBytes) fun payload => ?_
  refine Coded.step (rejectResolvedIdentityPayload_coded name payload) fun _ => ?_
  refine Coded.step (decodeExtensions_coded L args.extensions) fun baseExtensions => ?_
  refine Coded.step (resolveIdentity_coded L inner identity baseExtensions) fun r => ?_
  cases r with
  | inr denied => exact .ok _
  | inl mergedExtensions => exact Coded.step (dispatch_coded inner _) fun _ => .ok _

/-- An invoke that returns `RC_OK` hands out a context table. -/
theorem writeOuts_table {allocates : Nat → Bool} {m : Memory T} {reply : Except Rc (Reply T)}
    (hreply : Coded reply) (h : (writeOuts allocates m reply).2.1 = .ok) :
    ∃ p, (writeOuts allocates m reply).2.2.contextTable = some p := by
  cases reply with
  | error rc =>
    obtain rfl : rc = .ok := h
    exact absurd rfl hreply
  | ok reply => exact ⟨_, rfl⟩

/-- A pointer that is passed in is null, or there is a live cell of its kind. -/
def Passed (m : Memory T) (t : Kind) (p : Option Addr) : Prop :=
  ∀ a, p = some a → ∃ content, m.get? a = some content ∧ kind content = t

theorem eq_engine {content : Allocation T} (h : kind content = .engine) : content = .engine := by
  cases content with
  | engine => rfl
  | table table => cases h
  | tasks tasks => cases h
  | bytes data => cases h

theorem eq_table {content : Allocation T} (h : kind content = .table) :
    ∃ table, content = .table table := by
  cases content with
  | table table => exact ⟨table, rfl⟩
  | engine => cases h
  | tasks tasks => cases h
  | bytes data => cases h

theorem eq_tasks {content : Allocation T} (h : kind content = .tasks) :
    ∃ tasks, content = .tasks tasks := by
  cases content with
  | tasks tasks => exact ⟨tasks, rfl⟩
  | engine => cases h
  | table table => cases h
  | bytes data => cases h

theorem eq_bytes {content : Allocation T} {len : Nat} (h : kind content = .bytes len) :
    ∃ data, content = .bytes data ∧ data.length = len := by
  cases content with
  | bytes data => exact ⟨data, rfl, Kind.bytes.inj h⟩
  | engine => cases h
  | table table => cases h
  | tasks tasks => cases h

theorem holding_handle_ne {t t' : Kind} (h : t ≠ t') (p : Option Addr) (a : Addr) :
    holding (handle t p) (a, t') = 0 := by
  refine if_neg fun heq => ?_
  obtain ⟨b, -, hb⟩ := Option.map_eq_some_iff.mp heq
  exact h (Prod.mk.inj hb).2

/-- What is passed in is there until it is taken. -/
theorem Passed.exchange {m m' : Memory T} {taken given : Handle Kind → Nat} {t : Kind}
    {p : Option Addr} (h : Passed m t p) (he : Exchange kind m m' taken given)
    (htaken : ∀ a, taken (a, t) = 0) : Passed m' t p := fun a ha => by
  have hlive : live kind m (a, t) = 1 := live_eq_one_iff.mpr (h a ha)
  have hle : live kind m' (a, t) ≤ 1 := live_le_one m' (a, t)
  have hbalance := he.balance (a, t)
  have hzero := htaken a
  have hlive' : live kind m' (a, t) = 1 := by omega
  exact live_eq_one_iff.mp hlive'

theorem asRef_eq {m : Memory T} {p : Option Addr} (h : Passed m .engine p) : asRef m p = m := by
  cases p with
  | none => rfl
  | some a =>
    obtain ⟨content, hget, hkind⟩ := h a rfl
    obtain rfl := eq_engine hkind
    simp only [asRef, hget]

/-- A context table that is passed in is consumed. -/
theorem takeTable_exchange {m : Memory T} {p : Option Addr} (h : Passed m .table p) :
    Exchange kind m (takeTable m p).1 (holding (handle .table p)) (fun _ => 0) := by
  cases p with
  | none => exact .refl fun _ => rfl
  | some a =>
    obtain ⟨content, hget, hkind⟩ := h a rfl
    obtain ⟨table, rfl⟩ := eq_table hkind
    rw [takeTable, hget]
    exact .release hget

theorem takeTable_released {m : Memory T} {a : Addr} (h : Passed m .table (some a)) :
    (takeTable m (some a)).1.Released a := by
  obtain ⟨content, hget, hkind⟩ := h a rfl
  obtain ⟨table, rfl⟩ := eq_table hkind
  rw [takeTable, hget]
  exact Heap.released_release hget

theorem takeTasks_exchange {m : Memory T} {p : Option Addr} (h : Passed m .tasks p) :
    Exchange kind m (takeTasks m p).1 (holding (handle .tasks p)) (fun _ => 0) := by
  cases p with
  | none => exact .refl fun _ => rfl
  | some a =>
    obtain ⟨content, hget, hkind⟩ := h a rfl
    obtain ⟨tasks, rfl⟩ := eq_tasks hkind
    rw [takeTasks, hget]
    exact .release hget

theorem cpexShutdown_exchange {m : Memory T} {p : Option Addr} (h : Passed m .engine p) :
    Exchange kind m (cpexShutdown m p) (holding (handle .engine p)) (fun _ => 0) := by
  cases p with
  | none => exact .refl fun _ => rfl
  | some a =>
    obtain ⟨content, hget, hkind⟩ := h a rfl
    obtain rfl := eq_engine hkind
    rw [cpexShutdown, hget]
    exact .release hget

/-- A buffer is freed, if it has any bytes. -/
theorem cpexFreeBytes_exchange {m : Memory T} {p : Option Addr} {len : Int32}
    (h : Passed m (.bytes len.toInt.toNat) p) (hlen : ∀ a, p = some a → 0 < len) :
    Exchange kind m (cpexFreeBytes m p len) (holding (buffer p len)) (fun _ => 0) := by
  cases p with
  | none => exact .refl fun _ => rfl
  | some a =>
    obtain ⟨content, hget, hkind⟩ := h a rfl
    obtain ⟨data, rfl, hdata⟩ := eq_bytes hkind
    have hpos : ¬ len ≤ 0 := Int32.not_le.mpr (hlen a rfl)
    have hrelease : Exchange kind m (m.release a) _ _ := .release hget
    simp only [cpexFreeBytes, if_neg hpos, hget, if_pos hdata]
    rw [hkind] at hrelease
    exact hrelease

/-- What holds of an invoke that is given `ctHandle`. -/
structure InvokeSpec (m : Memory T) (ctHandle : Option Addr) (r : Memory T × Rc × Outs) :
    Prop where
  exchange : Exchange kind m r.1 (holding (handle .table ctHandle)) r.2.2.holds
  consumed : ∀ a, ctHandle = some a → r.1.Released a
  null : r.2.1 ≠ .ok → r.2.2 = .null
  table : r.2.1 = .ok → ∃ p, r.2.2.contextTable = some p
  /-- A buffer has bytes. -/
  len : ∀ a, r.2.2.result = some a → 0 < r.2.2.resultLen

theorem allocBytes_len {allocates : Nat → Bool} {m : Memory T} {data : Bytes} {a : Addr}
    (h : (allocBytes allocates m data).2.1 = some a) :
    0 < (allocBytes allocates m data).2.2 := by
  unfold allocBytes at h ⊢
  split_ifs at h ⊢ with hempty hlarge hmemory
  show 0 < Int32.ofNat data.length
  rw [Int32.lt_iff_toInt_lt, toInt_ofNat hlarge, Int32.toInt_zero]
  omega

/-- **Both invokes consume the table they are given and hand out what their code says**, whatever
comes between. -/
theorem invokeSpec {allocates : Nat → Bool} {m : Memory T} {engine ctHandle : Option Addr}
    {reply : Except Rc (Reply T)} (hengine : Passed m .engine engine)
    (hct : Passed m .table ctHandle) (hreply : Coded reply) :
    InvokeSpec m ctHandle
      (writeOuts allocates (asRef (takeTable m ctHandle).1 engine) reply) := by
  have htake := takeTable_exchange hct
  have hengine' : Passed (takeTable m ctHandle).1 .engine engine :=
    hengine.exchange htake fun a => holding_handle_ne (by decide) ctHandle a
  rw [asRef_eq hengine']
  have hwrite := writeOuts_exchange allocates (takeTable m ctHandle).1 reply
  refine ⟨?_, ?_, writeOuts_null, writeOuts_table hreply, ?_⟩
  · have hboth := htake.trans hwrite
    simp only [Nat.add_zero, Nat.zero_add] at hboth
    exact hboth
  · rintro a rfl
    exact hwrite.released a (takeTable_released hct)
  · intro a ha
    cases reply with
    | error rc => cases ha
    | ok reply => exact allocBytes_len ha

theorem cpexInvoke_spec {L : Library T} {inner : Engine T} {allocates : Nat → Bool} {m : Memory T}
    {engine ctHandle : Option Addr} {args : InvokeArgs} (hengine : Passed m .engine engine)
    (hct : Passed m .table ctHandle) :
    InvokeSpec m ctHandle (cpexInvoke L inner allocates m engine args ctHandle) := by
  refine invokeSpec hengine hct ?_
  split
  · exact .error nofun
  · exact invoked_coded L inner args _

theorem cpexInvokeResolved_spec {L : Library T} {inner : Engine T} {allocates : Nat → Bool}
    {m : Memory T} {engine ctHandle : Option Addr} {identity : Slice} {args : InvokeArgs}
    (hengine : Passed m .engine engine) (hct : Passed m .table ctHandle) :
    InvokeSpec m ctHandle
      (cpexInvokeResolved L inner allocates m engine identity args ctHandle) := by
  refine invokeSpec hengine hct ?_
  split
  · exact .error nofun
  · exact invokedResolved_coded L inner identity args _

/-- What holds of a wait for `bgHandle`, whose out parameters are `outs` before. -/
structure WaitSpec (m : Memory T) (bgHandle : Option Addr) (outs : ErrorsOut)
    (r : Memory T × Rc × ErrorsOut) : Prop where
  exchange : Exchange kind m r.1 (holding (handle .tasks bgHandle))
    (if r.2.1 = .ok then holding (buffer r.2.2.1 r.2.2.2) else fun _ => 0)
  null : r.2.1 ≠ .ok → r.2.2 = outs
  len : r.2.1 = .ok → ∀ a, r.2.2.1 = some a → 0 < r.2.2.2

theorem waited_coded (L : Library T) (inner : Engine T) (bg : Option T.Tasks) :
    Coded (waited L inner bg) := by
  cases bg with
  | none => exact orReturn_coded (by decide) _
  | some tasks => exact (SafeRun.orReturn_coded _).bind fun _ => orReturn_coded (by decide) _

theorem cpexWaitBackground_spec {L : Library T} {inner : Engine T} {allocates : Nat → Bool}
    {m : Memory T} {engine bgHandle : Option Addr} {outs : ErrorsOut}
    (hengine : Passed m .engine engine) (hbg : Passed m .tasks bgHandle) :
    WaitSpec m bgHandle outs (cpexWaitBackground L inner allocates m engine bgHandle outs) := by
  have htake := takeTasks_exchange hbg
  unfold cpexWaitBackground
  rw [asRef_eq hengine]
  dsimp only
  split
  · exact ⟨htake, fun _ => rfl, nofun⟩
  · have hcoded := waited_coded L inner (takeTasks m bgHandle).2
    split
    · next rc heq =>
      have hrc : rc ≠ .ok := fun hok => hcoded (heq.trans (congrArg _ hok))
      refine ⟨?_, fun _ => rfl, fun hok => absurd hok hrc⟩
      rw [if_neg hrc]
      exact htake
    · next bytes heq =>
      have hwrite := allocBytes_exchange allocates (takeTasks m bgHandle).1 bytes
      refine ⟨?_, fun hne => absurd rfl hne, fun _ a ha => allocBytes_len ha⟩
      have hboth := htake.trans hwrite
      simp only [Nat.add_zero, Nat.zero_add] at hboth
      exact hboth

/-- Reading a live buffer. -/
theorem goBytes_eq {m : Memory T} {p : Option Addr} {len : Int32}
    (h : Passed m (.bytes len.toInt.toNat) p) : (Go.goBytes m p len).1 = m := by
  cases p with
  | none => rfl
  | some a =>
    obtain ⟨content, hget, hkind⟩ := h a rfl
    obtain ⟨data, rfl, -⟩ := eq_bytes hkind
    simp only [Go.goBytes, hget]

end Cpex.Ffi

namespace Cpex.Go

open Cpex.Infra Cpex.Ffi

/-! ## Who holds a handle -/

/-- How often a call in progress holds the handle, between the C call and the wrappers. -/
def Call.holds : Call → Handle Kind → Nat
  | .invoking _ _ _ ctHandle, x => holding (handle .table ctHandle) x
  | .invoked _ _ _ _ outs, x => outs.holds x
  | .waited _ _ errors, x => holding (buffer errors.1 errors.2) x
  | .waiting _ _, _ | .returned _, _ => 0

/-- How often the handle is held, by the wrappers and the calls in progress. -/
def State.held {T : Types} (s : State T) (x : Handle Kind) : Nat :=
  total (fun p => holding (handle .engine p) x) s.engines +
    total (fun p => holding (handle .table p) x) s.tables +
    total (fun bg => holding (handle .tasks bg.handle) x) s.backgrounds +
    total (fun call => call.holds x) s.calls

/-- A call that has been to C: the table it passed was consumed, and it was handed nothing unless
its code is `RC_OK`. -/
def Call.Settled {T : Types} (m : Memory T) : Call → Prop
  | .invoked _ _ ctHandle rc outs =>
    (∀ a, ctHandle = some a → m.Released a) ∧ (rc ≠ .ok → outs = .null)
  | .waited _ rc errors => rc ≠ .ok → errors = (none, 0)
  | .invoking _ _ _ _ | .waiting _ _ | .returned _ => True

/-- Nothing was released twice or used after its release, and what was not released has one holder:
a wrapper, or a call in progress. -/
structure Owned {T : Types} (s : State T) : Prop where
  balanced : Balanced kind s.memory s.held
  settled : ∀ call ∈ s.calls, call.Settled s.memory

/-- What a call in progress relies on: its engine is open, a buffer has bytes, and `RC_OK` comes
with a context table. -/
def Call.Ready {T : Types} (s : State T) : Call → Prop
  | .invoking engine _ _ _ | .waiting engine _ => (s.engineHandle engine).isSome
  | .invoked engine _ _ rc outs => (s.engineHandle engine).isSome ∧
    (∀ a, outs.result = some a → 0 < outs.resultLen) ∧
    (rc = .ok → ∃ p, outs.contextTable = some p)
  | .waited engine rc errors => (s.engineHandle engine).isSome ∧
    (rc = .ok → ∀ a, errors.1 = some a → 0 < errors.2)
  | .returned _ => True

structure Sound {T : Types} (s : State T) : Prop extends Owned s where
  ready : ∀ call ∈ s.calls, call.Ready s

section

variable {T : Types} {s : State T}

theorem held_push (call : Call) (x : Handle Kind) :
    (s.push call).held x = s.held x + call.holds x := by
  simp only [State.held, State.push, total_append, total_singleton]
  omega

/-- A call goes on. -/
theorem held_setCall {k : Nat} {call : Call} (hk : s.calls[k]? = some call) (call' : Call)
    (x : Handle Kind) :
    (s.setCall k call').held x + call.holds x = s.held x + call'.holds x := by
  have hset := total_set (f := fun call : Call => call.holds x) (b := call') hk
  simp only [State.held, State.setCall]
  omega

/-- What an owner holds is there. -/
theorem Owned.passed (h : Owned s) {t : Kind} {p : Option Addr}
    (hheld : ∀ a, p = some a → 1 ≤ s.held (a, t)) : Passed s.memory t p := fun a ha =>
  h.balanced.get? (hheld a ha)

theorem holding_handle_self {t : Kind} {p : Option Addr} {a : Addr} (h : p = some a) :
    holding (handle t p) (a, t) = 1 := by
  rw [h]
  exact holding_self _

theorem Owned.passed_engine (h : Owned s) (engine : Nat) :
    Passed s.memory .engine (s.engineHandle engine) := by
  refine h.passed fun a ha => ?_
  have hmem : s.engines[engine]? = some (some a) := Option.join_eq_some_iff.mp ha
  have hle := le_total (f := fun p => holding (handle .engine p) (a, Kind.engine)) hmem
  rw [holding_handle_self rfl] at hle
  unfold State.held
  omega

theorem Owned.passed_table (h : Owned s) {i : Nat} {ct : Option Addr}
    (hi : s.tables[i]? = some ct) : Passed s.memory .table ct := by
  refine h.passed fun a ha => ?_
  have hle := le_total (f := fun p => holding (handle .table p) (a, Kind.table)) hi
  rw [holding_handle_self ha] at hle
  unfold State.held
  omega

theorem Owned.passed_tasks (h : Owned s) {i : Nat} {bg : BackgroundTasks}
    (hi : s.backgrounds[i]? = some bg) : Passed s.memory .tasks bg.handle := by
  refine h.passed fun a ha => ?_
  have hle := le_total (f := fun bg : BackgroundTasks =>
    holding (handle .tasks bg.handle) (a, Kind.tasks)) hi
  rw [holding_handle_self ha] at hle
  unfold State.held
  omega

/-- What a call holds is there. -/
theorem Owned.passed_call (h : Owned s) {k : Nat} {call : Call} (hk : s.calls[k]? = some call)
    {t : Kind} {p : Option Addr} (hheld : ∀ a, p = some a → 1 ≤ call.holds (a, t)) :
    Passed s.memory t p := by
  refine h.passed fun a ha => ?_
  have hle := le_total (f := fun call : Call => call.holds (a, t)) hk
  have hcall := hheld a ha
  unfold State.held
  omega

theorem Call.Settled.mono {m m' : Memory T} {call : Call} (h : call.Settled m)
    (hkeep : ∀ p, m.Released p → m'.Released p) : call.Settled m' := by
  cases call with
  | invoked engine entry ctHandle rc outs => exact ⟨fun a ha => hkeep a (h.1 a ha), h.2⟩
  | waited engine rc errors => exact h
  | invoking engine entry marshalled ctHandle => trivial
  | waiting engine background => trivial
  | returned err => trivial

theorem Call.Ready.mono {s' : State T} {call : Call} (h : call.Ready s)
    (hopen : ∀ e, call.reads = some e → (s.engineHandle e).isSome →
      (s'.engineHandle e).isSome) : call.Ready s' := by
  cases call with
  | invoking engine entry marshalled ctHandle => exact hopen engine rfl h
  | invoked engine entry ctHandle rc outs => exact ⟨hopen engine rfl h.1, h.2⟩
  | waiting engine background => exact hopen engine rfl h
  | waited engine rc errors => exact ⟨hopen engine rfl h.1, h.2⟩
  | returned err => trivial

/-- **What a step has to say for itself**: what it exchanged with the memory, that the holders
follow, what the call it moves relies on, and that it closed no engine in use. -/
theorem Sound.exchange {s' : State T} (h : Sound s) {taken given : Handle Kind → Nat}
    (he : Exchange kind s.memory s'.memory taken given)
    (hheld : ∀ x, s'.held x + taken x = s.held x + given x)
    (hcalls : ∀ call ∈ s'.calls, call ∈ s.calls ∨ (call.Settled s'.memory ∧ call.Ready s'))
    (hopen : ∀ call ∈ s.calls, ∀ e, call.reads = some e → (s.engineHandle e).isSome →
      (s'.engineHandle e).isSome) : Sound s' where
  balanced := h.balanced.exchange he hheld
  settled call hmem := by
    rcases hcalls call hmem with hold | ⟨hnew, -⟩
    · exact (h.settled call hold).mono he.released
    · exact hnew
  ready call hmem := by
    rcases hcalls call hmem with hold | ⟨-, hnew⟩
    · exact (h.ready call hold).mono (hopen call hold)
    · exact hnew

/-- A call begins, and holds nothing of the memory yet. -/
theorem Sound.push (h : Sound s) {call : Call} (hholds : ∀ x, call.holds x = 0)
    (hsettled : call.Settled s.memory) (hready : call.Ready s) : Sound (s.push call) := by
  refine h.exchange (.refl (g := fun _ => 0) fun _ => rfl) (fun x => ?_) (fun c hmem => ?_)
    fun _ _ _ _ => id
  · rw [held_push, hholds]
  · rcases List.mem_append.mp hmem with hold | hnew
    · exact .inl hold
    · obtain rfl := List.mem_singleton.mp hnew
      exact .inr ⟨hsettled, hready⟩

/-! ## Steps -/

theorem held_setTable {i : Nat} {ct : Option Addr} (hi : s.tables[i]? = some ct) (x : Handle Kind) :
    State.held { s with tables := s.tables.set i none } x + holding (handle .table ct) x =
      s.held x := by
  have hset := total_set (f := fun p => holding (handle .table p) x) (b := none) hi
  simp only [handle_none, holding_none] at hset
  simp only [State.held]
  omega

theorem held_setBackground {i : Nat} {bg : BackgroundTasks} (hi : s.backgrounds[i]? = some bg)
    (x : Handle Kind) :
    State.held { s with backgrounds := s.backgrounds.set i { bg with handle := none } } x +
      holding (handle .tasks bg.handle) x = s.held x := by
  have hset := total_set (f := fun bg : BackgroundTasks => holding (handle .tasks bg.handle) x)
    (b := { bg with handle := none }) hi
  simp only [handle_none, holding_none] at hset
  simp only [State.held]
  omega

theorem held_setEngine {i : Nat} {p : Option Addr} (hi : s.engines[i]? = some p)
    (x : Handle Kind) :
    State.held { s with engines := s.engines.set i none } x + holding (handle .engine p) x =
      s.held x := by
  have hset := total_set (f := fun p => holding (handle .engine p) x) (b := none) hi
  simp only [handle_none, holding_none] at hset
  simp only [State.held]
  omega

theorem sound_new : Sound (State.new : State T) where
  balanced := ⟨rfl, fun _ => rfl⟩
  settled := fun _ hmem => absurd hmem List.not_mem_nil
  ready := fun _ hmem => absurd hmem List.not_mem_nil

theorem Sound.newEngine (h : Sound s) :
    Sound { s with
      memory := (s.memory.alloc .engine).1
      engines := s.engines ++ [some (s.memory.alloc .engine).2] } := by
  refine h.exchange (.alloc s.memory .engine) (fun x => ?_) (fun call hmem => .inl hmem)
    fun _ _ e _ hopen => ?_
  · simp only [State.held, total_append, total_singleton]
    show _ = _ + holding (some ((s.memory.alloc .engine).2, Kind.engine)) x
    rw [handle_some]
    omega
  · obtain ⟨a, ha⟩ := Option.isSome_iff_exists.mp hopen
    have hmem : s.engines[e]? = some (some a) := Option.join_eq_some_iff.mp ha
    rw [State.engineHandle, List.getElem?_append_left (List.getElem?_eq_some_iff.mp hmem).1, hmem]
    rfl

/-- A context table goes from its wrapper to a call. -/
theorem held_pass {table : Nat} {call : Call} {x : Handle Kind}
    (hcall : call.holds x = holding (handle .table s.tables[table]?.join) x) :
    State.held { s.push call with tables := s.tables.set table none } x = s.held x := by
  have hpush := held_push (s := { s with tables := s.tables.set table none }) call x
  cases htable : s.tables[table]? with
  | none =>
    have hset : s.tables.set table none = s.tables :=
      List.set_eq_of_length_le (List.getElem?_eq_none_iff.mp htable)
    simp only [htable, Option.join_none, handle_none, holding_none] at hcall
    rw [hcall, hset] at hpush
    rw [hset]
    exact hpush
  | some ct =>
    have hset := held_setTable htable x
    simp only [htable, Option.join_some] at hcall
    rw [hcall] at hpush
    exact hpush.trans hset

/-- A call begins. -/
theorem Sound.invoke (h : Sound s) (engine : Nat) (entry : Entry) (request : Request)
    (contextTable : Option Nat) : Sound (s.invoke engine entry request contextTable) := by
  unfold State.invoke
  split_ifs with hclosed
  · exact h.push (fun _ => rfl) trivial trivial
  · have hopen : (s.engineHandle engine).isSome := by
      rwa [Option.isNone_iff_eq_none, ← ne_eq, Option.ne_none_iff_isSome] at hclosed
    split
    · exact h.push (fun _ => rfl) trivial trivial
    · next marshalled hmarshal =>
      cases contextTable with
      | none => exact h.push (fun _ => rfl) trivial hopen
      | some table =>
        refine h.exchange (.refl (g := fun _ => 0) fun _ => rfl)
          (fun x => held_pass rfl) (fun c hmem => ?_) fun _ _ _ _ => id
        rcases List.mem_append.mp hmem with hold | hnew
        · exact .inl hold
        · obtain rfl := List.mem_singleton.mp hnew
          exact .inr ⟨trivial, hopen⟩

/-- What a call goes on to, when nothing else changes but the memory. -/
theorem Sound.setCall (h : Sound s) {k : Nat} {call call' : Call} {m : Memory T}
    {taken given : Handle Kind → Nat} (hk : s.calls[k]? = some call)
    (he : Exchange kind s.memory m taken given)
    (hholds : ∀ x, call'.holds x + taken x = call.holds x + given x)
    (hsettled : call'.Settled m) (hready : call'.Ready s) :
    Sound { s.setCall k call' with memory := m } := by
  refine h.exchange he (fun x => ?_) (fun c hmem => ?_) fun _ _ _ _ => id
  · have hset := held_setCall hk call' x
    have hcall := hholds x
    show (s.setCall k call').held x + taken x = s.held x + given x
    omega
  · rcases List.mem_or_eq_of_mem_set hmem with hold | rfl
    · exact .inl hold
    · exact .inr ⟨hsettled, hready⟩

/-- A `Wait` begins, on an open engine or with nothing to wait for. -/
theorem Sound.wait (h : Sound s) {background : Nat} {bg : BackgroundTasks}
    (hopen : bg.handle.isSome → ∀ engine, bg.engine = some engine →
      (s.engineHandle engine).isSome) : Sound (s.wait background bg) := by
  unfold State.wait
  split_ifs with hnil
  · exact h.push (fun _ => rfl) trivial trivial
  · rw [Option.isNone_iff_eq_none, ← ne_eq, Option.ne_none_iff_isSome] at hnil
    split
    · exact h.push (fun _ => rfl) trivial trivial
    · next engine hengine =>
      have hsome := hopen hnil engine hengine
      split_ifs with hclosed
      · rw [Option.isNone_iff_eq_none.mp hclosed] at hsome
        cases hsome
      · exact h.push (fun _ => rfl) trivial hsome

/-- **The tasks of an engine that was shut down are leaked by a `Wait`.** -/
theorem wait_drops (h : Sound s) {background engine : Nat} {bg : BackgroundTasks}
    (hbg : s.backgrounds[background]? = some bg) {a : Addr} (ha : bg.handle = some a)
    (hengine : bg.engine = some engine) (hclosed : s.engineHandle engine = none) :
    ¬ Owned (s.wait background bg) := fun hown => by
  have hwait : s.wait background bg =
      { s.push (.returned (some .invalidHandle)) with
        backgrounds := s.backgrounds.set background { bg with handle := none } } := by
    simp [State.wait, ha, hengine, hclosed]
  have hbalanced := hown.balanced
  rw [hwait] at hbalanced
  refine h.balanced.not_drop (.refl (g := fun _ => 0) fun _ => rfl) (x := (a, Kind.tasks)) ?_
    hbalanced
  have hset := held_setBackground hbg (a, Kind.tasks)
  have hpush := held_push (s := { s with
    backgrounds := s.backgrounds.set background { bg with handle := none } })
    (.returned (some .invalidHandle)) (a, Kind.tasks)
  rw [holding_handle_self ha] at hset
  have hzero : (Call.returned (some .invalidHandle)).holds (a, Kind.tasks) = 0 := rfl
  show State.held (State.push { s with
    backgrounds := s.backgrounds.set background { bg with handle := none } }
      (.returned (some .invalidHandle))) (a, Kind.tasks) + 0 < s.held (a, Kind.tasks) + 0
  omega

/-- The tasks that were waited for are gone, and the call has the errors. -/
theorem held_waited {k engine background : Nat} {bg : BackgroundTasks} {rc : Rc}
    {errors : ErrorsOut} (hk : s.calls[k]? = some (.waiting engine background))
    (hbg : s.backgrounds[background]? = some bg) (hnull : rc ≠ .ok → errors = (none, 0))
    (x : Handle Kind) :
    State.held { s.setCall k (.waited engine rc errors) with
        backgrounds := s.backgrounds.set background { bg with handle := none } } x +
      holding (handle .tasks bg.handle) x =
      s.held x + (if rc = .ok then holding (buffer errors.1 errors.2) else fun _ => 0) x := by
  have hset := held_setBackground hbg x
  have hcall : State.held { s.setCall k (.waited engine rc errors) with
      backgrounds := s.backgrounds.set background { bg with handle := none } } x + 0 =
      State.held { s with
        backgrounds := s.backgrounds.set background { bg with handle := none } } x +
        holding (buffer errors.1 errors.2) x :=
    held_setCall (s := { s with
      backgrounds := s.backgrounds.set background { bg with handle := none } }) hk
      (.waited engine rc errors) x
  generalize State.held { s.setCall k (.waited engine rc errors) with
    backgrounds := s.backgrounds.set background { bg with handle := none } } x = n at hcall ⊢
  split_ifs with hrc
  · omega
  · rw [hnull hrc] at hcall
    simp only [buffer, handle_none, holding_none] at hcall
    show n + _ = s.held x + 0
    omega

/-- An invoke of either entry point. -/
theorem invoked_spec (L : Library T) (inner : Engine T) (allocates : Nat → Bool) {m : Memory T}
    {engine ctHandle : Option Addr} (marshalled : Marshalled) (hengine : Passed m .engine engine)
    (hct : Passed m .table ctHandle) :
    InvokeSpec m ctHandle (match marshalled.identity with
      | none => cpexInvoke L inner allocates m engine marshalled.args ctHandle
      | some identity =>
        cpexInvokeResolved L inner allocates m engine identity marshalled.args ctHandle) := by
  cases marshalled.identity with
  | none => exact cpexInvoke_spec hengine hct
  | some identity => exact cpexInvokeResolved_spec hengine hct

/-- A call goes to C. -/
theorem Sound.callC {L : Library T} {inner : Engine T} {allocates : Nat → Bool} {s' : State T}
    (h : Sound s) {k : Nat} {call : Call} (hk : s.calls[k]? = some call)
    (hs : callC L s k call inner allocates = some s') : Sound s' := by
  have hready := h.ready call (List.mem_of_getElem? hk)
  unfold Go.callC at hs
  split at hs
  · next engine entry marshalled ctHandle =>
    obtain rfl := Option.some.inj hs
    have hengine := h.passed_engine engine
    have hct : Passed s.memory .table ctHandle :=
      h.passed_call hk fun a ha => (holding_handle_self ha).ge
    have hspec := invoked_spec L inner allocates marshalled hengine hct
    exact h.setCall hk hspec.exchange (fun x => Nat.add_comm _ _) ⟨hspec.consumed, hspec.null⟩
      ⟨hready, hspec.len, hspec.table⟩
  · next engine background =>
    split at hs
    · cases hs
    · next bg hbg =>
      obtain rfl := Option.some.inj hs
      have hspec : WaitSpec s.memory bg.handle (none, 0) (cpexWaitBackground L inner allocates
          s.memory (s.engineHandle engine) bg.handle (none, 0)) :=
        cpexWaitBackground_spec (h.passed_engine engine) (h.passed_tasks hbg)
      refine h.exchange hspec.exchange (fun x => ?_) (fun c hmem => ?_) fun _ _ _ _ => id
      · exact held_waited hk hbg hspec.null x
      · rcases List.mem_or_eq_of_mem_set hmem with hold | rfl
        · exact .inl hold
        · exact .inr ⟨hspec.null, hready, hspec.len⟩
  · cases hs

/-- The wrappers take the handles of a call. -/
theorem held_wrapped {k engine : Nat} {entry : Entry} {ctHandle : Option Addr} {rc : Rc}
    {outs : Outs} {err : Option GoError}
    (hk : s.calls[k]? = some (.invoked engine entry ctHandle rc outs)) (x : Handle Kind) :
    State.held { s.setCall k (.returned err) with
        tables := s.tables ++ [outs.contextTable]
        backgrounds := s.backgrounds ++ [⟨outs.bgHandle, some engine⟩] } x +
      holding (buffer outs.result outs.resultLen) x = s.held x + 0 := by
  have hset := held_setCall hk (.returned err) x
  have hreturned : (Call.returned err).holds x = 0 := rfl
  have hinvoked : (Call.invoked engine entry ctHandle rc outs).holds x =
    holding (buffer outs.result outs.resultLen) x + holding (handle .table outs.contextTable) x +
      holding (handle .tasks outs.bgHandle) x := rfl
  simp only [State.held, State.setCall] at hset
  simp only [State.held, State.setCall, total_append, total_singleton]
  omega

/-- A call returns: its buffer is freed, and a decoded result has wrappers of its own. -/
theorem Sound.finish {M : Msgpack T} {s' : State T} (h : Sound s) {k : Nat} {call : Call}
    (hk : s.calls[k]? = some call)
    (hdecodes : ∀ engine entry ctHandle outs, call = .invoked engine entry ctHandle .ok outs →
      (M.unmarshalResult (goBytes s.memory outs.result outs.resultLen).2).isSome)
    (hs : finish M s k call = some s') : Sound s' := by
  have hready := h.ready call (List.mem_of_getElem? hk)
  have hsettled := h.settled call (List.mem_of_getElem? hk)
  unfold Go.finish at hs
  split at hs
  · next engine entry ctHandle rc outs =>
    split_ifs at hs with hrc
    · obtain rfl := Option.some.inj hs
      refine h.setCall hk (.refl (g := fun _ => 0) fun _ => rfl) (fun x => ?_) trivial trivial
      rw [Call.holds, hsettled.2 hrc]
      rfl
    · obtain rfl : rc = .ok := not_not.mp hrc
      have hpassed : Passed s.memory (.bytes outs.resultLen.toInt.toNat) outs.result :=
        h.passed_call hk fun a ha => by
          have hself := holding_handle_self (t := .bytes outs.resultLen.toInt.toNat) ha
          simp only [Call.holds, Outs.holds, buffer]
          omega
      have hfree := cpexFreeBytes_exchange hpassed hready.2.1
      dsimp only at hs
      rw [goBytes_eq hpassed] at hs
      split at hs
      · next hnone =>
        have hsome := hdecodes engine entry ctHandle outs rfl
        rw [hnone] at hsome
        cases hsome
      · next raw hraw =>
        obtain rfl := Option.some.inj hs
        refine h.exchange hfree (fun x => held_wrapped hk x) (fun c hmem => ?_) fun _ _ _ _ => id
        rcases List.mem_or_eq_of_mem_set hmem with hold | rfl
        · exact .inl hold
        · exact .inr ⟨trivial, trivial⟩
  · next engine rc pointer len =>
    split_ifs at hs with hrc
    · obtain rfl := Option.some.inj hs
      refine h.setCall hk (.refl (g := fun _ => 0) fun _ => rfl) (fun x => ?_) trivial trivial
      obtain ⟨rfl, rfl⟩ := Prod.mk.inj (hsettled hrc)
      rfl
    · obtain rfl : rc = .ok := not_not.mp hrc
      have hpassed : Passed s.memory (.bytes len.toInt.toNat) pointer :=
        h.passed_call hk fun a ha => (holding_handle_self ha).ge
      have hfree := cpexFreeBytes_exchange hpassed (hready.2 rfl)
      dsimp only at hs
      rw [goBytes_eq hpassed] at hs
      obtain rfl := Option.some.inj hs
      exact h.setCall hk hfree (fun x => Nat.add_comm _ _) trivial trivial
  · cases hs

/-- **The boxes of a result that does not decode are leaked.** -/
theorem finish_drops {M : Msgpack T} {s' : State T} (h : Sound s) {k engine : Nat} {entry : Entry}
    {ctHandle : Option Addr} {outs : Outs}
    (hk : s.calls[k]? = some (.invoked engine entry ctHandle .ok outs))
    (hundecodable : M.unmarshalResult (goBytes s.memory outs.result outs.resultLen).2 = none)
    (hs : finish M s k (.invoked engine entry ctHandle .ok outs) = some s') : ¬ Owned s' :=
    fun hown => by
  have hready := h.ready _ (List.mem_of_getElem? hk)
  obtain ⟨a, ha⟩ := hready.2.2 rfl
  have hpassed : Passed s.memory (.bytes outs.resultLen.toInt.toNat) outs.result :=
    h.passed_call hk fun b hb => by
      have hself := holding_handle_self (t := .bytes outs.resultLen.toInt.toNat) hb
      simp only [Call.holds, Outs.holds, buffer]
      omega
  have hfree := cpexFreeBytes_exchange hpassed hready.2.1
  simp only [Go.finish, ne_eq, not_true_eq_false, if_false, goBytes_eq hpassed, hundecodable] at hs
  obtain rfl := Option.some.inj hs
  refine h.balanced.not_drop hfree (x := (a, Kind.table)) ?_ hown.balanced
  have hset := held_setCall hk (.returned (some .resultUnmarshalFailed)) (a, Kind.table)
  have hself := holding_handle_self (t := .table) ha
  have hbuffer : holding (buffer outs.result outs.resultLen) (a, Kind.table) = 0 :=
    holding_handle_ne (Kind.noConfusion) _ a
  simp only [Call.holds, Outs.holds] at hset
  show (s.setCall k (.returned (some .resultUnmarshalFailed))).held (a, Kind.table) + _ < _
  omega

theorem Sound.closeTable (h : Sound s) {i : Nat} {ct : Option Addr} (hi : s.tables[i]? = some ct) :
    Sound { s with
      memory := cpexFreeContextTable s.memory ct
      tables := s.tables.set i none } :=
  h.exchange (takeTable_exchange (h.passed_table hi)) (fun x => held_setTable hi x)
    (fun _ hmem => .inl hmem) fun _ _ _ _ => id

theorem Sound.closeBackground (h : Sound s) {i : Nat} {bg : BackgroundTasks}
    (hi : s.backgrounds[i]? = some bg) :
    Sound { s with
      memory := cpexFreeBackground s.memory bg.handle
      backgrounds := s.backgrounds.set i { bg with handle := none } } :=
  h.exchange (takeTasks_exchange (h.passed_tasks hi)) (fun x => held_setBackground hi x)
    (fun _ hmem => .inl hmem) fun _ _ _ _ => id

/-- No call reads the engine that is shut down. -/
theorem Sound.shutdown (h : Sound s) {i : Nat} {p : Option Addr} (hi : s.engines[i]? = some p)
    (hunread : ∀ call ∈ s.calls, call.reads ≠ some i) :
    Sound { s with
      memory := cpexShutdown s.memory p
      engines := s.engines.set i none } := by
  have hpassed : Passed s.memory .engine p := by
    have hengine := h.passed_engine i
    rwa [State.engineHandle, hi, Option.join_some] at hengine
  refine h.exchange (cpexShutdown_exchange hpassed) (fun x => held_setEngine hi x)
    (fun _ hmem => .inl hmem) fun call hmem e hreads hopen => ?_
  have hne : i ≠ e := fun heq => hunread call hmem (heq ▸ hreads)
  rw [State.engineHandle, List.getElem?_set_ne hne]
  exact hopen

/-- What keeps every handle: a result of an invoke decodes, and no `Wait` follows the shutdown of
its engine. -/
def Accounted (M : Msgpack T) (s : State T) : Event T → Prop
  | .finish k => ∀ engine entry ctHandle outs,
    s.calls[k]? = some (.invoked engine entry ctHandle .ok outs) →
      (M.unmarshalResult (goBytes s.memory outs.result outs.resultLen).2).isSome
  | .wait background => ∀ (bg : BackgroundTasks), s.backgrounds[background]? = some bg →
    bg.handle.isSome → ∀ engine, bg.engine = some engine → (s.engineHandle engine).isSome
  | .newEngine | .invoke _ _ _ _ | .callC _ _ _ | .closeTable _ | .closeBackground _
  | .shutdown _ => True

/-- One step, where every handle is kept. -/
theorem step_sound {L : Library T} {M : Msgpack T} {s' : State T} {e : Event T} (h : Sound s)
    (hok : Accounted M s e) (hs : step L M s e = some s') : Sound s' := by
  cases e with
  | newEngine =>
    obtain rfl := Option.some.inj hs
    exact h.newEngine
  | invoke engine entry request contextTable =>
    obtain rfl := Option.some.inj hs
    exact h.invoke engine entry request contextTable
  | wait background =>
    simp only [step] at hs
    split at hs
    · next bg hbg =>
      split_ifs at hs
      obtain rfl := Option.some.inj hs
      exact h.wait (hok bg hbg)
    · cases hs
  | callC k inner allocates =>
    obtain ⟨call, hk, hcall⟩ := Option.bind_eq_some_iff.mp hs
    exact h.callC hk hcall
  | finish k =>
    obtain ⟨call, hk, hcall⟩ := Option.bind_eq_some_iff.mp hs
    refine h.finish hk (fun engine entry ctHandle outs heq => ?_) hcall
    exact hok engine entry ctHandle outs (heq ▸ hk)
  | closeTable table =>
    simp only [step] at hs
    split at hs
    · next ct hct =>
      obtain rfl := Option.some.inj hs
      exact h.closeTable hct
    · cases hs
  | closeBackground background =>
    simp only [step] at hs
    split at hs
    · next bg hbg =>
      split_ifs at hs
      obtain rfl := Option.some.inj hs
      exact h.closeBackground hbg
    · cases hs
  | shutdown engine =>
    simp only [step] at hs
    split_ifs at hs with hreads
    split at hs
    · next p hp =>
      obtain rfl := Option.some.inj hs
      refine h.shutdown hp fun call hmem heq => hreads ?_
      exact List.any_eq_true.mpr ⟨call, hmem, decide_eq_true heq⟩
    · cases hs

/-- One step, where a handle is dropped. -/
theorem step_drops {L : Library T} {M : Msgpack T} {s' : State T} {e : Event T} (h : Sound s)
    (hok : ¬ Accounted M s e) (hs : step L M s e = some s') : ¬ Owned s' := by
  cases e with
  | finish k =>
    simp only [Accounted, not_forall] at hok
    obtain ⟨engine, entry, ctHandle, outs, hk, hundecodable⟩ := hok
    obtain ⟨call, hk', hcall⟩ := Option.bind_eq_some_iff.mp hs
    obtain rfl := Option.some.inj (hk.symm.trans hk')
    exact finish_drops h hk (Option.not_isSome_iff_eq_none.mp hundecodable) hcall
  | wait background =>
    simp only [Accounted, not_forall] at hok
    obtain ⟨bg, hbg, hsome, engine, hengine, hclosed⟩ := hok
    obtain ⟨a, ha⟩ := Option.isSome_iff_exists.mp hsome
    simp only [step, hbg] at hs
    split_ifs at hs
    obtain rfl := Option.some.inj hs
    exact wait_drops h hbg ha hengine (Option.not_isSome_iff_eq_none.mp hclosed)
  | newEngine => exact absurd trivial hok
  | invoke engine entry request contextTable => exact absurd trivial hok
  | callC k inner allocates => exact absurd trivial hok
  | closeTable table => exact absurd trivial hok
  | closeBackground background => exact absurd trivial hok
  | shutdown engine => exact absurd trivial hok

/--
**Every handle has an owner**, throughout a run, if and only if each result of an invoke decodes
and no `Wait` follows the shutdown of its engine.
-/
theorem owned_iff {L : Library T} {M : Msgpack T} {es : List (Event T)} {s : State T}
    (hrun : (binding L M).run .new es = some s) :
    (binding L M).Always Owned .new es ↔ (binding L M).Meets (Accounted M) .new es :=
  (binding L M).always_iff_meets (fun _ h => h.toOwned)
    (fun _ _ _ h hok hs => step_sound h hok hs) (fun _ _ _ h hok hs => step_drops h hok hs)
    sound_new hrun

end

/-- A hook is invoked, up to its return. -/
def invokedOnce (allocates : Nat → Bool) : List (Event Plain.types) :=
  [.newEngine, .invoke 0 .invokeByName Plain.request none, .callC 0 Plain.engine allocates,
    .finish 0]

/-- Where there is memory, its result decodes. -/
theorem owned_iff_invoked_once :
    ∃ s, (binding Plain.library Plain.msgpack).run .new (invokedOnce fun _ => true) = some s ∧
      (binding Plain.library Plain.msgpack).Always Owned .new (invokedOnce fun _ => true) := by
  refine ⟨_, rfl, (owned_iff rfl).mpr ?_⟩
  refine ⟨trivial, fun s₁ h₁ => ⟨trivial, fun s₂ h₂ => ⟨trivial, fun s₃ h₃ => ⟨?_, ?_⟩⟩⟩⟩
  · obtain rfl := Option.some.inj h₁
    obtain rfl := Option.some.inj h₂
    obtain rfl := Option.some.inj h₃
    rintro engine entry ctHandle outs hk
    obtain rfl := (Call.invoked.inj (Option.some.inj hk)).2.2.2.2
    rfl
  · intro s₄ h₄
    trivial

/-- The engine is shut down before its tasks are waited for. The box of the tasks is live, and
nothing holds it. -/
theorem abandoned_wait_leaks :
    ∃ s, (binding Plain.library Plain.msgpack).run .new
        (invokedOnce (fun _ => true) ++ [.shutdown 0, .wait 0]) = some s ∧ ¬ Owned s := by
  refine ⟨_, rfl, fun hown => ?_⟩
  have hbalance := hown.balanced.balance (3, .tasks)
  revert hbalance
  decide

/-- There is no memory for the buffer of a result, which then does not decode: the boxes of its
context table and tasks are live, and nothing holds them. -/
theorem undecodable_result_leaks :
    ∃ s, (binding Plain.library Plain.msgpack).run .new (invokedOnce fun _ => false) = some s ∧
      ¬ Owned s := by
  refine ⟨_, rfl, fun hown => ?_⟩
  have hbalance := hown.balanced.balance (1, .table)
  revert hbalance
  decide

end Cpex.Go
