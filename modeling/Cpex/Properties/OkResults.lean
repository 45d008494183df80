import Cpex.Ffi.Reports
import Cpex.Properties.Handles

/-!
# What an `RC_OK` comes with

Five entry points serialize a result and hand it out in a buffer. The buffer is null where the
result is empty, too long for a C int or finds no memory, and the code is `RC_OK` all the same.

* `CCall` — a call of one of the five, with its out parameters and what it serializes
* `allocBytes_ne_none_iff` — when there is a buffer
* `OkCarries` — what is meant to hold of a call
* `ok_carries_iff` — it holds exactly when what is serialized can be carried
-/

namespace Cpex.Ffi

open Cpex.Infra

variable {T : Types}

/-! ## Calls with a result -/

/-- A call of an entry point that hands out a result. -/
inductive CCall where
  | invoke (handle : Option Addr) (args : InvokeArgs) (contextTable : Option Addr)
  | invokeResolved (handle : Option Addr) (identity : Slice) (args : InvokeArgs)
      (contextTable : Option Addr)
  | waitBackground (handle bgHandle : Option Addr) (outs : BufferOut)
  | pluginNames (handle : Option Addr) (outs : BufferOut)
  | refreshSecrets (handle : Option Addr) (writable : Bool) (outs : BufferOut)

/-- The code of a call and its out parameters: the result, and the other handles. -/
structure CResult where
  rc : Rc
  pointer : Option Addr
  len : Int32
  handles : List (Option Addr)
  deriving DecidableEq

def CResult.ofOuts (r : Memory T × Rc × Outs) : CResult :=
  ⟨r.2.1, r.2.2.result, r.2.2.resultLen, [r.2.2.contextTable, r.2.2.bgHandle]⟩

def CResult.ofBuffer (r : Memory T × Rc × BufferOut) : CResult := ⟨r.2.1, r.2.2.1, r.2.2.2, []⟩

section

variable (L : Library T) (inner : Engine T) (R : Reporting) (allocates : Nat → Bool) (m : Memory T)

def CCall.run : CCall → CResult
  | .invoke handle args ct => .ofOuts (cpexInvoke L inner allocates m handle args ct)
  | .invokeResolved handle identity args ct =>
    .ofOuts (cpexInvokeResolved L inner allocates m handle identity args ct)
  | .waitBackground handle bg outs =>
    .ofBuffer (cpexWaitBackground L inner allocates m handle bg outs)
  | .pluginNames handle outs => .ofBuffer (cpexPluginNames R allocates m handle outs)
  | .refreshSecrets handle writable outs =>
    .ofBuffer (cpexRefreshSecrets R allocates m handle writable outs)

/-- The bytes of the call's result, or the code it returns before it has any. -/
def CCall.serialized : CCall → Except Rc Bytes
  | .invoke handle args ct =>
    if handle.isNone then .error .invalidHandle
    else (invoked L inner args (takeTable m ct).2).outcome.map Reply.resultBytes
  | .invokeResolved handle identity args ct =>
    if handle.isNone then .error .invalidHandle
    else (invokedResolved L inner identity args (takeTable m ct).2).outcome.map Reply.resultBytes
  | .waitBackground handle bg _ =>
    if handle.isNone then .error .invalidHandle
    else waited L inner (takeTasks (asRef m handle) bg).2
  | .pluginNames handle _ => if handle.isNone then .error .invalidHandle else named R
  | .refreshSecrets handle writable _ =>
    if !writable then .error .invalidInput
    else if handle.isNone then .error .invalidHandle
    else refreshed R

end

/-! ## The buffer -/

/-- Bytes that fit a C int, are not none, and find memory. -/
structure Carriable (allocates : Nat → Bool) (bytes : Bytes) : Prop where
  nonempty : 0 < bytes.length
  le : bytes.length ≤ cIntMax
  memory : allocates bytes.length = true

variable {allocates : Nat → Bool} {m : Memory T} {bytes : Bytes}

theorem allocBytes_ne_none_iff :
    (allocBytes allocates m bytes).2.1 ≠ none ↔ Carriable allocates bytes := by
  unfold allocBytes
  split_ifs with hempty hlarge hmemory
  · exact iff_of_false (fun h => h rfl) fun h => absurd h.nonempty (by omega)
  · exact iff_of_false (fun h => h rfl) fun h => absurd h.le (by omega)
  · refine iff_of_false (fun h => h rfl) fun h => ?_
    rw [h.memory] at hmemory
    cases hmemory
  · refine iff_of_true (Option.some_ne_none _) ⟨by omega, by omega, ?_⟩
    simpa using hmemory

theorem toInt_len_allocBytes (h : Carriable allocates bytes) :
    (allocBytes allocates m bytes).2.2.toInt = bytes.length := by
  have hlarge : ¬ bytes.length > cIntMax := Nat.not_lt.mpr h.le
  have hempty : bytes.length ≠ 0 := Nat.ne_of_gt h.nonempty
  unfold allocBytes
  rw [if_neg hempty, if_neg hlarge, h.memory]
  exact toInt_ofNat hlarge

/-! ## What each call hands out -/

/-- A call that serializes returns `RC_OK` with the buffer of what it serialized, null or not. -/
structure Delivers (T : Types) (allocates : Nat → Bool) (serialized : Except Rc Bytes)
    (r : CResult) : Prop where
  failed : ∀ rc, serialized = .error rc → r.rc ≠ .ok
  sent : ∀ bytes, serialized = .ok bytes → r.rc = .ok ∧ ∃ m : Memory T,
    r.pointer = (allocBytes allocates m bytes).2.1 ∧ r.len = (allocBytes allocates m bytes).2.2

theorem writeOuts_delivers {reply : Except Rc (Reply T)} (hreply : Coded reply) :
    Delivers T allocates (reply.map Reply.resultBytes)
      (.ofOuts (writeOuts allocates m reply)) where
  failed := by
    intro rc h
    cases reply with
    | error rc' => exact fun hok => hreply (congrArg Except.error hok)
    | ok reply => cases h
  sent := by
    intro bytes h
    cases reply with
    | error rc => cases h
    | ok reply =>
      obtain rfl : reply.resultBytes = bytes := Except.ok.inj h
      exact ⟨rfl, m, rfl, rfl⟩

/-- A call whose only result is a buffer. -/
theorem buffer_delivers {serialized : Except Rc Bytes} (outs : BufferOut)
    (hcoded : Coded serialized) :
    Delivers T allocates serialized (.ofBuffer (match serialized with
      | .error rc => (m, rc, outs)
      | .ok bytes =>
        ((allocBytes allocates m bytes).1, .ok, (allocBytes allocates m bytes).2))) where
  failed := by
    intro rc h
    subst h
    exact fun hok => hcoded (congrArg Except.error hok)
  sent := by
    intro bytes h
    subst h
    exact ⟨rfl, m, rfl, rfl⟩

theorem named_coded (R : Reporting) : Coded (named R) := orReturn_coded (by decide) _

theorem refreshed_coded (R : Reporting) : Coded (refreshed R) :=
  (SafeRun.orReturn_coded _).bind fun _ => orReturn_coded (by decide) _

/-- A missing handle or the reply of a call, as the bytes of the result. -/
theorem map_resultBytes {handle : Option Addr} {reply : Except Rc (Reply T)} :
    (if handle.isNone then .error .invalidHandle else reply.map Reply.resultBytes) =
      (if handle.isNone then Except.error Rc.invalidHandle else reply).map Reply.resultBytes := by
  split
  · rfl
  · rfl

theorem coded_of_handle {α : Type} {handle : Option Addr} {x : Except Rc α} (h : Coded x) :
    Coded (if handle.isNone then .error .invalidHandle else x) := by
  split
  · exact .error nofun
  · exact h

theorem run_delivers (L : Library T) (inner : Engine T) (R : Reporting) (call : CCall) :
    Delivers T allocates (call.serialized L inner R m) (call.run L inner R allocates m) := by
  cases call with
  | invoke handle args ct =>
    rw [CCall.serialized, map_resultBytes]
    exact writeOuts_delivers (coded_of_handle (invoked_coded L inner args _))
  | invokeResolved handle identity args ct =>
    rw [CCall.serialized, map_resultBytes]
    exact writeOuts_delivers (coded_of_handle (invokedResolved_coded L inner identity args _))
  | waitBackground handle bg outs =>
    cases handle with
    | none => exact buffer_delivers outs (.error nofun)
    | some p => exact buffer_delivers outs (waited_coded L inner _)
  | pluginNames handle outs =>
    cases handle with
    | none => exact buffer_delivers outs (.error nofun)
    | some p => exact buffer_delivers outs (named_coded R)
  | refreshSecrets handle writable outs =>
    cases writable with
    | false => exact buffer_delivers outs (.error nofun)
    | true =>
      cases handle with
      | none => exact buffer_delivers (none, 0) (.error nofun)
      | some p => exact buffer_delivers (none, 0) (refreshed_coded R)

/-! ## When an `RC_OK` carries its result -/

/-- The code is `RC_OK` only with a buffer of the bytes that were serialized, and bytes that no C
int counts or no memory holds give another code and no handle. -/
structure OkCarries (allocates : Nat → Bool) (serialized : Except Rc Bytes) (r : CResult) :
    Prop where
  ok : r.rc = .ok → r.pointer ≠ none ∧ ∃ bytes, serialized = .ok bytes ∧
    r.len.toInt = bytes.length
  refused : ∀ bytes, serialized = .ok bytes →
    bytes.length > cIntMax ∨ allocates bytes.length = false →
      r.rc ≠ .ok ∧ r.pointer = none ∧ ∀ handle ∈ r.handles, handle = none

/--
**An `RC_OK` carries its result exactly when there is nothing to refuse.** For every engine, codec
and memory and every call of the five entry points, the code and the out parameters are what is
meant if and only if the bytes the call serializes, if it gets so far, are not empty, fit a C int
and find memory.
-/
theorem ok_carries_iff (L : Library T) (inner : Engine T) (R : Reporting) (allocates : Nat → Bool)
    (m : Memory T) (call : CCall) :
    OkCarries allocates (call.serialized L inner R m) (call.run L inner R allocates m) ↔
      ∀ bytes, call.serialized L inner R m = .ok bytes → Carriable allocates bytes := by
  have hdelivers : Delivers T allocates (call.serialized L inner R m)
      (call.run L inner R allocates m) := run_delivers L inner R call
  constructor
  · intro hcarries bytes hbytes
    obtain ⟨hok, m', hpointer, -⟩ := hdelivers.sent bytes hbytes
    have hnonnull := (hcarries.ok hok).1
    rw [hpointer] at hnonnull
    exact allocBytes_ne_none_iff.mp hnonnull
  · intro hcarriable
    refine ⟨fun hok => ?_, fun bytes hbytes hrefuse => ?_⟩
    · cases hserialized : call.serialized L inner R m with
      | error rc => exact absurd hok (hdelivers.failed rc hserialized)
      | ok bytes =>
        have hfits := hcarriable bytes hserialized
        obtain ⟨-, m', hpointer, hlen⟩ := hdelivers.sent bytes hserialized
        rw [hpointer, hlen]
        exact ⟨allocBytes_ne_none_iff.mpr hfits, bytes, rfl, toInt_len_allocBytes hfits⟩
    · have hfits := hcarriable bytes hbytes
      rcases hrefuse with hlarge | hmemory
      · exact absurd hfits.le (by omega)
      · rw [hfits.memory] at hmemory
        cases hmemory

/-! ## A result that finds no memory -/

namespace Plain

/-- An engine of no plugins and no secrets. -/
def reporting : Reporting where
  pluginNames := []
  refreshSecrets := .ok ⟨[], 0, []⟩
  writeNames _ := .ok [0x90]
  writeSummary _ := .ok nilBytes

/-- An invoke of the hook `h` with a generic payload. -/
def invoke : CCall := .invoke (some 0) invokeArgs none

end Plain

/-- The code is `RC_OK`, the result null, and the other handles are there. -/
theorem ok_without_result :
    Plain.invoke.run Plain.library Plain.engine Plain.reporting (fun _ => false) Plain.memory =
      ⟨.ok, none, 0, [some 1, some 2]⟩ ∧
    ¬ OkCarries (fun _ => false)
      (Plain.invoke.serialized Plain.library Plain.engine Plain.reporting Plain.memory)
      (Plain.invoke.run Plain.library Plain.engine Plain.reporting (fun _ => false)
        Plain.memory) :=
  ⟨rfl, fun hcarries => (hcarries.ok rfl).1 rfl⟩

end Cpex.Ffi
