import Cpex.Ffi.Install
import Cpex.Infra.Heap
import Cpex.Infra.Lock

/-!
# The builtins are installed once, and the runtime is fixed once

* `discipline` — what the lock of `install_state` protects
* `installed_once` — one install per handle, whose flags decide, however calls interleave
* `runtime_fixed` — one runtime per process, and who decides its worker threads
-/

namespace Cpex.Ffi

open Cpex.Infra

/-! ## What an install makes of the handle -/

variable {transport₀ secretProviders₀ : Option Bool}

/-- The destinations a handle reaches after an install with `flags`. -/
def installedAccess (kept : Option Bool) (flags : UInt32) : Option Bool :=
  kept.or (some (hasFlag flags aplAllowPrivateDestinations))

/-- An install is on its way. Nothing is exposed before its end. -/
structure Under (flags : UInt32) (visitors : Nat) (transport secretProviders : Option Bool)
    (v : EngineInner) : Prop where
  known : unknownFlags flags = false
  state : v.installState = .notInstalled
  attempts : v.attempts = [flags]
  visitors : v.engine.visitors = visitors
  hidden : v.exposeDelegatedCredentials = false
  transport : v.engine.transport = transport
  secretProviders : v.engine.secretProviders = secretProviders

variable (transport₀ secretProviders₀) in
/-- An install that went through. -/
structure Done (flags : UInt32) (v : EngineInner) : Prop where
  known : unknownFlags flags = false
  attempts : v.attempts = [flags]
  visitors : v.engine.visitors = 1
  exposed : v.exposeDelegatedCredentials = hasFlag flags aplExposeDelegatedCredentials
  transport : v.engine.transport = installedAccess transport₀ flags
  secretProviders : v.engine.secretProviders = installedAccess secretProviders₀ flags

variable (transport₀) in
/-- An install that panicked part way. -/
structure Broken (flags : UInt32) (v : EngineInner) : Prop where
  known : unknownFlags flags = false
  attempts : v.attempts = [flags]
  visitors : v.engine.visitors ≤ 1
  hidden : v.exposeDelegatedCredentials = false
  transport : v.engine.transport = transport₀ ∨
    v.engine.transport = installedAccess transport₀ flags

variable (transport₀ secretProviders₀) in
/-- What a handle is while no install is on its way. -/
inductive AtRest (v : EngineInner) : Prop
  | notInstalled (h : v = .new transport₀ secretProviders₀)
  | installed (hstate : v.installState = .installed) (flags : UInt32)
      (h : Done transport₀ secretProviders₀ flags v)
  | failed (hstate : v.installState = .failed) (flags : UInt32) (h : Broken transport₀ flags v)

/-- The outcome that a code tells. -/
def Tells (v : EngineInner) : Rc → Prop
  | .ok => v.installState = .installed
  | .panic => v.installState = .failed
  | _ => False

variable (transport₀ secretProviders₀) in
/-- What the holder of the lock has made of the handle. -/
def during : Install → EngineInner → Prop
  | .locked flags, v => AtRest transport₀ secretProviders₀ v ∧ unknownFlags flags = false
  | .builtins flags, v => Under flags 0 transport₀ secretProviders₀ v
  | .transport flags, v => Under flags 1 transport₀ secretProviders₀ v
  | .secretProviders flags, v =>
    Under flags 1 (installedAccess transport₀ flags) secretProviders₀ v
  | .installed flags, v => Under flags 1 (installedAccess transport₀ flags)
      (installedAccess secretProviders₀ flags) v
  | .exposed flags, v => v.installState = .notInstalled ∧ Done transport₀ secretProviders₀ flags v
  | .panicked flags, v => v.installState = .notInstalled ∧ Broken transport₀ flags v
  | .unlocking flags rc, v =>
    AtRest transport₀ secretProviders₀ v ∧ unknownFlags flags = false ∧ Tells v rc
  | .entered _, _ | .locking _, _ | .returned _ _, _ => False

variable (transport₀ secretProviders₀) in
def discipline : Discipline Install EngineInner where
  rest := AtRest transport₀ secretProviders₀
  during := during transport₀ secretProviders₀

/-- The call as a holder of the lock. -/
def Install.hold : Install → Option Install
  | .entered _ | .locking _ | .returned _ _ => none
  | call => some call

/-- What a call without the lock knows of the handle. -/
def Install.promise (v : EngineInner) : Install → Prop
  | .locking flags => unknownFlags flags = false
  | .returned flags rc =>
    rc = .invalidHandle ∨ (rc = .invalidInput ∧ unknownFlags flags = true) ∨
      (unknownFlags flags = false ∧ Tells v rc)
  | _ => True

def Installs.lock (s : Installs) : Lock Nat Install EngineInner :=
  ⟨s.owner, fun k => s.calls[k]?.bind Install.hold, s.inner⟩

variable (transport₀ secretProviders₀) in
structure Noted (s : Installs) : Prop where
  kept : Lock.Kept (discipline transport₀ secretProviders₀) s.lock
  promise : ∀ call ∈ s.calls, call.promise s.inner

/-! ## One step -/

/-- A step of a call answers for the handle. -/
theorem advance_turn {s : Installs} {k : Nat} {call call' : Install} {inner' : EngineInner}
    {owner' : Option Nat} (hpromise : call.promise s.inner)
    (h : call.advance s.inner s.owner k = some (inner', owner', call')) :
    Lock.Turn (discipline transport₀ secretProviders₀) k s.owner owner' s.inner inner' call.hold
      call'.hold := by
  cases call with
  | entered flags =>
    obtain ⟨rfl, rfl, rfl⟩ : _ ∧ _ ∧ _ = call' := by simpa [Install.advance] using h
    have hnone : Install.hold (if unknownFlags flags then .returned flags .invalidInput
        else .locking flags) = none := by split_ifs <;> rfl
    rw [hnone]
    exact .idle rfl rfl
  | locking flags =>
    simp only [Install.advance, Option.ite_none_right_eq_some, Option.some.injEq,
      Prod.mk.injEq] at h
    obtain ⟨hfree, rfl, rfl, rfl⟩ := h
    exact .acquire hfree rfl fun hrest => ⟨hrest, hpromise⟩
  | locked flags =>
    simp only [Install.advance] at h
    split at h <;> rename_i hstate
    · obtain ⟨rfl, rfl, rfl⟩ : _ ∧ _ ∧ _ = call' := by simpa using h
      exact .advance rfl fun hv => ⟨hv.1, hv.2, hstate⟩
    · obtain ⟨rfl, rfl, rfl⟩ : _ ∧ _ ∧ _ = call' := by simpa using h
      exact .advance rfl fun hv => ⟨hv.1, hv.2, hstate⟩
    · obtain ⟨rfl, rfl, rfl⟩ : _ ∧ _ ∧ _ = call' := by simpa using h
      refine .advance rfl fun hv => ?_
      obtain ⟨hrest, hknown⟩ := hv
      obtain hnew | ⟨hinstalled, -, -⟩ | ⟨hfailed, -, -⟩ := hrest
      · rw [hnew]
        exact ⟨hknown, rfl, rfl, rfl, rfl, rfl, rfl⟩
      · cases hstate.symm.trans hinstalled
      · cases hstate.symm.trans hfailed
  | builtins flags =>
    obtain ⟨rfl, rfl, rfl⟩ : _ ∧ _ ∧ _ = call' := by simpa [Install.advance] using h
    refine .advance rfl fun hv => ?_
    exact ⟨hv.known, hv.state, hv.attempts, by simp [hv.visitors], hv.hidden, hv.transport,
      hv.secretProviders⟩
  | transport flags =>
    obtain ⟨rfl, rfl, rfl⟩ : _ ∧ _ ∧ _ = call' := by simpa [Install.advance] using h
    refine .advance rfl fun hv => ?_
    exact ⟨hv.known, hv.state, hv.attempts, hv.visitors, hv.hidden, by simp [hv.transport,
      installedAccess], hv.secretProviders⟩
  | secretProviders flags =>
    obtain ⟨rfl, rfl, rfl⟩ : _ ∧ _ ∧ _ = call' := by simpa [Install.advance] using h
    refine .advance rfl fun hv => ?_
    exact ⟨hv.known, hv.state, hv.attempts, hv.visitors, hv.hidden, hv.transport, by simp
      [hv.secretProviders, installedAccess]⟩
  | installed flags =>
    obtain ⟨rfl, rfl, rfl⟩ : _ ∧ _ ∧ _ = call' := by simpa [Install.advance] using h
    refine .advance rfl fun hv => ?_
    exact ⟨hv.state, hv.known, hv.attempts, hv.visitors, rfl, hv.transport, hv.secretProviders⟩
  | exposed flags =>
    obtain ⟨rfl, rfl, rfl⟩ : _ ∧ _ ∧ _ = call' := by simpa [Install.advance] using h
    refine .advance rfl fun hv => ?_
    obtain ⟨-, hdone⟩ := hv
    exact ⟨.installed rfl flags ⟨hdone.known, hdone.attempts, hdone.visitors, hdone.exposed,
      hdone.transport, hdone.secretProviders⟩, hdone.known, rfl⟩
  | panicked flags =>
    obtain ⟨rfl, rfl, rfl⟩ : _ ∧ _ ∧ _ = call' := by simpa [Install.advance] using h
    refine .advance rfl fun hv => ?_
    obtain ⟨-, hbroken⟩ := hv
    exact ⟨.failed rfl flags ⟨hbroken.known, hbroken.attempts, hbroken.visitors, hbroken.hidden,
      hbroken.transport⟩, hbroken.known, rfl⟩
  | unlocking flags rc =>
    obtain ⟨rfl, rfl, rfl⟩ : _ ∧ _ ∧ _ = call' := by simpa [Install.advance] using h
    exact .release rfl fun hv => hv.1
  | returned flags rc => cases h

/-- So does a panic. -/
theorem panic_turn {s : Installs} {k : Nat} {call call' : Install} {inner' : EngineInner}
    {appended : Bool} (h : call.panic s.inner appended = some (inner', call')) :
    Lock.Turn (discipline transport₀ secretProviders₀) k s.owner s.owner s.inner inner' call.hold
      call'.hold := by
  cases call with
  | builtins flags =>
    obtain ⟨rfl, rfl⟩ : _ ∧ _ = call' := by simpa [Install.panic] using h
    refine .advance rfl fun hv => ⟨hv.state, hv.known, hv.attempts, ?_, hv.hidden, .inl hv.transport⟩
    show s.inner.engine.visitors + _ ≤ 1
    rw [hv.visitors]
    split_ifs <;> decide
  | transport flags =>
    obtain ⟨rfl, rfl⟩ : _ ∧ _ = call' := by simpa [Install.panic] using h
    exact .advance rfl fun hv => ⟨hv.state, hv.known, hv.attempts, hv.visitors.le, hv.hidden,
      .inl hv.transport⟩
  | secretProviders flags =>
    obtain ⟨rfl, rfl⟩ : _ ∧ _ = call' := by simpa [Install.panic] using h
    exact .advance rfl fun hv => ⟨hv.state, hv.known, hv.attempts, hv.visitors.le, hv.hidden,
      .inr hv.transport⟩
  | _ => cases h

theorem Tells.mono {v v' : EngineInner} {rc : Rc} (h : Tells v rc)
    (hstate : v.installState ≠ .notInstalled → v'.installState = v.installState) : Tells v' rc := by
  cases rc with
  | ok =>
    have hok : v.installState = .installed := h
    exact (hstate (by rw [hok]; exact InstallState.noConfusion)).trans hok
  | panic =>
    have hpanic : v.installState = .failed := h
    exact (hstate (by rw [hpanic]; exact InstallState.noConfusion)).trans hpanic
  | _ => exact h

theorem promise_mono {v v' : EngineInner} {call : Install} (h : call.promise v)
    (hstate : v.installState ≠ .notInstalled → v'.installState = v.installState) :
    call.promise v' := by
  cases call with
  | returned flags rc =>
    obtain hnull | hinvalid | ⟨hknown, htells⟩ := h
    · exact .inl hnull
    · exact .inr (.inl hinvalid)
    · exact .inr (.inr ⟨hknown, htells.mono hstate⟩)
  | _ => exact h

/-- An outcome is final, and the call knows what it says. -/
theorem advance_promise {v v' : EngineInner} {owner owner' : Option Nat} {k : Nat}
    {call call' : Install} (h : call.advance v owner k = some (v', owner', call'))
    (hduring : call.hold = some call → during transport₀ secretProviders₀ call v) :
    (v.installState ≠ .notInstalled → v'.installState = v.installState) ∧ call'.promise v' := by
  cases call with
  | entered flags =>
    obtain ⟨rfl, rfl, rfl⟩ : _ ∧ _ ∧ _ = call' := by simpa [Install.advance] using h
    refine ⟨fun _ => rfl, ?_⟩
    split_ifs with hunknown
    · exact .inr (.inl ⟨rfl, hunknown⟩)
    · exact Bool.eq_false_iff.mpr hunknown
  | locking flags =>
    simp only [Install.advance, Option.ite_none_right_eq_some, Option.some.injEq,
      Prod.mk.injEq] at h
    obtain ⟨-, rfl, -, rfl⟩ := h
    exact ⟨fun _ => rfl, trivial⟩
  | locked flags =>
    simp only [Install.advance] at h
    split at h
    all_goals
      obtain ⟨rfl, rfl, rfl⟩ : _ ∧ _ ∧ _ = call' := by simpa using h
      exact ⟨fun _ => rfl, trivial⟩
  | builtins | transport | secretProviders | installed =>
    obtain ⟨rfl, rfl, rfl⟩ : _ ∧ _ ∧ _ = call' := by simpa [Install.advance] using h
    exact ⟨fun _ => rfl, trivial⟩
  | exposed flags =>
    obtain ⟨rfl, rfl, rfl⟩ : _ ∧ _ ∧ _ = call' := by simpa [Install.advance] using h
    exact ⟨fun hne => absurd (hduring rfl).1 hne, trivial⟩
  | panicked flags =>
    obtain ⟨rfl, rfl, rfl⟩ : _ ∧ _ ∧ _ = call' := by simpa [Install.advance] using h
    exact ⟨fun hne => absurd (hduring rfl).1 hne, trivial⟩
  | unlocking flags rc =>
    obtain ⟨rfl, rfl, rfl⟩ : _ ∧ _ ∧ _ = call' := by simpa [Install.advance] using h
    exact ⟨fun _ => rfl, .inr (.inr (hduring rfl).2)⟩
  | returned flags rc => cases h

theorem panic_promise {v v' : EngineInner} {call call' : Install} {appended : Bool}
    (h : call.panic v appended = some (v', call')) :
    v'.installState = v.installState ∧ call'.promise v' := by
  cases call with
  | builtins | transport | secretProviders =>
    obtain ⟨rfl, rfl⟩ : _ ∧ _ = call' := by simpa [Install.panic] using h
    exact ⟨rfl, trivial⟩
  | _ => cases h

/-- One call moves: the lock is kept, and what the others know stays true. -/
theorem Noted.setCall {s : Installs} (hs : Noted transport₀ secretProviders₀ s) {k : Nat}
    {call call' : Install} {inner' : EngineInner} {owner' : Option Nat}
    (hk : s.calls[k]? = some call)
    (hturn : Lock.Turn (discipline transport₀ secretProviders₀) k s.owner owner' s.inner inner'
      call.hold call'.hold)
    (hstate : s.inner.installState ≠ .notInstalled → inner'.installState = s.inner.installState)
    (hpromise : call'.promise inner') :
    Noted transport₀ secretProviders₀ ⟨inner', owner', s.calls.set k call'⟩ where
  kept := by
    have hhold : s.lock.hold k = call.hold := by
      show s.calls[k]?.bind _ = _
      rw [hk, Option.bind_some]
    rw [← hhold] at hturn
    have hkept := hs.kept.turn hturn
    rwa [show s.lock.hold = fun k : Nat => s.calls[k]?.bind Install.hold from rfl,
      ← Lock.bind_set hk] at hkept
  promise c hc := by
    rcases List.mem_or_eq_of_mem_set hc with hold | rfl
    · exact promise_mono (hs.promise c hold) hstate
    · exact hpromise

theorem noted_step {s s' : Installs} {e : InstallLabel} (hs : Noted transport₀ secretProviders₀ s)
    (h : installing.step s e = some s') : Noted transport₀ secretProviders₀ s' := by
  cases e with
  | call null flags =>
    obtain rfl := Option.some.inj h
    refine ⟨?_, fun c hc => ?_⟩
    · have hnone : Install.hold (if null then .returned flags .invalidHandle
          else .entered flags) = none := by split_ifs <;> rfl
      show Lock.Kept _ ⟨s.owner, fun k : Nat => (s.calls ++ [_])[k]?.bind Install.hold, s.inner⟩
      rw [Lock.bind_push s.calls hnone]
      exact hs.kept
    · rcases List.mem_append.mp hc with hold | hnew
      · exact hs.promise c hold
      · rw [List.mem_singleton.mp hnew]
        split_ifs
        · exact .inl rfl
        · trivial
  | advance k =>
    obtain ⟨call, hk, hadvance⟩ := Option.bind_eq_some_iff.mp h
    obtain ⟨⟨inner, owner, call'⟩, hadv, rfl⟩ := Option.map_eq_some_iff.mp hadvance
    have hduring : call.hold = some call → during transport₀ secretProviders₀ call s.inner := by
      intro hhold
      have hlock : s.lock.hold k = some call := by
        show s.calls[k]?.bind _ = _
        rw [hk, Option.bind_some, hhold]
      exact (hs.kept.held k call hlock).2
    obtain ⟨hstate, hpromise⟩ := advance_promise hadv hduring
    exact hs.setCall hk (advance_turn (hs.promise call (List.mem_of_getElem? hk)) hadv) hstate
      hpromise
  | panic k appended =>
    obtain ⟨call, hk, hpanic⟩ := Option.bind_eq_some_iff.mp h
    obtain ⟨⟨inner, call'⟩, hadv, rfl⟩ := Option.map_eq_some_iff.mp hpanic
    obtain ⟨hstate, hpromise⟩ := panic_promise hadv
    exact hs.setCall hk (panic_turn hadv) (fun _ => hstate) hpromise

theorem noted_new : Noted transport₀ secretProviders₀ (.new transport₀ secretProviders₀) where
  kept := ⟨fun _ => .notInstalled rfl, fun _ _ h => (nomatch h), fun _ h => (nomatch h)⟩
  promise _ hc := nomatch hc

/-! ## Every run -/

variable (transport₀ secretProviders₀) in
/-- What a host may rely on, however its threads install. -/
structure InstalledOnce (s : Installs) : Prop where
  /-- `install_host_defaults` runs at most once, so there is at most one APL visitor. -/
  once : s.inner.attempts.length ≤ 1 ∧ s.inner.engine.visitors ≤ s.inner.attempts.length
  /-- A call that returned OK found everything set up, by the flags of the one install. -/
  ok : ∀ flags, .returned flags .ok ∈ s.calls → s.inner.installState = .installed ∧
    ∃ first, Done transport₀ secretProviders₀ first s.inner
  /-- After a panic no call returns OK, and no credential is exposed. -/
  panic : ∀ flags, .returned flags .panic ∈ s.calls →
    s.inner.installState = .failed ∧ s.inner.exposeDelegatedCredentials = false
  /-- Credentials are exposed, and private destinations reached, only if the host said so. -/
  exposed : s.inner.exposeDelegatedCredentials = true →
    ∃ first ∈ s.inner.attempts, hasFlag first aplExposeDelegatedCredentials = true
  privateDestinations : s.inner.engine.transport = some true → transport₀ = some true ∨
    transport₀ = none ∧ ∃ first ∈ s.inner.attempts, hasFlag first aplAllowPrivateDestinations = true
  /-- Flags that this build does not know start no install, and are refused with their own code. -/
  known : (∀ first ∈ s.inner.attempts, unknownFlags first = false) ∧
    ∀ flags rc, .returned flags rc ∈ s.calls → rc ≠ .invalidHandle →
      (rc = .invalidInput ↔ unknownFlags flags = true)

variable (transport₀) in
/-- The one install that was started, wherever it is. -/
structure Started (flags : UInt32) (v : EngineInner) : Prop where
  known : unknownFlags flags = false
  attempts : v.attempts = [flags]
  visitors : v.engine.visitors ≤ 1
  exposed : v.exposeDelegatedCredentials = true → hasFlag flags aplExposeDelegatedCredentials = true
  transport : v.engine.transport = transport₀ ∨
    v.engine.transport = installedAccess transport₀ flags

theorem Under.started {flags : UInt32} {visitors : Nat} {transport secretProviders : Option Bool}
    {v : EngineInner} (h : Under flags visitors transport secretProviders v) (hvisitors : visitors ≤ 1)
    (htransport : transport = transport₀ ∨ transport = installedAccess transport₀ flags) :
    Started transport₀ flags v where
  known := h.known
  attempts := h.attempts
  visitors := h.visitors.le.trans hvisitors
  exposed hexposed := by
    rw [h.hidden] at hexposed
    cases hexposed
  transport := by rwa [h.transport]

theorem Done.started {flags : UInt32} {v : EngineInner}
    (h : Done transport₀ secretProviders₀ flags v) : Started transport₀ flags v where
  known := h.known
  attempts := h.attempts
  visitors := h.visitors.le
  exposed hexposed := h.exposed.symm.trans hexposed
  transport := .inr h.transport

theorem Broken.started {flags : UInt32} {v : EngineInner} (h : Broken transport₀ flags v) :
    Started transport₀ flags v where
  known := h.known
  attempts := h.attempts
  visitors := h.visitors
  exposed hexposed := by
    rw [h.hidden] at hexposed
    cases hexposed
  transport := h.transport

theorem AtRest.started {v : EngineInner} (h : AtRest transport₀ secretProviders₀ v) :
    v = .new transport₀ secretProviders₀ ∨ ∃ flags, Started transport₀ flags v := by
  obtain hnew | ⟨-, flags, hdone⟩ | ⟨-, flags, hbroken⟩ := h
  · exact .inl hnew
  · exact .inr ⟨flags, hdone.started⟩
  · exact .inr ⟨flags, hbroken.started⟩

/-- The handle is new, or one install was started on it. -/
theorem Noted.started {s : Installs} (hs : Noted transport₀ secretProviders₀ s) :
    s.inner = .new transport₀ secretProviders₀ ∨ ∃ flags, Started transport₀ flags s.inner := by
  obtain hrest | ⟨k, call, -, hduring⟩ := hs.kept.shared_cases
  · exact AtRest.started hrest
  · cases call with
    | locked flags => exact AtRest.started hduring.1
    | builtins flags => exact .inr ⟨flags, Under.started hduring (Nat.zero_le 1) (.inl rfl)⟩
    | transport flags => exact .inr ⟨flags, Under.started hduring (Nat.le_refl 1) (.inl rfl)⟩
    | secretProviders flags => exact .inr ⟨flags, Under.started hduring (Nat.le_refl 1) (.inr rfl)⟩
    | installed flags => exact .inr ⟨flags, Under.started hduring (Nat.le_refl 1) (.inr rfl)⟩
    | exposed flags => exact .inr ⟨flags, Done.started hduring.2⟩
    | panicked flags => exact .inr ⟨flags, Broken.started hduring.2⟩
    | unlocking flags rc => exact AtRest.started hduring.1
    | _ => cases hduring

/-- Once an install has ended, nobody works on the handle. -/
theorem Noted.atRest {s : Installs} (hs : Noted transport₀ secretProviders₀ s)
    (hstate : s.inner.installState ≠ .notInstalled) :
    AtRest transport₀ secretProviders₀ s.inner := by
  obtain hrest | ⟨k, call, -, hduring⟩ := hs.kept.shared_cases
  · exact hrest
  · cases call with
    | locked flags => exact hduring.1
    | unlocking flags rc => exact hduring.1
    | builtins | transport | secretProviders | installed => exact absurd (Under.state hduring) hstate
    | exposed | panicked => exact absurd hduring.1 hstate
    | _ => cases hduring

theorem Noted.returned {s : Installs} (hs : Noted transport₀ secretProviders₀ s) {flags : UInt32}
    {rc : Rc} (h : .returned flags rc ∈ s.calls) :
    rc = .invalidHandle ∨ (rc = .invalidInput ∧ unknownFlags flags = true) ∨
      (unknownFlags flags = false ∧ Tells s.inner rc) :=
  hs.promise _ h

theorem Noted.installedOnce {s : Installs} (hs : Noted transport₀ secretProviders₀ s) :
    InstalledOnce transport₀ secretProviders₀ s where
  once := by
    obtain hnew | ⟨flags, hstarted⟩ := hs.started
    · rw [hnew]
      exact ⟨Nat.zero_le 1, Nat.le_refl 0⟩
    · rw [hstarted.attempts]
      exact ⟨Nat.le_refl 1, hstarted.visitors⟩
  ok flags h := by
    obtain hnull | ⟨hinvalid, -⟩ | ⟨-, htells⟩ := hs.returned h
    · cases hnull
    · cases hinvalid
    · have hinstalled : s.inner.installState = .installed := htells
      have hne : s.inner.installState ≠ .notInstalled := by
        rw [hinstalled]
        exact InstallState.noConfusion
      obtain hnew | ⟨-, first, hdone⟩ | ⟨hfailed, -, -⟩ := hs.atRest hne
      · rw [hnew] at hinstalled
        cases hinstalled
      · exact ⟨hinstalled, first, hdone⟩
      · cases hinstalled.symm.trans hfailed
  panic flags h := by
    obtain hnull | ⟨hinvalid, -⟩ | ⟨-, htells⟩ := hs.returned h
    · cases hnull
    · cases hinvalid
    · have hfailed : s.inner.installState = .failed := htells
      have hne : s.inner.installState ≠ .notInstalled := by
        rw [hfailed]
        exact InstallState.noConfusion
      obtain hnew | ⟨hinstalled, -, -⟩ | ⟨-, first, hbroken⟩ := hs.atRest hne
      · rw [hnew] at hfailed
        cases hfailed
      · cases hfailed.symm.trans hinstalled
      · exact ⟨hfailed, hbroken.hidden⟩
  exposed h := by
    obtain hnew | ⟨flags, hstarted⟩ := hs.started
    · rw [hnew] at h
      cases h
    · rw [hstarted.attempts]
      exact ⟨flags, List.mem_singleton_self _, hstarted.exposed h⟩
  privateDestinations h := by
    obtain hnew | ⟨flags, hstarted⟩ := hs.started
    · rw [hnew] at h
      exact .inl h
    · obtain hkept | haccess := hstarted.transport
      · exact .inl (hkept.symm.trans h)
      · have hopen := haccess.symm.trans h
        cases htransport : transport₀ with
        | some b =>
          rw [htransport] at hopen
          exact .inl hopen
        | none =>
          rw [htransport] at hopen
          refine .inr ⟨rfl, flags, ?_, Option.some.inj hopen⟩
          rw [hstarted.attempts]
          exact List.mem_singleton_self _
  known := by
    constructor
    · obtain hnew | ⟨flags, hstarted⟩ := hs.started
      · rw [hnew]
        intro first hfirst
        cases hfirst
      · rw [hstarted.attempts]
        intro first hfirst
        rw [List.mem_singleton.mp hfirst]
        exact hstarted.known
    · intro flags rc h hhandle
      obtain hnull | ⟨hinvalid, hunknown⟩ | ⟨hknown, htells⟩ := hs.returned h
      · exact absurd hnull hhandle
      · exact iff_of_true hinvalid hunknown
      · refine iff_of_false ?_ (by rw [hknown]; exact Bool.noConfusion)
        rintro rfl
        exact htells

/-- **The builtins are installed once**, whatever calls of `cpex_apl_install` interleave and
wherever the install panics: the flags of the one install decide, and every call tells its
outcome. -/
theorem installed_once {es : List InstallLabel} {s : Installs}
    (h : installing.run (.new transport₀ secretProviders₀) es = some s) :
    InstalledOnce transport₀ secretProviders₀ s :=
  (installing.run_preserves (fun _ _ _ hs hstep => noted_step hs hstep) noted_new h).installedOnce

/-- Two calls race, and the one that comes second asks for more. -/
def installRace : List InstallLabel :=
  .call false 0 :: .call false 3 :: .advance 1 :: List.replicate 9 (.advance 0) ++
    List.replicate 3 (.advance 1)

theorem installed_once_race : InstalledOnce none none
    ⟨⟨.installed, false, ⟨1, some false, some false⟩, [0]⟩, none,
      [.returned 0 .ok, .returned 3 .ok]⟩ := by
  have hrun : installing.run (.new none none) installRace =
      some ⟨⟨.installed, false, ⟨1, some false, some false⟩, [0]⟩, none,
        [.returned 0 .ok, .returned 3 .ok]⟩ := rfl
  exact installed_once hrun

/-! ## The runtime -/

/-- A call that configured the runtime. -/
def RuntimeCall.isOk : RuntimeCall → Nat
  | .configured _ .ok => 1
  | _ => 0

/-- How many calls configured the runtime. -/
def Runtimes.oks (s : Runtimes) : Nat := total RuntimeCall.isOk s.calls

/-- What a call knows of the cell. -/
def RuntimeCall.promise (cell : Option Runtime) : RuntimeCall → Prop
  | .setting workerThreads runtime =>
    0 < workerThreads ∧ runtime = some workerThreads.toInt.toNat
  | .configured workerThreads .ok =>
    0 < workerThreads ∧ cell = some (some workerThreads.toInt.toNat)
  | .got runtime => cell = some runtime
  | _ => True

structure RuntimeInv (env : Option String) (s : Runtimes) : Prop where
  /-- The one call in the initializer is the one that blocks the others. -/
  building : ∀ k, s.initializing = some k ↔ s.calls[k]? = some .building
  empty : s.initializing ≠ none → s.sharedRuntime = none
  promise : ∀ call ∈ s.calls, call.promise s.sharedRuntime
  unset : s.sharedRuntime = none → s.oks = 0
  decided : ∀ runtime, s.sharedRuntime = some runtime →
    s.oks = 1 ∨ s.oks = 0 ∧ runtime = workerThreadsFromEnv env

theorem promise_of_set {cell cell' : Option Runtime} {call : RuntimeCall} (h : call.promise cell)
    (hset : ∀ runtime, cell = some runtime → cell' = some runtime) : call.promise cell' := by
  cases call with
  | configured workerThreads rc =>
    cases rc with
    | ok => exact ⟨h.1, hset _ h.2⟩
    | _ => trivial
  | got runtime => exact hset runtime h
  | setting workerThreads runtime => exact h
  | _ => trivial

variable {env : Option String}

/-- One call moves. -/
theorem RuntimeInv.setCall {s : Runtimes} (hs : RuntimeInv env s) {k : Nat} {call call' : RuntimeCall}
    {cell' : Option Runtime} {initializing' : Option Nat} (hk : s.calls[k]? = some call)
    (hcall : call.isOk = 0) (hempty : initializing' ≠ none → cell' = none)
    (hbuilding : ∀ j, initializing' = some j ↔ (s.calls.set k call')[j]? = some .building)
    (hset : ∀ runtime, s.sharedRuntime = some runtime → cell' = some runtime)
    (hpromise : call'.promise cell') (hunset : cell' = none → call'.isOk = 0)
    (hdecided : ∀ runtime, cell' = some runtime →
      s.sharedRuntime = some runtime ∧ call'.isOk = 0 ∨ s.sharedRuntime = none ∧
        (call'.isOk = 1 ∨ call'.isOk = 0 ∧ runtime = workerThreadsFromEnv env)) :
    RuntimeInv env ⟨cell', initializing', s.calls.set k call'⟩ := by
  have hoks : total RuntimeCall.isOk (s.calls.set k call') = s.oks + call'.isOk := by
    have htotal := total_set (f := RuntimeCall.isOk) (b := call') hk
    rw [hcall] at htotal
    exact htotal
  have hnone : cell' = none → s.sharedRuntime = none := by
    intro hcell
    cases hshared : s.sharedRuntime with
    | none => rfl
    | some runtime => cases (hset runtime hshared).symm.trans hcell
  refine ⟨hbuilding, hempty, fun c hc => ?_, fun hcell => ?_, fun runtime hcell => ?_⟩
  · rcases List.mem_or_eq_of_mem_set hc with hold | rfl
    · exact promise_of_set (hs.promise c hold) hset
    · exact hpromise
  · show total _ _ = 0
    rw [hoks, hs.unset (hnone hcell), hunset hcell]
  · show total _ _ = 1 ∨ total _ _ = 0 ∧ _
    rw [hoks]
    obtain ⟨hshared, hzero⟩ | ⟨hshared, hnew⟩ := hdecided runtime hcell
    · rw [hzero]
      exact hs.decided runtime hshared
    · rw [hs.unset hshared, Nat.zero_add]
      exact hnew

/-- No call enters or leaves the initializer. -/
theorem RuntimeInv.stays {s : Runtimes} (hs : RuntimeInv env s) {k : Nat} {call call' : RuntimeCall}
    (hk : s.calls[k]? = some call) (hcall : call ≠ .building) (hcall' : call' ≠ .building) (j : Nat) :
    s.initializing = some j ↔ (s.calls.set k call')[j]? = some .building := by
  rw [hs.building j]
  by_cases hj : j = k
  · subst hj
    rw [List.getElem?_set_self (List.getElem?_eq_some_iff.mp hk).1, hk]
    exact iff_of_false (fun h => hcall (Option.some.inj h)) fun h => hcall' (Option.some.inj h)
  · rw [List.getElem?_set_ne (Ne.symm hj)]

/-- A call that leaves the cell as it is. -/
theorem RuntimeInv.keep {s : Runtimes} (hs : RuntimeInv env s) {k : Nat} {call call' : RuntimeCall}
    (hk : s.calls[k]? = some call) (hcall : call.isOk = 0) (hne : call ≠ .building)
    (hcall' : call'.isOk = 0) (hne' : call' ≠ .building) (hpromise : call'.promise s.sharedRuntime) :
    RuntimeInv env (s.setCall k call') :=
  hs.setCall hk hcall hs.empty (hs.stays hk hne hne') (fun _ h => h) hpromise (fun _ => hcall')
    fun _ h => .inl ⟨h, hcall'⟩

/-- The call in the initializer leaves it. -/
theorem RuntimeInv.leaves {s : Runtimes} (hs : RuntimeInv env s) {k : Nat} {call' : RuntimeCall}
    (hk : s.calls[k]? = some .building) (hne' : call' ≠ .building) (j : Nat) :
    none = some j ↔ (s.calls.set k call')[j]? = some .building := by
  refine iff_of_false (Option.some_ne_none j).symm fun h => ?_
  by_cases hj : j = k
  · subst hj
    rw [List.getElem?_set_self (List.getElem?_eq_some_iff.mp hk).1] at h
    exact hne' (Option.some.inj h)
  · rw [List.getElem?_set_ne (Ne.symm hj)] at h
    have hother := (hs.building j).mpr h
    have hself := (hs.building k).mpr hk
    exact hj (Option.some.inj (hother.symm.trans hself))

theorem RuntimeInv.advance {s s' : Runtimes} (hs : RuntimeInv env s) {k : Nat} {call : RuntimeCall}
    (hk : s.calls[k]? = some call) (h : s.advance env k call = some s') : RuntimeInv env s' := by
  cases call with
  | configuring workerThreads =>
    simp only [Runtimes.advance] at h
    split_ifs at h with hpos
    · obtain rfl := Option.some.inj h
      exact hs.keep hk rfl nofun rfl nofun trivial
    · obtain rfl := Option.some.inj h
      have hlt : 0 < workerThreads := by
        by_contra hle
        exact hpos (Int32.not_lt.mp hle)
      exact hs.keep hk rfl nofun rfl nofun ⟨hlt, rfl⟩
  | setting workerThreads runtime =>
    simp only [Runtimes.advance] at h
    split_ifs at h with hfree
    cases hcell : s.sharedRuntime with
    | some other =>
      rw [hcell] at h
      obtain rfl := Option.some.inj h
      exact hs.keep hk rfl nofun rfl nofun trivial
    | none =>
      rw [hcell] at h
      obtain rfl := Option.some.inj h
      obtain ⟨hpos, rfl⟩ := hs.promise _ (List.mem_of_getElem? hk)
      refine hs.setCall hk rfl (fun hne => absurd hne hfree) (hs.stays hk nofun nofun)
        (fun r hr => ?_) ⟨hpos, rfl⟩ nofun fun r _ => .inr ⟨hcell, .inl rfl⟩
      cases hcell.symm.trans hr
  | getting =>
    simp only [Runtimes.advance] at h
    cases hcell : s.sharedRuntime with
    | some runtime =>
      rw [hcell] at h
      obtain rfl := Option.some.inj h
      exact hs.keep hk rfl nofun rfl nofun hcell
    | none =>
      rw [hcell] at h
      simp only at h
      split_ifs at h with hfree
      obtain rfl := Option.some.inj h
      refine hs.setCall hk rfl (fun _ => hcell) (fun j => ?_) (fun _ hr => hr) trivial
        (fun _ => rfl) fun r hr => ?_
      · by_cases hj : j = k
        · subst hj
          rw [List.getElem?_set_self (List.getElem?_eq_some_iff.mp hk).1]
          exact iff_of_true rfl rfl
        · rw [List.getElem?_set_ne (Ne.symm hj), ← hs.building j, not_not.mp hfree]
          exact iff_of_false (fun heq => hj (Option.some.inj heq).symm) (Option.some_ne_none j).symm
      · cases hcell.symm.trans hr
  | building =>
    obtain rfl := Option.some.inj h
    have hcell : s.sharedRuntime = none := by
      refine hs.empty ?_
      rw [(hs.building k).mpr hk]
      exact Option.some_ne_none k
    refine hs.setCall hk rfl (fun hne => absurd rfl hne) (hs.leaves hk nofun) (fun r hr => ?_) rfl
      nofun fun r hr => .inr ⟨hcell, .inr ⟨rfl, (Option.some.inj hr).symm⟩⟩
    cases hcell.symm.trans hr
  | _ => cases h

theorem configuring_fails {s s' : Runtimes} {k : Nat} {workerThreads : Int32}
    (h : s.fail k (.configuring workerThreads) = some s') :
    s' = s.setCall k (.configured workerThreads .pipelineError) := by
  have hfail : (if workerThreads ≤ 0 then none
    else some (s.setCall k (.configured workerThreads .pipelineError))) = some s' := h
  exact (Option.some.inj (Option.ite_none_left_eq_some.mp hfail).2).symm

theorem RuntimeInv.fail {s s' : Runtimes} (hs : RuntimeInv env s) {k : Nat} {call : RuntimeCall}
    (hk : s.calls[k]? = some call) (h : s.fail k call = some s') : RuntimeInv env s' := by
  cases call with
  | configuring workerThreads =>
    obtain rfl := configuring_fails h
    exact hs.keep hk rfl nofun rfl nofun trivial
  | building =>
    obtain rfl := Option.some.inj h
    exact hs.setCall hk rfl (fun hne => absurd rfl hne) (hs.leaves hk nofun) (fun _ hr => hr) trivial
      (fun _ => rfl) fun _ hr => .inl ⟨hr, rfl⟩
  | _ => cases h

/-- A call comes, and knows nothing yet. -/
theorem RuntimeInv.push {s : Runtimes} (hs : RuntimeInv env s) {call : RuntimeCall}
    (hne : call ≠ .building) (hcall : call.isOk = 0) (hpromise : call.promise s.sharedRuntime) :
    RuntimeInv env { s with calls := s.calls ++ [call] } := by
  have hoks : total RuntimeCall.isOk (s.calls ++ [call]) = s.oks := by
    rw [total_append, total_singleton, hcall]
    rfl
  refine ⟨fun j => ?_, hs.empty, fun c hc => ?_, fun hcell => ?_, fun runtime hcell => ?_⟩
  · rw [hs.building j]
    rcases Nat.lt_trichotomy j s.calls.length with hlt | rfl | hgt
    · rw [List.getElem?_append_left hlt]
    · rw [List.getElem?_concat_length, List.getElem?_eq_none (Nat.le_refl _)]
      exact iff_of_false (Option.some_ne_none _).symm fun heq => hne (Option.some.inj heq)
    · have hle : (s.calls ++ [call]).length ≤ j := by
        rw [List.length_append, List.length_singleton]
        exact hgt
      rw [List.getElem?_eq_none hle, List.getElem?_eq_none (Nat.le_of_lt hgt)]
  · rcases List.mem_append.mp hc with hold | hnew
    · exact hs.promise c hold
    · rw [List.mem_singleton.mp hnew]
      exact hpromise
  · exact hoks.trans (hs.unset hcell)
  · show total _ _ = 1 ∨ total _ _ = 0 ∧ _
    rw [hoks]
    exact hs.decided runtime hcell

theorem runtime_inv_step {s s' : Runtimes} {e : RuntimeLabel} (hs : RuntimeInv env s)
    (h : (runtimes env).step s e = some s') : RuntimeInv env s' := by
  cases e with
  | configure workerThreads =>
    obtain rfl := Option.some.inj h
    exact hs.push nofun rfl trivial
  | use =>
    obtain rfl := Option.some.inj h
    exact hs.push nofun rfl trivial
  | advance k =>
    obtain ⟨call, hk, hadvance⟩ := Option.bind_eq_some_iff.mp h
    exact hs.advance hk hadvance
  | fail k =>
    obtain ⟨call, hk, hfail⟩ := Option.bind_eq_some_iff.mp h
    exact hs.fail hk hfail

theorem runtime_inv_new : RuntimeInv env .new :=
  ⟨fun _ => iff_of_false (Option.some_ne_none _).symm (Option.some_ne_none _).symm, fun _ => rfl,
    fun _ hc => (nomatch hc), fun _ => rfl, fun _ h => (nomatch h)⟩

theorem oks_set {s : Runtimes} {k : Nat} {call call' : RuntimeCall} (hk : s.calls[k]? = some call)
    (hcall : call.isOk = 0) (hcall' : call'.isOk = 0) :
    total RuntimeCall.isOk (s.calls.set k call') = s.oks := by
  have htotal := total_set (f := RuntimeCall.isOk) (b := call') hk
  rwa [hcall, hcall'] at htotal

/-- A runtime that is there stays, and no call configures another. -/
theorem runtime_stays {s s' : Runtimes} {e : RuntimeLabel} (hs : RuntimeInv env s)
    (h : (runtimes env).step s e = some s') {runtime : Runtime}
    (hcell : s.sharedRuntime = some runtime) :
    s'.sharedRuntime = some runtime ∧ s'.oks = s.oks := by
  cases e with
  | configure | use =>
    obtain rfl := Option.some.inj h
    refine ⟨hcell, ?_⟩
    show total _ _ = _
    rw [total_append, total_singleton]
    rfl
  | advance k =>
    obtain ⟨call, hk, hadvance⟩ := Option.bind_eq_some_iff.mp h
    cases call with
    | configuring workerThreads =>
      simp only [Runtimes.advance] at hadvance
      split_ifs at hadvance
      all_goals
        obtain rfl := Option.some.inj hadvance
        exact ⟨hcell, oks_set hk rfl rfl⟩
    | setting workerThreads other =>
      simp only [Runtimes.advance, hcell] at hadvance
      split_ifs at hadvance
      obtain rfl := Option.some.inj hadvance
      exact ⟨hcell, oks_set hk rfl rfl⟩
    | getting =>
      simp only [Runtimes.advance, hcell] at hadvance
      obtain rfl := Option.some.inj hadvance
      exact ⟨hcell, oks_set hk rfl rfl⟩
    | building =>
      have hempty : s.sharedRuntime = none := by
        refine hs.empty ?_
        rw [(hs.building k).mpr hk]
        exact Option.some_ne_none k
      cases hcell.symm.trans hempty
    | _ => cases hadvance
  | fail k =>
    obtain ⟨call, hk, hfail⟩ := Option.bind_eq_some_iff.mp h
    cases call with
    | configuring workerThreads =>
      obtain rfl := configuring_fails hfail
      exact ⟨hcell, oks_set hk rfl rfl⟩
    | building =>
      obtain rfl := Option.some.inj hfail
      exact ⟨hcell, oks_set hk rfl rfl⟩
    | _ => cases hfail

theorem exists_of_oks {s : Runtimes} (h : s.oks ≠ 0) :
    ∃ workerThreads, .configured workerThreads .ok ∈ s.calls := by
  by_contra hno
  refine h ?_
  show total _ _ = 0
  have hzero : ∀ calls : List RuntimeCall, (∀ n, .configured n .ok ∉ calls) →
      total RuntimeCall.isOk calls = 0 := by
    intro calls hcalls
    induction calls with
    | nil => rfl
    | cons call calls ih =>
      rw [total_cons, ih fun n hn => hcalls n (List.mem_cons_of_mem _ hn), Nat.add_zero]
      cases call with
      | configured n rc =>
        cases rc with
        | ok => exact absurd List.mem_cons_self (hcalls n)
        | _ => rfl
      | _ => rfl
  exact hzero s.calls fun n hn => hno ⟨n, hn⟩

theorem toNat_pos {n : Int32} (h : 0 < n) : 0 < n.toInt.toNat := by
  have hlt := Int32.lt_iff_toInt_lt.mp h
  rw [Int32.toInt_zero] at hlt
  omega

theorem workerThreadsFromEnv_pos {n : Nat} (h : workerThreadsFromEnv env = some n) : 0 < n := by
  obtain ⟨raw, -, hparse⟩ := Option.bind_eq_some_iff.mp h
  unfold parseWorkerThreads at hparse
  cases hraw : parseUsize raw with
  | none =>
    rw [hraw] at hparse
    cases hparse
  | some m =>
    rw [hraw] at hparse
    simp only at hparse
    split_ifs at hparse with hpos
    exact Option.some.inj hparse ▸ hpos

variable (env) in
/-- Who decides the runtime of the process. -/
structure RuntimeFixed (s : Runtimes) : Prop where
  /-- Every call that uses the runtime uses this one. -/
  shared : ∀ runtime, .got runtime ∈ s.calls → s.sharedRuntime = some runtime
  /-- A call that returned OK configured it, and there is one such call at most. -/
  configured : ∀ workerThreads, .configured workerThreads .ok ∈ s.calls → 0 < workerThreads ∧
    s.sharedRuntime = some (some workerThreads.toInt.toNat) ∧ s.oks = 1
  /-- Without such a call the environment decides, if it asks for a positive number. -/
  environment : ∀ runtime, s.sharedRuntime = some runtime → s.oks = 0 →
    runtime = workerThreadsFromEnv env
  positive : s.sharedRuntime ≠ some (some 0)

theorem RuntimeInv.fixed {s : Runtimes} (hs : RuntimeInv env s) : RuntimeFixed env s where
  shared runtime h := hs.promise _ h
  configured workerThreads h := by
    obtain ⟨hpos, hcell⟩ := hs.promise _ h
    refine ⟨hpos, hcell, ?_⟩
    obtain ⟨k, hk⟩ := List.mem_iff_getElem?.mp h
    have hle : 1 ≤ s.oks := le_total (f := RuntimeCall.isOk) hk
    rcases hs.decided _ hcell with hone | ⟨hzero, -⟩
    · exact hone
    · omega
  environment runtime hcell hzero := by
    rcases hs.decided _ hcell with hone | ⟨-, henv⟩
    · omega
    · exact henv
  positive hcell := by
    rcases hs.decided _ hcell with hone | ⟨-, henv⟩
    · obtain ⟨n, hn⟩ := exists_of_oks (s := s) (by omega)
      obtain ⟨hpos, hn'⟩ := hs.promise _ hn
      have heq := Option.some.inj (Option.some.inj (hcell.symm.trans hn'))
      exact absurd heq (Nat.pos_iff_ne_zero.mp (toNat_pos hpos)).symm
    · exact absurd (workerThreadsFromEnv_pos henv.symm) (Nat.lt_irrefl 0)

/-- **The runtime is fixed once**, whatever calls configure it or use it, in any interleaving and
wherever a builder fails: it never changes, all calls share it, and it is that of the one call that
returned OK or, without one, what the environment asks for. -/
theorem runtime_fixed (env : Option String) (es : List RuntimeLabel) :
    (runtimes env).EachStep (fun s _ s' => RuntimeFixed env s' ∧
      ∀ runtime, s.sharedRuntime = some runtime →
        s'.sharedRuntime = some runtime ∧ s'.oks = s.oks) .new es :=
  (runtimes env).eachStep_of_invariant (I := RuntimeInv env) (fun _ _ _ hs h =>
    ⟨⟨(runtime_inv_step hs h).fixed, fun _ => runtime_stays hs h⟩, runtime_inv_step hs h⟩)
    runtime_inv_new

end Cpex.Ffi
