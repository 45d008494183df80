import Mathlib.Data.List.Perm.Basic
import Cpex.Properties.Handshake

/-!
# Claims on the venv

A launch registers the plugin as an owner of its venv, and only `shutdown` gives the claim up. A
claim is *covered* while a worker is installed, or while a call is on its way to install one or to
give the claim up.

* `leavesClaim` — the steps that end a call and leave its claim registered
* `Claimed` — the invariant: a registered class is covered
* `advance_keeps` — what a step of one call does to the claim
* `owners_released` — the registry is not stale after a run that leaves no claim uncovered
* `uncovered_claim_stale` — a claim left uncovered by the last call is stale
-/

namespace Cpex.Host.Lifecycle

open Cpex.Infra

variable {T : Types} {σ : Setup T} {c : CallId} {kind : Kind T} {w w' : World}
  {phase phase' : Phase T} {id : WorkerId}

/-! ## Conditions on the steps -/

/-- The plugin's class is in the registry. -/
def Registered (σ : Setup T) (w : World) : Prop := σ.plugin.className ∈ w.owners.load

instance (σ : Setup T) (w : World) : Decidable (Registered σ w) :=
  inferInstanceAs (Decidable (σ.plugin.className ∈ w.owners.load))

/-- A call in this phase is on its way to install a worker or to give the claim up. -/
def Phase.covers : Phase T → Bool
  | .spawning | .verifying _ | .installing _ | .stoppingUnused _ _ => true
  | .takingSlot | .stoppingWorker _ | .releasing _ | .detached .release => true
  | _ => false

/-- A call in this phase has yet to register the class. -/
def Phase.registers : Phase T → Bool
  | .ensuring | .registering | .detached .register => true
  | _ => false

/-- The call ends with neither a worker installed nor the claim given up. -/
def givesUp (σ : Setup T) : Kind T → Phase T → Action → Bool
  | _, .spawning, .launchFails _ => true
  | .invokes _, .verifying _, .answer _ => false
  | _, .verifying _, .answer reply => !(σ.verifyWorkerUnderstands reply).toBool
  | _, .stoppingUnused _ _, .stopped _ => true
  | _, .spawning, .cancel | _, .verifying _, .cancel | _, .installing _, .cancel
  | _, .stoppingUnused _ _, .cancel | _, .takingSlot, .cancel | _, .stoppingWorker _, .cancel =>
    true
  | _, _, _ => false

/-- A call gives up after the registration, or registers after its caller dropped it. -/
def leavesClaim (σ : Setup T) (w : World) (kind : Kind T) (phase : Phase T) (action : Action) :
    Bool :=
  match phase, action with
  | .detached .register, .registryWrites => true
  | _, _ => decide (Registered σ w) && givesUp σ kind phase action

/-- The write that gives the claim up fails. -/
def releaseFails : Phase T → Action → Bool
  | .releasing _, .registryFails _ _ | .detached .release, .registryFails _ _ => true
  | _, _ => false

/-- Another call covers the claim. -/
def coveredByOthers (s : State T) (c : CallId) : Bool :=
  (s.calls.eraseIdx c).any fun entry => entry.phase.covers

/-- The registry's release writes succeed, and a call that leaves a claim behind leaves it to an
installed worker or to another call. -/
def claimKept (σ : Setup T) (s : State T) : Label T → Bool
  | .act c action =>
    match s.calls[c]? with
    | some entry =>
      !releaseFails entry.phase action &&
        (!leavesClaim σ s.world entry.kind entry.phase action || s.world.worker.isSome ||
          coveredByOthers s c)
    | none => true
  | _ => true

/-! ## A step of one call -/

/-- What a step of a call does to the claim. -/
structure Keeps (σ : Setup T) (w : World) (phase : Phase T) (r : World × Phase T) : Prop where
  /-- The class is covered after the step, unless it was registered and not covered before. -/
  covered : Registered σ r.1 → r.1.worker ≠ none ∨ r.2.covers = true ∨
    (Registered σ w ∧ w.worker = none ∧ phase.covers = false)
  registered : Registered σ r.1 → Registered σ w ∨ phase.registers = true
  registers : r.2.registers = true → phase.registers = true ∨ σ.venvResolved = true

/-- A call that covers the claim after the step. -/
theorem keeps_of_covers {r : World × Phase T} (hcovers : r.2.covers = true)
    (hregistered : Registered σ r.1 → Registered σ w ∨ phase.registers = true)
    (hregisters : r.2.registers = false) : Keeps σ w phase r where
  covered := fun _ => .inr (.inl hcovers)
  registered := hregistered
  registers := by
    intro h
    rw [hregisters] at h
    cases h

/-- A step that leaves the registry and the slot alone, by a call that did not cover the claim. -/
theorem keeps_of_quiet {r : World × Phase T} (howners : Registered σ r.1 → Registered σ w)
    (hslot : r.1.worker = w.worker) (hcovers : phase.covers = false)
    (hregisters : r.2.registers = true → phase.registers = true ∨ σ.venvResolved = true) :
    Keeps σ w phase r where
  covered := by
    intro h
    by_cases hworker : w.worker = none
    · exact .inr (.inr ⟨howners h, hworker, hcovers⟩)
    · exact .inl (hslot ▸ hworker)
  registered := fun h => .inl (howners h)
  registers := hregisters

/-- A step after which the class is not registered. -/
theorem keeps_of_unregistered {r : World × Phase T} (hnot : ¬Registered σ r.1)
    (hregisters : r.2.registers = false) : Keeps σ w phase r where
  covered := fun h => absurd h hnot
  registered := fun h => absurd h hnot
  registers := by
    intro h
    rw [hregisters] at h
    cases h

theorem registered_unlock : Registered σ (w.unlock c) ↔ Registered σ w := by
  unfold Registered
  rw [World.owners_unlock]

/-- A truncated registry holds nobody. -/
theorem registered_damage {truncated : Bool} (h : Registered σ (w.damage truncated)) :
    Registered σ w := by
  unfold World.damage at h
  split at h
  · exact absurd h (Finset.notMem_empty _)
  · exact h

theorem not_registered_release : ¬Registered σ (applyRegistry σ w .release) := by
  unfold Registered applyRegistry World.release
  rw [Venv.load_release]
  exact Finset.notMem_erase _ _

theorem registered_register : Registered σ (applyRegistry σ w .register) := by
  unfold Registered applyRegistry World.register
  rw [Venv.load_register]
  exact Finset.mem_insert_self _ _

theorem keeps_fails {e : HostError} (howners : Registered σ w' → Registered σ w)
    (hslot : w'.worker = w.worker) (hcovers : phase.covers = false) :
    Keeps σ w phase (fails c kind w' e) :=
  keeps_of_quiet (fun h => howners (registered_unlock.mp h)) (by simp [fails, hslot]) hcovers
    fun h => by cases h

/-- A call whose class is not registered leaves no claim when it fails. -/
theorem keeps_fails_unregistered {e : HostError} (hnot : ¬Registered σ w') :
    Keeps σ w phase (fails c kind w' e) :=
  keeps_of_unregistered (mt registered_unlock.mp hnot) rfl

theorem keeps_launch (howners : Registered σ w' → Registered σ w) (hslot : w'.worker = w.worker)
    (hcovers : phase.covers = false) : Keeps σ w phase (launch σ c kind w') := by
  unfold launch
  split
  · exact keeps_of_quiet howners hslot hcovers fun h => by cases h
  · split
    · next hvenv => exact keeps_of_quiet howners hslot hcovers fun _ => .inr hvenv
    · exact keeps_fails howners hslot hcovers

theorem keeps_spawned : Keeps σ w phase (spawned σ w) := by
  unfold spawned
  dsimp only
  split
  · exact keeps_of_covers rfl .inl rfl
  · exact keeps_of_covers rfl .inl rfl

/-- A launch whose handshake passes goes on; one that fails goes on to stop its process, unless it
gives up. -/
theorem keeps_verified {reply : Except HostError Json}
    (hkept : leavesClaim σ w kind (.verifying id) (.answer reply) = false) :
    Keeps σ w (.verifying id) (verified σ c kind w id reply) := by
  unfold verified
  dsimp only
  cases hreply : σ.verifyWorkerUnderstands reply with
  | ok u => exact keeps_of_covers rfl .inl rfl
  | error e =>
    have hfails : givesUp σ kind (.verifying id) (.answer reply) = true →
        Keeps σ w (.verifying id) (fails c kind (w.record id reply) e) := by
      intro hgives
      have hnot : ¬Registered σ w := by simpa [leavesClaim, hgives] using hkept
      exact keeps_fails_unregistered hnot
    cases kind with
    | initializes => exact hfails (by simp [givesUp, hreply, Except.toBool])
    | invokes call => exact keeps_of_covers rfl .inl rfl
    | shutsDown => exact hfails (by simp [givesUp, hreply, Except.toBool])

theorem keeps_install : Keeps σ w (.installing id) (install c kind w id) := by
  unfold install
  split
  · split
    · exact keeps_of_covers rfl .inl rfl
    · exact
        { covered := fun _ => .inl (by simp)
          registered := fun h =>
            .inl ((registered_unlock (w := { w with worker := some id })).mp h)
          registers := fun h => by cases h }
  · exact
      { covered := fun _ => .inl (Option.some_ne_none _)
        registered := .inl
        registers := fun h => by cases h }

theorem keeps_acquire : Keeps σ w .acquiring (acquire c kind w : World × Phase T) := by
  unfold acquire
  split
  · split
    · exact keeps_of_quiet id rfl rfl fun h => by cases h
    · exact keeps_of_quiet id rfl rfl fun h => by cases h
  · exact keeps_fails id rfl rfl

theorem keeps_recheck {now : Nat} :
    Keeps σ w .rechecking (recheck c kind w now : World × Phase T) := by
  unfold recheck
  split
  · split
    · exact keeps_of_quiet registered_unlock.mp (by simp) rfl fun h => by cases h
    · split
      · exact keeps_fails id rfl rfl
      · dsimp only
        split
        · exact keeps_of_quiet id rfl rfl fun h => by cases h
        · exact keeps_fails id rfl rfl
  · exact keeps_fails id rfl rfl

theorem keeps_serve {call : Call T} : Keeps σ w (.serving id) (serve w call id) := by
  unfold serve
  dsimp only
  split
  · exact keeps_of_quiet (fun h => h) rfl rfl fun h => by cases h
  · exact keeps_of_quiet (fun h => h) rfl rfl fun h => by cases h

theorem keeps_dispatch {call : Call T} {refusal : Option HostError} :
    Keeps σ w (.dispatching id) (dispatch σ c kind w call id refusal) := by
  unfold dispatch
  split
  · exact keeps_fails (fun h => h) rfl rfl
  · exact keeps_fails (fun h => h) rfl rfl
  · exact keeps_of_quiet (fun h => h) rfl rfl fun h => by cases h

/-- The way to the end of a shutdown covers the claim, where there is a venv to claim. -/
theorem keeps_releaseOwner {result : Except HostError Unit}
    (hvenv : Registered σ w → σ.venvResolved = true) (howners : w'.owners = w.owners) :
    Keeps σ w phase (w', releaseOwner σ result) := by
  have hregistered : Registered σ w' → Registered σ w := by
    unfold Registered
    rw [howners]
    exact fun h => h
  unfold releaseOwner
  split
  · exact keeps_of_covers rfl (fun h => .inl (hregistered h)) rfl
  · next hnone =>
    exact
      { covered := fun h => absurd (hvenv (hregistered h)) hnone
        registered := fun h => .inl (hregistered h)
        registers := fun h => by cases h }

/-- A call that is dropped gives up what it covered, unless its release is on the blocking pool. -/
theorem keeps_dropped {r : World × Phase T} (h : dropped c w phase = some r)
    (hkept : leavesClaim σ w kind phase .cancel = false) : Keeps σ w phase r := by
  have hback : Registered σ (w.unlock c) → Registered σ w := registered_unlock.mp
  have hslot : (w.unlock c).worker = w.worker := World.worker_unlock
  have hgives : givesUp σ kind phase .cancel = true →
      Keeps σ w phase (w.unlock c, (.cancelled : Phase T)) := by
    intro hgives
    have hnot : ¬Registered σ w := by
      cases phase <;> simpa [leavesClaim, hgives] using hkept
    exact keeps_of_unregistered (mt hback hnot) rfl
  cases phase with
  | finished outcome => cases h
  | cancelled => cases h
  | detached op => cases h
  | registering =>
    obtain rfl := Option.some.inj h
    exact keeps_of_quiet hback hslot rfl fun _ => .inl rfl
  | releasing result =>
    obtain rfl := Option.some.inj h
    exact keeps_of_covers rfl .inl rfl
  | spawning | verifying _ | installing _ | stoppingUnused _ _ | takingSlot | stoppingWorker _ =>
    obtain rfl := Option.some.inj h
    exact hgives (by cases kind <;> rfl)
  | ensuring | acquiring | lockingRespawn | rechecking | backingOff _ _ | reaping _ | serving _
  | probing _ | dispatching _ | awaitingReply _ _ | answered _ _ =>
    obtain rfl := Option.some.inj h
    exact keeps_of_quiet hback hslot rfl fun h => by cases h

/-- **Every step of a call** that leaves no claim behind, with release writes succeeding. -/
theorem advance_keeps {action : Action} {r : World × Phase T}
    (hvenv : Registered σ w → σ.venvResolved = true)
    (hkept : leavesClaim σ w kind phase action = false)
    (hrelease : releaseFails phase action = false)
    (h : advance σ c kind w phase action = some r) : Keeps σ w phase r := by
  have hsome : ∀ {r' : World × Phase T}, Keeps σ w phase r' → some r' = some r →
      Keeps σ w phase r := fun hr' hr => Option.some.inj hr ▸ hr'
  unfold advance at h
  split at h
  -- `launch_worker`
  · exact hsome (keeps_fails (fun h => h) rfl rfl) h
  · exact hsome (keeps_of_quiet (fun h => h) rfl rfl fun _ => .inl rfl) h
  · exact hsome (keeps_fails registered_damage (by simp) rfl) h
  · exact hsome (keeps_of_covers rfl (fun _ => .inr rfl) rfl) h
  · next e =>
    have hnot : ¬Registered σ w := by simpa [leavesClaim, givesUp] using hkept
    exact hsome (keeps_fails_unregistered hnot) h
  · exact hsome keeps_spawned h
  -- the rest of `initialize` and of `respawn_worker`
  · exact hsome (keeps_verified hkept) h
  · exact hsome keeps_install h
  · next id e r =>
    split at h
    · have hnot : ¬Registered σ w := by simpa [leavesClaim, givesUp] using hkept
      have hstopped : ¬Registered σ (w.stop id) := hnot
      exact hsome (keeps_fails_unregistered hstopped) h
    · cases h
  -- `worker` and `respawn_worker`
  · exact hsome keeps_acquire h
  · split at h
    · exact hsome (keeps_of_quiet (fun h => h) rfl rfl fun h => by cases h) h
    · cases h
  · exact hsome keeps_recheck h
  · split at h
    · exact hsome (keeps_fails (fun h => h) rfl rfl) h
    · exact hsome (keeps_of_quiet (fun h => h) rfl rfl fun h => by cases h) h
  · split at h
    · refine hsome ?_ h
      exact keeps_launch (fun h => h) rfl rfl
    · cases h
  -- `invoke`
  · split at h
    · exact hsome keeps_serve h
    · cases h
  · exact hsome (keeps_of_quiet (fun h => h) rfl rfl fun h => by cases h) h
  · split at h
    · exact hsome keeps_dispatch h
    · cases h
  · exact hsome (keeps_fails (fun h => h) rfl rfl) h
  · exact hsome (keeps_of_quiet (fun h => h) rfl rfl fun h => by cases h) h
  · split at h
    · split at h
      · exact hsome (keeps_of_quiet (fun h => h) rfl rfl fun h => by cases h) h
      · cases h
    · cases h
  -- `shutdown`
  · dsimp only at h
    split at h
    · exact hsome (keeps_of_covers rfl .inl rfl) h
    · refine hsome ?_ h
      exact keeps_releaseOwner hvenv rfl
  · split at h
    · refine hsome ?_ h
      exact keeps_releaseOwner hvenv rfl
    · cases h
  · exact hsome (keeps_of_unregistered not_registered_release rfl) h
  · cases hrelease
  -- work that outlived its call
  · next op =>
    cases op with
    | register => cases hkept
    | release => exact hsome (keeps_of_unregistered not_registered_release rfl) h
  · next op _ _ =>
    cases op with
    | register =>
      exact hsome (keeps_of_quiet registered_damage (by simp) rfl fun h => by cases h) h
    | release => cases hrelease
  · exact keeps_dropped h hkept
  · cases h

/-! ## A claim left behind -/

/-- What is left of a call that leaves its claim behind. -/
structure Leaves (σ : Setup T) (w : World) (r : World × Phase T) : Prop where
  slot : r.1.worker = w.worker
  ended : r.2.ended = true
  registered : Registered σ r.1

theorem leaves_fails {e : HostError} (h : Registered σ w) (hslot : w'.worker = w.worker)
    (howners : w'.owners = w.owners) : Leaves σ w (fails c kind w' e) where
  slot := by simp [fails, hslot]
  ended := rfl
  registered := by
    refine registered_unlock.mpr ?_
    unfold Registered
    rw [howners]
    exact h

theorem leaves_cancelled (h : Registered σ w) :
    Leaves σ w (w.unlock c, (.cancelled : Phase T)) where
  slot := World.worker_unlock
  ended := rfl
  registered := registered_unlock.mpr h

theorem registered_of_leavesClaim {action : Action}
    (h : leavesClaim σ w kind phase action = true) : Registered σ w ∨ phase.registers = true := by
  unfold leavesClaim at h
  split at h
  · exact .inr rfl
  · rw [Bool.and_eq_true, decide_eq_true_iff] at h
    exact .inl h.1

/-- A step that leaves a claim behind ends its call, with the class registered. -/
theorem advance_leaves {action : Action} {r : World × Phase T}
    (hleaves : leavesClaim σ w kind phase action = true)
    (h : advance σ c kind w phase action = some r) : Leaves σ w r := by
  unfold leavesClaim at hleaves
  split at hleaves
  · obtain rfl := Option.some.inj h
    exact ⟨rfl, rfl, registered_register⟩
  · obtain ⟨hreg, hgives⟩ : Registered σ w ∧ givesUp σ kind phase action = true := by
      simpa using hleaves
    unfold givesUp at hgives
    split at hgives
    · obtain rfl := Option.some.inj h
      exact leaves_fails hreg rfl rfl
    · cases hgives
    · next id reply hkind _ =>
      obtain rfl := Option.some.inj h
      unfold verified
      dsimp only
      cases hreply : σ.verifyWorkerUnderstands reply with
      | ok u => simp [hreply, Except.toBool] at hgives
      | error e =>
        cases kind with
        | initializes => exact leaves_fails hreg rfl rfl
        | invokes call => exact absurd rfl (hkind call)
        | shutsDown => exact leaves_fails hreg rfl rfl
    · simp only [advance] at h
      split at h
      · obtain rfl := Option.some.inj h
        exact leaves_fails hreg rfl rfl
      · cases h
    · obtain rfl := Option.some.inj h
      exact leaves_cancelled hreg
    · obtain rfl := Option.some.inj h
      exact leaves_cancelled hreg
    · obtain rfl := Option.some.inj h
      exact leaves_cancelled hreg
    · obtain rfl := Option.some.inj h
      exact leaves_cancelled hreg
    · obtain rfl := Option.some.inj h
      exact leaves_cancelled hreg
    · obtain rfl := Option.some.inj h
      exact leaves_cancelled hreg
    · cases hgives

/-- A call that ended neither registers the class nor covers it. -/
theorem quiet_of_ended (h : phase.ended = true) :
    phase.registers = false ∧ phase.covers = false := by
  cases phase with
  | finished _ | cancelled => exact ⟨rfl, rfl⟩
  | ensuring | registering | spawning | verifying _ | installing _ | stoppingUnused _ _ | acquiring
  | lockingRespawn | rechecking | backingOff _ _ | reaping _ | serving _ | probing _
  | dispatching _ | awaitingReply _ _ | answered _ _ | takingSlot | stoppingWorker _ | releasing _
  | detached _ => cases h

/-! ## Runs -/

theorem keeps_begins : Keeps σ w (.acquiring : Phase T) (begins σ c kind w) := by
  cases kind with
  | initializes => exact keeps_launch (fun h => h) rfl rfl
  | invokes call => exact keeps_of_quiet (fun h => h) rfl rfl fun h => by cases h
  | shutsDown => exact keeps_of_covers rfl .inl rfl

/-- The invariant: a registered class is covered, and only a plugin with a venv registers. -/
structure Claimed (σ : Setup T) (s : State T) : Prop where
  covered : Registered σ s.world →
    s.world.worker ≠ none ∨ (s.calls.any fun entry => entry.phase.covers) = true
  venv : Registered σ s.world → σ.venvResolved = true
  registers : ∀ entry ∈ s.calls, entry.phase.registers = true → σ.venvResolved = true

variable {s s' : State T}

theorem claimed_fresh {owners : Venv.OwnersFile} (h : σ.plugin.className ∉ owners.load) :
    Claimed σ (.fresh owners) where
  covered := fun hreg => absurd hreg h
  venv := fun hreg => absurd hreg h
  registers := fun _ hentry => by cases hentry

/-- The calls before and after a step of call `c`: the one that steps, and the others. -/
theorem any_covers_set {entry : Entry T} (hentry : s.calls[c]? = some entry) (entry' : Entry T) :
    (s.calls.any fun e => e.phase.covers) = (entry.phase.covers || coveredByOthers s c) ∧
    ((s.calls.set c entry').any fun e => e.phase.covers) =
      (entry'.phase.covers || coveredByOthers s c) := by
  obtain ⟨hc, rfl⟩ := List.getElem?_eq_some_iff.mp hentry
  constructor
  · rw [← (List.getElem_cons_eraseIdx_perm hc).any_eq, List.any_cons]
    rfl
  · rw [(List.set_perm_cons_eraseIdx hc entry').any_eq, List.any_cons]
    rfl

theorem claimed_act {action : Action} {entry : Entry T} {r : World × Phase T}
    (h : Claimed σ s) (hentry : s.calls[c]? = some entry)
    (hok : claimKept σ s (.act c action) = true)
    (hadvance : advance σ c entry.kind s.world entry.phase action = some r) :
    Claimed σ ⟨r.1, s.calls.set c { entry with phase := r.2 }⟩ := by
  have hmem : entry ∈ s.calls := List.mem_of_getElem? hentry
  have hset := any_covers_set hentry { entry with phase := r.2 }
  simp only [claimKept, hentry, Bool.and_eq_true, Bool.not_eq_true', Bool.or_eq_true] at hok
  obtain ⟨hrelease, hkept⟩ := hok
  have hsame : ∀ e ∈ s.calls.set c { entry with phase := r.2 }, e.phase.registers = true →
      e ∈ s.calls ∨ r.2.registers = true := by
    intro e he hregisters
    rcases List.mem_or_eq_of_mem_set he with hold | rfl
    · exact .inl hold
    · exact .inr hregisters
  have hvenv : Registered σ s.world ∨ entry.phase.registers = true → σ.venvResolved = true := by
    intro hsource
    rcases hsource with hreg | hregisters
    · exact h.venv hreg
    · exact h.registers entry hmem hregisters
  cases hleaves : leavesClaim σ s.world entry.kind entry.phase action with
  | false =>
    have hkeeps := advance_keeps h.venv hleaves hrelease hadvance
    refine ⟨fun hreg => ?_, fun hreg => hvenv (hkeeps.registered hreg), fun e he hregisters => ?_⟩
    · rcases hkeeps.covered hreg with hslot | hcovers | ⟨hold, hslot, hcovers⟩
      · exact .inl hslot
      · exact .inr (by rw [hset.2, hcovers, Bool.true_or])
      · -- Somebody covered the class before, and it was not this call.
        rcases h.covered hold with hworker | hany
        · exact absurd hslot hworker
        · rw [hset.1, hcovers, Bool.false_or] at hany
          exact .inr (by rw [hset.2, hany, Bool.or_true])
    · rcases hsame e he hregisters with hold | hnew
      · exact h.registers e hold hregisters
      · rcases hkeeps.registers hnew with hbefore | hresolved
        · exact h.registers entry hmem hbefore
        · exact hresolved
  | true =>
    have hend := advance_leaves hleaves hadvance
    refine ⟨fun _ => ?_, fun _ => hvenv (registered_of_leavesClaim hleaves),
      fun e he hregisters => ?_⟩
    · rcases hkept with (hfalse | hslot) | hothers
      · rw [hleaves] at hfalse
        cases hfalse
      · exact .inl (by rw [hend.slot]; exact Option.isSome_iff_ne_none.mp hslot)
      · exact .inr (by rw [hset.2, hothers, Bool.or_true])
    · rcases hsame e he hregisters with hold | hnew
      · exact h.registers e hold hregisters
      · rw [(quiet_of_ended hend.ended).1] at hnew
        cases hnew

/-- **Every step that meets the conditions keeps the invariant.** -/
theorem claimed_step {l : Label T} (h : Claimed σ s) (hok : claimKept σ s l = true)
    (hs : step σ s l = some s') : Claimed σ s' := by
  cases l with
  | call kind =>
    obtain rfl := Option.some.inj hs
    have hkeeps : Keeps σ s.world _ (begins σ s.calls.length kind s.world) := keeps_begins
    have hold : Registered σ (begins σ s.calls.length kind s.world).1 → Registered σ s.world :=
      fun hreg => (hkeeps.registered hreg).resolve_right (by simp [Phase.registers])
    refine ⟨fun hreg => ?_, fun hreg => h.venv (hold hreg), fun e he hregisters => ?_⟩
    · show _ ∨ ((s.calls ++ [_]).any _) = true
      rw [List.any_append, Bool.or_eq_true, List.any_cons, Bool.or_eq_true]
      rcases hkeeps.covered hreg with hslot | hcovers | ⟨hbefore, hslot, -⟩
      · exact .inl hslot
      · exact .inr (.inr (.inl hcovers))
      · exact .inr (.inl ((h.covered hbefore).resolve_left (absurd hslot)))
    · rcases List.mem_append.mp he with hmem | hnew
      · exact h.registers e hmem hregisters
      · obtain rfl := List.mem_singleton.mp hnew
        exact (hkeeps.registers hregisters).resolve_left (by simp [Phase.registers])
  | act c action =>
    simp only [step] at hs
    split at hs
    · next entry hentry =>
      obtain ⟨r, hadvance, rfl⟩ := Option.map_eq_some_iff.mp hs
      exact claimed_act h hentry hok hadvance
    · cases hs
  | die id =>
    obtain rfl := Option.some.inj hs
    exact ⟨h.covered, h.venv, h.registers⟩
  | coOwner owners =>
    simp only [step] at hs
    split at hs
    · next hsame =>
      obtain rfl := Option.some.inj hs
      exact
        { covered := fun hreg => h.covered (hsame.mp hreg)
          venv := fun hreg => h.venv (hsame.mp hreg)
          registers := h.registers }
    · cases hs

/-- None of the plugin's calls is in progress. -/
def State.Quiescent (s : State T) : Prop := ∀ entry ∈ s.calls, entry.phase.ended = true

instance (s : State T) : Decidable s.Quiescent := by
  unfold State.Quiescent
  infer_instance

/--
**The owner registry is not stale.** In every run of `initialize`, `invoke` and `shutdown` calls
whose release writes succeed and in which a call that leaves a claim behind leaves it to an
installed worker or to another call that covers it, a state with no call in progress and no worker
installed has the plugin's class out of the registry.
-/
theorem owners_released (σ : Setup T) {owners : Venv.OwnersFile} {es : List (Label T)}
    (hfresh : σ.plugin.className ∉ owners.load)
    (hok : (plugin σ).Meets (fun s l => claimKept σ s l = true) (.fresh owners) es)
    (hrun : (plugin σ).run (.fresh owners) es = some s) (hquiescent : s.Quiescent)
    (hslot : s.world.worker = none) : σ.plugin.className ∉ s.world.owners.load := by
  have hclaimed : Claimed σ s := (plugin σ).run_invariant
    (fun _ _ _ hI hstep hs => claimed_step hI hstep hs) (claimed_fresh hfresh) hok hrun
  intro hreg
  rcases hclaimed.covered hreg with hworker | hany
  · exact hworker hslot
  · obtain ⟨entry, hentry, hcovers⟩ := List.any_eq_true.mp hany
    rw [(quiet_of_ended (hquiescent entry hentry)).2] at hcovers
    cases hcovers

/-- The plugin starts and its worker dies. While an invocation respawns it, the plugin shuts down,
and the respawn finds the flag and stops the process it launched. -/
def shutdownDuringRespawnSteps : List (Label Plain.types) :=
  [.call .initializes] ++ launchSteps 0 credentialReply ++
  [.die 0, .call (.invokes resolveCall), .act 1 .acquire, .act 1 .lockRespawn, .act 1 (.recheck 0),
    .act 1 .wake, .act 1 (.stopped (.ok ())), .act 1 .ensured, .act 1 .registryWrites, .act 1 .spawn,
    .call .shutsDown, .act 2 .takeSlot, .act 2 (.stopped (.ok ())), .act 2 .registryWrites,
    .act 1 (.answer (.ok credentialReply)), .act 1 .install, .act 1 (.stopped (.ok ()))]

def shutDownDuringRespawn : State Plain.types :=
  ((plugin resolverSetup).run (.fresh .absent) shutdownDuringRespawnSteps).getD (.fresh .absent)

theorem owners_released_during_respawn :
    shutDownDuringRespawn.Quiescent ∧
    resolverSetup.plugin.className ∉ shutDownDuringRespawn.world.owners.load := by
  have hrun : (plugin resolverSetup).run (.fresh .absent) shutdownDuringRespawnSteps =
      some shutDownDuringRespawn := rfl
  have hquiescent : shutDownDuringRespawn.Quiescent := by decide
  exact ⟨hquiescent, owners_released resolverSetup (Finset.notMem_empty _) (by decide) hrun
    hquiescent rfl⟩

/-- **A worker that fails the handshake leaves the plugin registered**, for good. -/
theorem failed_initialize_stays_registered :
    resolverSetup.plugin.className ∉ Venv.OwnersFile.absent.load ∧
    ∃ s, (plugin resolverSetup).run (.fresh .absent) [.call .initializes, .act 0 .ensured,
        .act 0 .registryWrites, .act 0 .spawn, .act 0 (.answer (.ok (.object [])))] = some s ∧
      s.Quiescent ∧ s.world.worker = none ∧
      resolverSetup.plugin.className ∈ s.world.owners.load := by
  refine ⟨by decide, _, rfl, ?_, rfl, ?_⟩
  · decide
  · decide

/-- A claim that the last call in progress leaves behind is stale. -/
theorem uncovered_claim_stale {action : Action} {entry : Entry T}
    (hentry : s.calls[c]? = some entry)
    (hleaves : leavesClaim σ s.world entry.kind entry.phase action = true)
    (hslot : s.world.worker = none)
    (hothers : ∀ other ∈ s.calls.eraseIdx c, other.phase.ended = true)
    (hs : step σ s (.act c action) = some s') :
    s'.Quiescent ∧ s'.world.worker = none ∧ σ.plugin.className ∈ s'.world.owners.load := by
  simp only [step, hentry] at hs
  obtain ⟨r, hadvance, rfl⟩ := Option.map_eq_some_iff.mp hs
  have hend := advance_leaves hleaves hadvance
  have hc : c < s.calls.length := (List.getElem?_eq_some_iff.mp hentry).1
  refine ⟨fun e he => ?_, hend.slot.trans hslot, hend.registered⟩
  rcases List.mem_cons.mp ((List.set_perm_cons_eraseIdx hc _).mem_iff.mp he) with rfl | hother
  · exact hend.ended
  · exact hothers e hother

end Cpex.Host.Lifecycle
