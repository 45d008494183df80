import Cpex.Infra.Lock
import Cpex.Infra.Simulation
import Cpex.Properties.Respawn
import Cpex.Properties.RespawnBudget

/-!
# A worker that keeps dying

However many invocations find their worker dead, the launches of the plugin draw on one budget: the
shared state asks it an attempt at a time, each grant pays for one launch, and the respawn lock lets
one grant at a time be unspent.

* `asked`, `budgetEvent` — what a step asks of the budget
* `advance_launches` — what a step does to the budget, the processes and the launch ahead of a call
* `plugin_budget` — the budget of a plugin is that of its attempts and successes, in the order of
  the lock
* `respawns_bounded` — a minute without an answer has a bounded number of launches
-/

namespace Cpex.Host.Lifecycle

open Cpex.Infra

variable {T : Types} {σ : Setup T} {c d : CallId} {kind : Kind T} {w w' : World} {phase : Phase T}
  {id : WorkerId} {action : Action} {r : World × Phase T} {s s' m : State T} {l : Label T}

/-! ## What is asked of the budget -/

/-- What a step of a call asks of the budget. A re-check that finds a live worker, an empty slot or
the flag asks nothing. -/
def asked (w : World) (phase : Phase T) (action : Action) : Option BudgetEvent :=
  match phase, action with
  | .rechecking, .recheck now =>
    match w.worker with
    | some id => if (w.client id).alive || w.shutDown then none else some (.attempt now)
    | none => none
  | .answered _ _, .noteHealthy => some .success
  | _, _ => none

/-- What comes of it. -/
def recorded (w : World) (phase : Phase T) (action : Action) : Option BudgetRecord :=
  (asked w phase action).map fun e => (budget.step w.respawn e).2

def budgetEvent (s : State T) : Label T → Option BudgetEvent
  | .act c action => (s.phase? c).bind fun phase => asked s.world phase action
  | _ => none

def budgetRecord (s : State T) (l : Label T) : Option BudgetRecord :=
  (budgetEvent s l).map fun e => (budget.step s.world.respawn e).2

def Action.spawns : Action → Bool
  | .spawn => true
  | _ => false

/-- A call in this phase has a launch ahead of it: of `initialize`, or of a respawn that was
granted. -/
def Phase.launches : Phase T → Bool
  | .backingOff _ _ | .reaping _ | .ensuring | .registering | .spawning => true
  | _ => false

/-- The invocation that a step launches a process for. -/
def respawnedBy (s : State T) : Label T → Option CallId
  | .act c .spawn => if (s.kind? c).any Kind.isInvocation then some c else none
  | _ => none

/-! ## Steps of a call -/

/-- A budget with no attempt has no window. -/
def RespawnState.Idle (r : RespawnState) : Prop := r.attempts = 0 → r = .new

/-- What a step of a call does to the budget, to the processes and to the launch ahead of it. -/
structure Launches (w : World) (phase : Phase T) (action : Action) (r : World × Phase T) :
    Prop where
  budget : r.1.respawn =
    ((asked w phase action).map fun e => (budget.step w.respawn e).1).getD w.respawn
  workers : r.1.workers.length = w.workers.length + action.spawns.toNat
  /-- A launch ahead was there before or is granted, and is spent on a process. -/
  paid : action.spawns.toNat + r.2.launches.toNat ≤
    phase.launches.toNat + ((recorded w phase action).any BudgetRecord.isGrant).toNat

/-- A step that asks nothing and launches nothing. -/
theorem launches_of_quiet (hrespawn : r.1.respawn = w.respawn)
    (hworkers : r.1.workers.length = w.workers.length) (hasked : asked w phase action = none)
    (hspawn : action.spawns = false) (hphase : r.2.launches = true → phase.launches = true) :
    Launches w phase action r where
  budget := by
    rw [hasked]
    exact hrespawn
  workers := by rw [hspawn, hworkers]; rfl
  paid := by
    rw [hspawn]
    cases hr : r.2.launches with
    | false => exact Nat.zero_le _
    | true =>
      rw [hphase hr]
      exact Nat.le_add_right 1 _

@[simp] theorem respawn_unlock : (w.unlock c).respawn = w.respawn := by
  unfold World.unlock
  split <;> rfl

@[simp] theorem respawn_damage {truncated : Bool} : (w.damage truncated).respawn = w.respawn := by
  unfold World.damage
  split <;> rfl

theorem launches_fails {e : HostError} (hrespawn : w'.respawn = w.respawn)
    (hworkers : w'.workers.length = w.workers.length) (hasked : asked w phase action = none)
    (hspawn : action.spawns = false) : Launches w phase action (fails c kind w' e) := by
  refine launches_of_quiet ?_ ?_ hasked hspawn fun h => by cases h
  · show (w'.unlock c).respawn = w.respawn
    rw [respawn_unlock, hrespawn]
  · show (w'.unlock c).workers.length = w.workers.length
    rw [World.workers_unlock, hworkers]

theorem length_workers_modifyClient {f : Client → Client} :
    (w.modifyClient id f).workers.length = w.workers.length := by
  rw [World.modifyClient, List.length_modify]

theorem launches_launch {result : Except HostError Unit} :
    Launches w (.reaping id) (.stopped result) (launch σ c kind (w.stop id)) := by
  have hworkers : (w.stop id).workers.length = w.workers.length := length_workers_modifyClient
  unfold launch
  split
  · exact launches_of_quiet rfl hworkers rfl rfl fun _ => rfl
  · split
    · exact launches_of_quiet rfl hworkers rfl rfl fun _ => rfl
    · exact launches_fails rfl hworkers rfl rfl

theorem launches_spawned : Launches w .spawning .spawn (spawned σ w) := by
  have hspawn : ∀ phase' : Phase T, phase'.launches = false →
      Launches w .spawning .spawn (w.spawn, phase') := by
    intro phase' hphase
    refine ⟨rfl, ?_, ?_⟩
    · show (w.workers ++ [Client.spawned]).length = w.workers.length + 1
      rw [List.length_append, List.length_singleton]
    · show 1 + phase'.launches.toNat ≤ 1 + _
      rw [hphase]
      exact Nat.le_add_right 1 _
  unfold spawned
  dsimp only
  split
  · exact hspawn _ rfl
  · exact hspawn _ rfl

theorem launches_verified {reply : Except HostError Json} :
    Launches w (.verifying id) (.answer reply) (verified σ c kind w id reply) := by
  have hworkers : (w.record id reply).workers.length = w.workers.length :=
    length_workers_modifyClient
  unfold verified
  dsimp only
  split
  · exact launches_of_quiet rfl hworkers rfl rfl fun h => by cases h
  · exact launches_of_quiet rfl hworkers rfl rfl fun h => by cases h
  · exact launches_fails rfl hworkers rfl rfl

theorem launches_install : Launches w (.installing id) .install (install c kind w id) := by
  unfold install
  split
  · split
    · exact launches_of_quiet rfl rfl rfl rfl fun h => by cases h
    · exact launches_of_quiet (by simp) (by simp) rfl rfl fun h => by cases h
  · exact launches_of_quiet rfl rfl rfl rfl fun h => by cases h

theorem launches_acquire : Launches w .acquiring .acquire (acquire c kind w) := by
  unfold acquire
  split
  · split
    · exact launches_of_quiet rfl rfl rfl rfl fun h => by cases h
    · exact launches_of_quiet rfl rfl rfl rfl fun h => by cases h
  · exact launches_fails rfl rfl rfl rfl

/-- A re-check that gets past the worker and the flag makes an attempt, and goes on where it is
granted. -/
theorem launches_recheck {now : Nat} :
    Launches w .rechecking (.recheck now) (recheck c kind w now) := by
  cases hslot : w.worker with
  | none =>
    have hasked : asked w (.rechecking : Phase T) (.recheck now) = none := by
      simp only [asked, hslot]
    unfold recheck
    rw [hslot]
    exact launches_fails rfl rfl hasked rfl
  | some dead =>
    cases halive : (w.client dead).alive with
    | true =>
      have hasked : asked w (.rechecking : Phase T) (.recheck now) = none := by
        simp [asked, hslot, halive]
      unfold recheck
      simp only [hslot, halive, if_true]
      exact launches_of_quiet respawn_unlock (by simp) hasked rfl fun h => by cases h
    | false =>
      cases hflag : w.shutDown with
      | true =>
        have hasked : asked w (.rechecking : Phase T) (.recheck now) = none := by
          simp [asked, hslot, hflag]
        unfold recheck
        simp only [hslot, halive, hflag, Bool.false_eq_true, if_false, if_true]
        exact launches_fails rfl rfl hasked rfl
      | false =>
        have hasked : asked w (.rechecking : Phase T) (.recheck now) = some (.attempt now) := by
          simp [asked, hslot, halive, hflag]
        obtain ⟨respawn, attempt, hreserve⟩ : ∃ respawn attempt,
            w.respawn.tryReserve now = (respawn, attempt) := ⟨_, _, rfl⟩
        unfold recheck
        simp only [hslot, halive, hflag, hreserve, Bool.false_eq_true, if_false]
        cases attempt with
        | some number =>
          have hstep : budget.step w.respawn (.attempt now) = (respawn, .granted now number) := by
            show w.respawn.attempt now = _
            rw [RespawnState.attempt, hreserve]
          refine ⟨?_, rfl, ?_⟩
          · rw [hasked, Option.map_some, hstep]
            rfl
          · unfold recorded
            rw [hasked, Option.map_some, hstep]
            exact Nat.le_refl 1
        | none =>
          have hstep : budget.step w.respawn (.attempt now) = (respawn, .refused now) := by
            show w.respawn.attempt now = _
            rw [RespawnState.attempt, hreserve]
          refine ⟨?_, ?_, Nat.zero_le _⟩
          · rw [hasked, Option.map_some, hstep]
            exact respawn_unlock
          · exact congrArg List.length World.workers_unlock

theorem launches_serve {call : Call T} :
    Launches w (.serving id) .serve (serve w call id) := by
  unfold serve
  dsimp only
  split
  · exact launches_of_quiet rfl length_workers_modifyClient rfl rfl fun h => by cases h
  · exact launches_of_quiet rfl rfl rfl rfl fun h => by cases h

theorem launches_dispatch {call : Call T} {refusal : Option HostError} :
    Launches w (.dispatching id) (.dispatch refusal) (dispatch σ c kind w call id refusal) := by
  unfold dispatch
  split
  · exact launches_fails rfl rfl rfl rfl
  · exact launches_fails rfl rfl rfl rfl
  · exact launches_of_quiet rfl rfl rfl rfl fun h => by cases h

theorem launches_releaseOwner {result : Except HostError Unit}
    (hrespawn : w'.respawn = w.respawn) (hworkers : w'.workers.length = w.workers.length)
    (hasked : asked w phase action = none) (hspawn : action.spawns = false) :
    Launches w phase action (w', releaseOwner σ result) := by
  refine launches_of_quiet hrespawn hworkers hasked hspawn fun h => ?_
  unfold releaseOwner at h
  split at h
  · cases h
  · cases h

theorem asked_cancel : asked w phase .cancel = none := by
  cases phase <;> rfl

theorem launches_dropped (h : dropped c w phase = some r) : Launches w phase .cancel r := by
  unfold dropped at h
  split at h
  · cases h
  · cases h
  · cases h
  · obtain rfl := Option.some.inj h
    exact launches_of_quiet respawn_unlock (by simp) rfl rfl fun h => by cases h
  · obtain rfl := Option.some.inj h
    exact launches_of_quiet rfl rfl rfl rfl fun h => by cases h
  · obtain rfl := Option.some.inj h
    exact launches_of_quiet respawn_unlock (by simp) asked_cancel rfl fun h => by cases h

/-- **Every step of a call**, as the budget sees it. -/
theorem advance_launches (hidle : w.respawn.Idle) (h : advance σ c kind w phase action = some r) :
    Launches w phase action r := by
  have hsome : ∀ {r' : World × Phase T}, Launches w phase action r' → some r' = some r →
      Launches w phase action r := fun hr' hr => Option.some.inj hr ▸ hr'
  unfold advance at h
  split at h
  -- `launch_worker`
  · exact hsome (launches_fails rfl rfl rfl rfl) h
  · exact hsome (launches_of_quiet rfl rfl rfl rfl fun _ => rfl) h
  · exact hsome (launches_fails (by simp) (by simp) rfl rfl) h
  · exact hsome (launches_of_quiet rfl rfl rfl rfl fun _ => rfl) h
  · exact hsome (launches_fails rfl rfl rfl rfl) h
  · exact hsome launches_spawned h
  -- the rest of `initialize` and of `respawn_worker`
  · exact hsome launches_verified h
  · exact hsome launches_install h
  · split at h
    · refine hsome ?_ h
      exact launches_fails rfl length_workers_modifyClient rfl rfl
    · cases h
  -- `worker` and `respawn_worker`
  · exact hsome launches_acquire h
  · split at h
    · refine hsome ?_ h
      exact launches_of_quiet rfl rfl rfl rfl fun h => by cases h
    · cases h
  · exact hsome launches_recheck h
  · split at h
    · exact hsome (launches_fails rfl rfl rfl rfl) h
    · exact hsome (launches_of_quiet rfl rfl rfl rfl fun _ => rfl) h
  · split at h
    · exact hsome launches_launch h
    · cases h
  -- `invoke`
  · split at h
    · exact hsome launches_serve h
    · cases h
  · refine hsome ?_ h
    exact launches_of_quiet rfl length_workers_modifyClient rfl rfl fun h => by cases h
  · split at h
    · exact hsome launches_dispatch h
    · cases h
  · exact hsome (launches_fails rfl rfl rfl rfl) h
  · exact hsome (launches_of_quiet rfl rfl rfl rfl fun h => by cases h) h
  · split at h
    · split at h
      · refine hsome ⟨?_, rfl, Nat.zero_le _⟩ h
        -- With nothing spent, returning the budget to full changes nothing.
        show w.respawn.noteHealthy = .new
        unfold RespawnState.noteHealthy
        split
        · rfl
        · exact hidle (by omega)
      · cases h
    · cases h
  -- `shutdown`
  · dsimp only at h
    split at h
    · exact hsome (launches_of_quiet rfl rfl rfl rfl fun h => by cases h) h
    · refine hsome ?_ h
      exact launches_releaseOwner rfl rfl rfl rfl
  · split at h
    · refine hsome ?_ h
      exact launches_releaseOwner rfl length_workers_modifyClient rfl rfl
    · cases h
  · exact hsome (launches_of_quiet rfl rfl rfl rfl fun h => by cases h) h
  · exact hsome (launches_of_quiet (by simp) (by simp) rfl rfl fun h => by cases h) h
  -- work that outlived its call
  · next op =>
    cases op <;> exact hsome (launches_of_quiet rfl rfl rfl rfl fun h => by cases h) h
  · exact hsome (launches_of_quiet (by simp) (by simp) rfl rfl fun h => by cases h) h
  · exact launches_dropped h
  · cases h

/-! ## Steps of the plugin -/

/-- What the runs of a plugin keep, whatever the order of its calls: the calls stand where their
kind can, the invocation on the way of a respawn holds the lock, and an idle budget is full. -/
structure Budgeted (s : State T) : Prop where
  fits : ∀ (d : CallId) (x : Entry T), s.calls[d]? = some x → x.phase.fits x.kind = true
  lock : ∀ (d : CallId) (x : Entry T), s.calls[d]? = some x → x.kind.isInvocation = true →
    x.phase.locked = true → s.world.respawnLock = some d
  idle : s.world.respawn.Idle

theorem budgeted_fresh (owners : Venv.OwnersFile) : Budgeted (.fresh owners : State T) where
  fits := fun _ _ h => by simp [State.fresh] at h
  lock := fun _ _ h => by simp [State.fresh] at h
  idle := fun _ => rfl

/-- After an attempt something is spent. -/
theorem attempts_pos (b : RespawnState) (now : Nat) : 0 < (b.attempt now).1.attempts := by
  have hfst : (b.attempt now).1 = (b.tryReserve now).1 := by
    unfold RespawnState.attempt
    split <;> simp_all
  rw [hfst]
  unfold RespawnState.tryReserve
  dsimp only
  generalize (if b.expired now = true then RespawnState.new else b) = b'
  split
  · next hspent => exact Nat.lt_of_lt_of_le (by decide) hspent
  · exact Nat.succ_pos _

theorem idle_budget (b : RespawnState) (e : BudgetEvent) : (budget.step b e).1.Idle := by
  cases e with
  | attempt now => exact fun hzero => absurd hzero (Nat.ne_of_gt (attempts_pos b now))
  | success => exact fun _ => rfl

theorem begins_respawn : (begins σ c kind w).1.respawn = w.respawn := by
  cases kind with
  | initializes =>
    show (launch σ c (.initializes : Kind T) { w with shutDown := false }).1.respawn = w.respawn
    unfold launch
    split
    · rfl
    · split
      · rfl
      · exact respawn_unlock
  | invokes call => rfl
  | shutsDown => rfl

variable {entry : Entry T}

theorem Launches.idle (h : Launches w phase action r) (hidle : w.respawn.Idle) :
    r.1.respawn.Idle := by
  rw [h.budget]
  cases asked w phase action with
  | none => exact hidle
  | some e => exact idle_budget w.respawn e

theorem Budgeted.same (h : Budgeted s) (hcalls : s'.calls = s.calls)
    (hlock : s'.world.respawnLock = s.world.respawnLock)
    (hrespawn : s'.world.respawn = s.world.respawn) : Budgeted s' where
  fits := by
    rw [hcalls]
    exact h.fits
  lock := by
    rw [hcalls, hlock]
    exact h.lock
  idle := hrespawn ▸ h.idle

theorem budgeted_begun (h : Budgeted s) :
    Budgeted (s.begun kind (begins σ s.calls.length kind s.world)) where
  fits := by
    intro d x hx
    rcases getElem?_begun hx with ⟨rfl, rfl⟩ | ⟨-, hold⟩
    · exact begins_fits
    · exact h.fits d x hold
  lock := by
    intro d x hx hinv hlocked
    rcases getElem?_begun hx with ⟨-, rfl⟩ | ⟨hd, hold⟩
    · have hfree : (begins σ s.calls.length kind s.world).2.locked = false := begins_locked hinv
      rw [hfree] at hlocked
      cases hlocked
    · exact begins_lock (Nat.ne_of_lt hd) (h.lock d x hold hinv hlocked)
  idle := by
    show (begins σ s.calls.length kind s.world).1.respawn.Idle
    rw [begins_respawn]
    exact h.idle

theorem budgeted_stepped (h : Budgeted s) (hentry : s.calls[c]? = some entry)
    (hadvance : advance σ c entry.kind s.world entry.phase action = some r) :
    Budgeted (s.stepped c entry.kind r) where
  fits := by
    intro d x hx
    rcases getElem?_stepped hentry hx with ⟨rfl, rfl⟩ | ⟨-, hold⟩
    · exact (advance_moves hadvance).fits (h.fits d entry hentry)
    · exact h.fits d x hold
  lock := by
    intro d x hx hinv hlocked
    have hway := advance_respawns hadvance
    rcases getElem?_stepped hentry hx with ⟨rfl, rfl⟩ | ⟨hdc, hold⟩
    · exact hway.locked hlocked (h.lock d entry hentry hinv)
    · exact hway.others d hdc (h.lock d x hold hinv hlocked)
  idle := (advance_launches h.idle hadvance).idle h.idle

theorem budgeted_step (h : Budgeted s) (hs : step σ s l = some s') : Budgeted s' := by
  rcases step_cases hs with ⟨kind, rfl, rfl⟩ | ⟨c, action, entry, r, rfl, hentry, hadvance, rfl⟩ |
    ⟨id, rfl, rfl⟩ | ⟨owners, rfl, rfl⟩
  · exact budgeted_begun h
  · exact budgeted_stepped h hentry hadvance
  · exact h.same rfl rfl rfl
  · exact h.same rfl rfl rfl

/-- What a step asks, it asks the budget of the state it is taken from. -/
theorem respawn_step (h : Budgeted s) (hs : step σ s l = some s') :
    s'.world.respawn =
      ((budgetEvent s l).map fun e => (budget.step s.world.respawn e).1).getD s.world.respawn := by
  rcases step_cases hs with ⟨kind, rfl, rfl⟩ | ⟨c, action, entry, r, rfl, hentry, hadvance, rfl⟩ |
    ⟨id, rfl, rfl⟩ | ⟨owners, rfl, rfl⟩
  · exact begins_respawn
  · have hphase : s.phase? c = some entry.phase := by rw [State.phase?, hentry]; rfl
    rw [budgetEvent, hphase]
    exact (advance_launches h.idle hadvance).budget
  · rfl
  · rfl

/--
**The budget of a plugin is kept by its calls in turn.** Whatever the schedule, the state the calls
share went through the attempts of the re-checks and the successes of the answers one at a time, and
each re-check was answered as the budget answered it.
-/
theorem plugin_budget (owners : Venv.OwnersFile) (es : List (Label T))
    (h : (plugin σ).run (.fresh owners) es = some s') :
    s'.world.respawn = budget.after .new ((plugin σ).seen budgetEvent (.fresh owners) es) ∧
    (plugin σ).seen budgetRecord (.fresh owners) es =
      budget.outputs .new ((plugin σ).seen budgetEvent (.fresh owners) es) :=
  (plugin σ).seen_outputs budget (fun _ _ _ hb hs => ⟨budgeted_step hb hs, respawn_step hb hs⟩)
    (budgeted_fresh owners) h

/-! ## Launches ahead -/

/-- How many calls of a kind have a launch ahead. -/
def State.ahead (s : State T) (k : Kind T → Bool) : Nat :=
  s.calls.countP fun e => k e.kind && e.phase.launches

/-- How many calls of a kind have begun. -/
def State.count (s : State T) (k : Kind T → Bool) : Nat := s.calls.countP fun e => k e.kind

variable {k : Kind T → Bool}

theorem ahead_le_count : s.ahead k ≤ s.count k :=
  List.countP_mono_left fun _ _ h => (Bool.and_eq_true_iff.mp h).1

theorem ahead_stepped (hentry : s.calls[c]? = some entry) :
    (s.stepped c entry.kind r).ahead k + (k entry.kind && entry.phase.launches).toNat =
      s.ahead k + (k entry.kind && r.2.launches).toNat :=
  countP_set_add (fun e : Entry T => k e.kind && e.phase.launches) hentry

theorem count_stepped (hentry : s.calls[c]? = some entry) :
    (s.stepped c entry.kind r).count k = s.count k :=
  Nat.add_right_cancel (countP_set_add (fun e => k e.kind) hentry)

theorem ahead_begun : (s.begun kind r).ahead k = s.ahead k + (k kind && r.2.launches).toNat := by
  unfold State.ahead State.begun
  rw [List.countP_append, List.countP_singleton]
  cases k kind && r.2.launches <;> rfl

theorem count_begun : (s.begun kind r).count k = s.count k + (k kind).toNat := by
  unfold State.count State.begun
  rw [List.countP_append, List.countP_singleton]
  cases k kind <;> rfl

/-- One invocation at a time has a launch ahead: it holds the lock. -/
theorem Budgeted.ahead_le_one (h : Budgeted s) : s.ahead Kind.isInvocation ≤ 1 := by
  refine countP_le_one fun i j x y hx hy hpx hpy => ?_
  have hlocked : ∀ {x : Entry T}, (x.kind.isInvocation && x.phase.launches) = true →
      x.kind.isInvocation = true ∧ x.phase.locked = true := by
    intro x hpx
    obtain ⟨hinv, hlaunches⟩ := Bool.and_eq_true_iff.mp hpx
    refine ⟨hinv, ?_⟩
    cases hphase : x.phase <;> rw [hphase] at hlaunches <;> first | rfl | cases hlaunches
  have hi := h.lock i x hx (hlocked hpx).1 (hlocked hpx).2
  have hj := h.lock j y hy (hlocked hpy).1 (hlocked hpy).2
  exact Option.some.inj (hi.symm.trans hj)

/-! ## What launches draw on -/

theorem advance_spawn (h : advance σ c kind w phase action = some r)
    (hspawn : action.spawns = true) : phase = .spawning ∧ action = .spawn := by
  cases action with
  | spawn =>
    cases phase with
    | spawning => exact ⟨rfl, rfl⟩
    | _ => cases h
  | _ => cases hspawn

theorem phase?_of_getElem? (hentry : s.calls[c]? = some entry) :
    s.phase? c = some entry.phase := by
  rw [State.phase?, hentry]
  rfl

theorem kind?_of_getElem? (hentry : s.calls[c]? = some entry) :
    s.kind? c = some entry.kind := by
  rw [State.kind?, hentry]
  rfl

theorem budgetRecord_act (hentry : s.calls[c]? = some entry) :
    budgetRecord s (.act c action) = recorded s.world entry.phase action := by
  rw [budgetRecord, budgetEvent, phase?_of_getElem? hentry]
  rfl

theorem length_respawnedBy (hentry : s.calls[c]? = some entry) :
    (respawnedBy s (.act c action)).toList.length =
      (entry.kind.isInvocation && action.spawns).toNat := by
  cases action with
  | spawn =>
    simp only [respawnedBy, kind?_of_getElem? hentry, Option.any_some]
    cases entry.kind.isInvocation <;> rfl
  | _ => simp [respawnedBy, Action.spawns]

theorem length_filter_toList {p : BudgetRecord → Bool} {x : Option BudgetRecord} :
    (x.filter p).toList.length = (x.any p).toNat := by
  cases x with
  | none => rfl
  | some x =>
    rw [Option.filter_some, Option.any_some]
    cases p x <;> rfl

/-- **A respawn is paid for by a grant.** -/
theorem respawn_paid (h : Budgeted s) (hs : step σ s l = some s') :
    (respawnedBy s l).toList.length + s'.ahead Kind.isInvocation ≤ s.ahead Kind.isInvocation +
      ((budgetRecord s l).filter BudgetRecord.isGrant).toList.length := by
  rcases step_cases hs with ⟨kind, rfl, rfl⟩ | ⟨c, action, entry, r, rfl, hentry, hadvance, rfl⟩ |
    ⟨id, rfl, rfl⟩ | ⟨owners, rfl, rfl⟩
  · have hnone : (kind.isInvocation &&
        (begins σ s.calls.length kind s.world).2.launches) = false := by
      cases kind <;> rfl
    rw [ahead_begun, hnone]
    exact Nat.le_of_eq (Nat.zero_add _)
  · have hpaid := (advance_launches h.idle hadvance).paid
    have hahead := ahead_stepped (k := Kind.isInvocation) (r := r) hentry
    rw [length_respawnedBy hentry, length_filter_toList, budgetRecord_act hentry]
    cases hinv : entry.kind.isInvocation with
    | false =>
      rw [hinv] at hahead
      simp only [Bool.false_and, Bool.toNat_false] at hahead ⊢
      omega
    | true =>
      rw [hinv] at hahead
      simp only [Bool.true_and] at hahead ⊢
      omega
  · exact Nat.le_of_eq (Nat.zero_add _)
  · exact Nat.le_of_eq (Nat.zero_add _)

/-- Only an invocation asks the budget. -/
theorem recorded_of_starts (hfits : phase.fits kind = true) (hstarts : kind.starts = true) :
    recorded w phase action = none := by
  cases kind with
  | initializes => cases phase <;> first | rfl | cases hfits
  | invokes call => cases hstarts
  | shutsDown => cases hstarts

/-- A `shutdown` launches nothing. -/
theorem spawns_of_stops (h : advance σ c kind w phase action = some r)
    (hfits : phase.fits kind = true) (hstops : kind.stops = true) : action.spawns = false := by
  cases hspawn : action.spawns with
  | false => rfl
  | true =>
    rw [(advance_spawn h hspawn).1, Phase.fits, hstops] at hfits
    cases hfits

/-- **A launch is that of a respawn or of an `initialize`**, which launches once. -/
theorem launch_paid (h : Budgeted s) (hs : step σ s l = some s') :
    s'.world.workers.length + s'.ahead Kind.starts + s.count Kind.starts ≤
      s.world.workers.length + s.ahead Kind.starts + s'.count Kind.starts +
        (respawnedBy s l).toList.length := by
  rcases step_cases hs with ⟨kind, rfl, rfl⟩ | ⟨c, action, entry, r, rfl, hentry, hadvance, rfl⟩ |
    ⟨id, rfl, rfl⟩ | ⟨owners, rfl, rfl⟩
  · have hworkers : (s.begun kind (begins σ s.calls.length kind s.world)).world.workers =
        s.world.workers := begins_worker.2
    rw [hworkers, ahead_begun, count_begun]
    cases kind.starts with
    | false => exact Nat.le_add_right _ _
    | true =>
      have hle := Bool.toNat_le (begins σ s.calls.length kind s.world).2.launches
      simp only [Bool.true_and, Bool.toNat_true]
      omega
  · have hlaunches := advance_launches h.idle hadvance
    have hworkers : (s.stepped c entry.kind r).world.workers.length =
        s.world.workers.length + action.spawns.toNat := hlaunches.workers
    have hahead := ahead_stepped (k := Kind.starts) (r := r) hentry
    have hfits := h.fits c entry hentry
    rw [hworkers, count_stepped hentry, length_respawnedBy hentry]
    cases hkind : entry.kind with
    | invokes call =>
      have hstarts : entry.kind.starts = false := by rw [hkind]; rfl
      have hinv : (Kind.invokes call : Kind T).isInvocation = true := rfl
      rw [hstarts] at hahead
      rw [← hkind] at hinv ⊢
      simp only [hinv, Bool.false_and, Bool.true_and, Bool.toNat_false] at hahead ⊢
      omega
    | initializes =>
      have hstarts : entry.kind.starts = true := by rw [hkind]; rfl
      have hpaid := hlaunches.paid
      rw [recorded_of_starts hfits hstarts] at hpaid
      rw [← hkind]
      simp only [hstarts, Bool.true_and, Option.any_none, Bool.toNat_false] at hahead hpaid
      omega
    | shutsDown =>
      have hstarts : entry.kind.starts = false := by rw [hkind]; rfl
      have hnone := spawns_of_stops hadvance hfits (by rw [hkind]; rfl)
      rw [hstarts] at hahead
      rw [← hkind, hnone]
      simp only [Bool.false_and, Bool.toNat_false] at hahead ⊢
      omega
  · have hworkers : (s.world.modifyClient id fun k => { k with alive := false }).workers.length =
        s.world.workers.length := length_workers_modifyClient
    rw [hworkers]
    exact Nat.le_refl _
  · exact Nat.le_refl _

/-! ## A minute without an answer -/

/-- The stretch has no healthy answer, and its clock readings are within less than the reset. -/
structure Unanswered (es : List (Label T)) : Prop where
  answers : ∀ c, .act c .noteHealthy ∉ es
  clock : ∀ c now d now', .act c (.recheck now) ∈ es → .act d (.recheck now') ∈ es →
    now' < now + windowNanos

theorem asked_cases {e : BudgetEvent} (h : asked w phase action = some e) :
    (action = .noteHealthy ∧ e = .success) ∨ ∃ now, action = .recheck now ∧ e = .attempt now := by
  unfold asked at h
  split at h
  · next now =>
    split at h
    · split at h
      · cases h
      · exact .inr ⟨now, rfl, (Option.some.inj h).symm⟩
    · cases h
  · exact .inl ⟨rfl, (Option.some.inj h).symm⟩
  · cases h

/-- What is recorded of a step comes of its label. -/
theorem budgetRecord_cases {x : BudgetRecord} (h : budgetRecord s l = some x) :
    (∃ c, l = .act c .noteHealthy) ∨ ∃ c now, l = .act c (.recheck now) ∧ x.reading = some now := by
  obtain ⟨e, he, rfl⟩ := Option.map_eq_some_iff.mp h
  cases l with
  | act c action =>
    obtain ⟨phase, -, hasked⟩ := Option.bind_eq_some_iff.mp he
    rcases asked_cases hasked with ⟨rfl, rfl⟩ | ⟨now, rfl, rfl⟩
    · exact .inl ⟨c, rfl⟩
    · exact .inr ⟨c, now, rfl, reading_attempt s.world.respawn now⟩
  | _ => cases he

variable {before stretch : List (Label T)}

/-- What is recorded in such a stretch are attempts within less than the reset. -/
theorem Unanswered.recorded (h : Unanswered stretch) :
    .success ∉ (plugin σ).seen budgetRecord m stretch ∧
    Short ((plugin σ).seen budgetRecord m stretch) := by
  have hattempt : ∀ x ∈ (plugin σ).seen budgetRecord m stretch,
      ∃ c now, Label.act c (.recheck now) ∈ stretch ∧ x.reading = some now := by
    intro x hx
    obtain ⟨l, hl, s, hrecord⟩ := (plugin σ).exists_of_mem_seen budgetRecord hx
    rcases budgetRecord_cases hrecord with ⟨c, rfl⟩ | ⟨c, now, rfl, hreading⟩
    · exact absurd hl (h.answers c)
    · exact ⟨c, now, hl, hreading⟩
  constructor
  · intro hx
    obtain ⟨c, now, -, hreading⟩ := hattempt _ hx
    cases hreading
  · intro x hx y hy t t' ht ht'
    obtain ⟨c, now, hc, hnow⟩ := hattempt x hx
    obtain ⟨d, now', hd, hnow'⟩ := hattempt y hy
    obtain rfl : now = t := Option.some.inj (hnow.symm.trans ht)
    obtain rfl : now' = t' := Option.some.inj (hnow'.symm.trans ht')
    exact h.clock c now d now' hc hd

theorem budgeted_run (owners : Venv.OwnersFile)
    (h : (plugin σ).run (.fresh owners) before = some m) : Budgeted m :=
  (plugin σ).run_preserves (fun _ _ _ hb hs => budgeted_step hb hs) (budgeted_fresh owners) h

/-- The grants of the stretch, by the budget. -/
theorem grants_stretch (owners : Venv.OwnersFile)
    (hbefore : (plugin σ).run (.fresh owners) before = some m)
    (hstretch : (plugin σ).run m stretch = some s') (hunanswered : Unanswered stretch) :
    grants ((plugin σ).seen budgetRecord m stretch) ≤ 2 * maxRespawnAttempts - 1 := by
  have hhistory := (plugin_budget owners _ ((plugin σ).run_append hbefore hstretch)).2
  rw [(plugin σ).seen_append budgetRecord hbefore] at hhistory
  have hcut : budget.outputs .new
      ((plugin σ).seen budgetEvent (.fresh owners) (before ++ stretch)) =
        (plugin σ).seen budgetRecord (.fresh owners) before ++
          ((plugin σ).seen budgetRecord m stretch ++ []) := by
    rw [List.append_nil]
    exact hhistory.symm
  obtain ⟨hsuccess, hshort⟩ := hunanswered.recorded (σ := σ) (m := m)
  exact grants_short hcut hsuccess hshort

/--
**A worker that keeps dying is launched a bounded number of times.** In any stretch of a run that is
shorter than the reset of the budget and has no healthy answer, the invocations launch two budgets
of processes at most, however many they are; every other launch is that of an `initialize`.
-/
theorem respawns_bounded (owners : Venv.OwnersFile)
    (hbefore : (plugin σ).run (.fresh owners) before = some m)
    (hstretch : (plugin σ).run m stretch = some s') (hunanswered : Unanswered stretch) :
    ((plugin σ).seen respawnedBy m stretch).length ≤ 2 * maxRespawnAttempts ∧
    s'.world.workers.length ≤
      m.world.workers.length + s'.count Kind.starts + 2 * maxRespawnAttempts := by
  have hm := budgeted_run owners hbefore
  have hgrants := grants_stretch owners hbefore hstretch hunanswered
  have hmax : maxRespawnAttempts = 3 := rfl
  have hpaid : ∀ s l s', Budgeted s → (plugin σ).step s l = some s' → Budgeted s' ∧
      ((respawnedBy s l).toList.length : Int) + (s'.ahead Kind.isInvocation : Int) ≤
        (s.ahead Kind.isInvocation : Int) +
          ((budgetRecord s l).filter BudgetRecord.isGrant).toList.length := by
    intro s l s' hb hs
    have hstep := respawn_paid hb hs
    exact ⟨budgeted_step hb hs, by omega⟩
  have hrespawns := (plugin σ).length_seen_le hpaid hm hstretch
  rw [(plugin σ).seen_filter] at hrespawns
  have hbound : ((plugin σ).seen respawnedBy m stretch).length ≤ 2 * maxRespawnAttempts := by
    have hone := hm.ahead_le_one
    unfold grants at hgrants
    omega
  refine ⟨hbound, ?_⟩
  have hlaunched : ∀ s l s', Budgeted s → (plugin σ).step s l = some s' → Budgeted s' ∧
      ((none : Option Unit).toList.length : Int) +
          ((s'.world.workers.length : Int) + s'.ahead Kind.starts - s'.count Kind.starts) ≤
        ((s.world.workers.length : Int) + s.ahead Kind.starts - s.count Kind.starts) +
          (respawnedBy s l).toList.length := by
    intro s l s' hb hs
    have hstep := launch_paid hb hs
    refine ⟨budgeted_step hb hs, ?_⟩
    rw [Option.toList_none, List.length_nil]
    omega
  have hlaunches := (plugin σ).length_seen_le hlaunched hm hstretch
  have hahead : m.ahead Kind.starts ≤ m.count Kind.starts := ahead_le_count
  omega

/-- A worker dies, and the next invocation respawns it. -/
def dyingSteps (c : CallId) (now : Nat) (dead : WorkerId) : List (Label Plain.types) :=
  [.die dead, .call (.invokes resolveCall), .act c .acquire, .act c .lockRespawn,
    .act c (.recheck now), .act c .wake, .act c (.stopped (.ok ()))] ++
  launchSteps c credentialReply

/-- Three workers die, and the fourth is not replaced. -/
def stormSteps : List (Label Plain.types) :=
  dyingSteps 1 0 0 ++ dyingSteps 2 1 1 ++ dyingSteps 3 2 2 ++
  [.die 3, .call (.invokes resolveCall), .act 4 .acquire, .act 4 .lockRespawn, .act 4 (.recheck 3)]

theorem unanswered_storm : Unanswered stormSteps where
  answers := by simp [stormSteps, dyingSteps, launchSteps]
  clock := by
    intro c now d now' h h'
    simp [stormSteps, dyingSteps, launchSteps] at h h'
    have hnow : now' ≤ 3 := by omega
    have hwindow : 3 < windowNanos := by decide
    omega

def initializeSteps : List (Label Plain.types) :=
  [.call .initializes] ++ launchSteps 0 credentialReply

/-- The state in which the plugin has a worker. -/
def initialized : State Plain.types :=
  ((plugin resolverSetup).run (.fresh .absent) initializeSteps).getD (.fresh .absent)

/-- Four invocations find their worker dead, and three of them replace it. -/
theorem respawns_bounded_storm : ∃ s',
    (plugin resolverSetup).run initialized stormSteps = some s' ∧ s'.world.workers.length = 4 ∧
    ((plugin resolverSetup).seen respawnedBy initialized stormSteps).length ≤
      2 * maxRespawnAttempts ∧
    s'.world.workers.length ≤
      initialized.world.workers.length + s'.count Kind.starts + 2 * maxRespawnAttempts := by
  have hbefore : (plugin resolverSetup).run (.fresh .absent) initializeSteps = some initialized :=
    rfl
  have hstretch : ∃ s', (plugin resolverSetup).run initialized stormSteps = some s' ∧
      s'.world.workers.length = 4 := ⟨_, rfl, rfl⟩
  obtain ⟨s', hs, hworkers⟩ := hstretch
  exact ⟨s', hs, hworkers, respawns_bounded .absent hbefore hs unanswered_storm⟩

end Cpex.Host.Lifecycle
