import Cpex.Properties.Handshake

/-!
# Steps of the lifecycle

What one step of one call does to the flag and the slot, to the processes, and to the respawn
lock, said once for the invariants over whole runs.

* `advance_moves` — the flag stays, and the slot changes only where it is taken or installed
* `advance_handles` — which process a call holds, and what became of the one it launched
* `advance_respawns` — the way of a respawn, from its re-check to its installation
* `step_cases` — the steps of the plugin, and where its calls stand afterwards
-/

namespace Cpex.Host.Lifecycle

open Cpex.Infra

variable {T : Types} {σ : Setup T} {c : CallId} {kind : Kind T} {w w' : World}
  {phase phase' : Phase T} {id : WorkerId} {action : Action} {r : World × Phase T}

/-! ## Kinds and phases -/

/-- The call is an `initialize`. -/
def Kind.starts : Kind T → Bool
  | .initializes => true
  | _ => false

/-- The call is a `shutdown`. -/
def Kind.stops : Kind T → Bool
  | .shutsDown => true
  | _ => false

/-- The engine has its answer, or dropped the call. -/
def Phase.isOver : Phase T → Bool
  | .finished _ | .cancelled | .detached _ => true
  | _ => false

/-- A call in this phase launched this process and has neither installed nor stopped it. -/
def Phase.launched? : Phase T → Option WorkerId
  | .verifying id | .installing id | .stoppingUnused id _ => some id
  | _ => none

/-- The process a call in this phase holds. -/
def Phase.holds? : Phase T → Option WorkerId
  | .verifying id | .installing id | .stoppingUnused id _ | .backingOff id _ | .reaping id
  | .serving id | .probing id | .dispatching id | .awaitingReply id _ | .stoppingWorker id =>
    some id
  | _ => none

/-- The kind of a call. -/
def State.kind? (s : State T) (d : CallId) : Option (Kind T) := (s.calls[d]?).map Entry.kind

/-- Where a call stands. -/
def State.phase? (s : State T) (d : CallId) : Option (Phase T) := (s.calls[d]?).map Entry.phase

def State.Starts (s : State T) (d : CallId) : Prop := (s.kind? d).any Kind.starts = true

def State.Stops (s : State T) (d : CallId) : Prop := (s.kind? d).any Kind.stops = true

/-! ## The flag and the slot -/

/-- Whether a call of this kind can stand in this phase. -/
def Phase.fits : Phase T → Kind T → Bool
  | .ensuring, k | .registering, k | .spawning, k | .verifying _, k | .installing _, k => !k.stops
  | .takingSlot, k | .stoppingWorker _, k | .releasing _, k | .detached .release, k => k.stops
  | .finished _, _ | .cancelled, _ => true
  | .detached .register, k => !k.stops
  | _, k => !(k.starts || k.stops)

/-- How a step may change the slot. -/
inductive SlotStep (kind : Kind T) (w : World) : Phase T → Action → Option WorkerId → Prop where
  | keep (phase : Phase T) (action : Action) : SlotStep kind w phase action w.worker
  | take : SlotStep kind w .takingSlot .takeSlot none
  /-- An invocation installs only while the flag is clear. -/
  | install (id : WorkerId) (hflag : ∀ call, kind = .invokes call → w.shutDown = false) :
    SlotStep kind w (.installing id) .install (some id)

/-- What a step of a call does to the flag and the slot. -/
structure Moves (kind : Kind T) (w : World) (phase : Phase T) (action : Action)
    (r : World × Phase T) : Prop where
  flag : r.1.shutDown = w.shutDown
  slot : SlotStep kind w phase action r.1.worker
  isOver : phase.isOver = true → r.2.isOver = true
  fits : phase.fits kind = true → r.2.fits kind = true

theorem moves_of_keep (hflag : r.1.shutDown = w.shutDown) (hslot : r.1.worker = w.worker)
    (hover : phase.isOver = false) (hfits : phase.fits kind = true → r.2.fits kind = true) :
    Moves kind w phase action r where
  flag := hflag
  slot := hslot ▸ .keep phase action
  isOver := by
    intro h
    rw [hover] at h
    cases h
  fits := hfits

@[simp] theorem shutDown_unlock : (w.unlock c).shutDown = w.shutDown := by
  unfold World.unlock
  split <;> rfl

@[simp] theorem shutDown_damage {truncated : Bool} :
    (w.damage truncated).shutDown = w.shutDown := by
  unfold World.damage
  split <;> rfl

theorem moves_fails {e : HostError} (hflag : w'.shutDown = w.shutDown)
    (hslot : w'.worker = w.worker) (hover : phase.isOver = false) :
    Moves kind w phase action (fails c kind w' e) :=
  moves_of_keep (by simp [fails, hflag]) (by simp [fails, hslot]) hover fun _ => rfl

theorem moves_launch (hflag : w'.shutDown = w.shutDown) (hslot : w'.worker = w.worker)
    (hover : phase.isOver = false) (hfits : phase.fits kind = true → kind.stops = false) :
    Moves kind w phase action (launch σ c kind w') := by
  have hlaunch : phase.fits kind = true → (!kind.stops) = true := fun h => by rw [hfits h]; rfl
  unfold launch
  split
  · exact moves_of_keep hflag hslot hover hlaunch
  · split
    · exact moves_of_keep hflag hslot hover hlaunch
    · exact moves_fails hflag hslot hover

theorem moves_spawned : Moves kind w .spawning action (spawned σ w) := by
  unfold spawned
  dsimp only
  split
  · exact moves_of_keep rfl rfl rfl fun h => h
  · exact moves_of_keep rfl rfl rfl fun h => h

theorem moves_verified {reply : Except HostError Json} :
    Moves kind w (.verifying id) action (verified σ c kind w id reply) := by
  unfold verified
  dsimp only
  split
  · exact moves_of_keep rfl rfl rfl fun h => h
  · exact moves_of_keep rfl rfl rfl fun _ => rfl
  · exact moves_fails rfl rfl rfl

theorem moves_install :
    Moves kind w (.installing id) .install (install c kind w id) := by
  unfold install
  split
  · split
    · exact moves_of_keep rfl rfl rfl fun _ => rfl
    · next hflag =>
      exact
        { flag := by simp
          slot := by simpa using SlotStep.install id fun _ _ => by simpa using hflag
          isOver := fun h => by cases h
          fits := fun _ => rfl }
  · next hkind =>
    exact
      { flag := rfl
        slot := .install id fun call h => absurd h (hkind call)
        isOver := fun h => by cases h
        fits := fun _ => rfl }

theorem moves_acquire : Moves kind w .acquiring action (acquire c kind w) := by
  unfold acquire
  split
  · split
    · exact moves_of_keep rfl rfl rfl fun h => h
    · exact moves_of_keep rfl rfl rfl fun h => h
  · exact moves_fails rfl rfl rfl

theorem moves_recheck {now : Nat} : Moves kind w .rechecking action (recheck c kind w now) := by
  unfold recheck
  split
  · split
    · exact moves_of_keep (by simp) (by simp) rfl fun h => h
    · split
      · exact moves_fails rfl rfl rfl
      · dsimp only
        split
        · exact moves_of_keep rfl rfl rfl fun h => h
        · exact moves_fails rfl rfl rfl
  · exact moves_fails rfl rfl rfl

theorem moves_serve {call : Call T} : Moves kind w (.serving id) action (serve w call id) := by
  unfold serve
  dsimp only
  split
  · exact moves_of_keep rfl rfl rfl fun h => h
  · exact moves_of_keep rfl rfl rfl fun h => h

theorem moves_dispatch {call : Call T} {refusal : Option HostError} :
    Moves kind w (.dispatching id) action (dispatch σ c kind w call id refusal) := by
  unfold dispatch
  split
  · exact moves_fails rfl rfl rfl
  · exact moves_fails rfl rfl rfl
  · exact moves_of_keep rfl rfl rfl fun h => h

theorem fits_releaseOwner {result : Except HostError Unit} (h : kind.stops = true) :
    (releaseOwner σ result : Phase T).fits kind = true := by
  unfold releaseOwner
  split
  · exact h
  · rfl

theorem moves_dropped (h : dropped c w phase = some r) : Moves kind w phase action r := by
  cases phase with
  | finished _ | cancelled | detached _ => cases h
  | registering =>
    obtain rfl := Option.some.inj h
    exact moves_of_keep (by simp) (by simp) rfl fun h => h
  | releasing _ =>
    obtain rfl := Option.some.inj h
    exact moves_of_keep rfl rfl rfl fun h => h
  | ensuring | spawning | verifying _ | installing _ | stoppingUnused _ _ | acquiring
  | lockingRespawn | rechecking | backingOff _ _ | reaping _ | serving _ | probing _
  | dispatching _ | awaitingReply _ _ | answered _ _ | takingSlot | stoppingWorker _ =>
    obtain rfl := Option.some.inj h
    exact moves_of_keep (by simp) (by simp) rfl fun _ => rfl

/-- **Every step of a call**, as the flag and the slot see it. -/
theorem advance_moves (h : advance σ c kind w phase action = some r) :
    Moves kind w phase action r := by
  have hsome : ∀ {r' : World × Phase T}, Moves kind w phase action r' → some r' = some r →
      Moves kind w phase action r := fun hr' hr => Option.some.inj hr ▸ hr'
  unfold advance at h
  split at h
  -- `launch_worker`
  · exact hsome (moves_fails rfl rfl rfl) h
  · exact hsome (moves_of_keep rfl rfl rfl fun h => h) h
  · exact hsome (moves_fails (by simp) (by simp) rfl) h
  · exact hsome (moves_of_keep rfl rfl rfl fun h => h) h
  · exact hsome (moves_fails rfl rfl rfl) h
  · exact hsome moves_spawned h
  -- the rest of `initialize` and of `respawn_worker`
  · exact hsome moves_verified h
  · exact hsome moves_install h
  · split at h
    · refine hsome ?_ h
      exact moves_fails rfl rfl rfl
    · cases h
  -- `worker` and `respawn_worker`
  · exact hsome moves_acquire h
  · split at h
    · exact hsome (moves_of_keep rfl rfl rfl fun h => h) h
    · cases h
  · exact hsome moves_recheck h
  · split at h
    · exact hsome (moves_fails rfl rfl rfl) h
    · exact hsome (moves_of_keep rfl rfl rfl fun h => h) h
  · split at h
    · refine hsome ?_ h
      refine moves_launch rfl rfl rfl fun hfits => ?_
      cases kind with
      | initializes => rfl
      | invokes call => rfl
      | shutsDown => cases hfits
    · cases h
  -- `invoke`
  · split at h
    · exact hsome moves_serve h
    · cases h
  · exact hsome (moves_of_keep rfl rfl rfl fun h => h) h
  · split at h
    · exact hsome moves_dispatch h
    · cases h
  · exact hsome (moves_fails rfl rfl rfl) h
  · exact hsome (moves_of_keep rfl rfl rfl fun h => h) h
  · split at h
    · split at h
      · exact hsome (moves_of_keep rfl rfl rfl fun _ => rfl) h
      · cases h
    · cases h
  -- `shutdown`
  · dsimp only at h
    split at h
    · obtain rfl := Option.some.inj h
      exact { flag := rfl, slot := .take, isOver := (by cases ·), fits := fun hfits => hfits }
    · obtain rfl := Option.some.inj h
      exact { flag := rfl, slot := .take, isOver := (by cases ·), fits := fits_releaseOwner }
  · split at h
    · obtain rfl := Option.some.inj h
      exact moves_of_keep rfl rfl rfl fits_releaseOwner
    · cases h
  · exact hsome (moves_of_keep rfl rfl rfl fun _ => rfl) h
  · exact hsome (moves_of_keep (by simp) (by simp) rfl fun _ => rfl) h
  -- work that outlived its call
  · next op =>
    refine hsome ⟨?_, ?_, fun _ => rfl, fun _ => rfl⟩ h
    · cases op <;> rfl
    · cases op <;> exact .keep _ _
  · refine hsome ⟨by simp, ?_, fun _ => rfl, fun _ => rfl⟩ h
    rw [World.worker_damage]
    exact .keep _ _
  · exact moves_dropped h
  · cases h

/-! ## The processes -/

/-- No launch is forgotten, and a stopped process stays stopped. -/
structure Lasts (w w' : World) : Prop where
  launched : w.workers.length ≤ w'.workers.length
  stopped : ∀ id, id < w.workers.length → (w.client id).child = false →
    (w'.client id).child = false

theorem lasts_of_workers (h : w'.workers = w.workers) : Lasts w w' where
  launched := by rw [h]
  stopped := by
    intro id _ hchild
    unfold World.client at hchild ⊢
    rw [h]
    exact hchild

theorem lasts_modifyClient {f : Client → Client}
    (hf : ∀ k, k.child = false → (f k).child = false) : Lasts w (w.modifyClient id f) where
  launched := Nat.le_of_eq (List.length_modify ..).symm
  stopped := by
    intro j _ hchild
    rw [client_modifyClient]
    split
    · exact hf _ hchild
    · exact hchild

theorem lasts_record {reply : Except HostError Json} : Lasts w (w.record id reply) :=
  lasts_modifyClient fun _ h => h

theorem lasts_stop : Lasts w (w.stop id) := lasts_modifyClient fun _ _ => rfl

theorem lasts_spawn : Lasts w w.spawn where
  launched := by simp [World.spawn]
  stopped := by
    intro j hj hchild
    show ((w.workers ++ [Client.spawned]).getD j _).child = false
    rw [List.getD_append _ _ _ _ hj]
    exact hchild

/-- The default of a process that was never launched counts as stopped. -/
theorem child_stop : ((w.stop id).client id).child = false := by
  unfold World.stop
  rw [client_modifyClient]
  split
  · rfl
  · next hnot =>
    have hid : w.workers.length ≤ id := by
      by_contra hlt
      exact hnot ⟨rfl, Nat.lt_of_not_le hlt⟩
    unfold World.client
    rw [List.getD_eq_default _ _ hid]

theorem holds_of_launched (h : phase.launched? = some id) : phase.holds? = some id := by
  cases phase <;> simp_all [Phase.launched?, Phase.holds?]

/-- What a step of a call does to the processes: which ones it holds afterwards, which ones it
launched, and what became of the one it had launched. -/
structure Handles (kind : Kind T) (w : World) (phase : Phase T) (r : World × Phase T) : Prop where
  lasts : Lasts w r.1
  holds : ∀ id, r.2.holds? = some id → phase.holds? = some id ∨ w.worker = some id ∨
    (id = w.workers.length ∧ id < r.1.workers.length)
  launched : ∀ id, r.2.launched? = some id → phase.launched? = some id ∨ id = w.workers.length
  kept : ∀ id, phase.launched? = some id → r.2.launched? = some id ∨ r.1.worker = some id ∨
    (r.1.client id).child = false ∨
    (r.1.worker = w.worker ∧ r.2.holds? = none ∧ (r.2 = .cancelled ∨ kind.starts = true))

/-- A step of a call that has launched nothing, before or after. -/
theorem handles_of_quiet (hlasts : Lasts w r.1)
    (hholds : ∀ id, r.2.holds? = some id → phase.holds? = some id ∨ w.worker = some id)
    (hlaunched : r.2.launched? = none) (hphase : phase.launched? = none) :
    Handles kind w phase r where
  lasts := hlasts
  holds := fun id h => (hholds id h).imp_right .inl
  launched := by
    intro id h
    rw [hlaunched] at h
    cases h
  kept := by
    intro id h
    rw [hphase] at h
    cases h

/-- A step after which the call holds nothing, and before which it had launched nothing. -/
theorem handles_of_idle (hlasts : Lasts w r.1) (hholds : r.2.holds? = none)
    (hphase : phase.launched? = none) : Handles kind w phase r := by
  refine handles_of_quiet hlasts (fun id h => ?_) ?_ hphase
  · rw [hholds] at h
    cases h
  · cases hlaunched : r.2.launched? with
    | none => rfl
    | some id =>
      rw [holds_of_launched hlaunched] at hholds
      cases hholds

theorem client_unlock : (w.unlock c).client id = w.client id := by
  unfold World.client
  rw [World.workers_unlock]

theorem Lasts.unlock (h : Lasts w w') : Lasts w (w'.unlock c) where
  launched := h.launched.trans_eq (by simp)
  stopped := by
    intro id hid hchild
    rw [client_unlock]
    exact h.stopped id hid hchild

theorem handles_fails {e : HostError} (hlasts : Lasts w w') (hphase : phase.launched? = none) :
    Handles kind w phase (fails c kind w' e) :=
  handles_of_idle hlasts.unlock rfl hphase

theorem handles_launch (hlasts : Lasts w w') (hphase : phase.launched? = none) :
    Handles kind w phase (launch σ c kind w') := by
  unfold launch
  split
  · exact handles_of_idle hlasts rfl hphase
  · split
    · exact handles_of_idle hlasts rfl hphase
    · exact handles_fails hlasts hphase

theorem handles_spawned : Handles kind w .spawning (spawned σ w) := by
  have hspawn : ∀ phase' : Phase T, (∀ id, phase'.holds? = some id → id = w.workers.length) →
      (∀ id, phase'.launched? = some id → id = w.workers.length) →
      Handles kind w .spawning (w.spawn, phase') := by
    intro phase' hholds hlaunched
    exact
      { lasts := lasts_spawn
        holds := fun id h => .inr (.inr ⟨hholds id h, by simp [World.spawn, hholds id h]⟩)
        launched := fun id h => .inr (hlaunched id h)
        kept := fun id h => by cases h }
  unfold spawned
  dsimp only
  split
  · exact hspawn _ (fun _ h => (Option.some.inj h).symm) fun _ h => (Option.some.inj h).symm
  · exact hspawn _ (fun _ h => (Option.some.inj h).symm) fun _ h => (Option.some.inj h).symm

/-- A step of a call that keeps the process it launched. -/
theorem handles_of_kept (hlasts : Lasts w r.1) (hphase : phase.launched? = some id)
    (hlaunched : r.2.launched? = some id) : Handles kind w phase r where
  lasts := hlasts
  holds := by
    intro j h
    rw [holds_of_launched hlaunched] at h
    exact .inl ((holds_of_launched hphase).trans h)
  launched := fun j h => .inl (hphase.trans (hlaunched.symm.trans h))
  kept := fun j h => .inl (hlaunched.trans (hphase.symm.trans h))

/-- A call that ends, with the process it launched stopped or dropped. -/
theorem handles_of_given (hlasts : Lasts w r.1) (hphase : phase.launched? = some id)
    (hholds : r.2.holds? = none)
    (hgiven : (r.1.client id).child = false ∨
      (r.1.worker = w.worker ∧ (r.2 = .cancelled ∨ kind.starts = true))) :
    Handles kind w phase r where
  lasts := hlasts
  holds := by
    intro j h
    rw [hholds] at h
    cases h
  launched := by
    intro j h
    rw [holds_of_launched h] at hholds
    cases hholds
  kept := by
    intro j h
    obtain rfl := Option.some.inj (hphase.symm.trans h)
    rcases hgiven with hstopped | ⟨hslot, hwhy⟩
    · exact .inr (.inr (.inl hstopped))
    · exact .inr (.inr (.inr ⟨hslot, hholds, hwhy⟩))

theorem handles_verified {reply : Except HostError Json} (hfits : kind.stops = false) :
    Handles kind w (.verifying id) (verified σ c kind w id reply) := by
  unfold verified
  dsimp only
  cases σ.verifyWorkerUnderstands reply with
  | ok u => exact handles_of_kept lasts_record rfl rfl
  | error e =>
    cases kind with
    | initializes =>
      exact handles_of_given lasts_record.unlock rfl rfl (.inr ⟨World.worker_unlock, .inr rfl⟩)
    | invokes call => exact handles_of_kept lasts_record rfl rfl
    | shutsDown => cases hfits

theorem handles_install : Handles kind w (.installing id) (install c kind w id) := by
  have hinstall : ∀ w' : World, w'.workers = w.workers → w'.worker = some id →
      ∀ phase' : Phase T, (∀ j, phase'.holds? = some j → j = id) → phase'.launched? = none →
      Handles kind w (.installing id) (w', phase') := by
    intro w' hworkers hslot phase' hholds hlaunched
    exact
      { lasts := lasts_of_workers hworkers
        holds := fun j h => .inl (by rw [hholds j h]; rfl)
        launched := by
          intro j h
          rw [hlaunched] at h
          cases h
        kept := by
          intro j h
          obtain rfl := Option.some.inj h
          exact .inr (.inl hslot) }
  unfold install
  split
  · split
    · exact handles_of_kept (lasts_of_workers rfl) rfl rfl
    · exact hinstall _ (by simp) (by simp) _ (fun _ h => (Option.some.inj h).symm) rfl
  · exact hinstall { w with worker := some id } rfl rfl _ (fun _ h => by cases h) rfl

theorem handles_acquire : Handles kind w .acquiring (acquire c kind w) := by
  unfold acquire
  split
  · next j hslot =>
    split
    · exact handles_of_quiet (lasts_of_workers rfl) (fun _ h => .inr (hslot.trans h)) rfl rfl
    · exact handles_of_idle (lasts_of_workers rfl) rfl rfl
  · exact handles_fails (lasts_of_workers rfl) rfl

theorem handles_recheck {now : Nat} : Handles kind w .rechecking (recheck c kind w now) := by
  unfold recheck
  split
  · next j hslot =>
    split
    · exact handles_of_quiet (lasts_of_workers (by simp)) (fun _ h => .inr (hslot.trans h)) rfl rfl
    · split
      · exact handles_fails (lasts_of_workers rfl) rfl
      · dsimp only
        split
        · exact handles_of_quiet (lasts_of_workers rfl) (fun _ h => .inr (hslot.trans h)) rfl rfl
        · exact handles_fails (lasts_of_workers rfl) rfl
  · exact handles_fails (lasts_of_workers rfl) rfl

theorem handles_serve {call : Call T} : Handles kind w (.serving id) (serve w call id) := by
  unfold serve
  dsimp only
  split
  · exact handles_of_quiet (lasts_modifyClient fun _ h => h) (fun _ h => .inl h) rfl rfl
  · exact handles_of_quiet (lasts_of_workers rfl) (fun _ h => .inl h) rfl rfl

theorem handles_dispatch {call : Call T} {refusal : Option HostError} :
    Handles kind w (.dispatching id) (dispatch σ c kind w call id refusal) := by
  unfold dispatch
  split
  · exact handles_fails (lasts_of_workers rfl) rfl
  · exact handles_fails (lasts_of_workers rfl) rfl
  · exact handles_of_quiet (lasts_of_workers rfl) (fun _ h => .inl h) rfl rfl

theorem handles_releaseOwner {result : Except HostError Unit} (hlasts : Lasts w w')
    (hphase : phase.launched? = none) : Handles kind w phase (w', releaseOwner σ result) := by
  refine handles_of_idle hlasts ?_ hphase
  unfold releaseOwner
  split
  · rfl
  · rfl

theorem handles_dropped (h : dropped c w phase = some r) : Handles kind w phase r := by
  have hlasts : Lasts w (w.unlock c) := lasts_of_workers World.workers_unlock
  cases phase with
  | finished _ | cancelled | detached _ => cases h
  | releasing _ =>
    obtain rfl := Option.some.inj h
    exact handles_of_idle (lasts_of_workers rfl) rfl rfl
  | verifying _ | installing _ | stoppingUnused _ _ =>
    obtain rfl := Option.some.inj h
    exact handles_of_given hlasts rfl rfl (.inr ⟨World.worker_unlock, .inl rfl⟩)
  | ensuring | registering | spawning | acquiring | lockingRespawn | rechecking | backingOff _ _
  | reaping _ | serving _ | probing _ | dispatching _ | awaitingReply _ _ | answered _ _
  | takingSlot | stoppingWorker _ =>
    obtain rfl := Option.some.inj h
    exact handles_of_idle hlasts rfl rfl

/-- **Every step of a call**, as the processes see it. -/
theorem advance_handles (hfits : phase.fits kind = true)
    (h : advance σ c kind w phase action = some r) : Handles kind w phase r := by
  have hsome : ∀ {r' : World × Phase T}, Handles kind w phase r' → some r' = some r →
      Handles kind w phase r := fun hr' hr => Option.some.inj hr ▸ hr'
  have hsame : Lasts w w := lasts_of_workers rfl
  unfold advance at h
  split at h
  -- `launch_worker`
  · exact hsome (handles_fails hsame rfl) h
  · exact hsome (handles_of_idle hsame rfl rfl) h
  · exact hsome (handles_fails (lasts_of_workers (by simp)) rfl) h
  · refine hsome ?_ h
    exact handles_of_idle (lasts_of_workers rfl) rfl rfl
  · exact hsome (handles_fails hsame rfl) h
  · exact hsome handles_spawned h
  -- the rest of `initialize` and of `respawn_worker`
  · exact hsome (handles_verified (by simpa [Phase.fits] using hfits)) h
  · exact hsome handles_install h
  · split at h
    · refine hsome ?_ h
      refine handles_of_given lasts_stop.unlock rfl rfl (.inl ?_)
      exact (congrArg Client.child client_unlock).trans child_stop
    · cases h
  -- `worker` and `respawn_worker`
  · exact hsome handles_acquire h
  · split at h
    · refine hsome ?_ h
      exact handles_of_idle (lasts_of_workers rfl) rfl rfl
    · cases h
  · exact hsome handles_recheck h
  · split at h
    · exact hsome (handles_fails hsame rfl) h
    · exact hsome (handles_of_quiet hsame (fun _ h => .inl h) rfl rfl) h
  · split at h
    · exact hsome (handles_launch lasts_stop rfl) h
    · cases h
  -- `invoke`
  · split at h
    · exact hsome handles_serve h
    · cases h
  · exact hsome (handles_of_quiet lasts_record (fun _ h => .inl h) rfl rfl) h
  · split at h
    · exact hsome handles_dispatch h
    · cases h
  · exact hsome (handles_fails hsame rfl) h
  · exact hsome (handles_of_idle hsame rfl rfl) h
  · split at h
    · split at h
      · refine hsome ?_ h
        exact handles_of_idle (lasts_of_workers rfl) rfl rfl
      · cases h
    · cases h
  -- `shutdown`
  · dsimp only at h
    split at h
    · next hslot =>
      obtain rfl := Option.some.inj h
      exact handles_of_quiet (lasts_of_workers rfl) (fun _ h => .inr (hslot.trans h)) rfl rfl
    · refine hsome ?_ h
      exact handles_releaseOwner (lasts_of_workers rfl) rfl
  · split at h
    · refine hsome ?_ h
      exact handles_releaseOwner lasts_stop rfl
    · cases h
  · refine hsome ?_ h
    exact handles_of_idle (lasts_of_workers rfl) rfl rfl
  · refine hsome ?_ h
    exact handles_of_idle (lasts_of_workers (by simp)) rfl rfl
  -- work that outlived its call
  · next op =>
    refine hsome ?_ h
    cases op with
    | register => exact handles_of_idle (lasts_of_workers rfl) rfl rfl
    | release => exact handles_of_idle (lasts_of_workers rfl) rfl rfl
  · refine hsome ?_ h
    exact handles_of_idle (lasts_of_workers (by simp)) rfl rfl
  · exact handles_dropped h
  · cases h

/-! ## The way of a respawn -/

/-- A respawn that has reaped the dead process, or any launch. -/
def Phase.reaped : Phase T → Bool
  | .ensuring | .registering | .spawning | .verifying _ | .installing _ | .stoppingUnused _ _ =>
    true
  | _ => false

/-- The process a respawn found dead, before it is reaped. -/
def Phase.dead? : Phase T → Option WorkerId
  | .backingOff dead _ | .reaping dead => some dead
  | _ => none

def Phase.respawning (phase : Phase T) : Bool := phase.dead?.isSome || phase.reaped

/-- An invocation in this phase holds the respawn lock. -/
def Phase.locked : Phase T → Bool
  | .rechecking => true
  | phase => phase.respawning

/-- What a step of a call does to the respawn lock and on the way of a respawn. -/
structure Respawns (c : CallId) (w : World) (phase : Phase T) (action : Action)
    (r : World × Phase T) : Prop where
  others : ∀ d, d ≠ c → w.respawnLock = some d → r.1.respawnLock = some d
  locked : r.2.locked = true → (phase.locked = true → w.respawnLock = some c) →
    r.1.respawnLock = some c
  /-- It takes over once, when the re-check finds a dead process and the flag clear. -/
  began : r.2.respawning = true → (phase.respawning = true ∧ ∀ now, action ≠ .recheck now) ∨
    (phase = .rechecking ∧ w.shutDown = false ∧ r.1 = { w with respawn := r.1.respawn } ∧
      ∃ now dead ms, action = .recheck now ∧ r.2 = .backingOff dead ms ∧ w.worker = some dead)
  dead : ∀ id, r.2.dead? = some id → phase.dead? = some id ∨ phase = .rechecking
  reaped : r.2.reaped = true → phase.reaped = true ∨
    ∃ id, phase = .reaping id ∧ (r.1.client id).child = false

theorem others_unlock {d : CallId} (hd : d ≠ c) (h : w.respawnLock = some d) :
    (w.unlock c).respawnLock = some d := by
  unfold World.unlock
  split
  · next hlock => exact absurd (Option.some.inj (h.symm.trans hlock)) hd
  · exact h

theorem respawning_of_dead (h : phase.dead? = some id) : phase.respawning = true := by
  unfold Phase.respawning
  rw [h]
  rfl

theorem respawning_of_reaped (h : phase.reaped = true) : phase.respawning = true := by
  unfold Phase.respawning
  rw [h, Bool.or_true]

theorem locked_of_respawning (h : phase.respawning = true) : phase.locked = true := by
  cases phase <;> first | rfl | exact h

/-- A step after which the call is on no respawn's way. -/
theorem respawns_of_out (hothers : ∀ d, d ≠ c → w.respawnLock = some d → r.1.respawnLock = some d)
    (hout : r.2.locked = false) : Respawns c w phase action r := by
  have hnot : r.2.respawning ≠ true := by
    intro h
    rw [locked_of_respawning h] at hout
    cases hout
  exact
    { others := hothers
      locked := fun h => by rw [hout] at h; cases h
      began := fun h => absurd h hnot
      dead := fun id h => absurd (respawning_of_dead h) hnot
      reaped := fun h => absurd (respawning_of_reaped h) hnot }

/-- A step along the way, past the reaping. -/
theorem respawns_of_along (hlock : r.1.respawnLock = w.respawnLock) (hphase : phase.reaped = true)
    (hreaped : r.2.reaped = true) (haction : ∀ now, action ≠ .recheck now) :
    Respawns c w phase action r where
  others := fun d _ h => hlock.trans h
  locked := fun _ h => hlock.trans (h (locked_of_respawning (respawning_of_reaped hphase)))
  began := fun _ => .inl ⟨respawning_of_reaped hphase, haction⟩
  dead := by
    intro id h
    cases hr : r.2 <;> simp_all [Phase.dead?, Phase.reaped]
  reaped := fun _ => .inl hphase

theorem respawns_fails {e : HostError} (hlock : w'.respawnLock = w.respawnLock) :
    Respawns c w phase action (fails c kind w' e) :=
  respawns_of_out (fun _ hd h => others_unlock hd (hlock.trans h)) rfl

theorem respawns_spawned : Respawns c w .spawning .spawn (spawned σ w) := by
  unfold spawned
  dsimp only
  split
  · exact respawns_of_along rfl rfl rfl fun _ h => by cases h
  · exact respawns_of_along rfl rfl rfl fun _ h => by cases h

theorem respawns_verified {reply : Except HostError Json} :
    Respawns c w (.verifying id) (.answer reply) (verified σ c kind w id reply) := by
  unfold verified
  dsimp only
  split
  · exact respawns_of_along rfl rfl rfl fun _ h => by cases h
  · exact respawns_of_along rfl rfl rfl fun _ h => by cases h
  · exact respawns_fails rfl

theorem respawns_install : Respawns c w (.installing id) .install (install c kind w id) := by
  unfold install
  split
  · split
    · exact respawns_of_along rfl rfl rfl fun _ h => by cases h
    · exact respawns_of_out (fun _ hd h => others_unlock hd h) rfl
  · exact respawns_of_out (fun _ _ h => h) rfl

theorem respawns_acquire : Respawns c w phase action (acquire c kind w) := by
  unfold acquire
  split
  · split
    · exact respawns_of_out (fun _ _ h => h) rfl
    · exact respawns_of_out (fun _ _ h => h) rfl
  · exact respawns_fails rfl

theorem respawns_recheck {now : Nat} :
    Respawns c w .rechecking (.recheck now) (recheck c kind w now) := by
  unfold recheck
  split
  · next dead hslot =>
    split
    · exact respawns_of_out (fun _ hd h => others_unlock hd h) rfl
    · split
      · exact respawns_fails rfl
      · next hflag =>
        dsimp only
        split
        · next attempt _ =>
          exact
            { others := fun _ _ h => h
              locked := fun _ h => h rfl
              began := fun _ => .inr ⟨rfl, by simpa using hflag, rfl, now, dead, backoffMs attempt,
                rfl, rfl, hslot⟩
              dead := fun _ _ => .inr rfl
              reaped := fun h => by cases h }
        · exact respawns_fails rfl
  · exact respawns_fails rfl

/-- The dead process was reaped: the launch begins. -/
theorem respawns_launch {result : Except HostError Unit} :
    Respawns c w (.reaping id) (.stopped result) (launch σ c kind (w.stop id)) := by
  have hnext : ∀ phase' : Phase T, phase'.reaped = true →
      Respawns c w (.reaping id) (.stopped result) (w.stop id, phase') := by
    intro phase' hreaped
    exact
      { others := fun _ _ h => h
        locked := fun _ h => h rfl
        began := fun _ => .inl ⟨rfl, fun _ h => by cases h⟩
        dead := by
          intro j h
          cases phase' <;> simp_all [Phase.dead?, Phase.reaped]
        reaped := fun _ => .inr ⟨id, rfl, child_stop⟩ }
  unfold launch
  split
  · exact hnext _ rfl
  · split
    · exact hnext _ rfl
    · exact respawns_fails rfl

theorem respawns_serve {call : Call T} : Respawns c w phase action (serve w call id) := by
  unfold serve
  dsimp only
  split
  · exact respawns_of_out (fun _ _ h => h) rfl
  · exact respawns_of_out (fun _ _ h => h) rfl

theorem respawns_dispatch {call : Call T} {refusal : Option HostError} :
    Respawns c w phase action (dispatch σ c kind w call id refusal) := by
  unfold dispatch
  split
  · exact respawns_fails rfl
  · exact respawns_fails rfl
  · exact respawns_of_out (fun _ _ h => h) rfl

theorem respawns_releaseOwner {result : Except HostError Unit}
    (hlock : w'.respawnLock = w.respawnLock) :
    Respawns c w phase action (w', releaseOwner σ result) := by
  refine respawns_of_out (fun _ _ h => hlock.trans h) ?_
  unfold releaseOwner
  split
  · rfl
  · rfl

theorem respawns_dropped (h : dropped c w phase = some r) : Respawns c w phase action r := by
  unfold dropped at h
  split at h
  · cases h
  · cases h
  · cases h
  · obtain rfl := Option.some.inj h
    exact respawns_of_out (fun _ hd h => others_unlock hd h) rfl
  · obtain rfl := Option.some.inj h
    exact respawns_of_out (fun _ _ h => h) rfl
  · obtain rfl := Option.some.inj h
    exact respawns_of_out (fun _ hd h => others_unlock hd h) rfl

@[simp] theorem respawnLock_damage {truncated : Bool} :
    (w.damage truncated).respawnLock = w.respawnLock := by
  unfold World.damage
  split <;> rfl

/-- **Every step of a call**, as the respawn lock sees it. -/
theorem advance_respawns (h : advance σ c kind w phase action = some r) :
    Respawns c w phase action r := by
  have hsome : ∀ {r' : World × Phase T}, Respawns c w phase action r' → some r' = some r →
      Respawns c w phase action r := fun hr' hr => Option.some.inj hr ▸ hr'
  have hout : ∀ {r' : World × Phase T}, r'.1.respawnLock = w.respawnLock → r'.2.locked = false →
      Respawns c w phase action r' :=
    fun hlock hout => respawns_of_out (fun _ _ h => hlock.trans h) hout
  unfold advance at h
  split at h
  -- `launch_worker`
  · exact hsome (respawns_fails rfl) h
  · exact hsome (respawns_of_along rfl rfl rfl fun _ h => by cases h) h
  · exact hsome (respawns_fails (by simp)) h
  · exact hsome (respawns_of_along rfl rfl rfl fun _ h => by cases h) h
  · exact hsome (respawns_fails rfl) h
  · exact hsome respawns_spawned h
  -- the rest of `initialize` and of `respawn_worker`
  · exact hsome respawns_verified h
  · exact hsome respawns_install h
  · split at h
    · refine hsome ?_ h
      exact respawns_fails rfl
    · cases h
  -- `worker` and `respawn_worker`
  · exact hsome respawns_acquire h
  · split at h
    · next hfree =>
      obtain rfl := Option.some.inj h
      exact
        { others := fun _ _ h => by rw [hfree] at h; cases h
          locked := fun _ _ => rfl
          began := fun h => by cases h
          dead := fun _ h => by cases h
          reaped := fun h => by cases h }
    · cases h
  · exact hsome respawns_recheck h
  · split at h
    · exact hsome (respawns_fails rfl) h
    · obtain rfl := Option.some.inj h
      exact
        { others := fun _ _ h => h
          locked := fun _ h => h rfl
          began := fun _ => .inl ⟨rfl, fun _ h => by cases h⟩
          dead := fun _ h => .inl h
          reaped := fun h => by cases h }
  · split at h
    · exact hsome respawns_launch h
    · cases h
  -- `invoke`
  · split at h
    · exact hsome respawns_serve h
    · cases h
  · exact hsome (hout rfl rfl) h
  · split at h
    · exact hsome respawns_dispatch h
    · cases h
  · exact hsome (respawns_fails rfl) h
  · exact hsome (hout rfl rfl) h
  · split at h
    · split at h
      · exact hsome (hout rfl rfl) h
      · cases h
    · cases h
  -- `shutdown`
  · dsimp only at h
    split at h
    · exact hsome (hout rfl rfl) h
    · refine hsome ?_ h
      exact respawns_releaseOwner rfl
  · split at h
    · refine hsome ?_ h
      exact respawns_releaseOwner rfl
    · cases h
  · exact hsome (hout rfl rfl) h
  · exact hsome (hout (by simp) rfl) h
  -- work that outlived its call
  · next op => cases op <;> exact hsome (hout rfl rfl) h
  · exact hsome (hout (by simp) rfl) h
  · exact respawns_dropped h
  · cases h

/-! ## Calls after a step -/

variable {s s' : State T} {entry : Entry T} {d e : CallId} {l : Label T}

/-- The state after call `c` took a step. -/
def State.stepped (s : State T) (c : CallId) (kind : Kind T) (r : World × Phase T) : State T :=
  ⟨r.1, s.calls.set c ⟨kind, r.2⟩⟩

/-- The state after a call began. -/
def State.begun (s : State T) (kind : Kind T) (r : World × Phase T) : State T :=
  ⟨r.1, s.calls ++ [⟨kind, r.2⟩]⟩

/-- Every step: a call begins, a call steps, or the environment touches the processes. -/
theorem step_cases (hs : step σ s l = some s') :
    (∃ kind, l = .call kind ∧ s' = s.begun kind (begins σ s.calls.length kind s.world)) ∨
    (∃ c action entry r, l = .act c action ∧ s.calls[c]? = some entry ∧
      advance σ c entry.kind s.world entry.phase action = some r ∧
      s' = s.stepped c entry.kind r) ∨
    (∃ id, l = .die id ∧ s' = { s with
      world := s.world.modifyClient id fun k => { k with alive := false } }) ∨
    (∃ owners, l = .coOwner owners ∧ s' = { s with world := { s.world with owners } }) := by
  cases l with
  | call kind =>
    obtain rfl := Option.some.inj hs
    exact .inl ⟨kind, rfl, rfl⟩
  | act c action =>
    simp only [step] at hs
    split at hs
    · next entry hentry =>
      obtain ⟨r, hadvance, rfl⟩ := Option.map_eq_some_iff.mp hs
      exact .inr (.inl ⟨c, action, entry, r, rfl, hentry, hadvance, rfl⟩)
    · cases hs
  | die id =>
    obtain rfl := Option.some.inj hs
    exact .inr (.inr (.inl ⟨id, rfl, rfl⟩))
  | coOwner owners =>
    simp only [step] at hs
    split at hs
    · obtain rfl := Option.some.inj hs
      exact .inr (.inr (.inr ⟨owners, rfl, rfl⟩))
    · cases hs

theorem getElem?_stepped (hentry : s.calls[c]? = some entry) {x : Entry T}
    (hx : (s.stepped c kind r).calls[d]? = some x) :
    (d = c ∧ x = ⟨kind, r.2⟩) ∨ (d ≠ c ∧ s.calls[d]? = some x) := by
  obtain ⟨hc, -⟩ := List.getElem?_eq_some_iff.mp hentry
  by_cases hdc : d = c
  · subst hdc
    refine .inl ⟨rfl, ?_⟩
    rw [State.stepped, List.getElem?_set_self hc] at hx
    exact (Option.some.inj hx).symm
  · refine .inr ⟨hdc, ?_⟩
    rwa [State.stepped, List.getElem?_set_ne (Ne.symm hdc)] at hx

theorem getElem?_begun {x : Entry T} (hx : (s.begun kind r).calls[d]? = some x) :
    (d = s.calls.length ∧ x = ⟨kind, r.2⟩) ∨ (d < s.calls.length ∧ s.calls[d]? = some x) := by
  rw [State.begun] at hx
  rcases Nat.lt_trichotomy d s.calls.length with hlt | rfl | hgt
  · rw [List.getElem?_append_left hlt] at hx
    exact .inr ⟨hlt, hx⟩
  · rw [List.getElem?_concat_length] at hx
    exact .inl ⟨rfl, (Option.some.inj hx).symm⟩
  · rw [List.getElem?_eq_none (by simp; omega)] at hx
    cases hx

theorem kind?_stepped (hentry : s.calls[c]? = some entry) :
    (s.stepped c entry.kind r).kind? d = s.kind? d := by
  obtain ⟨hc, -⟩ := List.getElem?_eq_some_iff.mp hentry
  unfold State.kind? State.stepped
  by_cases hdc : d = c
  · subst hdc
    rw [List.getElem?_set_self hc, hentry]
    rfl
  · rw [List.getElem?_set_ne (Ne.symm hdc)]

theorem phase?_stepped_self (hentry : s.calls[c]? = some entry) :
    (s.stepped c kind r).phase? c = some r.2 := by
  obtain ⟨hc, -⟩ := List.getElem?_eq_some_iff.mp hentry
  unfold State.phase? State.stepped
  rw [List.getElem?_set_self hc]
  rfl

theorem phase?_stepped_ne (hdc : d ≠ c) : (s.stepped c kind r).phase? d = s.phase? d := by
  unfold State.phase? State.stepped
  rw [List.getElem?_set_ne (Ne.symm hdc)]

theorem kind?_begun_self : (s.begun kind r).kind? s.calls.length = some kind := by
  unfold State.kind? State.begun
  rw [List.getElem?_concat_length]
  rfl

theorem kind?_begun_lt (hd : d < s.calls.length) : (s.begun kind r).kind? d = s.kind? d := by
  unfold State.kind? State.begun
  rw [List.getElem?_append_left hd]

theorem phase?_begun_lt (hd : d < s.calls.length) : (s.begun kind r).phase? d = s.phase? d := by
  unfold State.phase? State.begun
  rw [List.getElem?_append_left hd]

theorem lt_of_kind? {k : Kind T} (h : s.kind? d = some k) : d < s.calls.length := by
  obtain ⟨x, hx, -⟩ := Option.map_eq_some_iff.mp h
  exact (List.getElem?_eq_some_iff.mp hx).1

theorem State.Stops.exists (h : s.Stops d) : ∃ k, s.kind? d = some k ∧ k.stops = true := by
  unfold State.Stops at h
  cases hk : s.kind? d with
  | none => simp [hk] at h
  | some k => exact ⟨k, rfl, by simpa [hk] using h⟩

theorem State.Starts.exists (h : s.Starts d) : ∃ k, s.kind? d = some k ∧ k.starts = true := by
  unfold State.Starts at h
  cases hk : s.kind? d with
  | none => simp [hk] at h
  | some k => exact ⟨k, rfl, by simpa [hk] using h⟩

theorem stops_of_kind? {k : Kind T} (h : s.kind? d = some k) : s.Stops d ↔ k.stops = true := by
  unfold State.Stops
  rw [h]
  rfl

theorem starts_of_kind? {k : Kind T} (h : s.kind? d = some k) : s.Starts d ↔ k.starts = true := by
  unfold State.Starts
  rw [h]
  rfl

theorem starts_stops_absurd (hstarts : s.Starts d) (hstops : s.Stops d) : False := by
  obtain ⟨k, hk, hks⟩ := hstarts.exists
  have hkt := (stops_of_kind? hk).mp hstops
  cases k <;> simp [Kind.starts, Kind.stops] at hks hkt

end Cpex.Host.Lifecycle
