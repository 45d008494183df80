import Mathlib.Data.List.GetD
import Cpex.Host.Lifecycle
import Cpex.Properties.PlainPpe
import Cpex.Properties.Task

/-!
# A task goes to a worker that understands it

A process becomes the worker of an invocation only after its own handshake. The reason is one
invariant: the process in the slot, and every process that a call is about to install, serve from
or write to, answered a handshake with every required feature.

* `verifyReported_ok` — what a handshake that passes says
* `Trusts` — where a process that a step relies on comes from
* `task_goes_to_verified_worker` — the property of every run
-/

namespace Cpex.Host

open Cpex.Infra

/-! ## The handshake -/

theorem mem_sortedSet {items : List String} {x : String} : x ∈ sortedSet items ↔ x ∈ items := by
  have hfold : ∀ (items : List String) (acc : List (String × Unit)),
      x ∈ (items.foldl (fun acc item => Assoc.putSorted Json.keyOrder item () acc) acc).map
        Prod.fst ↔ x ∈ acc.map Prod.fst ∨ x ∈ items := by
    intro items
    induction items with
    | nil => simp
    | cons item items ih =>
      intro acc
      rw [List.foldl_cons, ih, Assoc.mem_keys_putSorted Json.keyOrder, List.mem_cons]
      tauto
  unfold sortedSet
  rw [hfold]
  simp

/-- A response to the handshake lists the feature. -/
def Advertises (response : Json) (feature : String) : Prop :=
  ∃ list, response.get? "features" = some (.array list) ∧ .string feature ∈ list

theorem has_ofResponse {response : Json} {feature : String} :
    (WorkerCapabilities.ofResponse response).has feature = true ↔ Advertises response feature := by
  unfold WorkerCapabilities.has WorkerCapabilities.ofResponse Advertises
  rw [List.contains_iff_mem, mem_sortedSet, List.mem_filterMap]
  cases hfeatures : response.get? "features" with
  | none => simp
  | some value =>
    cases value with
    | array list =>
      simp only [Option.bind_some, Json.asArray, Option.getD_some, Option.some.injEq,
        Json.array.injEq, exists_eq_left']
      constructor
      · rintro ⟨item, hmem, hitem⟩
        cases item with
        | string text =>
          obtain rfl := Option.some.inj hitem
          exact hmem
        | null | bool _ | number _ | array _ | object _ => cases hitem
      · intro hmem
        exact ⟨_, hmem, rfl⟩
    | null | bool _ | number _ | string _ | object _ => simp [Json.asArray]

/-- **A handshake that passes advertises every required feature.** -/
theorem verifyReported_ok {config : PluginConfig} {required : List String}
    {reply : Except HostError Json} (hrequired : required ≠ [])
    (h : config.verifyReported required reply = .ok ()) :
    ∃ response, reply = .ok response ∧ ∀ f ∈ required, Advertises response f := by
  unfold PluginConfig.verifyReported at h
  split at h
  · split at h <;> cases h
  · next reported hreported =>
    dsimp only at h
    split at h
    · next hmissing =>
      have hhas : ∀ f ∈ required, reported.has f = true := by simpa using hmissing
      cases reply with
      | ok response =>
        obtain rfl := Except.ok.inj hreported
        exact ⟨response, rfl, fun f hf => has_ofResponse.mp (hhas f hf)⟩
      | error e =>
        -- A worker that does not know the handshake has no feature at all.
        obtain ⟨f, rest, rfl⟩ := List.exists_cons_of_ne_nil hrequired
        have hf := hhas f List.mem_cons_self
        cases e <;> cases hreported
        cases hf
    · cases h

namespace Lifecycle

variable {T : Types} {σ : Setup T} {c : CallId} {kind : Kind T} {w w' : World}
  {phase phase' : Phase T} {id : WorkerId}

/-! ## What a process has proven -/

/-- The process answered a handshake of its own, with every required feature. -/
def Understands (σ : Setup T) (w : World) (id : WorkerId) : Prop :=
  σ.required ≠ [] →
    ∃ response, .ok response ∈ (w.client id).answers ∧ ∀ f ∈ σ.required, Advertises response f

/-- No launch and no answer of a handshake is forgotten. -/
structure Grows (w w' : World) : Prop where
  launched : w.workers.length ≤ w'.workers.length
  answers : ∀ id, (w.client id).answers ⊆ (w'.client id).answers

theorem Grows.of_workers (h : w'.workers = w.workers) : Grows w w' := by
  refine ⟨by rw [h], fun id => ?_⟩
  unfold World.client
  rw [h]
  exact List.Subset.refl _

theorem Understands.grows (h : Understands σ w id) (hgrows : Grows w w') :
    Understands σ w' id := by
  intro hrequired
  obtain ⟨response, hmem, hall⟩ := h hrequired
  exact ⟨response, hgrows.answers id hmem, hall⟩

theorem client_modifyClient {f : Client → Client} {j : WorkerId} :
    (w.modifyClient id f).client j =
      if j = id ∧ id < w.workers.length then f (w.client j) else w.client j := by
  unfold World.client World.modifyClient
  rw [List.getD_eq_getElem?_getD, List.getD_eq_getElem?_getD, List.getElem?_modify]
  by_cases hj : j < w.workers.length
  · rw [List.getElem?_eq_getElem hj]
    by_cases hid : id = j
    · subst hid
      simp [hj]
    · simp [hid, Ne.symm hid]
  · rw [List.getElem?_eq_none (Nat.le_of_not_lt hj)]
    have hnot : ¬(j = id ∧ id < w.workers.length) := by
      rintro ⟨rfl, hlt⟩
      exact hj hlt
    rw [if_neg hnot]
    rfl

theorem grows_modifyClient {f : Client → Client} (hf : ∀ k, k.answers ⊆ (f k).answers) :
    Grows w (w.modifyClient id f) := by
  refine ⟨Nat.le_of_eq (List.length_modify ..).symm, fun j => ?_⟩
  rw [client_modifyClient]
  split
  · exact hf _
  · exact List.Subset.refl _

theorem grows_record {reply : Except HostError Json} : Grows w (w.record id reply) :=
  grows_modifyClient fun _ => List.subset_append_left _ _

theorem grows_stop : Grows w (w.stop id) := grows_modifyClient fun _ => List.Subset.refl _

theorem grows_spawn : Grows w w.spawn := by
  refine ⟨by simp [World.spawn], fun j => ?_⟩
  show (w.client j).answers ⊆ ((w.workers ++ [Client.spawned]).getD j _).answers
  unfold World.client
  by_cases hj : j < w.workers.length
  · rw [List.getD_append _ _ _ _ hj]
    exact List.Subset.refl _
  · rw [List.getD_eq_default _ _ (Nat.le_of_not_lt hj)]
    exact List.nil_subset _

/-- The answer of a process that was launched is kept. -/
theorem mem_answers_record {reply : Except HostError Json} (hid : id < w.workers.length) :
    reply ∈ ((w.record id reply).client id).answers := by
  unfold World.record
  rw [client_modifyClient, if_pos ⟨rfl, hid⟩]
  exact List.mem_append_right _ List.mem_cons_self

theorem understands_record {reply : Except HostError Json} (hid : id < w.workers.length)
    (h : σ.verifyWorkerUnderstands reply = .ok ()) : Understands σ (w.record id reply) id := by
  intro hrequired
  unfold Setup.verifyWorkerUnderstands at h
  rw [if_neg (by simpa using hrequired)] at h
  obtain ⟨response, rfl, hall⟩ := verifyReported_ok hrequired h
  exact ⟨response, mem_answers_record hid, hall⟩

/-! ## Where a process that a step relies on comes from -/

/-- The process a call relies on: it was verified, or found in the slot. -/
def Phase.trusted : Phase T → Option WorkerId
  | .installing id | .serving id | .probing id | .dispatching id | .awaitingReply id _ => some id
  | _ => none

/-- The process whose handshake a launch waits for. -/
def Phase.asked : Phase T → Option WorkerId
  | .verifying id => some id
  | _ => none

/-- What a step of a call does: it installs only a process the call relied on, and relies only on
one from the slot or one that passed the handshake. -/
structure Trusts (σ : Setup T) (w : World) (phase : Phase T) (r : World × Phase T) : Prop where
  grows : Grows w r.1
  slot : ∀ id, r.1.worker = some id → w.worker = some id ∨ phase.trusted = some id
  held : ∀ id, r.2.trusted = some id →
    w.worker = some id ∨ phase.trusted = some id ∨ Understands σ r.1 id
  asked : ∀ id, r.2.asked = some id → id < r.1.workers.length

/-- A step that leaves the workers and the slot alone, and relies on nobody new. -/
theorem Trusts.quiet {r : World × Phase T} (hgrows : Grows w r.1) (hslot : r.1.worker = w.worker)
    (hheld : ∀ id, r.2.trusted = some id → w.worker = some id ∨ phase.trusted = some id)
    (hasked : r.2.asked = none) : Trusts σ w phase r where
  grows := hgrows
  slot := fun id h => .inl (hslot ▸ h)
  held := fun id h => (hheld id h).imp_right .inl
  asked := by
    intro id h
    rw [hasked] at h
    cases h

theorem trusts_fails {e : HostError} (hgrows : Grows w w') (hslot : w'.worker = w.worker) :
    Trusts σ w phase (fails c kind w' e) :=
  .quiet ⟨hgrows.launched.trans_eq (by simp [fails]), fun id => by
      simpa [fails, World.client] using hgrows.answers id⟩
    (by simp [fails, hslot]) (fun _ h => by cases h) rfl

theorem trusts_launch (hgrows : Grows w w') (hslot : w'.worker = w.worker) :
    Trusts σ w phase (launch σ c kind w') := by
  unfold launch
  split
  · exact .quiet hgrows hslot (fun _ h => by cases h) rfl
  · split
    · exact .quiet hgrows hslot (fun _ h => by cases h) rfl
    · exact trusts_fails hgrows hslot

theorem trusts_spawned : Trusts σ w phase (spawned σ w) := by
  unfold spawned
  dsimp only
  split
  · next hnone =>
    -- A declaration that requires nothing is understood by every process.
    have hempty : σ.required = [] := by
      rw [Bool.and_eq_true, List.isEmpty_iff] at hnone
      exact hnone.1
    exact
      { grows := grows_spawn
        slot := fun _ h => .inl h
        held := fun _ _ => .inr (.inr fun hrequired => absurd hempty hrequired)
        asked := fun _ h => by cases h }
  · exact
      { grows := grows_spawn
        slot := fun _ h => .inl h
        held := fun _ h => by cases h
        asked := by
          intro id h
          obtain rfl := Option.some.inj h
          simp [World.spawn] }

theorem trusts_verified {reply : Except HostError Json} (hid : id < w.workers.length) :
    Trusts σ w phase (verified σ c kind w id reply) := by
  unfold verified
  dsimp only
  split
  · next hok =>
    exact
      { grows := grows_record
        slot := fun _ h => .inl h
        held := by
          intro j h
          obtain rfl := Option.some.inj h
          exact .inr (.inr (understands_record hid hok))
        asked := fun _ h => by cases h }
  · exact .quiet grows_record rfl (fun _ h => by cases h) rfl
  · exact trusts_fails grows_record rfl

theorem trusts_install : Trusts σ w (.installing id) (install c kind w id) := by
  have hinstall : ∀ w' : World, w'.workers = w.workers → w'.worker = some id →
      ∀ phase' : Phase T, (∀ j, phase'.trusted = some j → j = id) → phase'.asked = none →
      Trusts σ w (.installing id) (w', phase') := by
    intro w' hworkers hslot phase' hheld hasked
    exact
      { grows := .of_workers hworkers
        slot := fun j h => .inr (hslot.symm.trans h)
        held := fun j h => .inr (.inl (by rw [hheld j h]; rfl))
        asked := by
          intro j h
          rw [hasked] at h
          cases h }
  unfold install
  split
  · split
    · exact .quiet (.of_workers rfl) rfl (fun _ h => by cases h) rfl
    · exact hinstall _ (by simp) (by simp) _ (fun _ h => (Option.some.inj h).symm) rfl
  · exact hinstall { w with worker := some id } rfl rfl _ (fun _ h => by cases h) rfl

theorem trusts_acquire : Trusts σ w phase (acquire c kind w) := by
  unfold acquire
  split
  · next j hslot =>
    split
    · exact .quiet (.of_workers rfl) rfl (fun _ h => .inl (hslot.trans h)) rfl
    · exact .quiet (.of_workers rfl) rfl (fun _ h => by cases h) rfl
  · exact trusts_fails (.of_workers rfl) rfl

theorem trusts_recheck {now : Nat} : Trusts σ w phase (recheck c kind w now) := by
  unfold recheck
  split
  · next j hslot =>
    split
    · exact .quiet (.of_workers (by simp)) (by simp) (fun _ h => .inl (hslot.trans h)) rfl
    · split
      · exact trusts_fails (.of_workers rfl) rfl
      · dsimp only
        split
        · exact .quiet (.of_workers rfl) rfl (fun _ h => by cases h) rfl
        · exact trusts_fails (.of_workers rfl) rfl
  · exact trusts_fails (.of_workers rfl) rfl

theorem trusts_serve {call : Call T} : Trusts σ w (.serving id) (serve w call id) := by
  unfold serve
  dsimp only
  split
  · exact .quiet (grows_modifyClient fun _ => List.Subset.refl _) rfl (fun _ h => .inr h) rfl
  · exact .quiet (.of_workers rfl) rfl (fun _ h => .inr h) rfl

theorem trusts_dispatch {call : Call T} {refusal : Option HostError} :
    Trusts σ w (.dispatching id) (dispatch σ c kind w call id refusal) := by
  unfold dispatch
  split
  · exact trusts_fails (.of_workers rfl) rfl
  · exact trusts_fails (.of_workers rfl) rfl
  · exact .quiet (.of_workers rfl) rfl (fun _ h => .inr h) rfl

theorem trusts_dropped {r : World × Phase T} (h : dropped c w phase = some r) :
    Trusts σ w phase r := by
  unfold dropped at h
  split at h
  · cases h
  · cases h
  · cases h
  all_goals
    obtain rfl := Option.some.inj h
    exact .quiet (.of_workers (by simp)) (by simp) (fun _ h => by cases h) rfl

/-- The slot is emptied, or left alone, on the way to the end of a shutdown. -/
theorem trusts_releaseOwner {result : Except HostError Unit} (hgrows : Grows w w')
    (hslot : ∀ id, w'.worker = some id → w.worker = some id) :
    Trusts σ w phase (w', releaseOwner σ result) := by
  have hend : (releaseOwner σ result).trusted = none ∧ (releaseOwner σ result).asked = none := by
    unfold releaseOwner
    split <;> exact ⟨rfl, rfl⟩
  exact
    { grows := hgrows
      slot := fun id h => .inl (hslot id h)
      held := by
        intro id h
        rw [hend.1] at h
        cases h
      asked := by
        intro id h
        rw [hend.2] at h
        cases h }

/-- **Every step of a call** relies only on processes that were verified or stood in the slot. -/
theorem advance_trusts {action : Action} (hasked : ∀ id, phase.asked = some id →
    id < w.workers.length) (h : advance σ c kind w phase action = some (w', phase')) :
    Trusts σ w phase (w', phase') := by
  have hquiet : ∀ {w' : World} {phase' : Phase T}, w'.workers = w.workers →
      w'.worker = w.worker → phase'.trusted = none → phase'.asked = none →
      Trusts σ w phase (w', phase') := by
    intro w' phase' hworkers hslot htrusted hasked
    exact .quiet (.of_workers hworkers) hslot (fun id h => by rw [htrusted] at h; cases h) hasked
  unfold advance at h
  split at h
  -- `launch_worker`
  · exact Option.some.inj h ▸ trusts_fails (.of_workers rfl) rfl
  · cases h
    exact hquiet rfl rfl rfl rfl
  · exact Option.some.inj h ▸ trusts_fails (.of_workers (by simp)) (by simp)
  · cases h
    exact hquiet rfl rfl rfl rfl
  · exact Option.some.inj h ▸ trusts_fails (.of_workers rfl) rfl
  · exact Option.some.inj h ▸ trusts_spawned
  -- the rest of `initialize` and of `respawn_worker`
  · exact Option.some.inj h ▸ trusts_verified (hasked _ rfl)
  · exact Option.some.inj h ▸ trusts_install
  · split at h
    · exact Option.some.inj h ▸ trusts_fails grows_stop rfl
    · cases h
  -- `worker` and `respawn_worker`
  · exact Option.some.inj h ▸ trusts_acquire
  · split at h
    · cases h
      exact hquiet rfl rfl rfl rfl
    · cases h
  · exact Option.some.inj h ▸ trusts_recheck
  · split at h
    · exact Option.some.inj h ▸ trusts_fails (.of_workers rfl) rfl
    · cases h
      exact hquiet rfl rfl rfl rfl
  · split at h
    · exact Option.some.inj h ▸ trusts_launch grows_stop rfl
    · cases h
  -- `invoke`
  · split at h
    · exact Option.some.inj h ▸ trusts_serve
    · cases h
  · cases h
    exact .quiet grows_record rfl (fun _ h => .inr h) rfl
  · split at h
    · exact Option.some.inj h ▸ trusts_dispatch
    · cases h
  · exact Option.some.inj h ▸ trusts_fails (.of_workers rfl) rfl
  · cases h
    exact hquiet rfl rfl rfl rfl
  · split at h
    · split at h
      · cases h
        exact hquiet rfl rfl rfl rfl
      · cases h
    · cases h
  -- `shutdown`
  · dsimp only at h
    split at h
    · cases h
      exact
        { grows := .of_workers rfl
          slot := fun _ h => by cases h
          held := fun _ h => by cases h
          asked := fun _ h => by cases h }
    · cases h
      exact trusts_releaseOwner (.of_workers rfl) (fun _ h => by cases h)
  · split at h
    · cases h
      exact trusts_releaseOwner grows_stop (fun _ h => h)
    · cases h
  · cases h
    exact hquiet rfl rfl rfl rfl
  · cases h
    exact hquiet (by simp) (by simp) rfl rfl
  -- work that outlived its call
  · next op =>
    cases h
    cases op <;> exact hquiet rfl rfl rfl rfl
  · cases h
    exact hquiet (by simp) (by simp) rfl rfl
  · exact trusts_dropped h
  · cases h

theorem trusts_begins : Trusts σ w (.acquiring : Phase T) (begins σ c kind w) := by
  cases kind with
  | initializes => exact trusts_launch (.of_workers rfl) rfl
  | invokes call => exact .quiet (.of_workers rfl) rfl (fun _ h => by cases h) rfl
  | shutsDown => exact .quiet (.of_workers rfl) rfl (fun _ h => by cases h) rfl

/-! ## Runs -/

/-- The invariant: the process in the slot and every process a call relies on have answered a
handshake of their own with every required feature. -/
structure Sound (σ : Setup T) (s : State T) : Prop where
  slot : ∀ id, s.world.worker = some id → Understands σ s.world id
  held : ∀ entry ∈ s.calls, ∀ id, entry.phase.trusted = some id → Understands σ s.world id
  asked : ∀ entry ∈ s.calls, ∀ id, entry.phase.asked = some id → id < s.world.workers.length

variable {s s' : State T}

theorem sound_fresh (owners : Venv.OwnersFile) : Sound σ (.fresh owners) where
  slot := fun _ h => by cases h
  held := fun _ h => by cases h
  asked := fun _ h => by cases h

/-- A step of one call, whose other calls stay where they are. -/
theorem Sound.of_trusts (h : Sound σ s) {r : World × Phase T} (htrusts : Trusts σ s.world phase r)
    (hphase : ∀ id, phase.trusted = some id → Understands σ s.world id) {calls : List (Entry T)}
    (hcalls : ∀ entry ∈ calls, entry ∈ s.calls ∨ entry.phase = r.2) : Sound σ ⟨r.1, calls⟩ where
  slot := by
    intro id hid
    rcases htrusts.slot id hid with hslot | htrusted
    · exact (h.slot id hslot).grows htrusts.grows
    · exact (hphase id htrusted).grows htrusts.grows
  held := by
    intro entry hentry id hid
    rcases hcalls entry hentry with hold | hnew
    · exact (h.held entry hold id hid).grows htrusts.grows
    · rcases htrusts.held id (hnew ▸ hid) with hslot | htrusted | hunderstands
      · exact (h.slot id hslot).grows htrusts.grows
      · exact (hphase id htrusted).grows htrusts.grows
      · exact hunderstands
  asked := by
    intro entry hentry id hid
    rcases hcalls entry hentry with hold | hnew
    · exact (h.asked entry hold id hid).trans_le htrusts.grows.launched
    · exact htrusts.asked id (hnew ▸ hid)

/-- **Every step keeps the invariant.** -/
theorem sound_step {l : Label T} (h : Sound σ s) (hs : step σ s l = some s') : Sound σ s' := by
  cases l with
  | call kind =>
    obtain rfl := Option.some.inj hs
    refine h.of_trusts trusts_begins (fun _ hid => by cases hid) fun entry hentry => ?_
    rcases List.mem_append.mp hentry with hold | hnew
    · exact .inl hold
    · obtain rfl := List.mem_singleton.mp hnew
      exact .inr rfl
  | act c action =>
    simp only [step] at hs
    split at hs
    · next entry hentry =>
      have hmem : entry ∈ s.calls := List.mem_of_getElem? hentry
      obtain ⟨r, hadvance, rfl⟩ := Option.map_eq_some_iff.mp hs
      refine h.of_trusts (advance_trusts (h.asked entry hmem) hadvance) (h.held entry hmem)
        fun entry' hentry' => ?_
      rcases List.mem_or_eq_of_mem_set hentry' with hold | rfl
      · exact .inl hold
      · exact .inr rfl
    · cases hs
  | die id =>
    obtain rfl := Option.some.inj hs
    have hgrows : Grows s.world (s.world.modifyClient id fun k => { k with alive := false }) :=
      grows_modifyClient fun _ => List.Subset.refl _
    exact
      { slot := fun j hj => (h.slot j hj).grows hgrows
        held := fun entry hentry j hj => (h.held entry hentry j hj).grows hgrows
        asked := fun entry hentry j hj => (h.asked entry hentry j hj).trans_le hgrows.launched }
  | coOwner owners =>
    simp only [step] at hs
    split at hs
    · obtain rfl := Option.some.inj hs
      exact ⟨h.slot, h.held, h.asked⟩
    · cases hs

/-! ## What is written -/

@[simp] theorem written_fails {e : HostError} : (fails c kind w e).1.written = w.written := by
  simp [fails]

@[simp] theorem written_launch : (launch σ c kind w).1.written = w.written := by
  unfold launch
  split
  · rfl
  · split
    · rfl
    · exact written_fails

@[simp] theorem written_spawned : (spawned σ w).1.written = w.written := by
  unfold spawned
  dsimp only
  split <;> rfl

@[simp] theorem written_verified {reply : Except HostError Json} :
    (verified σ c kind w id reply).1.written = w.written := by
  unfold verified
  dsimp only
  split
  · rfl
  · rfl
  · exact written_fails

@[simp] theorem written_install : (install c kind w id).1.written = w.written := by
  unfold install
  split
  · split
    · rfl
    · exact World.written_unlock
  · rfl

@[simp] theorem written_acquire : (acquire c kind w).1.written = w.written := by
  unfold acquire
  split
  · split <;> rfl
  · exact written_fails

@[simp] theorem written_recheck {now : Nat} : (recheck c kind w now).1.written = w.written := by
  unfold recheck
  split
  · split
    · exact World.written_unlock
    · split
      · exact written_fails
      · dsimp only
        split
        · rfl
        · exact written_fails
  · exact written_fails

@[simp] theorem written_serve {call : Call T} : (serve w call id).1.written = w.written := by
  unfold serve
  dsimp only
  split <;> rfl

theorem written_dropped {r : World × Phase T} (h : dropped c w phase = some r) :
    r.1.written = w.written := by
  unfold dropped at h
  split at h
  · cases h
  · cases h
  · cases h
  all_goals
    obtain rfl := Option.some.inj h
    simp

/-- The task an invocation writes to a process, at the dispatch. -/
structure Dispatches (σ : Setup T) (w : World) (phase : Phase T) (id : WorkerId) (task : Json) :
    Prop where
  dispatching : phase = .dispatching id
  assembled : ∃ (call : Call T) (shim : Option (ShimmedPayload T)),
    σ.plugin.assembleTask σ.toString σ.ppe call.hookName (w.client id).reported call.payload
      call.extensions call.ctx call.freshId = .ok (task, shim)

theorem written_dispatch {call : Call T} {refusal : Option HostError} :
    (dispatch σ c kind w call id refusal).1.written = w.written ∨
      ∃ task, Dispatches σ w (.dispatching id) id task ∧
        (dispatch σ c kind w call id refusal).1.written = w.written ++ [(id, task)] := by
  unfold dispatch
  split
  · exact .inl written_fails
  · exact .inl written_fails
  · next task shim hassembled => exact .inr ⟨task, ⟨rfl, call, shim, hassembled⟩, rfl⟩

/-- **A task is written by the dispatch of an invocation**, and by nothing else. -/
theorem advance_written {action : Action} {r : World × Phase T}
    (h : advance σ c kind w phase action = some r) :
    r.1.written = w.written ∨
      ∃ id task, Dispatches σ w phase id task ∧ r.1.written = w.written ++ [(id, task)] := by
  have hsame : ∀ {r' : World × Phase T}, r'.1.written = w.written → some r' = some r →
      r.1.written = w.written := fun hr' hr => Option.some.inj hr ▸ hr'
  unfold advance at h
  split at h
  -- `launch_worker`
  · exact .inl (hsame written_fails h)
  · exact .inl (hsame rfl h)
  · exact .inl (hsame (by simp) h)
  · exact .inl (hsame rfl h)
  · exact .inl (hsame written_fails h)
  · exact .inl (hsame written_spawned h)
  -- the rest of `initialize` and of `respawn_worker`
  · exact .inl (hsame written_verified h)
  · exact .inl (hsame written_install h)
  · split at h
    · exact .inl (hsame (written_fails (w := w.stop _)) h)
    · cases h
  -- `worker` and `respawn_worker`
  · exact .inl (hsame written_acquire h)
  · split at h
    · exact .inl (hsame rfl h)
    · cases h
  · exact .inl (hsame written_recheck h)
  · split at h
    · exact .inl (hsame written_fails h)
    · exact .inl (hsame rfl h)
  · split at h
    · exact .inl (hsame (written_launch (w := w.stop _)) h)
    · cases h
  -- `invoke`
  · split at h
    · exact .inl (hsame written_serve h)
    · cases h
  · exact .inl (hsame rfl h)
  · split at h
    · obtain rfl := Option.some.inj h
      exact written_dispatch.imp_right fun hdispatch => ⟨_, hdispatch⟩
    · cases h
  · exact .inl (hsame written_fails h)
  · exact .inl (hsame rfl h)
  · split at h
    · split at h
      · exact .inl (hsame rfl h)
      · cases h
    · cases h
  -- `shutdown`
  · dsimp only at h
    split at h
    · exact .inl (hsame rfl h)
    · exact .inl (hsame rfl h)
  · split at h
    · exact .inl (hsame rfl h)
    · cases h
  · exact .inl (hsame rfl h)
  · exact .inl (hsame (by simp) h)
  -- work that outlived its call
  · next op => exact .inl (hsame (by cases op <;> rfl) h)
  · exact .inl (hsame (by simp) h)
  · exact .inl (written_dropped h)
  · cases h

theorem written_begins : (begins σ c kind w).1.written = w.written := by
  cases kind with
  | initializes => exact written_launch
  | invokes call => rfl
  | shutsDown => rfl

/-- Where a task that a step writes comes from. -/
theorem step_written {l : Label T} {task : Json} (hs : step σ s l = some s')
    (hwritten : s'.world.written = s.world.written ++ [(id, task)]) :
    ∃ entry ∈ s.calls, Dispatches σ s.world entry.phase id task := by
  have hnew : s'.world.written ≠ s.world.written := by
    rw [hwritten]
    simp
  cases l with
  | call kind =>
    obtain rfl := Option.some.inj hs
    exact absurd written_begins hnew
  | act c action =>
    simp only [step] at hs
    split at hs
    · next entry hentry =>
      obtain ⟨r, hadvance, rfl⟩ := Option.map_eq_some_iff.mp hs
      rcases advance_written hadvance with hsame | ⟨id', task', hdispatch, happend⟩
      · exact absurd hsame hnew
      · have hlast : [(id, task)] = [(id', task')] :=
          List.append_cancel_left (hwritten.symm.trans happend)
        obtain ⟨rfl, rfl⟩ := Prod.mk.inj (List.singleton_inj.mp hlast)
        exact ⟨entry, List.mem_of_getElem? hentry, hdispatch⟩
    · cases hs
  | die j =>
    obtain rfl := Option.some.inj hs
    exact absurd rfl hnew
  | coOwner owners =>
    simp only [step] at hs
    split at hs
    · obtain rfl := Option.some.inj hs
      exact absurd rfl hnew
    · cases hs

/--
**A task goes only to a process that itself proved it understands it.** In every run of
`initialize`, `invoke` and `shutdown` calls, with workers dying and handshakes answering as they
like, a step that writes a task to a process finds that this same process, since its launch,
answered a handshake that lists every wire feature the declaration requires; and, when the task has
a `credential` field, one that lists the credential feature.
-/
theorem task_goes_to_verified_worker (σ : Setup T) {owners : Venv.OwnersFile}
    {es : List (Label T)} {l : Label T} {task : Json}
    (hrun : (plugin σ).run (.fresh owners) es = some s) (hstep : (plugin σ).step s l = some s')
    (hwritten : s'.world.written = s.world.written ++ [(id, task)]) :
    (σ.plugin.config.requiredWorkerFeatures ≠ [] →
      ∃ response, .ok response ∈ (s.world.client id).answers ∧
        ∀ f ∈ σ.plugin.config.requiredWorkerFeatures, Advertises response f) ∧
    (task.get? credentialField ≠ none →
      ∃ response, .ok response ∈ (s.world.client id).answers ∧
        Advertises response featureCredential) := by
  have hsound : Sound σ s :=
    (plugin σ).run_preserves (fun _ _ _ h hs => sound_step h hs) (sound_fresh owners) hrun
  obtain ⟨entry, hentry, hphase, call, shim, hassembled⟩ := step_written hstep hwritten
  have hunderstands : Understands σ s.world id :=
    hsound.held entry hentry id (by rw [hphase]; rfl)
  refine ⟨hunderstands, fun hfield => ?_⟩
  have hfeature : featureCredential ∈ σ.required := assembleTask_credential hassembled hfield
  obtain ⟨response, hmem, hall⟩ := hunderstands (List.ne_nil_of_mem hfeature)
  exact ⟨response, hmem, hall _ hfeature⟩

/-- An identity resolver that declares a credential capability, in a venv of its own. -/
def resolverSetup : Setup Plain.types where
  plugin := {
    config := ⟨"resolver", "isolated_venv", [hookIdentityResolve], [capReadInbound], none⟩
    className := "pkg.Resolver"
    pluginDirs := ["/srv/plugins"] }
  ppe := Plain.engine
  toString := fun _ => .ok "config"
  workerOverride := false
  venvResolved := true

def resolveCall : Call Plain.types where
  hookName := hookIdentityResolve
  payload := .identity (Plain.identity "alpha")
  extensions := Plain.emptyView
  ctx := ⟨HashMap.empty, HashMap.empty⟩
  freshId := "id-1"
  now := 0

def credentialReply : Json := .object [("features", .array [.string featureCredential])]

/-- A launch by call `c`, up to the installation. -/
def launchSteps (c : CallId) (reply : Json) : List (Label Plain.types) :=
  [.act c .ensured, .act c .registryWrites, .act c .spawn, .act c (.answer (.ok reply)),
    .act c .install]

/-- The plugin starts, its worker dies, and an invocation respawns it. -/
def respawnSteps : List (Label Plain.types) :=
  [.call .initializes] ++ launchSteps 0 credentialReply ++
  [.die 0, .call (.invokes resolveCall), .act 1 .acquire, .act 1 .lockRespawn, .act 1 (.recheck 0),
    .act 1 .wake, .act 1 (.stopped (.ok ()))] ++ launchSteps 1 credentialReply ++ [.act 1 .serve]

/-- The state in which the invocation is about to write its task. -/
def respawned : State Plain.types :=
  ((plugin resolverSetup).run (.fresh .absent) respawnSteps).getD (.fresh .absent)

/-- The task goes to the second process, which answered a handshake of its own. -/
theorem respawned_worker_verified : ∃ s task,
    (plugin resolverSetup).step respawned (.act 1 (.dispatch none)) = some s ∧
    s.world.written = respawned.world.written ++ [(1, task)] ∧
    task.get? credentialField ≠ none ∧
    ∃ response, .ok response ∈ (respawned.world.client 1).answers ∧
      Advertises response featureCredential := by
  have hrun : (plugin resolverSetup).run (.fresh .absent) respawnSteps = some respawned := rfl
  have hstep : ∃ s task, (plugin resolverSetup).step respawned (.act 1 (.dispatch none)) = some s ∧
      s.world.written = respawned.world.written ++ [(1, task)] ∧
      (task.get? credentialField).isSome = true := ⟨_, _, rfl, rfl, rfl⟩
  obtain ⟨s, task, hs, hwritten, hfield⟩ := hstep
  have hne : task.get? credentialField ≠ none := Option.isSome_iff_ne_none.mp hfield
  exact ⟨s, task, hs, hwritten, hne,
    (task_goes_to_verified_worker resolverSetup hrun hs hwritten).2 hne⟩

end Lifecycle

end Cpex.Host
