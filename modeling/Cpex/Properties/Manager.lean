import Mathlib.Data.List.Count
import Cpex.Bindings.Manager
import Cpex.Infra.Lock

/-!
# The engine is initialized and shut down in order

Every lifecycle call works under one lock. What the engine has done so far is at rest while the
lock is free: nothing but initializes, or one shutdown after them.

* `discipline` — what the holder of the lock has made of the engine
* `Noted` — the invariant: the discipline, and what each call's phase says of its events
* `lifecycle_settled_iff` — one at a time, one shutdown and no initialize after it, and a shutdown
  at the end unless each initialize that timed out panicked
* `panicked_rollback_skipped` — a rollback that gives up
-/

namespace Cpex.Bindings.Manager

open Cpex.Infra

/-! ## What the lock protects -/

/-- How far the holder of the lock is. -/
inductive Hold where
  /-- It has not touched the engine. -/
  | idle
  /-- Its task initializes the engine. -/
  | busy
  /-- It shuts the engine down. -/
  | stopping
  /-- It has shut the engine down, and has not set the flag. -/
  | settling
  deriving DecidableEq

def EngineEvent.isInitialize : EngineEvent → Bool
  | .initializeStarted | .initializeEnded => true
  | .shutdownStarted | .shutdownEnded => false

/-- Nothing but initializes so far. -/
def Untouched (log : List EngineEvent) : Prop := ∀ e ∈ log, e.isInitialize = true

/-- A shutdown has started. -/
def Stopping (log : List EngineEvent) : Prop :=
  ∃ before, log = .shutdownStarted :: before ∧ Untouched before

/-- A shutdown has ended. -/
def Stopped (log : List EngineEvent) : Prop :=
  ∃ before, log = .shutdownEnded :: .shutdownStarted :: before ∧ Untouched before

/-- The flag of a completed shutdown, with the log. -/
def Lifecycle.shared (l : Lifecycle) : Bool × List EngineEvent := (l.shutDown, l.log)

/-- The flag tells whether the engine is shut down. -/
def AtRest (v : Bool × List EngineEvent) : Prop :=
  (v.1 = false ∧ Untouched v.2) ∨ (v.1 = true ∧ Stopped v.2)

def discipline : Discipline Hold (Bool × List EngineEvent) where
  rest := AtRest
  during
    | .idle, v => AtRest v
    | .busy, v => v.1 = false ∧ Untouched v.2
    | .stopping, v => v.1 = false ∧ Stopping v.2
    | .settling, v => v.1 = false ∧ Stopped v.2

theorem Untouched.record {log : List EngineEvent} {e : EngineEvent} (h : Untouched log)
    (he : e.isInitialize = true) : Untouched (e :: log) :=
  List.forall_mem_cons.mpr ⟨he, h⟩

/-! ## Who holds it -/

/-- A finished task keeps the guard in its result. -/
def Work.hold : Work → Option Hold
  | .spawned | .running | .finished _ => some .busy
  | .panicked => none

def Initialize.hold : Initialize → Option Hold
  | .locked => some .idle
  | .awaiting work | .elapsed work | .detached work | .rollback work => work.hold
  | .rollingBack => some .stopping
  | .settling => some .settling
  | .locking | .rolledBack | .notRolledBack | .ended _ => none

def ShutdownTask.hold : ShutdownTask → Option Hold
  | .locked => some .idle
  | .stopping => some .stopping
  | .settling => some .settling
  | .locking | .ended => none

def State.hold (s : State) : Owner → Option Hold
  | .initializing i => s.initializes[i]?.bind Initialize.hold
  | .shuttingDown j => s.shutdowns[j]?.bind fun call => call.task.hold

def State.lock (s : State) : Lock Owner Hold (Bool × List EngineEvent) :=
  ⟨s.lifecycle.lock, s.hold, s.lifecycle.shared⟩

theorem hold_initializing {s : State} {i : Nat} {call : Initialize}
    (hi : s.initializes[i]? = some call) : s.hold (.initializing i) = call.hold := by
  rw [State.hold, hi, Option.bind_some]

theorem hold_shuttingDown {s : State} {j : Nat} {call : Shutdown}
    (hj : s.shutdowns[j]? = some call) : s.hold (.shuttingDown j) = call.task.hold := by
  rw [State.hold, hj, Option.bind_some]

theorem hold_set_initialize {s : State} {i : Nat} {call call' : Initialize} {l : Lifecycle}
    (hi : s.initializes[i]? = some call) :
    State.hold { s with lifecycle := l, initializes := s.initializes.set i call' } =
      Function.update s.hold (.initializing i) call'.hold := by
  funext o
  cases o with
  | initializing k =>
    by_cases hk : k = i
    · subst hk
      rw [Function.update_self, State.hold,
        List.getElem?_set_self (List.getElem?_eq_some_iff.mp hi).1, Option.bind_some]
    · rw [Function.update_of_ne (fun h => hk (Owner.initializing.inj h)), State.hold,
        List.getElem?_set_ne (Ne.symm hk)]
      rfl
  | shuttingDown k =>
    rw [Function.update_of_ne (fun h => by cases h)]
    rfl

theorem hold_set_shutdown {s : State} {j : Nat} {call call' : Shutdown} {l : Lifecycle}
    (hj : s.shutdowns[j]? = some call) :
    State.hold { s with lifecycle := l, shutdowns := s.shutdowns.set j call' } =
      Function.update s.hold (.shuttingDown j) call'.task.hold := by
  funext o
  cases o with
  | initializing k =>
    rw [Function.update_of_ne (fun h => by cases h)]
    rfl
  | shuttingDown k =>
    by_cases hk : k = j
    · subst hk
      rw [Function.update_self, State.hold,
        List.getElem?_set_self (List.getElem?_eq_some_iff.mp hj).1, Option.bind_some]
    · rw [Function.update_of_ne (fun h => hk (Owner.shuttingDown.inj h)), State.hold,
        List.getElem?_set_ne (Ne.symm hk)]
      rfl

/-- A call that has just begun holds nothing. -/
theorem bind_append {α : Type} {f : α → Option Hold} {calls : List α} {call : α}
    (hnone : f call = none) (i : Nat) : ((calls ++ [call])[i]?).bind f = (calls[i]?).bind f := by
  by_cases hlt : i < calls.length
  · rw [List.getElem?_append_left hlt]
  · rw [List.getElem?_append_right (Nat.le_of_not_lt hlt),
      List.getElem?_eq_none (Nat.le_of_not_lt hlt), Option.bind_none]
    cases i - calls.length with
    | zero => exact hnone
    | succ n => rfl

/-! ## One step of a call -/

/-- What one step of a task does to the lock, the engine and the flags. -/
structure TaskStep (o : Owner) (l l' : Lifecycle) (h h' : Option Hold) : Prop where
  turn : (l.shutDown = true → l.shutdownStarted = true) →
    Lock.Turn discipline o l.lock l'.lock l.shared l'.shared h h'
  started : l.shutdownStarted = true → l'.shutdownStarted = true
  shutDown : l.shutDown = true → l'.shutDown = true
  /-- Only the end of a shutdown sets its flag. -/
  settled : l'.shutDown = true → l.shutDown = true ∨ h = some .settling

/-- A step that touches nothing shared. -/
theorem TaskStep.idle {o : Owner} {l : Lifecycle} {h : Option Hold} : TaskStep o l l h h :=
  ⟨fun _ => .idle rfl rfl, id, id, .inl⟩

theorem TaskStep.acquire {o : Owner} {l l' : Lifecycle} (h : l.acquire o = some l') :
    TaskStep o l l' none (some .idle) := by
  unfold Lifecycle.acquire at h
  split at h
  · next hfree =>
    obtain rfl := Option.some.inj h
    exact ⟨fun _ => .acquire hfree rfl id, id, id, .inl⟩
  · cases h

/-- The guard of a task that left the engine at rest is dropped. -/
theorem TaskStep.release {o : Owner} {l : Lifecycle} {h : Hold}
    (hrest : discipline.during h l.shared → AtRest l.shared) :
    TaskStep o l l.release (some h) none :=
  ⟨fun _ => .release rfl hrest, id, id, .inl⟩

/-- The shutdown of an engine that was only initialized. -/
theorem TaskStep.stop {o : Owner} {l : Lifecycle} {h : Hold}
    (hrest : discipline.during h l.shared → l.shutDown = false ∧ Untouched l.log) :
    TaskStep o l (l.record .shutdownStarted) (some h) (some .stopping) := by
  refine ⟨fun _ => .advance rfl fun hduring => ?_, id, id, .inl⟩
  obtain ⟨hdown, hlog⟩ := hrest hduring
  exact ⟨hdown, _, rfl, hlog⟩

theorem TaskStep.stopped {o : Owner} {l : Lifecycle} :
    TaskStep o l (l.record .shutdownEnded) (some .stopping) (some .settling) := by
  refine ⟨fun _ => .advance rfl ?_, id, id, .inl⟩
  rintro ⟨hdown, before, hlog, hbefore⟩
  exact ⟨hdown, before, congrArg _ hlog, hbefore⟩

theorem TaskStep.settle {o : Owner} {l : Lifecycle} :
    TaskStep o l l.settle (some .settling) none :=
  ⟨fun _ => .release rfl fun hduring => .inr ⟨rfl, hduring.2⟩, id, fun _ => rfl, fun _ => .inr rfl⟩

/-- What a step of the task of an `initialize` does. -/
inductive WorkStep (l : Lifecycle) : Work → WorkAct → Lifecycle → Work → Prop where
  | start : WorkStep l .spawned .start (l.record .initializeStarted) .running
  | finish (ok : Bool) : WorkStep l .running (.finish ok) (l.record .initializeEnded) (.finished ok)
  | panic : WorkStep l .running .panic (l.record .initializeEnded).release .panicked

theorem workStep_of_advanceWork {l l' : Lifecycle} {work work' : Work} {act : WorkAct}
    (h : advanceWork l work act = some (l', work')) : WorkStep l work act l' work' := by
  unfold advanceWork at h
  split at h
  · obtain ⟨rfl, rfl⟩ := Prod.mk.inj (Option.some.inj h)
    exact .start
  · obtain ⟨rfl, rfl⟩ := Prod.mk.inj (Option.some.inj h)
    exact .finish _
  · obtain ⟨rfl, rfl⟩ := Prod.mk.inj (Option.some.inj h)
    exact .panic
  · cases h

/-- The task of an `initialize` adds an initialize to the log, and keeps the guard until it ends. -/
theorem advanceWork_step {o : Owner} {l l' : Lifecycle} {work work' : Work} {act : WorkAct}
    (h : advanceWork l work act = some (l', work')) : TaskStep o l l' work.hold work'.hold := by
  cases workStep_of_advanceWork h with
  | start => exact ⟨fun _ => .advance rfl fun hd => ⟨hd.1, hd.2.record rfl⟩, id, id, .inl⟩
  | finish ok => exact ⟨fun _ => .advance rfl fun hd => ⟨hd.1, hd.2.record rfl⟩, id, id, .inl⟩
  | panic => exact ⟨fun _ => .release rfl fun hd => .inl ⟨hd.1, hd.2.record rfl⟩, id, id, .inl⟩

/-- The handle of a task is dropped. -/
theorem detach_step {o : Owner} {l : Lifecycle} {work : Work} :
    TaskStep o l (detach l work).1 work.hold (detach l work).2.hold := by
  cases work with
  | spawned => exact .idle
  | running => exact .idle
  | finished ok => exact .release .inl
  | panicked => exact .idle

/-- A detached task drops its result, with the guard, when it ends. -/
theorem advanceWork_detach_step {o : Owner} {l l' : Lifecycle} {work work' : Work} {act : WorkAct}
    (h : advanceWork l work act = some (l', work')) :
    TaskStep o l (detach l' work').1 work.hold (detach l' work').2.hold := by
  cases workStep_of_advanceWork h with
  | start => exact ⟨fun _ => .advance rfl fun hd => ⟨hd.1, hd.2.record rfl⟩, id, id, .inl⟩
  | finish ok =>
    exact ⟨fun _ => .release rfl fun hd => .inl ⟨hd.1, hd.2.record rfl⟩, id, id, .inl⟩
  | panic => exact ⟨fun _ => .release rfl fun hd => .inl ⟨hd.1, hd.2.record rfl⟩, id, id, .inl⟩

/-- One step of an `initialize` call. -/
theorem advanceInitialize_step {i : Nat} {l l' : Lifecycle} {call call' : Initialize}
    {act : InitializeAct} (h : advanceInitialize l i call act = some (l', call')) :
    TaskStep (.initializing i) l l' call.hold call'.hold := by
  unfold advanceInitialize at h
  split at h
  -- the timeout on the lock, and the lock
  · obtain ⟨rfl, rfl⟩ := Prod.mk.inj (Option.some.inj h)
    exact .idle
  · obtain ⟨l₁, hl₁, hpair⟩ := Option.map_eq_some_iff.mp h
    obtain ⟨rfl, rfl⟩ := Prod.mk.inj hpair
    exact .acquire hl₁
  · split at h
    · obtain ⟨rfl, rfl⟩ := Prod.mk.inj (Option.some.inj h)
      exact .release id
    · next hflag =>
      obtain ⟨rfl, rfl⟩ := Prod.mk.inj (Option.some.inj h)
      refine ⟨fun hordered => .advance rfl fun hrest => ?_, id, id, .inl⟩
      -- a finished shutdown would have set the flag
      rcases hrest with hfresh | ⟨hdown, -⟩
      · exact hfresh
      · exact absurd (hordered hdown) hflag
  -- its task, the handle held or dropped
  · obtain ⟨r, hr, hpair⟩ := Option.map_eq_some_iff.mp h
    obtain ⟨rfl, rfl⟩ := Prod.mk.inj hpair
    exact advanceWork_step hr
  · obtain ⟨r, hr, hpair⟩ := Option.map_eq_some_iff.mp h
    obtain ⟨rfl, rfl⟩ := Prod.mk.inj hpair
    exact advanceWork_step hr
  · obtain ⟨r, hr, hpair⟩ := Option.map_eq_some_iff.mp h
    obtain ⟨rfl, rfl⟩ := Prod.mk.inj hpair
    exact advanceWork_step hr
  · obtain ⟨r, hr, hpair⟩ := Option.map_eq_some_iff.mp h
    obtain ⟨rfl, rfl⟩ := Prod.mk.inj hpair
    exact advanceWork_detach_step hr
  -- the result, or the timeout
  · obtain ⟨rfl, rfl⟩ := Prod.mk.inj (Option.some.inj h)
    exact .release .inl
  · obtain ⟨rfl, rfl⟩ := Prod.mk.inj (Option.some.inj h)
    exact .idle
  · obtain ⟨rfl, rfl⟩ := Prod.mk.inj (Option.some.inj h)
    exact .idle
  · obtain ⟨rfl, rfl⟩ := Prod.mk.inj (Option.some.inj h)
    exact ⟨fun _ => .idle rfl rfl, fun _ => rfl, id, .inl⟩
  -- the rollback
  · obtain ⟨rfl, rfl⟩ := Prod.mk.inj (Option.some.inj h)
    exact .stop id
  · obtain ⟨rfl, rfl⟩ := Prod.mk.inj (Option.some.inj h)
    exact .idle
  · obtain ⟨rfl, rfl⟩ := Prod.mk.inj (Option.some.inj h)
    exact .stopped
  · obtain ⟨rfl, rfl⟩ := Prod.mk.inj (Option.some.inj h)
    exact .settle
  -- the awaitable is dropped
  · obtain ⟨rfl, rfl⟩ := Prod.mk.inj (Option.some.inj h)
    exact .idle
  · obtain ⟨rfl, rfl⟩ := Prod.mk.inj (Option.some.inj h)
    exact detach_step
  · cases h

/-- One step of the task of a `shutdown` call. -/
theorem advanceTask_step {j : Nat} {l l' : Lifecycle} {task task' : ShutdownTask}
    {act : ShutdownAct} (h : advanceTask l j task act = some (l', task')) :
    TaskStep (.shuttingDown j) l l' task.hold task'.hold := by
  unfold advanceTask at h
  split at h
  · obtain ⟨l₁, hl₁, hpair⟩ := Option.map_eq_some_iff.mp h
    obtain ⟨rfl, rfl⟩ := Prod.mk.inj hpair
    exact .acquire hl₁
  · split at h
    · obtain ⟨rfl, rfl⟩ := Prod.mk.inj (Option.some.inj h)
      exact .release id
    · next hdown =>
      obtain ⟨rfl, rfl⟩ := Prod.mk.inj (Option.some.inj h)
      refine .stop fun hrest => ?_
      rcases hrest with hfresh | ⟨hset, -⟩
      · exact hfresh
      · exact absurd hset hdown
  · obtain ⟨rfl, rfl⟩ := Prod.mk.inj (Option.some.inj h)
    exact .stopped
  · obtain ⟨rfl, rfl⟩ := Prod.mk.inj (Option.some.inj h)
    exact .settle
  · cases h

/-! ## What a call knows of its own events -/

/-- Whether the call's timer fired on the engine, and whether its task panicked, by where it is.
From the rollback on the flag of a shutdown is set, and a rolled back engine is shut down. -/
def Initialize.Noted (l : Lifecycle) (elapsed panicked : Prop) : Initialize → Prop
  | .locking | .locked => ¬ elapsed ∧ ¬ panicked
  | .awaiting work => ¬ elapsed ∧ (panicked ↔ work = .panicked)
  | .elapsed work => elapsed ∧ (panicked ↔ work = .panicked)
  | .rollback work => l.shutdownStarted = true ∧ elapsed ∧ (panicked ↔ work = .panicked)
  | .rollingBack | .settling => l.shutdownStarted = true ∧ elapsed ∧ ¬ panicked
  | .rolledBack => l.shutdownStarted = true ∧ l.shutDown = true ∧ elapsed ∧ ¬ panicked
  | .notRolledBack => elapsed ∧ panicked
  | .detached _ | .ended _ => ¬ elapsed

/-- The flags are never cleared, so other calls' steps change nothing here. -/
theorem Initialize.Noted.mono {l l' : Lifecycle} {elapsed panicked : Prop} {call : Initialize}
    (h : call.Noted l elapsed panicked)
    (hstarted : l.shutdownStarted = true → l'.shutdownStarted = true)
    (hdown : l.shutDown = true → l'.shutDown = true) : call.Noted l' elapsed panicked := by
  cases call with
  | rollback work => exact ⟨hstarted h.1, h.2⟩
  | rollingBack => exact ⟨hstarted h.1, h.2⟩
  | settling => exact ⟨hstarted h.1, h.2⟩
  | rolledBack => exact ⟨hstarted h.1, hdown h.2.1, h.2.2⟩
  | locking => exact h
  | locked => exact h
  | awaiting work => exact h
  | elapsed work => exact h
  | detached work => exact h
  | notRolledBack => exact h
  | ended result => exact h

/-- The task that steps has not panicked yet. -/
theorem advanceWork_panicked {l l' : Lifecycle} {work work' : Work} {act : WorkAct}
    (h : advanceWork l work act = some (l', work')) :
    work ≠ .panicked ∧ (work' = .panicked ↔ act = .panic) := by
  cases workStep_of_advanceWork h with
  | start => exact ⟨nofun, iff_of_false nofun nofun⟩
  | finish ok => exact ⟨nofun, iff_of_false nofun nofun⟩
  | panic => exact ⟨nofun, iff_of_true rfl rfl⟩

theorem advanceWork_flags {l l' : Lifecycle} {work work' : Work} {act : WorkAct}
    (h : advanceWork l work act = some (l', work')) :
    l'.shutdownStarted = l.shutdownStarted ∧ l'.shutDown = l.shutDown := by
  cases workStep_of_advanceWork h with
  | start => exact ⟨rfl, rfl⟩
  | finish ok => exact ⟨rfl, rfl⟩
  | panic => exact ⟨rfl, rfl⟩

/-- What a call knows, for an action that tells it nothing. -/
theorem Initialize.Noted.keep {l : Lifecycle} {elapsed panicked : Prop} (call : Initialize)
    {act : InitializeAct} (h : call.Noted l elapsed panicked) (helapse : act ≠ .elapse)
    (hpanic : act ≠ .work .panic) :
    call.Noted l (elapsed ∨ act = .elapse) (panicked ∨ act = .work .panic) := by
  rw [or_iff_left helapse |> propext, or_iff_left hpanic |> propext]
  exact h

theorem detach_noted {l l' : Lifecycle} {work : Work} {elapsed panicked : Prop}
    (h : ¬ elapsed) : (detach l work).2.Noted l' elapsed panicked := by
  cases work with
  | spawned => exact h
  | running => exact h
  | finished ok => exact h
  | panicked => exact h

/-- A step of the task tells the call of a panic. -/
theorem advanceWork_noted {l l' : Lifecycle} {work work' : Work} {act : WorkAct} {panicked : Prop}
    (h : advanceWork l work act = some (l', work')) (hn : panicked ↔ work = .panicked) :
    (panicked ∨ InitializeAct.work act = .work .panic) ↔ work' = .panicked := by
  obtain ⟨hgoing, hpanic⟩ := advanceWork_panicked h
  rw [hpanic, InitializeAct.work.injEq]
  exact or_iff_right fun hp => hgoing (hn.mp hp)

/-- **What a call knows follows its events.** -/
theorem advanceInitialize_noted {i : Nat} {l l' : Lifecycle} {call call' : Initialize}
    {act : InitializeAct} {elapsed panicked : Prop}
    (h : advanceInitialize l i call act = some (l', call'))
    (hn : call.Noted l elapsed panicked) :
    call'.Noted l' (elapsed ∨ act = .elapse) (panicked ∨ act = .work .panic) := by
  unfold advanceInitialize at h
  split at h
  · obtain ⟨rfl, rfl⟩ := Prod.mk.inj (Option.some.inj h)
    exact .keep (.ended _) hn.1 nofun nofun
  · obtain ⟨l₁, -, hpair⟩ := Option.map_eq_some_iff.mp h
    obtain ⟨rfl, rfl⟩ := Prod.mk.inj hpair
    exact .keep .locked hn nofun nofun
  · split at h
    · obtain ⟨rfl, rfl⟩ := Prod.mk.inj (Option.some.inj h)
      exact .keep (.ended _) hn.1 nofun nofun
    · obtain ⟨rfl, rfl⟩ := Prod.mk.inj (Option.some.inj h)
      exact .keep (.awaiting _) ⟨hn.1, iff_of_false hn.2 nofun⟩ nofun nofun
  · obtain ⟨r, hr, hpair⟩ := Option.map_eq_some_iff.mp h
    obtain ⟨rfl, rfl⟩ := Prod.mk.inj hpair
    exact ⟨not_or.mpr ⟨hn.1, nofun⟩, advanceWork_noted hr hn.2⟩
  · obtain ⟨r, hr, hpair⟩ := Option.map_eq_some_iff.mp h
    obtain ⟨rfl, rfl⟩ := Prod.mk.inj hpair
    exact ⟨.inl hn.1, advanceWork_noted hr hn.2⟩
  · obtain ⟨r, hr, hpair⟩ := Option.map_eq_some_iff.mp h
    obtain ⟨rfl, rfl⟩ := Prod.mk.inj hpair
    obtain ⟨hstarted, helapsed, hpanicked⟩ := hn
    exact ⟨(advanceWork_flags hr).1.trans hstarted, .inl helapsed, advanceWork_noted hr hpanicked⟩
  · obtain ⟨r, hr, hpair⟩ := Option.map_eq_some_iff.mp h
    obtain ⟨-, rfl⟩ := Prod.mk.inj hpair
    exact detach_noted (not_or.mpr ⟨hn, nofun⟩)
  · obtain ⟨rfl, rfl⟩ := Prod.mk.inj (Option.some.inj h)
    exact .keep (.ended _) hn.1 nofun nofun
  · obtain ⟨rfl, rfl⟩ := Prod.mk.inj (Option.some.inj h)
    exact .keep (.ended _) hn.1 nofun nofun
  · obtain ⟨rfl, rfl⟩ := Prod.mk.inj (Option.some.inj h)
    exact ⟨.inr rfl, (or_iff_left nofun).trans hn.2⟩
  · obtain ⟨rfl, rfl⟩ := Prod.mk.inj (Option.some.inj h)
    exact .keep (.rollback _) ⟨rfl, hn⟩ nofun nofun
  · obtain ⟨rfl, rfl⟩ := Prod.mk.inj (Option.some.inj h)
    obtain ⟨hstarted, helapsed, hpanicked⟩ := hn
    exact .keep .rollingBack ⟨hstarted, helapsed, hpanicked.not.mpr nofun⟩ nofun nofun
  · obtain ⟨rfl, rfl⟩ := Prod.mk.inj (Option.some.inj h)
    obtain ⟨-, helapsed, hpanicked⟩ := hn
    exact .keep .notRolledBack ⟨helapsed, hpanicked.mpr rfl⟩ nofun nofun
  · obtain ⟨rfl, rfl⟩ := Prod.mk.inj (Option.some.inj h)
    exact .keep .settling hn nofun nofun
  · obtain ⟨rfl, rfl⟩ := Prod.mk.inj (Option.some.inj h)
    exact .keep .rolledBack ⟨hn.1, rfl, hn.2⟩ nofun nofun
  · obtain ⟨rfl, rfl⟩ := Prod.mk.inj (Option.some.inj h)
    exact .keep (.ended _) hn.1 nofun nofun
  · obtain ⟨-, rfl⟩ := Prod.mk.inj (Option.some.inj h)
    exact detach_noted (not_or.mpr ⟨hn.1, nofun⟩)
  · cases h

theorem Initialize.eq_settling {call : Initialize} (h : call.hold = some .settling) :
    call = .settling := by
  cases call with
  | settling => rfl
  | awaiting work => cases work <;> cases h
  | elapsed work => cases work <;> cases h
  | detached work => cases work <;> cases h
  | rollback work => cases work <;> cases h
  | locking => cases h
  | locked => cases h
  | rollingBack => cases h
  | rolledBack => cases h
  | notRolledBack => cases h
  | ended result => cases h

/-- Only the end of a rollback sets the flag of a completed shutdown. -/
theorem advanceInitialize_shutDown {i : Nat} {l l' : Lifecycle} {call call' : Initialize}
    {act : InitializeAct} (h : advanceInitialize l i call act = some (l', call'))
    (hdown : l'.shutDown = true) : l.shutDown = true ∨ call' = .rolledBack := by
  rcases (advanceInitialize_step h).settled hdown with hold | hsettling
  · exact .inl hold
  · obtain rfl := Initialize.eq_settling hsettling
    cases act <;> cases h
    exact .inr rfl

/-- The task of a `shutdown` is over when the engine is shut down. -/
theorem advanceTask_over {j : Nat} {l l' : Lifecycle} {task task' : ShutdownTask}
    {act : ShutdownAct} (h : advanceTask l j task act = some (l', task'))
    (hended : task' = .ended) : l'.shutDown = true := by
  subst hended
  unfold advanceTask at h
  split at h
  · obtain ⟨l₁, -, hpair⟩ := Option.map_eq_some_iff.mp h
    cases (Prod.mk.inj hpair).2
  · split at h
    · next hdown =>
      obtain ⟨rfl, -⟩ := Prod.mk.inj (Option.some.inj h)
      exact hdown
    · cases (Prod.mk.inj (Option.some.inj h)).2
  · cases (Prod.mk.inj (Option.some.inj h)).2
  · obtain ⟨rfl, -⟩ := Prod.mk.inj (Option.some.inj h)
    rfl
  · cases h

/-! ## Runs -/

/-- What holds in the state after the events `es`. -/
structure Noted (es : List Event) (s : State) : Prop where
  kept : s.lock.Kept discipline
  calls : ∀ (i : Nat) (call : Initialize), s.initializes[i]? = some call →
    call.Noted s.lifecycle (.initializeActs i .elapse ∈ es) (.initializeActs i (.work .panic) ∈ es)
  begun : ∀ i act, .initializeActs i act ∈ es → i < s.initializes.length
  called : .callShutdown ∈ es ↔ s.shutdowns ≠ []
  started : s.shutdowns ≠ [] → s.lifecycle.shutdownStarted = true
  ended : ∀ call ∈ s.shutdowns, call.task = .ended → s.lifecycle.shutDown = true
  ordered : s.lifecycle.shutDown = true → s.lifecycle.shutdownStarted = true
  shut : s.lifecycle.shutDown = true →
    s.shutdowns ≠ [] ∨ ∃ i : Nat, s.initializes[i]? = some .rolledBack

theorem mem_snoc_of_ne {e e' : Event} {es : List Event} (h : e ≠ e') :
    e ∈ es ++ [e'] ↔ e ∈ es := by
  rw [List.mem_append, List.mem_singleton]
  exact or_iff_left h

theorem mem_snoc_acts {i : Nat} {act act' : InitializeAct} {es : List Event} :
    .initializeActs i act ∈ es ++ [.initializeActs i act'] ↔
      .initializeActs i act ∈ es ∨ act' = act := by
  rw [List.mem_append, List.mem_singleton, Event.initializeActs.injEq, eq_comm (a := act)]
  exact or_congr_right (and_iff_right rfl)

theorem noted_new : Noted [] .new where
  kept := ⟨fun _ => .inl ⟨rfl, nofun⟩, (fun o h hh => by cases o <;> cases hh), nofun⟩
  calls := nofun
  begun := nofun
  called := iff_of_false nofun fun h => h rfl
  started h := absurd rfl h
  ended := nofun
  ordered := nofun
  shut := nofun

/-- An event that is neither an initialize's nor a call of `shutdown`, and changes nothing. -/
theorem Noted.snoc {es : List Event} {s : State} (h : Noted es s) {e : Event}
    (hacts : ∀ i act, .initializeActs i act ≠ e) (hcall : .callShutdown ≠ e) :
    Noted (es ++ [e]) s where
  kept := h.kept
  calls i call hi := by
    rw [mem_snoc_of_ne (hacts i _), mem_snoc_of_ne (hacts i _)]
    exact h.calls i call hi
  begun i act hmem := h.begun i act ((mem_snoc_of_ne (hacts i act)).mp hmem)
  called := (mem_snoc_of_ne hcall).trans h.called
  started := h.started
  ended := h.ended
  ordered := h.ordered
  shut := h.shut

/-- A call that begins waits for the lock. -/
theorem Noted.beginInitialize {es : List Event} {s : State} (h : Noted es s) :
    Noted es s.beginInitialize where
  kept := by
    have hhold : s.beginInitialize.hold = s.hold := by
      funext o
      cases o with
      | initializing i => exact bind_append rfl i
      | shuttingDown j => rfl
    rw [State.lock, hhold]
    exact h.kept
  calls i call hi := by
    by_cases hlt : i < s.initializes.length
    · rw [State.beginInitialize, List.getElem?_append_left hlt] at hi
      exact h.calls i call hi
    · rw [State.beginInitialize, List.getElem?_append_right (Nat.le_of_not_lt hlt)] at hi
      obtain rfl := List.mem_singleton.mp (List.mem_of_getElem? hi)
      exact ⟨fun hmem => hlt (h.begun i _ hmem), fun hmem => hlt (h.begun i _ hmem)⟩
  begun i act hmem := by
    rw [State.beginInitialize, List.length_append]
    exact Nat.lt_add_right _ (h.begun i act hmem)
  called := h.called
  started := h.started
  ended := h.ended
  ordered := h.ordered
  shut hdown := by
    rcases h.shut hdown with hcalled | ⟨i, hi⟩
    · exact .inl hcalled
    · refine .inr ⟨i, ?_⟩
      rw [State.beginInitialize, List.getElem?_append_left (List.getElem?_eq_some_iff.mp hi).1]
      exact hi

theorem Noted.startShutdown {es : List Event} {s : State} (h : Noted es s) :
    Noted (es ++ [.callShutdown]) s.startShutdown where
  kept := by
    have hhold : s.startShutdown.hold = s.hold := by
      funext o
      cases o with
      | initializing i => rfl
      | shuttingDown j => exact bind_append rfl j
    rw [State.lock, hhold]
    exact h.kept
  calls i call hi := by
    have hne : ∀ act, Event.initializeActs i act ≠ .callShutdown := fun _ => nofun
    rw [mem_snoc_of_ne (hne _), mem_snoc_of_ne (hne _)]
    exact (h.calls i call hi).mono (fun _ => rfl) id
  begun i act hmem := h.begun i act ((mem_snoc_of_ne (by rintro ⟨⟩)).mp hmem)
  called := iff_of_true (List.mem_append_right es (List.mem_singleton_self _))
    (List.append_ne_nil_of_right_ne_nil _ nofun)
  started _ := rfl
  ended call hmem hended := by
    rcases List.mem_append.mp hmem with hold | hnew
    · exact h.ended call hold hended
    · obtain rfl := List.mem_singleton.mp hnew
      cases hended
  ordered _ := rfl
  shut _ := .inl (List.append_ne_nil_of_right_ne_nil _ nofun)

theorem Noted.initializeActs {es : List Event} {s : State} (h : Noted es s) {i : Nat}
    {call call' : Initialize} {l : Lifecycle} {act : InitializeAct}
    (hi : s.initializes[i]? = some call)
    (hact : advanceInitialize s.lifecycle i call act = some (l, call')) :
    Noted (es ++ [.initializeActs i act])
      { s with lifecycle := l, initializes := s.initializes.set i call' } := by
  have hlt : i < s.initializes.length := (List.getElem?_eq_some_iff.mp hi).1
  have hstep := advanceInitialize_step hact
  have hnoted' : call'.Noted l _ _ := advanceInitialize_noted hact (h.calls i call hi)
  refine ⟨?_, fun k c hk => ?_, fun k act' hmem => ?_, ?_, fun hne => hstep.started (h.started hne),
    fun c hmem hended => hstep.shutDown (h.ended c hmem hended), fun hdown => ?_, fun hdown => ?_⟩
  · have hturn := hstep.turn h.ordered
    rw [← hold_initializing hi] at hturn
    rw [State.lock, hold_set_initialize hi]
    exact h.kept.turn hturn
  · by_cases hki : k = i
    · subst hki
      rw [List.getElem?_set_self hlt] at hk
      obtain rfl := Option.some.inj hk
      rw [mem_snoc_acts, mem_snoc_acts]
      exact hnoted'
    · have hne : ∀ act', Event.initializeActs k act' ≠ .initializeActs i act :=
        fun _ heq => hki (Event.initializeActs.inj heq).1
      rw [List.getElem?_set_ne (Ne.symm hki)] at hk
      rw [mem_snoc_of_ne (hne _), mem_snoc_of_ne (hne _)]
      exact (h.calls k c hk).mono hstep.started hstep.shutDown
  · rw [List.length_set]
    rcases List.mem_append.mp hmem with hold | hnew
    · exact h.begun k act' hold
    · obtain ⟨rfl, -⟩ := Event.initializeActs.inj (List.mem_singleton.mp hnew)
      exact hlt
  · exact (mem_snoc_of_ne (by rintro ⟨⟩)).trans h.called
  · rcases advanceInitialize_shutDown hact hdown with hold | rfl
    · exact hstep.started (h.ordered hold)
    · exact hnoted'.1
  · rcases advanceInitialize_shutDown hact hdown with hold | rfl
    · rcases h.shut hold with hcalled | ⟨k, hk⟩
      · exact .inl hcalled
      · have hki : i ≠ k := by
          -- nothing is left of a rolled back call
          rintro rfl
          obtain rfl := Option.some.inj (hi.symm.trans hk)
          cases act <;> cases hact
        exact .inr ⟨k, (List.getElem?_set_ne hki).trans hk⟩
    · exact .inr ⟨i, List.getElem?_set_self hlt⟩

/-- A step of a `shutdown` call moves its task, or its awaitable. -/
theorem advanceShutdown_cases {j : Nat} {l l' : Lifecycle} {call call' : Shutdown}
    {act : ShutdownAct} (h : advanceShutdown l j call act = some (l', call')) :
    advanceTask l j call.task act = some (l', call'.task) ∨
      (l' = l ∧ call'.task = call.task) := by
  unfold advanceShutdown at h
  split at h
  · next htask =>
    obtain ⟨rfl, rfl⟩ := Prod.mk.inj (Option.some.inj h)
    exact .inl htask
  · obtain ⟨awaitable, -, hpair⟩ := Option.map_eq_some_iff.mp h
    obtain ⟨rfl, rfl⟩ := Prod.mk.inj hpair
    exact .inr ⟨rfl, rfl⟩

theorem advanceShutdown_step {j : Nat} {l l' : Lifecycle} {call call' : Shutdown}
    {act : ShutdownAct} (h : advanceShutdown l j call act = some (l', call')) :
    TaskStep (.shuttingDown j) l l' call.task.hold call'.task.hold := by
  rcases advanceShutdown_cases h with htask | ⟨rfl, htask⟩
  · exact advanceTask_step htask
  · rw [htask]
    exact .idle

theorem Noted.shutdownActs {es : List Event} {s : State} (h : Noted es s) {j : Nat}
    {call call' : Shutdown} {l : Lifecycle} {act : ShutdownAct}
    (hj : s.shutdowns[j]? = some call)
    (hact : advanceShutdown s.lifecycle j call act = some (l, call')) :
    Noted (es ++ [.shutdownActs j act])
      { s with lifecycle := l, shutdowns := s.shutdowns.set j call' } := by
  have hstep := advanceShutdown_step hact
  have hcalled : s.shutdowns ≠ [] := List.ne_nil_of_mem (List.mem_of_getElem? hj)
  have hset : s.shutdowns.set j call' ≠ [] :=
    fun hnil => hcalled ((List.set_eq_nil_iff j call').mp hnil)
  have hflag : l.shutdownStarted = true := hstep.started (h.started hcalled)
  have hne : ∀ i act', Event.initializeActs i act' ≠ .shutdownActs j act := fun _ _ => nofun
  refine ⟨?_, fun k c hk => ?_, fun k act' hmem => ?_, ?_, fun _ => hflag, fun c hmem hended => ?_,
    fun _ => hflag, fun _ => .inl hset⟩
  · have hturn := hstep.turn h.ordered
    rw [← hold_shuttingDown hj] at hturn
    rw [State.lock, hold_set_shutdown hj]
    exact h.kept.turn hturn
  · rw [mem_snoc_of_ne (hne _ _), mem_snoc_of_ne (hne _ _)]
    exact (h.calls k c hk).mono hstep.started hstep.shutDown
  · exact h.begun k act' ((mem_snoc_of_ne (hne _ _)).mp hmem)
  · exact iff_of_true (List.mem_append_left _ (h.called.mpr hcalled)) hset
  · rcases List.mem_or_eq_of_mem_set hmem with hold | rfl
    · exact hstep.shutDown (h.ended c hold hended)
    · rcases advanceShutdown_cases hact with htask | ⟨rfl, htask⟩
      · exact advanceTask_over htask hended
      · exact h.ended call (List.mem_of_getElem? hj) (htask.symm.trans hended)

theorem step_noted {es : List Event} {s s' : State} {e : Event} (h : Noted es s)
    (hs : step s e = some s') : Noted (es ++ [e]) s' := by
  cases e with
  | callInitialize =>
    obtain rfl := Option.some.inj hs
    exact h.beginInitialize.snoc (fun _ _ => nofun) nofun
  | callPyInitialize =>
    obtain rfl := Option.some.inj hs
    split
    · exact h.snoc (fun _ _ => nofun) nofun
    · exact h.beginInitialize.snoc (fun _ _ => nofun) nofun
  | callShutdown =>
    obtain rfl := Option.some.inj hs
    exact h.startShutdown
  | initializeActs i act =>
    simp only [step] at hs
    split at hs
    · next call hi =>
      obtain ⟨r, hr, rfl⟩ := Option.map_eq_some_iff.mp hs
      exact h.initializeActs hi hr
    · cases hs
  | shutdownActs j act =>
    simp only [step] at hs
    split at hs
    · next call hj =>
      obtain ⟨r, hr, rfl⟩ := Option.map_eq_some_iff.mp hs
      exact h.shutdownActs hj hr
    · cases hs

/-- **What the state tells of the run so far.** -/
theorem run_noted {es : List Event} {s : State} (hrun : lifecycle.run .new es = some s) :
    Noted es s :=
  lifecycle.run_history (fun _ _ _ _ => step_noted) noted_new hrun

/-! ## The order of the calls -/

/-- The engine's `initialize` is in progress. -/
def State.Initializing (s : State) : Prop :=
  ∃ call ∈ s.initializes, call = .awaiting .running ∨ call = .elapsed .running ∨
    call = .detached .running ∨ call = .rollback .running

/-- The engine's `shutdown` is in progress, in a rollback or in the task of a `shutdown` call. -/
def State.ShuttingDown (s : State) : Prop :=
  (.rollingBack ∈ s.initializes) ∨ ∃ call ∈ s.shutdowns, call.task = .stopping

/-- No initialize in the log has a shutdown before it. -/
def InitializesFirst (log : List EngineEvent) : Prop :=
  log.Pairwise fun later earlier => ¬ (later = .initializeStarted ∧ earlier = .shutdownStarted)

/-- One at a time, one shutdown, and no initialize after it. -/
structure Orderly (s : State) : Prop where
  exclusive : ¬ (s.Initializing ∧ s.ShuttingDown)
  once : s.lifecycle.log.count .shutdownEnded ≤ 1
  terminal : InitializesFirst s.lifecycle.log

/-- No task of the call runs, nor does the call: it waits for the lock or has its result to take,
or nothing is left of it. -/
def Initialize.Resting : Initialize → Prop
  | .locking | .awaiting (.finished _) | .awaiting .panicked => True
  | .rolledBack | .notRolledBack | .ended _ => True
  | _ => False

def Quiescent (s : State) : Prop :=
  (∀ call ∈ s.initializes, call.Resting) ∧ ∀ call ∈ s.shutdowns, call.task = .ended

/-- A shutdown was called, or an initialize timed out on the engine. -/
def Due (es : List Event) : Prop :=
  .callShutdown ∈ es ∨ ∃ i, .initializeActs i .elapse ∈ es

/-- A shutdown was called, or an initialize that timed out on the engine did not panic. -/
def DueAlive (es : List Event) : Prop :=
  .callShutdown ∈ es ∨
    ∃ i, .initializeActs i .elapse ∈ es ∧ .initializeActs i (.work .panic) ∉ es

/-- The engine was shut down, and no initialize came after. -/
def ShutDownLast (s : State) : Prop :=
  ∃ after before, s.lifecycle.log = after ++ .shutdownEnded :: .shutdownStarted :: before ∧
    ∀ e ∈ after, e.isInitialize = false

theorem hold_of_initializing {s : State} (h : s.Initializing) :
    ∃ o, s.lock.hold o = some .busy := by
  obtain ⟨call, hmem, hcall⟩ := h
  obtain ⟨i, hi⟩ := List.getElem?_of_mem hmem
  refine ⟨.initializing i, (hold_initializing hi).trans ?_⟩
  rcases hcall with rfl | rfl | rfl | rfl <;> rfl

theorem hold_of_shuttingDown {s : State} (h : s.ShuttingDown) :
    ∃ o, s.lock.hold o = some .stopping := by
  rcases h with hmem | ⟨call, hmem, htask⟩
  · obtain ⟨i, hi⟩ := List.getElem?_of_mem hmem
    exact ⟨.initializing i, hold_initializing hi⟩
  · obtain ⟨j, hj⟩ := List.getElem?_of_mem hmem
    exact ⟨.shuttingDown j, (hold_shuttingDown hj).trans (congrArg _ htask)⟩

theorem Untouched.not_mem {log : List EngineEvent} (h : Untouched log) {e : EngineEvent}
    (he : e.isInitialize = false) : e ∉ log := fun hmem => by
  rw [h e hmem] at he
  cases he

/-- What the engine has done, whoever holds the lock. -/
theorem Noted.log_cases {es : List Event} {s : State} (h : Noted es s) :
    Untouched s.lifecycle.log ∨ Stopping s.lifecycle.log ∨ Stopped s.lifecycle.log := by
  have hrest : AtRest s.lifecycle.shared → Untouched s.lifecycle.log ∨ Stopped s.lifecycle.log :=
    fun hrest => hrest.imp And.right And.right
  rcases h.kept.shared_cases with hfree | ⟨o, hold, -, hduring⟩
  · exact (hrest hfree).imp_right .inr
  · cases hold with
    | idle => exact (hrest hduring).imp_right .inr
    | busy => exact .inl hduring.2
    | stopping => exact .inr (.inl hduring.2)
    | settling => exact .inr (.inr hduring.2)

theorem Untouched.initializesFirst {log : List EngineEvent} (h : Untouched log) :
    InitializesFirst log :=
  List.pairwise_of_forall_mem_list fun _ _ _ he hpair => h.not_mem rfl (hpair.2 ▸ he)

theorem InitializesFirst.cons {log : List EngineEvent} (h : InitializesFirst log)
    {e : EngineEvent} (he : e ≠ .initializeStarted) : InitializesFirst (e :: log) :=
  List.pairwise_cons.mpr ⟨fun _ _ hpair => he hpair.1, h⟩

theorem Noted.orderly {es : List Event} {s : State} (h : Noted es s) : Orderly s where
  exclusive := by
    rintro ⟨hinit, hdown⟩
    obtain ⟨o, ho⟩ := hold_of_initializing hinit
    obtain ⟨o', ho'⟩ := hold_of_shuttingDown hdown
    cases (h.kept.exclusive ho ho').2
  once := by
    have hzero : ∀ {log : List EngineEvent}, Untouched log → log.count .shutdownEnded = 0 :=
      fun hlog => List.count_eq_zero_of_not_mem (hlog.not_mem rfl)
    rcases h.log_cases with hlog | ⟨before, hlog, hbefore⟩ | ⟨before, hlog, hbefore⟩
    · simp only [hzero hlog, Nat.zero_le]
    · simp [hlog, hzero hbefore]
    · simp [hlog, hzero hbefore]
  terminal := by
    rcases h.log_cases with hlog | ⟨before, hlog, hbefore⟩ | ⟨before, hlog, hbefore⟩
    · exact hlog.initializesFirst
    · rw [hlog]
      exact hbefore.initializesFirst.cons (by rintro ⟨⟩)
    · rw [hlog]
      exact (hbefore.initializesFirst.cons (by rintro ⟨⟩)).cons (by rintro ⟨⟩)

/-- An engine whose shutdown has completed. -/
theorem Noted.shutDownLast {es : List Event} {s : State} (h : Noted es s)
    (hdown : s.lifecycle.shutDown = true) : ShutDownLast s := by
  have hrest : AtRest s.lifecycle.shared → ShutDownLast s := fun hrest => by
    rcases hrest with ⟨hup, -⟩ | ⟨-, before, hlog, -⟩
    · cases hdown.symm.trans hup
    · exact ⟨[], before, hlog, nofun⟩
  rcases h.kept.shared_cases with hfree | ⟨o, hold, -, hduring⟩
  · exact hrest hfree
  · cases hold with
    | idle => exact hrest hduring
    | busy => cases hdown.symm.trans hduring.1
    | stopping => cases hdown.symm.trans hduring.1
    | settling => cases hdown.symm.trans hduring.1

/-- A shutdown that has completed was called, or rolled an initialize back. -/
theorem Noted.dueAlive_of_shutDownLast {es : List Event} {s : State} (h : Noted es s)
    (hlast : ShutDownLast s) : DueAlive es := by
  have hmem : .shutdownEnded ∈ s.lifecycle.log := by
    obtain ⟨after, before, hlog, -⟩ := hlast
    rw [hlog]
    exact List.mem_append_right _ (List.mem_cons_self ..)
  have hrest : AtRest s.lifecycle.shared → DueAlive es := fun hrest => by
    rcases hrest with ⟨-, hlog⟩ | ⟨hdown, -⟩
    · exact absurd hmem (hlog.not_mem rfl)
    · rcases h.shut hdown with hcalled | ⟨i, hi⟩
      · exact .inl (h.called.mpr hcalled)
      · obtain ⟨-, -, helapsed, hpanicked⟩ := h.calls i _ hi
        exact .inr ⟨i, helapsed, hpanicked⟩
  rcases h.kept.shared_cases with hfree | ⟨o, hold, ho, hduring⟩
  · exact hrest hfree
  · cases hold with
    | idle => exact hrest hduring
    | busy => exact absurd hmem (hduring.2.not_mem rfl)
    | stopping =>
      obtain ⟨-, before, hlog, hbefore⟩ := hduring
      have hmem' : EngineEvent.shutdownEnded ∈ .shutdownStarted :: before := hlog ▸ hmem
      rcases List.mem_cons.mp hmem' with heq | hin
      · cases heq
      · exact absurd hin (hbefore.not_mem rfl)
    | settling =>
      -- the shutdown has ended, and the task that ran it has not set its flag
      cases o with
      | initializing i =>
        obtain ⟨call, hi, hcall⟩ := Option.bind_eq_some_iff.mp ho
        obtain rfl := Initialize.eq_settling hcall
        obtain ⟨-, helapsed, hpanicked⟩ := h.calls i _ hi
        exact .inr ⟨i, helapsed, hpanicked⟩
      | shuttingDown j =>
        obtain ⟨call, hj, -⟩ := Option.bind_eq_some_iff.mp ho
        exact .inl (h.called.mpr (List.ne_nil_of_mem (List.mem_of_getElem? hj)))

/-- At rest, an initialize that timed out and did not panic was rolled back. -/
theorem Noted.shutDown_of_quiescent {es : List Event} {s : State} (h : Noted es s)
    (hquiet : Quiescent s) (hdue : DueAlive es) : s.lifecycle.shutDown = true := by
  obtain ⟨hcalls, htasks⟩ := hquiet
  rcases hdue with hcalled | ⟨i, helapsed, hpanicked⟩
  · obtain ⟨call, hcall⟩ := List.exists_mem_of_ne_nil _ (h.called.mp hcalled)
    exact h.ended call hcall (htasks call hcall)
  · have hlt : i < s.initializes.length := h.begun i _ helapsed
    have hnoted := h.calls i _ (List.getElem?_eq_getElem hlt)
    have hresting := hcalls _ (List.getElem_mem hlt)
    generalize s.initializes[i] = call at hnoted hresting
    cases call with
    | rolledBack => exact hnoted.2.1
    | notRolledBack => exact absurd hnoted.2 hpanicked
    | locking => exact absurd helapsed hnoted.1
    | awaiting work => exact absurd helapsed hnoted.1
    | ended result => exact absurd helapsed hnoted
    -- the others are not at rest
    | locked => exact hresting.elim
    | elapsed work => exact hresting.elim
    | detached work => exact hresting.elim
    | rollback work => exact hresting.elim
    | rollingBack => exact hresting.elim
    | settling => exact hresting.elim

/--
**The engine is initialized and shut down in order**, whatever the calls, their timers and their
cancellations, and however the engine's initializes end. Once nothing runs any more and a shutdown
is due, the engine was shut down last if and only if some shutdown was called, or one of the
initializes that timed out on the engine did not panic.
-/
theorem lifecycle_settled_iff {es : List Event} {s : State}
    (hrun : lifecycle.run .new es = some s) :
    Orderly s ∧ (Quiescent s → Due es → (ShutDownLast s ↔ DueAlive es)) := by
  have hnoted := run_noted hrun
  refine ⟨hnoted.orderly, fun hquiet _ => ⟨hnoted.dueAlive_of_shutDownLast, fun hdue => ?_⟩⟩
  exact hnoted.shutDownLast (hnoted.shutDown_of_quiescent hquiet hdue)

/-- An initialize that starts the engine's and times out. -/
def timingOut : List Event :=
  [.callPyInitialize, .initializeActs 0 .acquire, .initializeActs 0 .check,
    .initializeActs 0 (.work .start), .initializeActs 0 .elapse, .initializeActs 0 .rollBack]

/-- It ends, and is rolled back. -/
theorem lifecycle_settled_iff_rolled_back :
    ∃ s, lifecycle.run .new (timingOut ++ [.initializeActs 0 (.work (.finish true)),
        .initializeActs 0 .stop, .initializeActs 0 .stopped, .initializeActs 0 .settle]) = some s ∧
      Orderly s ∧ ShutDownLast s := by
  let s : State := ⟨⟨none, true, true, [.shutdownEnded, .shutdownStarted, .initializeEnded,
    .initializeStarted]⟩, [.rolledBack], []⟩
  have hrun : lifecycle.run .new (timingOut ++ [.initializeActs 0 (.work (.finish true)),
    .initializeActs 0 .stop, .initializeActs 0 .stopped, .initializeActs 0 .settle]) = some s := rfl
  have hsettled := lifecycle_settled_iff hrun
  refine ⟨s, hrun, hsettled.1, (hsettled.2 ?_ ?_).mpr ?_⟩
  · exact ⟨fun call hmem => List.mem_singleton.mp hmem ▸ trivial, nofun⟩
  · exact .inr ⟨0, by decide⟩
  · exact .inr ⟨0, by decide, by decide⟩

/-- It panics instead: the rollback finds no result, and gives up. -/
theorem panicked_rollback_skipped :
    ∃ s, lifecycle.run .new (timingOut ++ [.initializeActs 0 (.work .panic),
        .initializeActs 0 .giveUp]) = some s ∧
      Quiescent s ∧ Due (timingOut ++ [.initializeActs 0 (.work .panic),
        .initializeActs 0 .giveUp]) ∧ ¬ ShutDownLast s := by
  refine ⟨⟨⟨none, true, false, [.initializeEnded, .initializeStarted]⟩, [.notRolledBack], []⟩,
    rfl, ?_, ?_, ?_⟩
  · exact ⟨fun call hmem => List.mem_singleton.mp hmem ▸ trivial, nofun⟩
  · exact .inr ⟨0, by decide⟩
  · rintro ⟨after, before, hlog, -⟩
    have hmem : EngineEvent.shutdownEnded ∈
        after ++ .shutdownEnded :: .shutdownStarted :: before :=
      List.mem_append_right _ (List.mem_cons_self ..)
    rw [← hlog] at hmem
    revert hmem
    decide

end Cpex.Bindings.Manager
