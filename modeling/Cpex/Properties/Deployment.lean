import Cpex.Host.Deployment
import Cpex.Properties.ContextDeltas
import Cpex.Properties.LifecycleSteps
import Cpex.Properties.Wire

/-!
# From an invocation to the bytes of its worker

A plugin runs any number of invocations over processes that die and are replaced, and each process
answers any number of tasks at a time. Whatever happens in between, what an invocation returns is
what its own worker printed for its own task.

* `wire_hands` — what a step of a pipe does to the calls of its client
* `Progress` — the steps that take an invocation to its result
* `Linked` — what holds between the calls of the plugin and those of the clients
* `invocations_answered` — every result is the answer to the task of its invocation
-/

namespace Cpex.Host

open Cpex.Infra

/-! ## Steps of a client -/

namespace Worker

variable {cfg : Settings} {s s' : Client} {l : Label} {n : CallId} {w w' : Wire} {wl : WireLabel}

theorem Hands.idle (h : Hands cfg s l s') (hidle : s'.phase n = .idle) : s.phase n = .idle := by
  cases h with
  | still hphase => rwa [hphase] at hidle
  | moves c p hphase hnew =>
    by_cases hn : n = c
    · subst hn
      rw [hphase, Function.update_self] at hidle
      exact absurd hidle hnew
    · rwa [hphase, Function.update_of_ne hn] at hidle
  | handsOff c id line hold hphase =>
    by_cases hn : n = c
    · subst hn
      rw [hphase, Function.update_self] at hidle
      cases hidle
    · rwa [hphase, Function.update_of_ne hn] at hidle

theorem Hands.line (h : Hands cfg s l s') {line : String}
    (hline : (s'.phase n).line? = some line) : (s.phase n).line? = some line ∨
      ∃ id task, l = .call n id task ∧ Renders cfg s' n task line := by
  cases h with
  | still hphase =>
    rw [hphase] at hline
    exact .inl hline
  | moves c p hphase hnew hstarts hid hrenders =>
    by_cases hn : n = c
    · subst hn
      rw [hphase, Function.update_self] at hline
      exact hrenders line hline
    · rw [hphase, Function.update_of_ne hn] at hline
      exact .inl hline
  | handsOff c id line' hold hphase =>
    by_cases hn : n = c
    · subst hn
      rw [hphase, Function.update_self] at hline
      cases hline
    · rw [hphase, Function.update_of_ne hn] at hline
      exact .inl hline

theorem Hands.outbound (h : Hands cfg s l s') {line : String} (hmem : (n, line) ∈ s'.outbound) :
    (n, line) ∈ s.outbound ∨ (s.phase n).line? = some line := by
  cases h with
  | still hphase hid hout => exact .inl (hout ▸ hmem)
  | moves c p hphase hnew hstarts hid hrenders hearly hhanded hout => exact .inl (hout ▸ hmem)
  | handsOff c id line' hold hphase hid hout =>
    rw [hout] at hmem
    rcases List.mem_append.mp hmem with hbefore | hnow
    · exact .inl hbefore
    · obtain ⟨rfl, rfl⟩ := Prod.mk.inj (List.mem_singleton.mp hnow)
      rw [hold]
      exact .inr rfl

theorem Hands.requestId (h : Hands cfg s l s') (hbegun : s.phase n ≠ .idle) :
    s'.requestId n = s.requestId n := by
  cases h with
  | still hphase hid => rw [hid]
  | moves c p hphase hnew hstarts hid =>
    by_cases hn : n = c
    · subst hn
      exact hid n (.inr hbegun)
    · exact hid n (.inl hn)
  | handsOff c id line hold hphase hid => rw [hid]

theorem Hands.resolved (h : Hands cfg s l s') : s.resolved ⊆ s'.resolved := by
  cases h with
  | still hphase hid hout hres =>
    rw [hres]
    exact List.Subset.refl _
  | moves c p hphase hnew hstarts hid hline hearly hhanded hout hres =>
    rw [hres]
    exact List.subset_append_left _ _
  | handsOff c id line hold hphase hid hout hres =>
    rw [hres]
    exact List.Subset.refl _

theorem Hands.done (h : Hands cfg s l s') {r : Except HostError Json}
    (hdone : s'.phase n = .done r) : s.phase n = .done r ∨ (n, r) ∈ s'.resolved := by
  cases h with
  | still hphase =>
    rw [hphase] at hdone
    exact .inl hdone
  | moves c p hphase hnew hstarts hid hline hearly hhanded hout hres =>
    by_cases hn : n = c
    · subst hn
      rw [hphase, Function.update_self] at hdone
      rw [hres, hdone]
      exact .inr (List.mem_append_right _ (List.mem_singleton_self _))
    · rw [hphase, Function.update_of_ne hn] at hdone
      exact .inl hdone
  | handsOff c id line hold hphase =>
    by_cases hn : n = c
    · subst hn
      rw [hphase, Function.update_self] at hdone
      cases hdone
    · rw [hphase, Function.update_of_ne hn] at hdone
      exact .inl hdone

theorem stepClient_hands {l : Label} (hs : w.stepClient cfg l = some w') :
    Hands cfg w.client l w'.client := by
  obtain ⟨client, hstep, rfl⟩ := Option.map_eq_some_iff.mp hs
  exact hands_step hstep

/-- A step on the pipes takes at most one step of the client. -/
theorem wire_hands (hs : wireStep cfg w wl = some w') :
    w'.client = w.client ∨ ∃ l, Hands cfg w.client l w'.client ∧
      ∀ n id task, l = .call n id task → wl = .client l := by
  have hstep : ∀ {w₀ : Wire} {l : Label}, w₀.stepClient cfg l = some w' →
      w₀.client = w.client → (∀ n id task, l = .call n id task → wl = .client l) →
      w'.client = w.client ∨ ∃ l, Hands cfg w.client l w'.client ∧
        ∀ n id task, l = .call n id task → wl = .client l := by
    intro w₀ l h hclient hcall
    exact .inr ⟨l, hclient ▸ stepClient_hands h, hcall⟩
  cases wl with
  | client l =>
    simp only [wireStep] at hs
    split at hs
    · exact hstep hs rfl fun _ _ _ _ => rfl
    · cases hs
  | fillStdout f | fillStderr f =>
    simp only [wireStep] at hs
    split at hs
    · obtain ⟨r, -, rfl⟩ := Option.map_eq_some_iff.mp hs
      exact .inl rfl
    · cases hs
  | passStdout =>
    simp only [wireStep, Wire.passStdout] at hs
    split at hs
    · obtain ⟨⟨stdout, frame⟩, -, hs⟩ := Option.bind_eq_some_iff.mp hs
      cases frame with
      | none =>
        obtain rfl := Option.some.inj hs
        exact .inl rfl
      | some frame =>
        dsimp only at hs
        exact hstep hs rfl fun _ _ _ h => by cases h
    · cases hs
  | passStderr =>
    simp only [wireStep, Wire.passStderr] at hs
    split at hs
    · obtain ⟨⟨stderr, frame⟩, -, hs⟩ := Option.bind_eq_some_iff.mp hs
      cases frame with
      | none =>
        obtain rfl := Option.some.inj hs
        exact .inl rfl
      | some frame =>
        dsimp only at hs
        split at hs
        · obtain rfl := Option.some.inj hs
          exact .inl rfl
        · exact hstep hs rfl fun _ _ _ h => by cases h
    · cases hs
  | take =>
    simp only [wireStep, Wire.take] at hs
    split at hs
    · obtain ⟨o, -, rfl⟩ := Option.map_eq_some_iff.mp hs
      exact .inl rfl
    · cases hs
  | write k =>
    simp only [wireStep, Wire.write] at hs
    split at hs
    · split at hs
      · obtain rfl := Option.some.inj hs
        exact .inl rfl
      · cases hs
    · cases hs
  | flush | breakStdin | graceElapsed k | exited k status | killed k status =>
    simp only [wireStep] at hs
    split at hs <;> first
      | cases hs; done
      | obtain rfl := Option.some.inj hs
        exact .inl rfl
  | dropReceiver =>
    simp only [wireStep] at hs
    split at hs
    · exact hstep hs rfl fun _ _ _ h => by cases h
    · cases hs
  | shutdown =>
    obtain rfl := Option.some.inj hs
    refine .inl ?_
    simp only [Wire.shutdown]
    split
    · split
      · split <;> rfl
      · rfl
    · rfl

end Worker

/-! ## Steps of an invocation -/

namespace Lifecycle

variable {T : Types} {cfg : Worker.Settings} {σ : Setup T} {call : Call T} {c : CallId} {w : World}
  {id : WorkerId} {phase : Phase T} {action : Action} {r : World × Phase T}

/-- The phase is about a task that was sent, or about its answer. -/
def Phase.tells : Phase T → Bool
  | .awaitingReply _ _ | .answered _ _ | .finished (.invocation _ (.ok _)) => true
  | _ => false

/-- What a step of an invocation comes to: the task is sent, the worker answers, the answer is
converted, or neither. -/
inductive Progress (σ : Setup T) (call : Call T) (w : World) : Phase T → Action → Phase T → Prop
    where
  | sends {id : WorkerId} {task : Json} {shim : Option (ShimmedPayload T)}
      (hassembles : Assembles σ call (w.client id).reported task shim) :
      Progress σ call w (.dispatching id) (.dispatch none) (.awaitingReply id shim)
  | answers {id : WorkerId} {shim : Option (ShimmedPayload T)} {response : Json} :
      Progress σ call w (.awaitingReply id shim) (.reply (.ok response)) (.answered shim response)
  | returns {shim : Option (ShimmedPayload T)} {response : Json} :
      Progress σ call w (.answered shim response) .noteHealthy
        (.finished (converted σ call shim response))
  | aside {phase phase' : Phase T} {action : Action} (hquiet : phase'.tells = false) :
      Progress σ call w phase action phase'

theorem tells_launch : (launch σ c (.invokes call) w).2.tells = false := by
  unfold launch
  split
  · rfl
  · split
    · rfl
    · rfl

theorem tells_spawned : (spawned σ w).2.tells = false := by
  unfold spawned
  dsimp only
  split
  · rfl
  · rfl

theorem tells_verified {reply : Except HostError Json} :
    (verified σ c (.invokes call) w id reply).2.tells = false := by
  unfold verified
  dsimp only
  split
  · rfl
  · rfl
  · rfl

theorem tells_install : (install c (.invokes call) w id).2.tells = false := by
  unfold install
  dsimp only
  split
  · rfl
  · rfl

theorem tells_acquire : (acquire c (.invokes call) w).2.tells = false := by
  unfold acquire
  split
  · split
    · rfl
    · rfl
  · rfl

theorem tells_recheck {now : Nat} : (recheck c (.invokes call) w now).2.tells = false := by
  unfold recheck
  split
  · split
    · rfl
    · split
      · rfl
      · dsimp only
        split
        · rfl
        · rfl
  · rfl

theorem tells_serve : (serve w call id).2.tells = false := by
  unfold serve
  dsimp only
  split
  · rfl
  · rfl

theorem tells_releaseOwner {result : Except HostError Unit} :
    (releaseOwner σ result).tells = false := by
  unfold releaseOwner
  split
  · rfl
  · rfl

theorem tells_dropped (h : dropped c w phase = some r) : r.2.tells = false := by
  rcases dropped_phase h with hphase | ⟨op, hphase⟩
  · rw [hphase]
    rfl
  · rw [hphase]
    rfl

theorem progress_dispatch {refusal : Option HostError} :
    Progress σ call w (.dispatching id) (.dispatch refusal)
      (dispatch σ c (.invokes call) w call id refusal).2 := by
  unfold dispatch
  split
  · exact .aside rfl
  · exact .aside rfl
  · next hassembles => exact .sends hassembles

/-- **Every step of an invocation**, as its task and its answer see it. -/
theorem advance_progress (h : advance σ c (.invokes call) w phase action = some r) :
    Progress σ call w phase action r.2 := by
  have hsome : ∀ {r' : World × Phase T}, Progress σ call w phase action r'.2 → some r' = some r →
      Progress σ call w phase action r.2 := fun hr' hr => Option.some.inj hr ▸ hr'
  unfold advance at h
  split at h
  -- `launch_worker`
  · exact hsome (.aside rfl) h
  · exact hsome (.aside rfl) h
  · exact hsome (.aside rfl) h
  · exact hsome (.aside rfl) h
  · exact hsome (.aside rfl) h
  · exact hsome (.aside tells_spawned) h
  -- the rest of `respawn_worker`
  · exact hsome (.aside tells_verified) h
  · exact hsome (.aside tells_install) h
  · split at h
    · exact hsome (.aside rfl) h
    · cases h
  -- `worker` and `respawn_worker`
  · exact hsome (.aside tells_acquire) h
  · split at h
    · exact hsome (.aside rfl) h
    · cases h
  · exact hsome (.aside tells_recheck) h
  · split at h
    · exact hsome (.aside rfl) h
    · exact hsome (.aside rfl) h
  · split at h
    · exact hsome (.aside tells_launch) h
    · cases h
  -- `invoke`
  · exact hsome (.aside tells_serve) h
  · exact hsome (.aside rfl) h
  · exact hsome progress_dispatch h
  · exact hsome (.aside rfl) h
  · exact hsome .answers h
  · dsimp only at h
    split at h
    · exact hsome .returns h
    · cases h
  -- `shutdown`, which no invocation takes part in
  · dsimp only at h
    split at h
    · exact hsome (.aside rfl) h
    · exact hsome (.aside tells_releaseOwner) h
  · split at h
    · exact hsome (.aside tells_releaseOwner) h
    · cases h
  · exact hsome (.aside rfl) h
  · exact hsome (.aside rfl) h
  -- work that outlived its call
  · exact hsome (.aside rfl) h
  · exact hsome (.aside rfl) h
  · exact .aside (tells_dropped h)
  · cases h

/-! ## What is known of the calls -/

variable {s s' : Deployment T} {d : CallId} {sends : List Send} {wire wire' : Worker.Wire}
  {wl : Worker.WireLabel} {shim : Option (ShimmedPayload T)} {response : Json}

/-- The client of a process and the tasks that were sent to it. -/
structure Served (cfg : Worker.Settings) (sends : List Send) (id : WorkerId) (w : Worker.Wire) :
    Prop where
  piped : Worker.Piped cfg w
  task : ∀ n line, (w.client.phase n).line? = some line ∨ (n, line) ∈ w.client.outbound →
    ∃ send ∈ sends, send.worker = id ∧ send.number = n ∧
      Worker.Renders cfg w.client n send.task line
  done : ∀ n r, w.client.phase n = .done r → (n, r) ∈ w.client.resolved

/-- The response is that of a `send_task` with the task of the invocation. -/
def Own (σ : Setup T) (s : Deployment T) (c : CallId) (call : Call T)
    (shim : Option (ShimmedPayload T)) (response : Json) : Prop :=
  ∃ send ∈ s.sends, send.call = c ∧ (∃ reported, Assembles σ call reported send.task shim) ∧
    ∃ w, s.wires[send.worker]? = some w ∧ (send.number, .ok response) ∈ w.client.resolved

/-- What is known of an invocation where it stands. -/
def Stands (σ : Setup T) (s : Deployment T) (c : CallId) (call : Call T) : Phase T → Prop
  | .awaitingReply _ shim =>
    ∃ send, s.sending c = some send ∧ ∃ reported, Assembles σ call reported send.task shim
  | .answered shim response => Own σ s c call shim response
  | .finished (.invocation ctx (.ok fields)) => ∃ shim response, Own σ s c call shim response ∧
      .invocation ctx (.ok fields) = converted σ call shim response
  | _ => True

/-- What holds between the calls of the plugin and those of the clients. -/
structure Linked (cfg : Worker.Settings) (σ : Setup T) (s : Deployment T) : Prop where
  calls : ∀ c call phase, s.plugin.calls[c]? = some ⟨.invokes call, phase⟩ →
    Stands σ s c call phase
  sending : ∀ c send, s.sending c = some send → send ∈ s.sends ∧ send.call = c
  begun : ∀ send ∈ s.sends, ∃ w, s.wires[send.worker]? = some w ∧
    w.client.phase send.number ≠ .idle
  distinct : ∀ send ∈ s.sends, ∀ send' ∈ s.sends, send.worker = send'.worker →
    send.number = send'.number → send = send'
  served : ∀ id w, s.wires[id]? = some w → Served cfg s.sends id w

theorem linked_fresh (owners : Venv.OwnersFile) : Linked cfg σ (.fresh owners : Deployment T) where
  calls := fun _ _ _ h => by cases h
  sending := fun _ _ h => by cases h
  begun := fun _ h => by cases h
  distinct := fun _ h => by cases h
  served := fun _ _ h => by cases h

theorem stands_of_quiet (h : phase.tells = false) : Stands σ s c call phase := by
  cases phase with
  | awaitingReply | answered => cases h
  | finished outcome =>
    cases outcome with
    | lifecycle => trivial
    | invocation ctx result =>
      cases result with
      | error => trivial
      | ok => cases h
  | _ => trivial

/-! ## Clients -/

theorem Served.mono {sends' : List Send} (h : Served cfg sends id wire) (hsends : sends ⊆ sends') :
    Served cfg sends' id wire where
  piped := h.piped
  task := by
    intro n line hline
    obtain ⟨send, hmem, hsend⟩ := h.task n line hline
    exact ⟨send, hsends hmem, hsend⟩
  done := h.done

theorem served_spawned : Served cfg sends id .spawned where
  piped := Worker.piped_spawned
  task := by
    rintro n line (hline | hline)
    · cases hline
    · cases hline
  done := fun _ _ h => by cases h

/-- A step of a client whose new task, if it has one, was sent. -/
theorem Served.step (h : Served cfg sends id wire)
    (hs : Worker.wireStep cfg wire wl = some wire')
    (hcall : ∀ n requestId task, wl = .client (.call n requestId task) →
      ∃ send ∈ sends, send.worker = id ∧ send.number = n ∧ send.task = task) :
    Served cfg sends id wire' := by
  have hpiped := h.piped.step hs
  rcases Worker.wire_hands hs with hclient | ⟨l, hhands, hlabel⟩
  · refine ⟨hpiped, ?_, ?_⟩
    · rw [hclient]
      exact h.task
    · rw [hclient]
      exact h.done
  · have hkeep : ∀ n line, (wire.client.phase n).line? = some line ∨
        (n, line) ∈ wire.client.outbound → wire.client.phase n ≠ .idle →
        ∃ send ∈ sends, send.worker = id ∧ send.number = n ∧
          Worker.Renders cfg wire'.client n send.task line := by
      intro n line hline hbegun
      obtain ⟨send, hmem, hworker, hnumber, hrenders⟩ := h.task n line hline
      exact ⟨send, hmem, hworker, hnumber, hrenders.keep (hhands.requestId hbegun)⟩
    refine ⟨hpiped, ?_, ?_⟩
    · rintro n line (hline | hline)
      · rcases hhands.line hline with hold | ⟨requestId, task, rfl, hrenders⟩
        · exact hkeep n line (.inl hold) (Worker.Phase.ne_idle_of_line hold)
        · obtain ⟨send, hmem, hworker, hnumber, rfl⟩ := hcall n requestId task (hlabel n _ _ rfl)
          exact ⟨send, hmem, hworker, hnumber, hrenders⟩
      · rcases hhands.outbound hline with hold | hold
        · have hlate := (h.piped.handed.outbound n line hold).2
          exact hkeep n line (.inr hold) (Worker.Phase.ne_idle_of_late hlate)
        · exact hkeep n line (.inl hold) (Worker.Phase.ne_idle_of_line hold)
    · intro n r hdone
      rcases hhands.done hdone with hold | hnew
      · exact hhands.resolved (h.done n r hold)
      · exact hnew

/-- What was sent and returned stays, and what has begun stays begun. -/
structure Continues (s s' : Deployment T) : Prop where
  sends : s.sends ⊆ s'.sends
  wires : ∀ (id : WorkerId) (w : Worker.Wire), s.wires[id]? = some w →
    ∃ w' : Worker.Wire, s'.wires[id]? = some w' ∧ w.client.resolved ⊆ w'.client.resolved ∧
      ∀ n, w.client.phase n ≠ .idle → w'.client.phase n ≠ .idle

theorem continues_of_set (hwire : s.wires[id]? = some wire)
    (hs : Worker.wireStep cfg wire wl = some wire') (hwires : s'.wires = s.wires.set id wire')
    (hsends : s.sends ⊆ s'.sends) : Continues s s' := by
  refine ⟨hsends, fun j w hw => ?_⟩
  obtain ⟨hid, -⟩ := List.getElem?_eq_some_iff.mp hwire
  rw [hwires]
  by_cases hj : j = id
  · subst hj
    obtain rfl : wire = w := Option.some.inj (hwire.symm.trans hw)
    refine ⟨wire', List.getElem?_set_self hid, ?_⟩
    rcases Worker.wire_hands hs with hclient | ⟨l, hhands, -⟩
    · rw [hclient]
      exact ⟨List.Subset.refl _, fun _ h => h⟩
    · exact ⟨hhands.resolved, fun n hbegun hidle => hbegun (hhands.idle hidle)⟩
  · exact ⟨w, by rwa [List.getElem?_set_ne (Ne.symm hj)], List.Subset.refl _, fun _ h => h⟩

theorem continues_of_append {wires : List Worker.Wire} (hwires : s'.wires = s.wires ++ wires)
    (hsends : s'.sends = s.sends) : Continues s s' := by
  refine ⟨hsends ▸ List.Subset.refl _, fun id w hw => ?_⟩
  obtain ⟨hid, -⟩ := List.getElem?_eq_some_iff.mp hw
  refine ⟨w, ?_, List.Subset.refl _, fun _ h => h⟩
  rwa [hwires, List.getElem?_append_left hid]

theorem Own.mono (h : Own σ s c call shim response) (hcontinues : Continues s s') :
    Own σ s' c call shim response := by
  obtain ⟨send, hmem, hcall, hassembles, w, hw, hresolved⟩ := h
  obtain ⟨w', hw', hsub, -⟩ := hcontinues.wires _ w hw
  exact ⟨send, hcontinues.sends hmem, hcall, hassembles, w', hw', hsub hresolved⟩

theorem Stands.mono (h : Stands σ s c call phase) (hcontinues : Continues s s')
    (hsending : s'.sending c = s.sending c) : Stands σ s' c call phase := by
  cases phase with
  | awaitingReply id shim =>
    obtain ⟨send, hsend, hassembles⟩ := h
    exact ⟨send, hsending.trans hsend, hassembles⟩
  | answered shim response => exact Own.mono h hcontinues
  | finished outcome =>
    cases outcome with
    | lifecycle => trivial
    | invocation ctx result =>
      cases result with
      | error => trivial
      | ok fields =>
        obtain ⟨shim, response, hown, hconverted⟩ := h
        exact ⟨shim, response, hown.mono hcontinues, hconverted⟩
  | _ => trivial

/-! ## Steps of the deployment -/

variable {l : Label T} {plugin : State T} {n : Worker.CallId} {requestId : String} {task : Json}
  {result : Except HostError Json}

/-- A step of the plugin, where what is known of the call that steps is known of it afterwards. -/
theorem stands_step (h : ∀ c call phase, s.plugin.calls[c]? = some ⟨.invokes call, phase⟩ →
      Stands σ s c call phase)
    (hs : step σ s.plugin l = some plugin) (hcontinues : Continues s s')
    (hsending : ∀ d, (∀ action, l ≠ .act d action) → s'.sending d = s.sending d)
    (hown : ∀ d action call phase phase', l = .act d action →
      s.plugin.calls[d]? = some ⟨.invokes call, phase⟩ →
      Progress σ call s.plugin.world phase action phase' → Stands σ s d call phase →
      Stands σ s' d call phase') :
    ∀ c call phase, plugin.calls[c]? = some ⟨.invokes call, phase⟩ →
      Stands σ s' c call phase := by
  intro d call phase hd
  rcases step_cases hs with ⟨kind, rfl, rfl⟩ | ⟨c, action, entry, r, rfl, hentry, hadvance, rfl⟩ |
    ⟨id, rfl, rfl⟩ | ⟨owners, rfl, rfl⟩
  · rcases getElem?_begun hd with ⟨-, hnew⟩ | ⟨-, hold⟩
    · obtain ⟨rfl, rfl⟩ := Entry.mk.inj hnew
      trivial
    · exact (h d call phase hold).mono hcontinues (hsending d fun _ hl => by cases hl)
  · rcases getElem?_stepped hentry hd with ⟨rfl, hnew⟩ | ⟨hdc, hold⟩
    · obtain ⟨kind, phase₀⟩ := entry
      obtain ⟨rfl, rfl⟩ := Entry.mk.inj hnew
      exact hown d action call phase₀ r.2 rfl hentry (advance_progress hadvance)
        (h d call phase₀ hentry)
    · refine (h d call phase hold).mono hcontinues (hsending d fun _ hl => ?_)
      obtain ⟨rfl, -⟩ := Label.act.inj hl
      exact hdc rfl
  · exact (h d call phase hd).mono hcontinues (hsending d fun _ hl => by cases hl)
  · exact (h d call phase hd).mono hcontinues (hsending d fun _ hl => by cases hl)

/-- A number is drawn once. -/
theorem drawn_once (hs : Worker.wireStep cfg wire (.client (.call n requestId task)) = some wire') :
    wire.client.phase n = .idle ∧ wire'.client.phase n ≠ .idle := by
  obtain ⟨client, hstep, rfl⟩ := Option.map_eq_some_iff.mp hs
  simp only [Worker.step] at hstep
  split at hstep
  · next hidle =>
    obtain rfl := Option.some.inj hstep
    refine ⟨hidle, ?_⟩
    show (wire.client.beginSend cfg n requestId task).phase n ≠ .idle
    unfold Worker.Client.beginSend
    dsimp only
    split
    · simp [Worker.Client.setPhase]
    · split
      · split
        · simp [Worker.Client.resolve]
        · split
          · simp [Worker.Client.resolve]
          · simp [Worker.Client.setPhase]
      · simp [Worker.Client.resolve]
  · cases hstep

/-- A call comes to its `send_task` before there is an answer. -/
theorem quiet_of_outgoing {entry : Entry T} {x : WorkerId × Json}
    (h : outgoing σ w entry = some x) : entry.phase.tells = false := by
  unfold outgoing at h
  split at h
  · next hphase => rw [hphase]; rfl
  · next hphase => rw [hphase]; rfl
  · next hphase _ => rw [hphase]; rfl
  · cases h

theorem outgoing_dispatching (h : Assembles σ call (w.client id).reported task shim) :
    outgoing σ w ⟨.invokes call, .dispatching id⟩ = some (id, task) := by
  unfold outgoing
  dsimp only
  rw [show σ.plugin.assembleTask _ _ _ _ _ _ _ _ = _ from h]

theorem returned_cases (h : returned phase result = some action) :
    action = .answer result ∨ action = .reply result ∨ ∃ e, action = .dispatch (some e) := by
  unfold returned at h
  split at h
  · exact .inl (Option.some.inj h).symm
  · exact .inl (Option.some.inj h).symm
  · exact .inr (.inl (Option.some.inj h).symm)
  · next e => exact .inr (.inr ⟨e, (Option.some.inj h).symm⟩)
  · cases h

/-- Sends that are begun stay begun. -/
theorem Continues.begun (hcontinues : Continues s s') {send : Send}
    (h : ∃ w, s.wires[send.worker]? = some w ∧ w.client.phase send.number ≠ .idle) :
    ∃ w, s'.wires[send.worker]? = some w ∧ w.client.phase send.number ≠ .idle := by
  obtain ⟨w, hw, hbegun⟩ := h
  obtain ⟨w', hw', -, hstays⟩ := hcontinues.wires _ w hw
  exact ⟨w', hw', hstays _ hbegun⟩

/-- A step of one client keeps the others. -/
theorem served_set (h : ∀ id w, s.wires[id]? = some w → Served cfg s.sends id w)
    (hwire : s.wires[id]? = some wire) {sends' : List Send} (hsends : s.sends ⊆ sends')
    (hserved : Served cfg sends' id wire') :
    ∀ j w, (s.wires.set id wire')[j]? = some w → Served cfg sends' j w := by
  intro j w hw
  obtain ⟨hid, -⟩ := List.getElem?_eq_some_iff.mp hwire
  by_cases hj : j = id
  · subst hj
    rw [List.getElem?_set_self hid] at hw
    exact Option.some.inj hw ▸ hserved
  · rw [List.getElem?_set_ne (Ne.symm hj)] at hw
    exact (h j w hw).mono hsends

theorem linked_plugin (h : Linked cfg σ s) (hs : deploymentStep cfg σ s (.plugin l) = some s') :
    Linked cfg σ s' := by
  simp only [deploymentStep] at hs
  split at hs
  · next haside =>
    obtain ⟨plugin, hstep, rfl⟩ := Option.map_eq_some_iff.mp hs
    set wires := if launchesWorker l then s.wires ++ [.spawned] else s.wires with hwires
    obtain ⟨more, hmore, hspawned⟩ : ∃ more, wires = s.wires ++ more ∧
        ∀ w ∈ more, w = Worker.Wire.spawned := by
      rw [hwires]
      split
      · exact ⟨_, rfl, fun w hw => List.mem_singleton.mp hw⟩
      · exact ⟨[], (List.append_nil _).symm, fun w hw => by cases hw⟩
    have hcontinues : Continues s { s with plugin, wires } := continues_of_append hmore rfl
    refine ⟨stands_step h.calls hstep hcontinues (fun _ _ => rfl) ?_, h.sending,
      fun send hsend => hcontinues.begun (h.begun send hsend), h.distinct, fun id w hw => ?_⟩
    · rintro c action call phase phase' rfl hcall hprogress hstands
      cases hprogress with
      | sends hassembles =>
        have hnone : (s.plugin.calls[c]?).bind (outgoing σ s.plugin.world) = none :=
          Option.isNone_iff_eq_none.mp (Bool.and_eq_true_iff.mp haside).2
        rw [hcall, Option.bind_some, outgoing_dispatching hassembles] at hnone
        cases hnone
      | answers => cases haside
      | @returns shim response =>
        cases hresult : convertResponse σ.ppe call.now call.hookName shim call.payload
            call.extensions response with
        | error e =>
          rw [converted, hresult]
          trivial
        | ok fields =>
          rw [converted, hresult]
          exact ⟨shim, response, Own.mono hstands hcontinues, by rw [converted, hresult]⟩
      | aside hquiet => exact stands_of_quiet hquiet
    · have hw : wires[id]? = some w := hw
      rw [hmore] at hw
      rcases Nat.lt_or_ge id s.wires.length with hlt | hge
      · rw [List.getElem?_append_left hlt] at hw
        exact h.served id w hw
      · rw [List.getElem?_append_right hge] at hw
        rw [hspawned w (List.mem_of_getElem? hw)]
        exact served_spawned
  · cases hs

theorem calls_observe : (s.observe σ id wl).calls = s.plugin.calls := by
  unfold Deployment.observe
  split
  · rfl
  · rfl

theorem linked_wire (h : Linked cfg σ s) (hs : deploymentStep cfg σ s (.wire id wl) = some s') :
    Linked cfg σ s' := by
  simp only [deploymentStep] at hs
  split at hs
  · next hclient =>
    obtain ⟨s₁, hs₁, rfl⟩ := Option.map_eq_some_iff.mp hs
    obtain ⟨wire, hwire, hs₁⟩ := Option.bind_eq_some_iff.mp hs₁
    obtain ⟨wire', hstep, heq⟩ := Option.bind_eq_some_iff.mp hs₁
    obtain rfl := Option.some.inj heq
    have hcontinues : Continues s
        { s with wires := s.wires.set id wire', plugin := s.observe σ id wl } :=
      continues_of_set hwire hstep rfl (List.Subset.refl _)
    refine ⟨fun c call phase hcall => ?_, h.sending,
      fun send hsend => hcontinues.begun (h.begun send hsend), h.distinct,
      served_set h.served hwire (List.Subset.refl _) ((h.served id wire hwire).step hstep ?_)⟩
    · have hcall : (s.observe σ id wl).calls[c]? = _ := hcall
      rw [calls_observe] at hcall
      exact (h.calls c call phase hcall).mono hcontinues rfl
    · rintro n requestId task rfl
      cases hclient
  · cases hs

/-- What the beginning of a `send_task` does. -/
theorem beginSend_cases {c : CallId} (hs : s.beginSend cfg σ c n requestId = some s') :
    ∃ entry id task wire wire' plugin, s.plugin.calls[c]? = some entry ∧
      outgoing σ s.plugin.world entry = some (id, task) ∧ s.wires[id]? = some wire ∧
      Worker.wireStep cfg wire (.client (.call n requestId task)) = some wire' ∧
      (plugin = s.plugin ∨ step σ s.plugin (.act c (.dispatch none)) = some plugin) ∧
      s' = { plugin, wires := s.wires.set id wire',
             sending := Function.update s.sending c (some ⟨c, id, n, task⟩),
             sends := s.sends ++ [⟨c, id, n, task⟩] } := by
  unfold Deployment.beginSend at hs
  split at hs
  · next entry hentry hfree =>
    obtain ⟨⟨id, task⟩, houtgoing, hs⟩ := Option.bind_eq_some_iff.mp hs
    obtain ⟨wire, hwire, hs⟩ := Option.bind_eq_some_iff.mp hs
    obtain ⟨wire', hstep, hs⟩ := Option.bind_eq_some_iff.mp hs
    dsimp only at hs
    split at hs
    · obtain ⟨plugin, hplugin, heq⟩ := Option.bind_eq_some_iff.mp hs
      exact ⟨entry, id, task, wire, wire', plugin, hentry, houtgoing, hwire, hstep,
        .inr hplugin, (Option.some.inj heq).symm⟩
    · exact ⟨entry, id, task, wire, wire', s.plugin, hentry, houtgoing, hwire, hstep, .inl rfl,
        (Option.some.inj hs).symm⟩
  · cases hs

theorem linked_send {c : CallId}
    (h : Linked cfg σ s) (hs : deploymentStep cfg σ s (.send c n requestId) = some s') :
    Linked cfg σ s' := by
  obtain ⟨entry, id, task, wire, wire', plugin, hentry, houtgoing, hwire, hstep, hplugin, rfl⟩ :=
    beginSend_cases hs
  obtain ⟨hidle, hbegun⟩ := drawn_once hstep
  obtain ⟨hid, -⟩ := List.getElem?_eq_some_iff.mp hwire
  set send : Send := ⟨c, id, n, task⟩ with hsend
  set s' : Deployment T := {
    plugin
    wires := s.wires.set id wire'
    sending := Function.update s.sending c (some send)
    sends := s.sends ++ [send] } with hs'
  have hsends : s.sends ⊆ s.sends ++ [send] := List.subset_append_left _ _
  have hmem : send ∈ s.sends ++ [send] := List.mem_append_right _ (List.mem_singleton_self _)
  have hcontinues : Continues s s' := continues_of_set hwire hstep rfl hsends
  have hown : s'.sending c = some send := Function.update_self _ _ _
  have hother : ∀ d, d ≠ c → s'.sending d = s.sending d :=
    fun d hd => Function.update_of_ne hd _ _
  have hfresh : ∀ old ∈ s.sends, old.worker = id → old.number ≠ n := by
    rintro old hold rfl rfl
    obtain ⟨w, hw, hbefore⟩ := h.begun old hold
    obtain rfl : wire = w := Option.some.inj (hwire.symm.trans hw)
    exact hbefore hidle
  refine ⟨?_, fun d x hx => ?_, fun x hx => ?_, ?_, ?_⟩
  · rcases hplugin with rfl | hplugin
    · intro d call phase hcall
      by_cases hd : d = c
      · subst hd
        obtain rfl : entry = _ := Option.some.inj (hentry.symm.trans hcall)
        exact stands_of_quiet (quiet_of_outgoing houtgoing)
      · exact (h.calls d call phase hcall).mono hcontinues (hother d hd)
    · refine stands_step h.calls hplugin hcontinues
        (fun d hd => hother d fun heq => hd (.dispatch none) (by rw [heq])) ?_
      intro d action call phase phase' hlabel hcall hprogress hstands
      obtain ⟨rfl, rfl⟩ := Label.act.inj hlabel
      cases hprogress with
      | sends hassembles =>
        obtain rfl : entry = _ := Option.some.inj (hentry.symm.trans hcall)
        rw [outgoing_dispatching hassembles] at houtgoing
        obtain ⟨-, rfl⟩ := Prod.mk.inj (Option.some.inj houtgoing)
        exact ⟨send, hown, _, hassembles⟩
      | aside hquiet => exact stands_of_quiet hquiet
  · by_cases hd : d = c
    · subst hd
      obtain rfl : send = x := Option.some.inj (hown.symm.trans hx)
      exact ⟨hmem, rfl⟩
    · rw [hother d hd] at hx
      exact ⟨hsends (h.sending d x hx).1, (h.sending d x hx).2⟩
  · rcases List.mem_append.mp hx with hold | hnew
    · exact hcontinues.begun (h.begun x hold)
    · obtain rfl := List.mem_singleton.mp hnew
      exact ⟨wire', List.getElem?_set_self hid, hbegun⟩
  · intro x hx y hy hworker hnumber
    rcases List.mem_append.mp hx with hx | hx <;> rcases List.mem_append.mp hy with hy | hy
    · exact h.distinct x hx y hy hworker hnumber
    · obtain rfl := List.mem_singleton.mp hy
      exact absurd hnumber (hfresh x hx hworker)
    · obtain rfl := List.mem_singleton.mp hx
      exact absurd hnumber.symm (hfresh y hy hworker.symm)
    · rw [List.mem_singleton.mp hx, List.mem_singleton.mp hy]
  · refine served_set h.served hwire hsends
      (((h.served id wire hwire).mono hsends).step hstep ?_)
    rintro m rid task' hlabel
    cases hlabel
    exact ⟨send, hmem, rfl, rfl, rfl⟩

theorem linked_returns {c : CallId} (h : Linked cfg σ s)
    (hs : deploymentStep cfg σ s (.returns c) = some s') : Linked cfg σ s' := by
  simp only [deploymentStep, Deployment.endSend] at hs
  obtain ⟨send, hsend, hs⟩ := Option.bind_eq_some_iff.mp hs
  obtain ⟨wire, hwire, hs⟩ := Option.bind_eq_some_iff.mp hs
  obtain ⟨entry, hentry, hs⟩ := Option.bind_eq_some_iff.mp hs
  split at hs
  · next result hdone =>
    obtain ⟨action, haction, hs⟩ := Option.bind_eq_some_iff.mp hs
    obtain ⟨plugin, hstep, heq⟩ := Option.bind_eq_some_iff.mp hs
    obtain rfl := Option.some.inj heq
    have hcontinues : Continues s
        { s with plugin, sending := Function.update s.sending c none } :=
      continues_of_append (List.append_nil _).symm rfl
    refine ⟨stands_step h.calls hstep hcontinues (fun d hd => ?_) ?_, fun d x hx => ?_, h.begun,
      h.distinct, h.served⟩
    · exact Function.update_of_ne (fun heq => hd action (by rw [heq])) _ _
    · intro d action' call phase phase' hlabel hcall hprogress hstands
      obtain ⟨rfl, rfl⟩ := Label.act.inj hlabel
      obtain rfl : entry = _ := Option.some.inj (hentry.symm.trans hcall)
      cases hprogress with
      | sends =>
        rcases returned_cases haction with hanswer | hreply | ⟨e, hrefused⟩
        · cases hanswer
        · cases hreply
        · cases hrefused
      | answers =>
        obtain rfl := Action.reply.inj (Option.some.inj haction)
        obtain ⟨send', hsend', hassembles⟩ := hstands
        obtain rfl : send = send' := Option.some.inj (hsend.symm.trans hsend')
        obtain ⟨hmem, hcaller⟩ := h.sending _ send hsend
        exact ⟨send, hmem, hcaller, hassembles, wire, hwire,
          (h.served _ wire hwire).done _ _ hdone⟩
      | returns => cases haction
      | aside hquiet => exact stands_of_quiet hquiet
    · by_cases hd : d = c
      · subst hd
        cases (Function.update_self _ _ _).symm.trans hx
      · exact h.sending d x ((Function.update_of_ne hd _ _).symm.trans hx)
  · cases hs

theorem linked_drop {c : CallId} (h : Linked cfg σ s)
    (hs : deploymentStep cfg σ s (.drop c) = some s') : Linked cfg σ s' := by
  simp only [deploymentStep, Deployment.dropSend] at hs
  obtain ⟨send, hsend, hs⟩ := Option.bind_eq_some_iff.mp hs
  obtain ⟨s₁, hs₁, hs⟩ := Option.bind_eq_some_iff.mp hs
  obtain ⟨plugin, hstep, heq⟩ := Option.bind_eq_some_iff.mp hs
  obtain rfl := Option.some.inj heq
  obtain ⟨wire, hwire, hs₁⟩ := Option.bind_eq_some_iff.mp hs₁
  obtain ⟨wire', hcancel, heq⟩ := Option.bind_eq_some_iff.mp hs₁
  obtain rfl := Option.some.inj heq
  have hcontinues : Continues s { s with
      plugin
      wires := s.wires.set send.worker wire'
      sending := Function.update s.sending c none } :=
    continues_of_set hwire hcancel rfl (List.Subset.refl _)
  refine ⟨stands_step h.calls hstep hcontinues (fun d hd => ?_) ?_, fun d x hx => ?_,
    fun x hx => hcontinues.begun (h.begun x hx), h.distinct,
    served_set h.served hwire (List.Subset.refl _) ((h.served _ wire hwire).step hcancel ?_)⟩
  · exact Function.update_of_ne (fun heq => hd .cancel (by rw [heq])) _ _
  · intro d action call phase phase' hlabel hcall hprogress hstands
    obtain ⟨rfl, rfl⟩ := Label.act.inj hlabel
    cases hprogress with
    | aside hquiet => exact stands_of_quiet hquiet
  · by_cases hd : d = c
    · subst hd
      cases (Function.update_self _ _ _).symm.trans hx
    · exact h.sending d x ((Function.update_of_ne hd _ _).symm.trans hx)
  · intro n requestId task hlabel
    cases hlabel

/-- **Every step keeps what holds between the calls.** -/
theorem Linked.step {l : DeploymentLabel T} (h : Linked cfg σ s)
    (hs : deploymentStep cfg σ s l = some s') : Linked cfg σ s' := by
  cases l with
  | plugin l => exact linked_plugin h hs
  | wire id wl => exact linked_wire h hs
  | send c n requestId => exact linked_send h hs
  | returns c => exact linked_returns h hs
  | drop c => exact linked_drop h hs

/-! ## Results -/

/-- Line `n` of the stdout of a process is the answer to this invocation: it carries the id under
which the task of the invocation was handed to the process, and the outcome is what it converts
to. -/
inductive AnsweredAt (cfg : Worker.Settings) (σ : Setup T) (s : Deployment T) (c : CallId)
    (call : Call T) (outcome : Outcome T) (id : WorkerId) (n : Nat) : Prop where
  | intro {send : Send} {w : Worker.Wire} {shim : Option (ShimmedPayload T)}
      {requestId task : String} {line : List UInt8} {raw response : Json}
      (hsend : send ∈ s.sends) (hcall : send.call = c) (hworker : send.worker = id)
      (hassembles : ∃ reported, Assembles σ call reported send.task shim)
      (hwire : s.wires[id]? = some w)
      (hid : w.client.requestId send.number = some requestId)
      (hsent : ⟨some send.number, task⟩ ∈ w.sent)
      (hrenders : Worker.Renders cfg w.client send.number send.task task)
      (hdelivered : (n, send.number) ∈ w.client.deliveries)
      (hline : w.stdout.lines[n]? = some line)
      (hparsed : cfg.fromStr (Text.trim (Worker.lineText line)) = some raw)
      (hnames : raw.get? "request_id" = some (.string requestId))
      (hok : Worker.interpretResponse raw = .ok response)
      (houtcome : outcome = converted σ call shim response)

/-- How the invocations of a plugin are answered. -/
structure InvocationsAnswered (cfg : Worker.Settings) (σ : Setup T) (s : Deployment T) : Prop where
  answered : ∀ c call ctx fields,
    s.plugin.calls[c]? = some ⟨.invokes call, .finished (.invocation ctx (.ok fields))⟩ →
    ∃ id n, AnsweredAt cfg σ s c call (.invocation ctx (.ok fields)) id n
  /-- A line of a process answers one invocation. -/
  own : ∀ c call outcome d call' outcome' id n, AnsweredAt cfg σ s c call outcome id n →
    AnsweredAt cfg σ s d call' outcome' id n → c = d

/-- What a `send_task` returned stands in a line of its process. -/
theorem Own.answeredAt {outcome : Outcome T} (h : Own σ s c call shim response)
    (hlinked : Linked cfg σ s) (houtcome : outcome = converted σ call shim response) :
    ∃ id n, AnsweredAt cfg σ s c call outcome id n := by
  obtain ⟨send, hmem, hcall, hassembles, w, hw, hresolved⟩ := h
  have hserved := hlinked.served _ w hw
  obtain ⟨requestId, task, n, line, raw, hid, hsent, hdelivered, hline, -, hparsed, hnames, hok⟩ :=
    hserved.piped.answered.response _ _ hresolved
  obtain ⟨send', hmem', hworker, hnumber, hrenders⟩ :=
    hserved.task _ _ (.inr ((Worker.mem_sent_iff hserved.piped).mp hsent))
  obtain rfl := hlinked.distinct _ hmem' _ hmem hworker hnumber
  exact ⟨_, n, .intro hmem hcall rfl hassembles hw hid hsent hrenders hdelivered hline hparsed
    hnames hok houtcome⟩

theorem delivered_inj {deliveries : List (Nat × Worker.CallId)} {m m' : Worker.CallId} {k : Nat}
    (h : (deliveries.map Prod.fst).Nodup) (hm : (k, m) ∈ deliveries) (hm' : (k, m') ∈ deliveries) :
    m = m' := by
  have hpair := List.inj_on_of_nodup_map h hm hm' rfl
  exact (Prod.mk.inj hpair).2

/-- **What an invocation returns is what its own worker printed for its own task**, whatever dies,
is replaced, is cancelled or runs beside it: no line answers two invocations. -/
theorem invocations_answered (σ : Setup T) {owners : Venv.OwnersFile}
    {es : List (DeploymentLabel T)} (h : (deployment cfg σ).run (.fresh owners) es = some s) :
    InvocationsAnswered cfg σ s := by
  have hlinked : Linked cfg σ s :=
    (deployment cfg σ).run_preserves (fun _ _ _ hl hs => hl.step hs) (linked_fresh owners) h
  refine ⟨fun c call ctx fields hcall => ?_, ?_⟩
  · obtain ⟨shim, response, hown, houtcome⟩ := hlinked.calls c call _ hcall
    exact hown.answeredAt hlinked houtcome
  · rintro c call outcome d call' outcome' id n hc hd
    obtain ⟨hsend, hcaller, hworker, -, hwire, -, -, -, hdelivered, -, -, -, -, -⟩ := hc
    obtain ⟨hsend', hcaller', hworker', -, hwire', -, -, -, hdelivered', -, -, -, -, -⟩ := hd
    obtain rfl := Option.some.inj (hwire.symm.trans hwire')
    have hnumber := delivered_inj (hlinked.served id _ hwire).piped.answered.once hdelivered
      hdelivered'
    obtain rfl := hlinked.distinct _ hsend _ hsend' (hworker.trans hworker'.symm) hnumber
    exact hcaller.symm.trans hcaller'

/-- What the worker prints for the handshake and for the invocation. -/
def handshakeLine : String := "\x7b\"features\":[\"credential\"],\"request_id\":\"h\"\x7d"

def seenLine : String :=
  "\x7b\"context\":\x7b\"state\":\x7b\"seen\":true\x7d\x7d,\"request_id\":\"a\"\x7d"

/-- A worker that understands credentials, and hands state back. -/
def conversing : Worker.Settings :=
  { Worker.echoing with
    fromStr := fun line =>
      if line = handshakeLine then
        some (.object [("features", .array [.string "credential"]), ("request_id", .string "h")])
      else if line = seenLine then
        some (.object [("context", .object [("state", .object [("seen", .bool true)])]),
          ("request_id", .string "a")])
      else none }

/-- A `send_task` of call `c`, and what the worker prints meanwhile. -/
def exchange (c : CallId) (requestId : String) (chunk : Worker.Chunk) :
    List (DeploymentLabel Plain.types) :=
  [.send c c requestId, .wire 0 (.client (.register c)), .wire 0 (.client (.handOff c)),
    .wire 0 (.fillStdout (.chunk chunk)), .wire 0 .passStdout, .wire 0 (.client (.receive c)),
    .returns c]

def conversation : List (DeploymentLabel Plain.types) :=
  [.plugin (.call .initializes), .plugin (.act 0 .ensured), .plugin (.act 0 .registryWrites),
    .plugin (.act 0 .spawn)] ++
  exchange 0 "h" ⟨Utf8.encode (handshakeLine.toList ++ ['\n']), by decide⟩ ++
  [.plugin (.act 0 .install), .plugin (.call (.invokes resolveCall)), .plugin (.act 1 .acquire),
    .plugin (.act 1 .serve)] ++
  exchange 1 "a" ⟨Utf8.encode (seenLine.toList ++ ['\n']), by decide⟩ ++
  [.plugin (.act 1 .noteHealthy)]

/-- The state once both have talked. -/
def conversed : Deployment Plain.types :=
  ((deployment conversing resolverSetup).run (.fresh .absent) conversation).getD (.fresh .absent)

theorem invocations_answered_conversation : (∃ ctx fields, conversed.plugin.calls[1]? =
      some ⟨.invokes resolveCall, .finished (.invocation ctx (.ok fields))⟩) ∧
    InvocationsAnswered conversing resolverSetup conversed := by
  have hrun : (deployment conversing resolverSetup).run (.fresh .absent) conversation =
      some conversed := rfl
  exact ⟨⟨_, _, rfl⟩, invocations_answered resolverSetup hrun⟩

end Lifecycle

end Cpex.Host
