import Cpex.Host.Worker
import Cpex.Properties.Handshake
import Cpex.Properties.LifecycleSteps

/-!
# The context an invocation hands back

An invocation that gets no response, or an error envelope for one, hands its caller's context back
as it was. One that gets another response merges the state in it, whether the rest of the response
converts or not.

* `Merged` — a state map after a merge
* `SentWith` — how the payload of an invocation was translated for the task it sent
* `advance_pends`, `advance_answered` — one step of an invocation, before its reply and after it
* `Settled` — what is meant to hold of what an invocation hands back
* `settled_of_run` — it holds in every run
-/

namespace Cpex.Host.Lifecycle

open Cpex.Infra

variable {T : Types} {σ : Setup T} {c d : CallId} {call : Call T} {kind : Kind T} {w : World}
variable {phase : Phase T} {action : Action} {r : World × Phase T} {es : List (Label T)}
variable {s s' : State T} {e : Label T} {owners : Venv.OwnersFile}
variable {shim : Option (ShimmedPayload T)} {sent sent' : Option (ShimmedPayload T) → Prop}

/-! ## The merge -/

/-- The entries a worker returned of the plugin's own state. -/
def localDeltas (response : Json) : List (String × Json) :=
  (((response.get? "context").bind (Json.get? · "state")).bind Json.asObject).getD []

/-- The entries a worker returned of the state that plugins share. -/
def globalDeltas (response : Json) : List (String × Json) :=
  ((((response.get? "context").bind (Json.get? · "global_context")).bind
    (Json.get? · "state")).bind Json.asObject).getD []

/-- Each key in `deltas` has a value from there, and every other key what it had. -/
structure Merged (deltas : List (String × Json)) (old new : HashMap String Json) : Prop where
  returned : ∀ key ∈ deltas.map Prod.fst, ∃ value, (key, value) ∈ deltas ∧
    new.get? key = some value
  kept : ∀ key, key ∉ deltas.map Prod.fst → new.get? key = old.get? key

/-- The last entry of a key is the one that stays. -/
theorem get?_mergeState (old : HashMap String Json) (deltas : List (String × Json)) (key : String) :
    (mergeState old deltas).get? key = (Assoc.get? key deltas.reverse).or (old.get? key) :=
  HashMap.get?_foldl_insert key deltas old

theorem merged_mergeState (old : HashMap String Json) (deltas : List (String × Json)) :
    Merged deltas old (mergeState old deltas) where
  returned key hmem := by
    obtain ⟨⟨k, v⟩, hentry, rfl⟩ := List.mem_map.mp hmem
    have hsome : Assoc.get? k deltas.reverse ≠ none := by
      intro hnone
      exact Assoc.get?_eq_none_iff.mp hnone v (List.mem_reverse.mpr hentry)
    obtain ⟨value, hvalue⟩ := Option.ne_none_iff_exists'.mp hsome
    refine ⟨value, List.mem_reverse.mp (Assoc.mem_of_get? hvalue), ?_⟩
    rw [get?_mergeState, hvalue, Option.some_or]
  kept key hnot := by
    have hnone : Assoc.get? key deltas.reverse = none := by
      refine Assoc.get?_eq_none_iff.mpr fun v hentry => hnot ?_
      exact List.mem_map_of_mem (List.mem_reverse.mp hentry)
    rw [get?_mergeState, hnone, Option.none_or]

theorem applyContextDeltas_eq (response : Json) (ctx : PluginContext) :
    applyContextDeltas response ctx =
      ⟨mergeState ctx.localState (localDeltas response),
        mergeState ctx.globalState (globalDeltas response)⟩ := by
  unfold applyContextDeltas localDeltas globalDeltas
  cases response.get? "context" with
  | none => rfl
  | some context => rfl

/-! ## The task -/

/-- The task of an invocation for a worker with this report, and how its payload was translated. -/
def Assembles (σ : Setup T) (call : Call T) (reported : Option WorkerCapabilities) (task : Json)
    (shim : Option (ShimmedPayload T)) : Prop :=
  σ.plugin.assembleTask σ.toString σ.ppe call.hookName reported call.payload call.extensions
    call.ctx call.freshId = .ok (task, shim)

/-- The invocation sent its task in the course of the run, its payload translated like this for
what its worker had reported by then. -/
def SentWith (σ : Setup T) (owners : Venv.OwnersFile) (es : List (Label T)) (c : CallId)
    (call : Call T) (shim : Option (ShimmedPayload T)) : Prop :=
  ∃ before after s id task, es = before ++ .act c (.dispatch none) :: after ∧
    (plugin σ).run (.fresh owners) before = some s ∧
    s.calls[c]? = some ⟨.invokes call, .dispatching id⟩ ∧
    Assembles σ call (s.world.client id).reported task shim

theorem SentWith.later (h : SentWith σ owners es c call shim) :
    SentWith σ owners (es ++ [e]) c call shim := by
  obtain ⟨before, after, s, id, task, rfl, hrest⟩ := h
  exact ⟨before, after ++ [e], s, id, task, by rw [List.append_assoc]; rfl, hrest⟩

/-! ## Before the reply -/

/-- The invocation has no reply. If it is over, it failed, with the context as it was. -/
def Pends (sent : Option (ShimmedPayload T) → Prop) (call : Call T) : Phase T → Prop
  | .awaitingReply _ shim => sent shim
  | .answered _ _ => False
  | .finished (.invocation ctx result) => ctx = call.ctx ∧ ∃ e, result = .error e
  | _ => True

theorem Pends.mono (h : ∀ shim, sent shim → sent' shim) (hpends : Pends sent call phase) :
    Pends sent' call phase := by
  cases phase with
  | awaitingReply id shim => exact h shim hpends
  | answered shim response => exact hpends
  | finished outcome =>
    cases outcome with
    | lifecycle result => trivial
    | invocation ctx result => exact hpends
  | _ => trivial

theorem pends_fails {e : HostError} : Pends sent call (fails c (.invokes call) w e).2 :=
  ⟨rfl, e, rfl⟩

theorem pends_launch : Pends sent call (launch σ c (.invokes call) w).2 := by
  unfold launch
  split
  · trivial
  · split
    · trivial
    · exact pends_fails

theorem pends_spawned : Pends sent call (spawned σ w).2 := by
  unfold spawned
  dsimp only
  split <;> trivial

theorem pends_verified {id : WorkerId} {reply : Except HostError Json} :
    Pends sent call (verified σ c (.invokes call) w id reply).2 := by
  unfold verified
  dsimp only
  cases σ.verifyWorkerUnderstands reply <;> trivial

theorem pends_install {id : WorkerId} : Pends sent call (install c (.invokes call) w id).2 := by
  unfold install
  dsimp only
  split <;> trivial

theorem pends_acquire : Pends sent call (acquire c (.invokes call) w).2 := by
  unfold acquire
  cases w.worker with
  | none => exact pends_fails
  | some id =>
    dsimp only
    split <;> trivial

theorem pends_recheck {now : Nat} : Pends sent call (recheck c (.invokes call) w now).2 := by
  unfold recheck
  cases w.worker with
  | none => exact pends_fails
  | some id =>
    dsimp only
    split
    · trivial
    · split
      · exact pends_fails
      · split
        · trivial
        · exact pends_fails

theorem pends_serve {id : WorkerId} : Pends sent call (serve w call id).2 := by
  unfold serve
  dsimp only
  split <;> trivial

theorem pends_dispatch {id : WorkerId} {refusal : Option HostError}
    (hsent : ∀ task shim, refusal = none → Assembles σ call (w.client id).reported task shim →
      sent shim) :
    Pends sent call (dispatch σ c (.invokes call) w call id refusal).2 := by
  unfold dispatch
  split
  · exact pends_fails
  · exact pends_fails
  · next task shim hassembles => exact hsent task shim rfl hassembles

theorem pends_releaseOwner {result : Except HostError Unit} :
    Pends sent call (releaseOwner (T := T) σ result) := by
  unfold releaseOwner
  split <;> trivial

/-- A future is dropped before it is over. -/
theorem dropped_phase (h : dropped c w phase = some r) :
    r.2 = .cancelled ∨ ∃ op, r.2 = .detached op := by
  unfold dropped at h
  split at h
  · cases h
  · cases h
  · cases h
  · obtain rfl := Option.some.inj h
    exact .inr ⟨_, rfl⟩
  · obtain rfl := Option.some.inj h
    exact .inr ⟨_, rfl⟩
  · obtain rfl := Option.some.inj h
    exact .inl rfl

theorem pends_dropped (h : dropped c w phase = some r) : Pends sent call r.2 := by
  rcases dropped_phase h with hphase | ⟨op, hphase⟩
  · rw [hphase]
    trivial
  · rw [hphase]
    trivial

/-- **A step that brings no reply.** -/
theorem advance_pends (hpends : Pends sent call phase) (haction : ∀ reply, action ≠ .reply reply)
    (hsent : ∀ id task shim, phase = .dispatching id → action = .dispatch none →
      Assembles σ call (w.client id).reported task shim → sent shim)
    (h : advance σ c (.invokes call) w phase action = some r) : Pends sent call r.2 := by
  have hsome : ∀ {r' : World × Phase T}, Pends sent call r'.2 → some r' = some r →
      Pends sent call r.2 := fun hr' hr => Option.some.inj hr ▸ hr'
  have hopen : ∀ {w' : World} {phase' : Phase T}, (Pends sent call phase' ↔ True) →
      some (w', phase') = some r → Pends sent call r.2 :=
    fun hphase hr => hsome (hphase.mpr trivial) hr
  unfold advance at h
  split at h
  -- `launch_worker`
  · exact hsome pends_fails h
  · exact hopen Iff.rfl h
  · exact hsome pends_fails h
  · exact hopen Iff.rfl h
  · exact hsome pends_fails h
  · exact hsome pends_spawned h
  -- the rest of `respawn_worker`
  · exact hsome pends_verified h
  · exact hsome pends_install h
  · split at h
    · exact hsome pends_fails h
    · cases h
  -- `worker` and `respawn_worker`
  · exact hsome pends_acquire h
  · split at h
    · exact hopen Iff.rfl h
    · cases h
  · exact hsome pends_recheck h
  · split at h
    · exact hsome pends_fails h
    · exact hopen Iff.rfl h
  · split at h
    · exact hsome pends_launch h
    · cases h
  -- `invoke`
  · exact hsome pends_serve h
  · exact hopen Iff.rfl h
  · next id refusal =>
    refine hsome (pends_dispatch fun task shim hnone => ?_) h
    exact hsent id task shim rfl (by rw [hnone])
  · exact absurd rfl (haction _)
  · exact absurd rfl (haction _)
  · exact hpends.elim
  -- `shutdown`, which no invocation takes part in
  · dsimp only at h
    split at h
    · exact hopen Iff.rfl h
    · exact hsome pends_releaseOwner h
  · split at h
    · exact hsome pends_releaseOwner h
    · cases h
  · exact hopen Iff.rfl h
  · exact hopen Iff.rfl h
  -- work that outlived its call
  · exact hopen Iff.rfl h
  · exact hopen Iff.rfl h
  · exact pends_dropped h
  · cases h

/-! ## After the reply -/

/-- What an invocation hands back that got the reply. -/
def HandsBack (σ : Setup T) (sent : Option (ShimmedPayload T) → Prop) (call : Call T)
    (ctx : PluginContext) (result : Except HostError (ResultFields T)) :
    Except HostError Json → Prop
  | .error e => ctx = call.ctx ∧ result = .error e
  | .ok response => ctx = applyContextDeltas response call.ctx ∧
      ∃ shim, sent shim ∧ result = convertResponse σ.ppe call.now call.hookName shim call.payload
        call.extensions response

/-- The invocation has this reply. If it is over, the reply decided what it hands back. -/
def AnsweredBy (σ : Setup T) (sent : Option (ShimmedPayload T) → Prop) (call : Call T)
    (reply : Except HostError Json) : Phase T → Prop
  | .answered shim response => reply = .ok response ∧ sent shim
  | .finished (.invocation ctx result) => HandsBack σ sent call ctx result reply
  | .cancelled => True
  | _ => False

theorem HandsBack.mono {ctx : PluginContext} {result : Except HostError (ResultFields T)}
    {reply : Except HostError Json} (h : ∀ shim, sent shim → sent' shim)
    (hback : HandsBack σ sent call ctx result reply) : HandsBack σ sent' call ctx result reply := by
  cases reply with
  | error e => exact hback
  | ok response =>
    obtain ⟨hctx, shim, hshim, hresult⟩ := hback
    exact ⟨hctx, shim, h shim hshim, hresult⟩

theorem AnsweredBy.mono {reply : Except HostError Json} (h : ∀ shim, sent shim → sent' shim)
    (hanswered : AnsweredBy σ sent call reply phase) : AnsweredBy σ sent' call reply phase := by
  cases phase with
  | answered shim response => exact ⟨hanswered.1, h shim hanswered.2⟩
  | finished outcome =>
    cases outcome with
    | lifecycle _ => exact hanswered
    | invocation ctx result => exact HandsBack.mono h hanswered
  | cancelled => trivial
  | _ => exact hanswered

/-- **A reply arrives**: only a call that awaits it takes this step. -/
theorem advance_reply {reply : Except HostError Json} (hpends : Pends sent call phase)
    (h : advance σ c (.invokes call) w phase (.reply reply) = some r) :
    AnsweredBy σ sent call reply r.2 := by
  cases phase with
  | awaitingReply id shim =>
    cases reply with
    | error e =>
      obtain rfl := Option.some.inj h
      exact ⟨rfl, rfl⟩
    | ok response =>
      obtain rfl := Option.some.inj h
      exact ⟨rfl, hpends⟩
  | _ => cases h

/-- **A step of an invocation that has its reply.** -/
theorem advance_answered {reply : Except HostError Json}
    (hanswered : AnsweredBy σ sent call reply phase)
    (h : advance σ c (.invokes call) w phase action = some r) :
    AnsweredBy σ sent call reply r.2 ∧ ∀ reply', action ≠ .reply reply' := by
  cases phase with
  | answered shim response =>
    obtain ⟨rfl, hshim⟩ := hanswered
    cases action with
    | noteHealthy =>
      simp only [advance] at h
      split at h
      · obtain rfl := Option.some.inj h
        exact ⟨⟨rfl, shim, hshim, rfl⟩, nofun⟩
      · cases h
    | cancel =>
      obtain rfl := Option.some.inj h
      exact ⟨trivial, nofun⟩
    | _ => cases h
  | finished outcome => cases action <;> cases h
  | cancelled => cases action <;> cases h
  | _ => exact hanswered.elim

/-! ## Every run -/

/-- `send_task` returned this to the call: the response of its worker, or why there is none. -/
def Replied (es : List (Label T)) (c : CallId) (reply : Except HostError Json) : Prop :=
  .act c (.reply reply) ∈ es

theorem replied_append {reply : Except HostError Json} :
    Replied (es ++ [e]) c reply ↔ Replied es c reply ∨ .act c (.reply reply) = e := by
  rw [Replied, List.mem_append, List.mem_singleton, Replied]

/-- A step that is no reply to the call. -/
theorem replied_append_of_ne {reply : Except HostError Json} (h : .act c (.reply reply) ≠ e) :
    Replied (es ++ [e]) c reply ↔ Replied es c reply := by
  rw [replied_append, or_iff_left h]

/-- What is known of an invocation in the phase. -/
def Traces (σ : Setup T) (owners : Venv.OwnersFile) (es : List (Label T)) (c : CallId)
    (call : Call T) (phase : Phase T) : Prop :=
  ((∀ reply, ¬ Replied es c reply) ∧ Pends (SentWith σ owners es c call) call phase) ∨
    ∃ reply, (∀ reply', Replied es c reply' ↔ reply' = reply) ∧
      AnsweredBy σ (SentWith σ owners es c call) call reply phase

/-- A step that the call does not take. -/
theorem Traces.aside (h : Traces σ owners es c call phase)
    (he : ∀ reply, .act c (.reply reply) ≠ e) : Traces σ owners (es ++ [e]) c call phase := by
  rcases h with ⟨hnone, hpends⟩ | ⟨reply, honly, hanswered⟩
  · refine .inl ⟨fun reply => ?_, hpends.mono fun _ => SentWith.later⟩
    exact (replied_append_of_ne (he reply)).not.mpr (hnone reply)
  · refine .inr ⟨reply, fun reply' => ?_, hanswered.mono fun _ => SentWith.later⟩
    exact (replied_append_of_ne (he reply')).trans (honly reply')

/-- A step of the call. -/
theorem Traces.act (h : Traces σ owners es c call phase)
    (hrun : (plugin σ).run (.fresh owners) es = some s)
    (hentry : s.calls[c]? = some ⟨.invokes call, phase⟩)
    (hadvance : advance σ c (.invokes call) s.world phase action = some r) :
    Traces σ owners (es ++ [.act c action]) c call r.2 := by
  rcases h with ⟨hnone, hpends⟩ | ⟨reply, honly, hanswered⟩
  · have hpends' : Pends (SentWith σ owners (es ++ [.act c action]) c call) call phase :=
      hpends.mono fun _ => SentWith.later
    by_cases haction : ∃ reply, action = .reply reply
    · obtain ⟨reply, rfl⟩ := haction
      refine .inr ⟨reply, fun reply' => ?_, advance_reply hpends' hadvance⟩
      rw [replied_append, or_iff_right (hnone reply')]
      simp
    · rw [not_exists] at haction
      refine .inl ⟨fun reply => ?_, advance_pends hpends' haction ?_ hadvance⟩
      · refine (replied_append_of_ne fun heq => ?_).not.mpr (hnone reply)
        exact haction reply (Label.act.inj heq).2.symm
      · rintro id task shim rfl rfl hassembles
        exact ⟨es, [], s, id, task, rfl, hrun, hentry, hassembles⟩
  · obtain ⟨hanswered', hnot⟩ := advance_answered hanswered hadvance
    refine .inr ⟨reply, fun reply' => ?_, hanswered'.mono fun _ => SentWith.later⟩
    refine (replied_append_of_ne fun heq => ?_).trans (honly reply')
    exact hnot reply' (Label.act.inj heq).2.symm

/-- The calls so far, and the replies they got. -/
structure Followed (σ : Setup T) (owners : Venv.OwnersFile) (es : List (Label T)) (s : State T) :
    Prop where
  reached : (plugin σ).run (.fresh owners) es = some s
  calls : ∀ c call phase, s.calls[c]? = some ⟨.invokes call, phase⟩ →
    Traces σ owners es c call phase
  later : ∀ c, s.calls.length ≤ c → ∀ reply, ¬ Replied es c reply

/-- What a label that is no reply leaves as it was. -/
theorem Followed.later_of (h : Followed σ owners es s) (hlen : s.calls.length ≤ s'.calls.length)
    (he : ∀ c reply, .act c (.reply reply) = e → c < s'.calls.length) :
    ∀ c, s'.calls.length ≤ c → ∀ reply, ¬ Replied (es ++ [e]) c reply := by
  intro c hle reply hreplied
  rcases replied_append.mp hreplied with hbefore | hlast
  · exact h.later c (Nat.le_trans hlen hle) reply hbefore
  · exact absurd (he c reply hlast) (Nat.not_lt.mpr hle)

theorem followed_step (h : Followed σ owners es s) (hs : step σ s e = some s') :
    Followed σ owners (es ++ [e]) s' := by
  have hreached : (plugin σ).run (.fresh owners) (es ++ [e]) = some s' :=
    (plugin σ).run_append h.reached ((plugin σ).run_cons_eq_some.mpr ⟨s', hs, rfl⟩)
  rcases step_cases hs with ⟨kind, rfl, rfl⟩ | ⟨c, action, entry, r, rfl, hentry, hadvance, rfl⟩ |
    ⟨id, rfl, rfl⟩ | ⟨owners', rfl, rfl⟩
  · refine ⟨hreached, fun d call phase hbegun => ?_, h.later_of ?_ ?_⟩
    · rcases getElem?_begun hbegun with ⟨rfl, heq⟩ | ⟨-, hbefore⟩
      · obtain ⟨rfl, rfl⟩ := Entry.mk.inj heq
        refine .inl ⟨fun reply => ?_, trivial⟩
        rw [replied_append_of_ne (by simp)]
        exact h.later _ (Nat.le_refl _) reply
      · exact (h.calls d call phase hbefore).aside fun _ heq => by cases heq
    · rw [State.begun, List.length_append]
      exact Nat.le_add_right ..
    · intro d reply heq
      cases heq
  · have hlen : (s.stepped c entry.kind r).calls.length = s.calls.length := List.length_set ..
    refine ⟨hreached, fun d call phase hstepped => ?_, h.later_of hlen.ge fun d reply heq => ?_⟩
    · rcases getElem?_stepped hentry hstepped with ⟨rfl, heq⟩ | ⟨hd, hbefore⟩
      · obtain ⟨hkind, rfl⟩ := Entry.mk.inj heq
        obtain ⟨kind, phase⟩ := entry
        obtain rfl : .invokes call = kind := hkind
        exact (h.calls d call phase hentry).act h.reached hentry hadvance
      · exact (h.calls d call phase hbefore).aside fun _ heq => hd (Label.act.inj heq).1
    · rw [hlen, (Label.act.inj heq).1]
      exact (List.getElem?_eq_some_iff.mp hentry).1
  · refine ⟨hreached, fun d call phase hold => (h.calls d call phase hold).aside ?_,
      h.later_of (Nat.le_refl _) ?_⟩
    · intro action heq
      cases heq
    · intro d reply heq
      cases heq
  · refine ⟨hreached, fun d call phase hold => (h.calls d call phase hold).aside ?_,
      h.later_of (Nat.le_refl _) ?_⟩
    · intro action heq
      cases heq
    · intro d reply heq
      cases heq

theorem followed_run (hrun : (plugin σ).run (.fresh owners) es = some s) :
    Followed σ owners es s := by
  have hfresh : Followed σ owners [] (State.fresh (T := T) owners) := by
    refine ⟨rfl, fun c call phase hentry => ?_, fun _ _ _ => List.not_mem_nil⟩
    cases hentry
  exact (plugin σ).run_history (I := Followed σ owners) (fun _ _ _ _ => followed_step) hfresh hrun

/-- An error envelope: `interpret_response` makes an error of it. -/
def IsErrorEnvelope (response : Json) : Prop := response.get? "status" = some (.string "error")

theorem interpretResponse_of_envelope {envelope : Json} (h : IsErrorEnvelope envelope) :
    ∃ e, Worker.interpretResponse envelope = .error e := by
  cases envelope with
  | object fields =>
    have hstatus : Assoc.get? "status" (Assoc.erase "request_id" fields) =
        some (.string "error") := by
      rw [Assoc.get?_erase_ne (by decide)]
      exact h
    unfold Worker.interpretResponse
    dsimp only
    rw [hstatus]
    exact ⟨_, rfl⟩
  | _ => cases h

/-- What is meant to hold of the context and the result that an invocation hands back. -/
structure Settled (σ : Setup T) (owners : Venv.OwnersFile) (es : List (Label T)) (c : CallId)
    (call : Call T) (ctx : PluginContext) (result : Except HostError (ResultFields T)) :
    Prop where
  /-- It never got as far as a reply. -/
  unreplied : (∀ reply, ¬ Replied es c reply) → (∃ e, result = .error e) ∧ ctx = call.ctx
  /-- Its `send_task` failed. -/
  failed : ∀ e, Replied es c (.error e) → result = .error e ∧ ctx = call.ctx
  /-- Its worker answered with an error envelope. -/
  refused : ∀ envelope, IsErrorEnvelope envelope →
    Replied es c (Worker.interpretResponse envelope) → (∃ e, result = .error e) ∧ ctx = call.ctx
  /-- With any other response it merges the state in it. -/
  merges : ∀ response, Replied es c (.ok response) →
    Merged (localDeltas response) call.ctx.localState ctx.localState ∧
      Merged (globalDeltas response) call.ctx.globalState ctx.globalState
  /-- The result is what the response converts to, read as the task was translated. -/
  converts : ∀ response, Replied es c (.ok response) → ∃ shim, SentWith σ owners es c call shim ∧
    result = convertResponse σ.ppe call.now call.hookName shim call.payload call.extensions response

theorem settled_of_reply {ctx : PluginContext} {result : Except HostError (ResultFields T)}
    {reply : Except HostError Json} (honly : ∀ reply', Replied es c reply' ↔ reply' = reply)
    (hback : HandsBack σ (SentWith σ owners es c call) call ctx result reply) :
    Settled σ owners es c call ctx result := by
  have hfailed : ∀ e, Replied es c (.error e) → result = .error e ∧ ctx = call.ctx := by
    intro e hreplied
    obtain rfl := (honly _).mp hreplied
    exact hback.symm
  have hconverted : ∀ response, Replied es c (.ok response) →
      HandsBack σ (SentWith σ owners es c call) call ctx result (.ok response) := by
    intro response hreplied
    exact (honly _).mp hreplied ▸ hback
  exact
    { unreplied := fun hnone => absurd ((honly reply).mpr rfl) (hnone reply)
      failed := hfailed
      refused := fun envelope henvelope hreplied => by
        obtain ⟨e, he⟩ := interpretResponse_of_envelope henvelope
        rw [he] at hreplied
        exact ⟨⟨e, (hfailed e hreplied).1⟩, (hfailed e hreplied).2⟩
      merges := fun response hreplied => by
        obtain ⟨rfl, -⟩ := hconverted response hreplied
        rw [applyContextDeltas_eq]
        exact ⟨merged_mergeState .., merged_mergeState ..⟩
      converts := fun response hreplied => (hconverted response hreplied).2 }

/-- **What an invocation hands back is settled by what its worker answered.** -/
theorem settled_of_run (σ : Setup T) {owners : Venv.OwnersFile}
    {result : Except HostError (ResultFields T)} {ctx : PluginContext}
    (hrun : (plugin σ).run (.fresh owners) es = some s)
    (hcall : s.calls[c]? = some ⟨.invokes call, .finished (.invocation ctx result)⟩) :
    Settled σ owners es c call ctx result := by
  rcases (followed_run hrun).calls c call _ hcall with ⟨hnone, hctx, hresult⟩ |
    ⟨reply, honly, hback⟩
  · exact
      { unreplied := fun _ => ⟨hresult, hctx⟩
        failed := fun e hreplied => absurd hreplied (hnone _)
        refused := fun envelope _ hreplied => absurd hreplied (hnone _)
        merges := fun response hreplied => absurd hreplied (hnone _)
        converts := fun response hreplied => absurd hreplied (hnone _) }
  · exact settled_of_reply honly hback

/-- An invocation on a worker that gives this response. -/
def answeredSteps (response : Json) : List (Label Plain.types) :=
  ([.call .initializes] : List (Label Plain.types)) ++ launchSteps 0 credentialReply ++
  ([.call (.invokes resolveCall), .act 1 .acquire, .act 1 .serve, .act 1 (.dispatch none),
    .act 1 (.reply (.ok response)), .act 1 .noteHealthy] : List (Label Plain.types))

/-- State of the plugin's own, and this violation. -/
def markedResponse (violation : Json) : Json :=
  .object [("context", .object [("state", .object [("seen", .bool true)])]),
    ("violation", violation)]

/-- The state once the response was handed on. -/
def handedBack (violation : Json) : State Plain.types :=
  ((plugin resolverSetup).run (.fresh .absent) (answeredSteps (markedResponse violation))).getD
    (.fresh .absent)

/-- The context that holds the state in the response. -/
def markedContext : PluginContext := applyContextDeltas (markedResponse .null) resolveCall.ctx

theorem settled_of_run_marked : ∃ result,
    (handedBack .null).calls[1]? =
      some ⟨.invokes resolveCall, .finished (.invocation markedContext (.ok result))⟩ ∧
    Settled resolverSetup .absent (answeredSteps (markedResponse .null)) 1 resolveCall
      markedContext (.ok result) := by
  have hrun : (plugin resolverSetup).run (.fresh .absent) (answeredSteps (markedResponse .null)) =
      some (handedBack .null) := rfl
  have hcall : ∃ result, (handedBack .null).calls[1]? =
      some ⟨.invokes resolveCall, .finished (.invocation markedContext (.ok result))⟩ := ⟨_, rfl⟩
  obtain ⟨result, hcall⟩ := hcall
  exact ⟨result, hcall, settled_of_run resolverSetup hrun hcall⟩

/-- **A failed invocation that changed the context**: the violation is not an object. -/
theorem failed_invocation_merges : ∃ e,
    (plugin resolverSetup).run (.fresh .absent) (answeredSteps (markedResponse (.string "denied"))) =
      some (handedBack (.string "denied")) ∧
    (handedBack (.string "denied")).calls[1]? =
      some ⟨.invokes resolveCall, .finished (.invocation markedContext (.error e))⟩ ∧
    markedContext.localState.get? "seen" = some (.bool true) ∧
    resolveCall.ctx.localState.get? "seen" = none :=
  ⟨_, rfl, rfl, rfl, rfl⟩

end Cpex.Host.Lifecycle
