import Cpex.Host.Worker

/-!
# Demultiplexing is safe

Whatever the schedule and whatever the worker prints, a call returns at most once, what it
returns as a success is the response of a line carrying its own request id, and no line answers
two calls.

* `Demuxed` — the invariant: what `pending`, the one-shot channels and the history say of each
  other
* `Quiet` — the steps that deliver no line and resolve no call
* `demuxed_step` — every step keeps the invariant
-/

namespace Cpex.Host.Worker

open Cpex.Infra

variable {cfg : Settings} {s s' : Client} {c : CallId}

/-- Line `n` is a response that carries the request id call `c` generated. -/
def CarriesResponse (cfg : Settings) (s : Client) (n : Nat) (c : CallId) (response : Json) : Prop :=
  ∃ text id, s.lines[n]? = some (.ok (.line text)) ∧ cfg.fromStr (Text.trim text) = some response ∧
    response.get? "request_id" = some (.string id) ∧ s.requestId c = some id

/-- What holds between the pending map, the channels and the history in every reachable state. -/
structure Demuxed (cfg : Settings) (s : Client) : Prop where
  idle_fresh : ∀ c, s.phase c = .idle → s.requestId c = none
  phase_id : ∀ c id, (s.phase c).id? = some id → s.requestId c = some id
  pending_id : ∀ id c, (id, c) ∈ s.pending → s.requestId c = some id
  sent_line : ∀ c response, s.oneShot c = .sent (.ok response) →
    ∃ n, (n, c) ∈ s.deliveries ∧ CarriesResponse cfg s n c response
  resolved_done : ∀ c r, (c, r) ∈ s.resolved → s.phase c = .done r
  resolved_once : (s.resolved.map Prod.fst).Nodup
  resolved_line : ∀ c v, (c, .ok v) ∈ s.resolved → ∃ n response, (n, c) ∈ s.deliveries ∧
    CarriesResponse cfg s n c response ∧ interpretResponse response = .ok v
  delivered_read : ∀ n c, (n, c) ∈ s.deliveries → n < s.lines.length
  delivered_once : (s.deliveries.map Prod.fst).Nodup

theorem demuxed_spawned : Demuxed cfg .spawned where
  idle_fresh := fun _ _ => rfl
  phase_id := fun _ _ h => by simp [Client.spawned, Phase.id?] at h
  pending_id := fun _ _ h => by simp [Client.spawned] at h
  sent_line := fun _ _ h => by simp [Client.spawned] at h
  resolved_done := fun _ _ h => by simp [Client.spawned] at h
  resolved_once := List.nodup_nil
  resolved_line := fun _ _ h => by simp [Client.spawned] at h
  delivered_read := fun _ _ h => by simp [Client.spawned] at h
  delivered_once := List.nodup_nil

/-! ## Steps that deliver and resolve nothing -/

/--
What such a step leaves: the history of deliveries and results, and everything the invariant
says about calls. A call that had an id keeps it, a call that was done stays done, no response
appears in a channel, and `pending` gains only entries of the call's own id.
-/
structure Quiet (s s' : Client) : Prop where
  lines : s.lines <+: s'.lines
  requestId : ∀ c id, s.requestId c = some id → s'.requestId c = some id
  idle : ∀ c, s'.phase c = .idle → s.phase c = .idle ∧ s'.requestId c = s.requestId c
  phase_id : ∀ c id, (s'.phase c).id? = some id →
    (s.phase c).id? = some id ∨ s'.requestId c = some id
  pending : ∀ id c, (id, c) ∈ s'.pending → (id, c) ∈ s.pending ∨ s'.requestId c = some id
  oneShot : ∀ c response, s'.oneShot c = .sent (.ok response) → s.oneShot c = .sent (.ok response)
  done : ∀ c r, s.phase c = .done r → s'.phase c = .done r
  deliveries : s'.deliveries = s.deliveries
  resolved : s'.resolved = s.resolved

theorem CarriesResponse.mono {n : Nat} {response : Json} (hlines : s.lines <+: s'.lines)
    (hid : ∀ c id, s.requestId c = some id → s'.requestId c = some id)
    (h : CarriesResponse cfg s n c response) : CarriesResponse cfg s' n c response := by
  obtain ⟨text, id, hline, hparse, hresp, hreq⟩ := h
  refine ⟨text, id, ?_, hparse, hresp, hid c id hreq⟩
  obtain ⟨new, hnew⟩ := hlines
  rw [← hnew, List.getElem?_append_left (List.getElem?_eq_some_iff.mp hline).1]
  exact hline

theorem Quiet.demuxed (hq : Quiet s s') (h : Demuxed cfg s) : Demuxed cfg s' where
  idle_fresh := by
    intro c hc
    obtain ⟨hidle, heq⟩ := hq.idle c hc
    rw [heq]
    exact h.idle_fresh c hidle
  phase_id := fun c id hc => (hq.phase_id c id hc).elim
    (fun hold => hq.requestId c id (h.phase_id c id hold)) fun hnew => hnew
  pending_id := fun id c hc => (hq.pending id c hc).elim
    (fun hold => hq.requestId c id (h.pending_id id c hold)) fun hnew => hnew
  sent_line := by
    intro c response hc
    obtain ⟨n, hn, hcar⟩ := h.sent_line c response (hq.oneShot c response hc)
    exact ⟨n, hq.deliveries ▸ hn, hcar.mono hq.lines hq.requestId⟩
  resolved_done := fun c r hr => hq.done c r (h.resolved_done c r (hq.resolved ▸ hr))
  resolved_once := by rw [hq.resolved]; exact h.resolved_once
  resolved_line := by
    intro c v hr
    obtain ⟨n, response, hn, hcar, hv⟩ := h.resolved_line c v (hq.resolved ▸ hr)
    exact ⟨n, response, hq.deliveries ▸ hn, hcar.mono hq.lines hq.requestId, hv⟩
  delivered_read := fun n c hn =>
    Nat.lt_of_lt_of_le (h.delivered_read n c (hq.deliveries ▸ hn)) hq.lines.length_le
  delivered_once := by rw [hq.deliveries]; exact h.delivered_once

theorem Quiet.refl (s : Client) : Quiet s s where
  lines := List.prefix_refl _
  requestId := fun _ _ h => h
  idle := fun _ h => ⟨h, rfl⟩
  phase_id := fun _ _ h => .inl h
  pending := fun _ _ h => .inl h
  oneShot := fun _ _ h => h
  done := fun _ _ h => h
  deliveries := rfl
  resolved := rfl

theorem Quiet.trans {s₁ s₂ s₃ : Client} (h₁ : Quiet s₁ s₂) (h₂ : Quiet s₂ s₃) : Quiet s₁ s₃ where
  lines := h₁.lines.trans h₂.lines
  requestId := fun c id h => h₂.requestId c id (h₁.requestId c id h)
  idle := by
    intro c h
    obtain ⟨h2, he2⟩ := h₂.idle c h
    obtain ⟨h1, he1⟩ := h₁.idle c h2
    exact ⟨h1, he2.trans he1⟩
  phase_id := fun c id h => (h₂.phase_id c id h).elim
    (fun hm => (h₁.phase_id c id hm).imp_right (h₂.requestId c id)) .inr
  pending := fun id c h => (h₂.pending id c h).elim
    (fun hm => (h₁.pending id c hm).imp_right (h₂.requestId c id)) .inr
  oneShot := fun c r h => h₁.oneShot c r (h₂.oneShot c r h)
  done := fun c r h => h₂.done c r (h₁.done c r h)
  deliveries := h₂.deliveries.trans h₁.deliveries
  resolved := h₂.resolved.trans h₁.resolved

/-- A call that is not done may move to any phase whose id it owns. -/
theorem quiet_setPhase {p : Phase} (hnd : ∀ r, s.phase c ≠ .done r) (hidle : p ≠ .idle)
    (hid : ∀ id, p.id? = some id → s.requestId c = some id) : Quiet s (s.setPhase c p) where
  lines := List.prefix_refl _
  requestId := fun _ _ h => h
  idle := by
    intro d hd
    by_cases hdc : d = c
    · subst hdc
      simp [Client.setPhase, hidle] at hd
    · exact ⟨by simpa [Client.setPhase, hdc] using hd, rfl⟩
  phase_id := by
    intro d id hd
    by_cases hdc : d = c
    · subst hdc
      exact .inr (hid id (by simpa [Client.setPhase] using hd))
    · exact .inl (by simpa [Client.setPhase, hdc] using hd)
  pending := fun _ _ h => .inl h
  oneShot := fun _ _ h => h
  done := by
    intro d r hd
    have hdc : d ≠ c := fun he => hnd r (he ▸ hd)
    simpa [Client.setPhase, hdc] using hd
  deliveries := rfl
  resolved := rfl

/-- A step that touches neither phases nor ids, and only takes from `pending` and the channels. -/
theorem quiet_of_same (hlines : s.lines <+: s'.lines) (hreq : s'.requestId = s.requestId)
    (hphase : s'.phase = s.phase) (hpending : ∀ e ∈ s'.pending, e ∈ s.pending)
    (hone : ∀ c r, s'.oneShot c = .sent (.ok r) → s.oneShot c = .sent (.ok r))
    (hdel : s'.deliveries = s.deliveries) (hres : s'.resolved = s.resolved) : Quiet s s' where
  lines := hlines
  requestId := fun c id h => by rw [hreq]; exact h
  idle := fun c h => ⟨by rw [← hphase]; exact h, by rw [hreq]⟩
  phase_id := fun c id h => .inl (by rw [← hphase]; exact h)
  pending := fun id c h => .inl (hpending (id, c) h)
  oneShot := hone
  done := fun c r h => by rw [hphase]; exact h
  deliveries := hdel
  resolved := hres

theorem quiet_dropSender (s : Client) (c : CallId) : Quiet s (s.dropSender c) := by
  unfold Client.dropSender
  split
  · refine quiet_of_same (List.prefix_refl _) rfl rfl (fun _ h => h) ?_ rfl rfl
    intro d r hd
    by_cases hdc : d = c
    · subst hdc
      simp at hd
    · simpa [hdc] using hd
  · exact Quiet.refl s

theorem quiet_sendError (e : HostError) (s : Client) (c : CallId) : Quiet s (s.sendError e c) := by
  unfold Client.sendError
  split
  · refine quiet_of_same (List.prefix_refl _) rfl rfl (fun _ h => h) ?_ rfl rfl
    intro d r hd
    by_cases hdc : d = c
    · subst hdc
      simp at hd
    · simpa [hdc] using hd
  · exact Quiet.refl s

/-- What each step of a loop over the drained calls keeps, the loop keeps. -/
theorem quiet_foldl {f : Client → CallId → Client} (hf : ∀ s c, Quiet s (f s c)) :
    ∀ (cs : List CallId) (s : Client), Quiet s (cs.foldl f s)
  | [], s => Quiet.refl s
  | c :: cs, s => (hf s c).trans (quiet_foldl hf cs (f s c))

theorem mem_of_mem_erase {id : String} {e : String × CallId}
    (h : e ∈ Assoc.erase id s.pending) : e ∈ s.pending :=
  (List.mem_filter.mp h).1

theorem quiet_erase (s : Client) (id : String) :
    Quiet s { s with pending := Assoc.erase id s.pending } :=
  quiet_of_same (List.prefix_refl _) rfl rfl (fun _ h => mem_of_mem_erase h) (fun _ _ h => h) rfl rfl

theorem quiet_unregister (s : Client) (id : String) : Quiet s (s.unregister id) := by
  unfold Client.unregister
  split
  · exact (quiet_erase s id).trans (quiet_dropSender _ _)
  · exact Quiet.refl s

/-! ## Resolving a call -/

/-- What a call may return: an error, or the response of a line delivered to it. -/
def Answers (cfg : Settings) (s : Client) (c : CallId) (r : Except HostError Json) : Prop :=
  ∀ v, r = .ok v → ∃ n response, (n, c) ∈ s.deliveries ∧ CarriesResponse cfg s n c response ∧
    interpretResponse response = .ok v

theorem answers_error (e : HostError) : Answers cfg s c (.error e) := fun _ h => by cases h

/-- A call that is neither done nor idle returns `r`: it is not in the log yet. -/
theorem demuxed_resolve {r : Except HostError Json} (h : Demuxed cfg s)
    (hnd : ∀ r', s.phase c ≠ .done r') (hr : Answers cfg s c r) :
    Demuxed cfg (s.resolve c r) where
  idle_fresh := by
    intro d hd
    by_cases hdc : d = c
    · subst hdc
      simp [Client.resolve] at hd
    · exact h.idle_fresh d (by simpa [Client.resolve, hdc] using hd)
  phase_id := by
    intro d id hd
    by_cases hdc : d = c
    · subst hdc
      simp [Client.resolve, Phase.id?] at hd
    · exact h.phase_id d id (by simpa [Client.resolve, hdc] using hd)
  pending_id := h.pending_id
  sent_line := h.sent_line
  resolved_done := by
    intro d r' hr'
    rcases List.mem_append.mp hr' with hold | hnew
    · have hdc : d ≠ c := fun he => hnd r' (he ▸ h.resolved_done d r' hold)
      simpa [Client.resolve, hdc] using h.resolved_done d r' hold
    · obtain ⟨rfl, rfl⟩ : d = c ∧ r' = r := by simpa using hnew
      simp [Client.resolve]
  resolved_once := by
    have hnot : c ∉ s.resolved.map Prod.fst := by
      intro hc
      obtain ⟨⟨d, r'⟩, hmem, hd⟩ := List.mem_map.mp hc
      exact hnd r' (hd ▸ h.resolved_done d r' hmem)
    show ((s.resolved ++ [(c, r)]).map Prod.fst).Nodup
    rw [List.map_append]
    exact List.nodup_append.mpr ⟨h.resolved_once, List.nodup_singleton _, by
      rintro a ha b hb rfl
      exact hnot (by simpa [show a = c by simpa using hb] using ha)⟩
  resolved_line := by
    intro d v hv
    rcases List.mem_append.mp hv with hold | hnew
    · exact h.resolved_line d v hold
    · obtain ⟨rfl, rfl⟩ : d = c ∧ Except.ok v = r := by simpa using hnew
      exact hr v rfl
  delivered_read := h.delivered_read
  delivered_once := h.delivered_once

/-! ## Delivering a line -/

/--
The reader answers call `c` with the line it just read. The line's index is the number of lines
read before it, so no earlier delivery has it.
-/
theorem demuxed_sendResponse {text id : String} {response : Json} (h : Demuxed cfg s)
    (hparse : cfg.fromStr (Text.trim text) = some response)
    (hresp : response.get? "request_id" = some (.string id)) (hreq : s.requestId c = some id) :
    Demuxed cfg { s.sendResponse s.lines.length response c with
      lines := s.lines ++ [.ok (.line text)] } := by
  have hlines : s.lines <+: s.lines ++ [.ok (.line text)] := List.prefix_append _ _
  unfold Client.sendResponse
  split
  · have hnew : CarriesResponse cfg
        { s with lines := s.lines ++ [.ok (.line text)] } s.lines.length c response :=
      ⟨text, id, by simp, hparse, hresp, hreq⟩
    have hmono : ∀ {n d v}, CarriesResponse cfg s n d v →
        CarriesResponse cfg { s with lines := s.lines ++ [.ok (.line text)] } n d v :=
      fun hcar => hcar.mono hlines fun _ _ hid => hid
    refine
      { idle_fresh := h.idle_fresh, phase_id := h.phase_id, pending_id := h.pending_id
        resolved_done := h.resolved_done, resolved_once := h.resolved_once
        sent_line := ?_, resolved_line := ?_, delivered_read := ?_, delivered_once := ?_ }
    · intro d v hv
      by_cases hdc : d = c
      · subst hdc
        obtain rfl : response = v := by simpa using hv
        exact ⟨_, by simp, hnew⟩
      · obtain ⟨n, hn, hcar⟩ := h.sent_line d v (by simpa [hdc] using hv)
        exact ⟨n, List.mem_append_left _ hn, hmono hcar⟩
    · intro d v hv
      obtain ⟨n, r, hn, hcar, hok⟩ := h.resolved_line d v hv
      exact ⟨n, r, List.mem_append_left _ hn, hmono hcar, hok⟩
    · intro n d hn
      rw [List.length_append, List.length_singleton]
      rcases List.mem_append.mp hn with hold | hnew
      · have := h.delivered_read n d hold
        omega
      · obtain ⟨rfl, -⟩ : n = s.lines.length ∧ d = c := by simpa using hnew
        omega
    · show ((s.deliveries ++ [(s.lines.length, c)]).map Prod.fst).Nodup
      rw [List.map_append]
      refine List.nodup_append.mpr ⟨h.delivered_once, List.nodup_singleton _, ?_⟩
      rintro a ha b hb rfl
      obtain ⟨⟨n, d⟩, hmem, rfl⟩ := List.mem_map.mp ha
      have := h.delivered_read n d hmem
      obtain rfl : n = s.lines.length := by simpa using hb
      omega
  · exact Quiet.demuxed (quiet_of_same hlines rfl rfl (fun _ he => he) (fun _ _ hv => hv) rfl rfl) h

/-! ## The steps -/

/-- An idle call draws its id and leaves the idle phase. -/
theorem quiet_drawId (id : String) (p : Phase) (h : Demuxed cfg s) (hidle : s.phase c = .idle)
    (hp : p ≠ .idle) (hpid : ∀ id', p.id? = some id' → id' = id) :
    Quiet s { s.setPhase c p with requestId := Function.update s.requestId c (some id) } where
  lines := List.prefix_refl _
  requestId := by
    intro d id' hd
    have hdc : d ≠ c := by
      rintro rfl
      rw [h.idle_fresh d hidle] at hd
      cases hd
    simpa [hdc] using hd
  idle := by
    intro d hd
    by_cases hdc : d = c
    · subst hdc
      simp [Client.setPhase, hp] at hd
    · exact ⟨by simpa [Client.setPhase, hdc] using hd, by simp [hdc]⟩
  phase_id := by
    intro d id' hd
    by_cases hdc : d = c
    · subst hdc
      refine .inr ?_
      simp [hpid id' (by simpa [Client.setPhase] using hd)]
    · exact .inl (by simpa [Client.setPhase, hdc] using hd)
  pending := fun _ _ hd => .inl hd
  oneShot := fun _ _ hd => hd
  done := by
    intro d r hd
    have hdc : d ≠ c := by
      rintro rfl
      rw [hidle] at hd
      cases hd
    simpa [Client.setPhase, hdc] using hd
  deliveries := rfl
  resolved := rfl

/-- A call that returns an error before it registers. -/
theorem demuxed_drawId_resolve {id : String} {e : HostError} (h : Demuxed cfg s)
    (hidle : s.phase c = .idle) :
    Demuxed cfg ({ s with requestId := Function.update s.requestId c (some id) }.resolve c
      (.error e)) := by
  have hq := (quiet_drawId id (.reporting "") h hidle (by simp) (by simp [Phase.id?])).demuxed h
  have hnd : ∀ r, (s.setPhase c (.reporting "")).phase c ≠ .done r := by simp [Client.setPhase]
  have hr := demuxed_resolve hq hnd (answers_error e)
  simpa [Client.resolve, Client.setPhase] using hr

theorem demuxed_beginSend {id : String} {task : Json} (h : Demuxed cfg s)
    (hidle : s.phase c = .idle) : Demuxed cfg (s.beginSend cfg c id task) := by
  unfold Client.beginSend
  split
  · exact (quiet_setPhase (by simp [hidle]) (by simp) (by simp [Phase.id?])).demuxed h
  · dsimp only
    split
    · split
      · exact demuxed_drawId_resolve h hidle
      · split
        · exact demuxed_drawId_resolve h hidle
        · next line _ _ =>
          exact (quiet_drawId id (.registering id line) h hidle (by simp)
            (by intro id' hid'; simpa [Phase.id?, eq_comm] using hid')).demuxed h
    · exact demuxed_drawId_resolve h hidle

theorem mem_of_mem_put {id id' : String} {c d : CallId} :
    ∀ {entries : List (String × CallId)}, (id', d) ∈ Assoc.put id c entries →
      (id', d) ∈ entries ∨ (id' = id ∧ d = c)
  | [], h => by simpa [Assoc.put] using h
  | (k, w) :: rest, h => by
    rw [Assoc.put] at h
    split at h
    · rcases List.mem_cons.mp h with he | ht
      · exact .inr (by simpa using he)
      · exact .inl (List.mem_cons_of_mem _ ht)
    · rcases List.mem_cons.mp h with he | ht
      · exact .inl (by rw [he]; exact List.mem_cons_self)
      · exact (mem_of_mem_put ht).imp_left (List.mem_cons_of_mem _)

/-- Registration enters the call's own id into `pending` and opens its channel. -/
theorem quiet_enter (id line : String) (hreq : s.requestId c = some id)
    (hphase : s.phase c = .registering id line) :
    Quiet s { s with
      pending := Assoc.put id c s.pending
      oneShot := Function.update s.oneShot c .waiting
      phase := Function.update s.phase c (.handingOff id line) } where
  lines := List.prefix_refl _
  requestId := fun _ _ h => h
  idle := by
    intro d hd
    by_cases hdc : d = c
    · subst hdc
      simp at hd
    · exact ⟨by simpa [hdc] using hd, rfl⟩
  phase_id := by
    intro d id' hd
    by_cases hdc : d = c
    · subst hdc
      obtain rfl : id = id' := by simpa [Phase.id?] using hd
      exact .inr hreq
    · exact .inl (by simpa [hdc] using hd)
  pending := by
    intro id' d hd
    rcases mem_of_mem_put hd with hold | ⟨rfl, rfl⟩
    · exact .inl hold
    · exact .inr hreq
  oneShot := by
    intro d r hd
    by_cases hdc : d = c
    · subst hdc
      simp at hd
    · simpa [hdc] using hd
  done := by
    intro d r hd
    have hdc : d ≠ c := by
      rintro rfl
      rw [hphase] at hd
      cases hd
    simpa [hdc] using hd
  deliveries := rfl
  resolved := rfl

@[simp] theorem dropSender_phase (s : Client) (c : CallId) : (s.dropSender c).phase = s.phase := by
  unfold Client.dropSender
  split <;> rfl

@[simp] theorem dropSender_requestId (s : Client) (c : CallId) :
    (s.dropSender c).requestId = s.requestId := by
  unfold Client.dropSender
  split <;> rfl

@[simp] theorem unregister_phase (s : Client) (id : String) : (s.unregister id).phase = s.phase := by
  unfold Client.unregister
  split
  · exact dropSender_phase _ _
  · rfl

theorem demuxed_register {id line : String} (h : Demuxed cfg s)
    (hphase : s.phase c = .registering id line) : Demuxed cfg (s.register c id line) := by
  have hreq : s.requestId c = some id := h.phase_id c id (by simp [hphase, Phase.id?])
  unfold Client.register
  cases Assoc.get? id s.pending with
  | none => exact (quiet_enter id line hreq hphase).demuxed h
  | some old =>
    have hq : Quiet (s.dropSender old) _ :=
      quiet_enter id line (by simpa using hreq) (by simpa using hphase)
    simpa using ((quiet_dropSender s old).trans hq).demuxed h

theorem demuxed_handOff {id line : String} (h : Demuxed cfg s)
    (hphase : s.phase c = .handingOff id line) : Demuxed cfg (s.handOff c id line) := by
  have hreq : s.requestId c = some id := h.phase_id c id (by simp [hphase, Phase.id?])
  have hmove : ∀ p : Phase, p ≠ .idle → (∀ id', p.id? = some id' → id = id') →
      Quiet s (s.setPhase c p) := fun p hp hid =>
    quiet_setPhase (by simp [hphase]) hp fun id' h' => hid id' h' ▸ hreq
  unfold Client.handOff
  split
  · have hout : Quiet s { s with outbound := s.outbound ++ [(c, line)] } :=
      quiet_of_same (List.prefix_refl _) rfl rfl (fun _ he => he) (fun _ _ hv => hv) rfl rfl
    refine Quiet.demuxed (hout.trans (quiet_setPhase (by simp [hphase]) (by simp) ?_)) h
    intro id' h'
    obtain rfl : id = id' := by simpa [Phase.id?] using h'
    exact hreq
  · exact (hmove _ (by simp) (by simp [Phase.id?])).demuxed h

theorem demuxed_receive {id : String} (h : Demuxed cfg s) (hphase : s.phase c = .awaiting id)
    (hs : s.receive c = some s') : Demuxed cfg s' := by
  have hnd : ∀ r, s.phase c ≠ .done r := by simp [hphase]
  unfold Client.receive at hs
  split at hs
  · next response hsent =>
    obtain rfl := Option.some.inj hs
    refine demuxed_resolve h hnd fun v hv => ?_
    obtain ⟨n, hn, hcar⟩ := h.sent_line c response hsent
    exact ⟨n, response, hn, hcar, hv⟩
  · obtain rfl := Option.some.inj hs
    exact demuxed_resolve h hnd (answers_error _)
  · obtain rfl := Option.some.inj hs
    exact (quiet_setPhase hnd (by simp) (by simp [Phase.id?])).demuxed h
  · cases hs

theorem demuxed_append_line (frame : Except String BoundedLine) (reader : ReaderPhase)
    (h : Demuxed cfg s) : Demuxed cfg { s with lines := s.lines ++ [frame], reader := reader } :=
  Quiet.demuxed (quiet_of_same (List.prefix_append _ _) rfl rfl (fun _ he => he)
    (fun _ _ hv => hv) rfl rfl) h

@[simp] theorem sendError_lines (s : Client) (e : HostError) (c : CallId) :
    (s.sendError e c).lines = s.lines := by
  unfold Client.sendError
  split <;> rfl

theorem foldl_sendError_lines (e : HostError) :
    ∀ (cs : List CallId) (s : Client), (cs.foldl (Client.sendError · e) s).lines = s.lines
  | [], _ => rfl
  | c :: cs, s => by rw [List.foldl_cons, foldl_sendError_lines e cs, sendError_lines]

theorem onOversized_lines (kept : String) (scanned : Nat) :
    (s.onOversized cfg kept scanned).lines = s.lines := by
  unfold Client.onOversized
  split
  · rw [sendError_lines]
  · rw [foldl_sendError_lines]

theorem quiet_onOversized (cfg : Settings) (s : Client) (kept : String) (scanned : Nat) :
    Quiet s (s.onOversized cfg kept scanned) := by
  unfold Client.onOversized
  split
  · exact (quiet_erase s _).trans (quiet_sendError _ _ _)
  · refine Quiet.trans ?_ (quiet_foldl (fun s c => quiet_sendError _ s c) _ _)
    exact quiet_of_same (List.prefix_refl _) rfl rfl (fun _ he => by simp at he)
      (fun _ _ hv => hv) rfl rfl

theorem demuxed_onLine {text : String} (h : Demuxed cfg s) :
    Demuxed cfg { s.onLine cfg text with lines := s.lines ++ [.ok (.line text)] } := by
  unfold Client.onLine
  dsimp only
  split
  · exact demuxed_append_line _ _ h
  · split
    · exact demuxed_append_line _ _ h
    · next response hparse =>
      split
      · exact demuxed_append_line _ _ h
      · next id hid =>
        split
        · exact demuxed_append_line _ _ h
        · next c hget =>
          have hreq : s.requestId c = some id := h.pending_id id c (Assoc.mem_of_get? hget)
          have hresp : response.get? "request_id" = some (.string id) :=
            Json.bind_asStr_eq_some.mp hid
          exact demuxed_sendResponse ((quiet_erase s id).demuxed h) hparse hresp hreq

theorem demuxed_onFrame (frame : Except String BoundedLine) (h : Demuxed cfg s) :
    Demuxed cfg (s.onFrame cfg frame) := by
  have hclose : Demuxed cfg { s with lines := s.lines ++ [frame], reader := .closing } :=
    demuxed_append_line _ _ h
  match frame, hclose with
  | .error e, hclose => exact hclose
  | .ok .eof, hclose => exact hclose
  | .ok (.line text), _ => exact demuxed_onLine h
  | .ok (.oversized kept scanned), _ =>
    have hover := demuxed_append_line (.ok (.oversized kept scanned))
      (s.onOversized cfg kept scanned).reader ((quiet_onOversized cfg s kept scanned).demuxed h)
    rw [onOversized_lines] at hover
    exact hover

/-! ## Every run -/

/-- **Every step keeps the invariant.** -/
theorem demuxed_step {l : Label} (h : Demuxed cfg s) (hs : step cfg s l = some s') :
    Demuxed cfg s' := by
  cases l with
  | call c id task =>
    simp only [step] at hs
    split at hs
    · next hidle =>
      obtain rfl := Option.some.inj hs
      exact demuxed_beginSend h hidle
    · cases hs
  | register c =>
    simp only [step] at hs
    split at hs
    · next hphase =>
      obtain rfl := Option.some.inj hs
      exact demuxed_register h hphase
    · cases hs
  | handOff c =>
    simp only [step] at hs
    split at hs
    · next hphase =>
      obtain rfl := Option.some.inj hs
      exact demuxed_handOff h hphase
    · cases hs
  | withdraw c =>
    simp only [step] at hs
    split at hs
    · next id hphase =>
      obtain rfl := Option.some.inj hs
      have hq : Quiet (s.unregister id) _ := quiet_setPhase (c := c)
        (p := .reporting "writer task is gone — the worker is no longer accepting tasks")
        (by simp [hphase]) (by simp) (by simp [Phase.id?])
      exact ((quiet_unregister s id).trans hq).demuxed h
    · cases hs
  | receive c =>
    simp only [step] at hs
    split at hs
    · next hphase => exact demuxed_receive h hphase hs
    · cases hs
  | timeOut c =>
    simp only [step] at hs
    split at hs
    · next id hphase hone =>
      obtain rfl := Option.some.inj hs
      refine (quiet_setPhase (by simp [hphase]) (by simp) fun id' hid => ?_).demuxed h
      obtain rfl : id = id' := by simpa [Phase.id?] using hid
      exact h.phase_id c id (by simp [hphase, Phase.id?])
    · cases hs
  | expire c =>
    simp only [step] at hs
    split at hs
    · next id hphase =>
      obtain rfl := Option.some.inj hs
      exact demuxed_resolve ((quiet_unregister s id).demuxed h) (by simp [hphase]) (answers_error _)
    · cases hs
  | report c =>
    simp only [step] at hs
    split at hs
    · next hphase =>
      obtain rfl := Option.some.inj hs
      exact demuxed_resolve h (by simp [hphase]) (answers_error _)
    · cases hs
  | cancel c =>
    simp only [step] at hs
    split at hs <;> first | (cases hs; done) | skip
    all_goals
      next hphase =>
      obtain rfl := Option.some.inj hs
      exact (quiet_setPhase (by simp [hphase]) (by simp) (by simp [Phase.id?])).demuxed h
  | read frame =>
    simp only [step] at hs
    split at hs
    · obtain rfl := Option.some.inj hs
      exact demuxed_onFrame frame h
    · cases hs
  | markDead =>
    simp only [step] at hs
    split at hs
    · obtain rfl := Option.some.inj hs
      have hq : Quiet s { s with alive := false, reader := .clearing } :=
        quiet_of_same (List.prefix_refl _) rfl rfl (fun _ he => he) (fun _ _ hv => hv) rfl rfl
      exact hq.demuxed h
    · cases hs
  | clear =>
    simp only [step] at hs
    split at hs
    · obtain rfl := Option.some.inj hs
      have hq : Quiet s { s with pending := [], reader := .finished } :=
        quiet_of_same (List.prefix_refl _) rfl rfl (fun _ he => by simp at he)
          (fun _ _ hv => hv) rfl rfl
      exact (hq.trans (quiet_foldl quiet_dropSender _ _)).demuxed h
    · cases hs
  | writerExit =>
    obtain rfl := Option.some.inj hs
    have hq : Quiet s { s with writerOpen := false } :=
      quiet_of_same (List.prefix_refl _) rfl rfl (fun _ he => he) (fun _ _ hv => hv) rfl rfl
    exact hq.demuxed h
  | stderr line =>
    obtain rfl := Option.some.inj hs
    have hq : ∀ tail, Quiet s { s with stderrTail := tail } := fun _ =>
      quiet_of_same (List.prefix_refl _) rfl rfl (fun _ he => he) (fun _ _ hv => hv) rfl rfl
    exact (hq _).demuxed h

/-- Every state a run reaches satisfies the invariant. -/
theorem demuxed_run {es : List Label} (hrun : (client cfg).run .spawned es = some s) :
    Demuxed cfg s :=
  (client cfg).run_preserves (fun _ _ _ h hs => demuxed_step h hs) demuxed_spawned hrun

/--
**Responses are demultiplexed.** In every run no call returns twice, a call that returns `Ok v`
was delivered a line that carries its own request id and whose response reads `v`, and no line
was delivered twice.
-/
theorem responses_demultiplexed (es : List Label)
    (hrun : (client cfg).run .spawned es = some s) :
    (s.resolved.map Prod.fst).Nodup ∧
      (∀ c v, (c, .ok v) ∈ s.resolved → ∃ n response, (n, c) ∈ s.deliveries ∧
        CarriesResponse cfg s n c response ∧ interpretResponse response = .ok v) ∧
      (s.deliveries.map Prod.fst).Nodup := by
  have h := demuxed_run hrun
  exact ⟨h.resolved_once, h.resolved_line, h.delivered_once⟩

/-- A worker that prints noise and then the two responses, the later one first. -/
def repliesSwapped : Settings where
  maxContentSize := 1000
  timeoutSecs := 30
  fromStr := fun line =>
    if line = "\x7b\"n\":1,\"request_id\":\"a\"\x7d" then
      some (.object [("n", .number (.posInt 1)), ("request_id", .string "a")])
    else if line = "\x7b\"n\":2,\"request_id\":\"b\"\x7d" then
      some (.object [("n", .number (.posInt 2)), ("request_id", .string "b")])
    else none
  toString := fun task =>
    match task.get? "request_id" with
    | some (.string id) => .ok s!"\x7b\"request_id\":\"{id}\"\x7d"
    | _ => .error "no request id"

/-- Two calls registered in one order, handed off in the other and answered in the first. -/
def swappedRun : List Label :=
  [.call 0 "a" (.object []), .call 1 "b" (.object []), .register 1, .register 0, .handOff 0,
    .handOff 1, .read (.ok (.line "loading")),
    .read (.ok (.line "\x7b\"n\":2,\"request_id\":\"b\"\x7d\n")),
    .read (.ok (.line "\x7b\"n\":1,\"request_id\":\"a\"\x7d\n")), .receive 0, .receive 1]

theorem responses_demultiplexed_swapped :
    ∃ s, (client repliesSwapped).run .spawned swappedRun = some s ∧
      s.resolved = [(0, .ok (.object [("n", .number (.posInt 1))])),
        (1, .ok (.object [("n", .number (.posInt 2))]))] ∧
      (s.resolved.map Prod.fst).Nodup ∧
      (∀ c v, (c, .ok v) ∈ s.resolved → ∃ n response, (n, c) ∈ s.deliveries ∧
        CarriesResponse repliesSwapped s n c response ∧ interpretResponse response = .ok v) ∧
      (s.deliveries.map Prod.fst).Nodup :=
  ⟨_, rfl, rfl, responses_demultiplexed swappedRun rfl⟩

end Cpex.Host.Worker
