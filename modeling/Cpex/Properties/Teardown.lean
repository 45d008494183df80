import Cpex.Properties.Pending

/-!
# The teardown of a client

When stdout closes, the reader marks the client dead and then drops every sender in the map. A
call that passed its liveness check before the first and registers after the second is seen by
neither.

* `TornDown` — the invariant: who holds the sender of a channel that waits, and what is left once
  the map is cleared
* `none_stranded_iff` — after the teardown nothing is registered or can be, exactly when no call
  stood between its liveness check and its registration when the map was cleared
-/

namespace Cpex.Host.Worker

open Cpex.Infra

variable {cfg : Settings} {s s' : Client} {c : CallId}

/-! ## The teardown -/

/-- The call passed its liveness check and waits to register. -/
def Phase.registers : Phase → Bool
  | .registering _ _ => true
  | _ => false

theorem registers_iff {p : Phase} : p.registers = true ↔ ∃ id line, p = .registering id line := by
  cases p <;> simp [Phase.registers]

/-- A receiver that waits has its sender in the map. -/
def Held (s : Client) : Prop :=
  ∀ c, (s.phase c).listening → s.oneShot c = .waiting → ∃ id, Assoc.get? id s.pending = some c

/-- What holds of the flag, the map and the calls in every state of the teardown. -/
structure TornDown (s : Client) : Prop where
  marked : s.reader = .clearing ∨ s.reader = .finished → s.alive = false
  held : Held s
  cleared : s.reader = .finished → s.pending = [] ∧ ∀ c, (s.phase c).registers = false

/-- A channel that waits afterwards was waiting before, and its entry is still there. -/
theorem Held.keep (h : Held s)
    (hwait : ∀ d, (s'.phase d).listening → s'.oneShot d = .waiting →
      (s.phase d).listening ∧ s.oneShot d = .waiting)
    (hpending : s'.pending = s.pending) : Held s' := by
  intro d hlisten hone
  obtain ⟨hl, ho⟩ := hwait d hlisten hone
  rw [hpending]
  exact h d hl ho

/-- The one call that changes phase either gets no receiver or had one. -/
theorem Held.move {p : Phase} (h : Held s) (hphase : s'.phase = Function.update s.phase c p)
    (hp : p.listening → (s.phase c).listening) (hpending : s'.pending = s.pending)
    (hone : s'.oneShot = s.oneShot) : Held s' := by
  refine h.keep (fun d hlisten hwait => ?_) hpending
  rw [hone] at hwait
  rw [hphase] at hlisten
  by_cases hdc : d = c
  · subst hdc
    exact ⟨hp (by simpa using hlisten), hwait⟩
  · exact ⟨by simpa [hdc] using hlisten, hwait⟩

/-- An entry leaves the map and its owner's channel is settled. -/
theorem Held.take {id : String} (h : Held s) (hget : Assoc.get? id s.pending = some c)
    (hset : Settles { s with pending := Assoc.erase id s.pending } s' c) : Held s' := by
  intro d hlisten hwait
  rw [hset.phase] at hlisten
  have hdc : d ≠ c := by
    rintro rfl
    exact hset.own hlisten hwait
  obtain ⟨id', hget'⟩ := h d hlisten (hset.waits_of hwait)
  have hne : id' ≠ id := by
    rintro rfl
    exact hdc (Option.some.inj (hget'.symm.trans hget))
  refine ⟨id', ?_⟩
  rw [hset.pending]
  exact (Assoc.get?_erase_ne hne _).trans hget'

theorem Held.unregister (h : Held s) (id : String) : Held (s.unregister id) := by
  rcases unregister_cases s id with ⟨d, hget, hset⟩ | ⟨-, heq⟩
  · exact h.take hget hset
  · rw [heq]
    exact h

/-- When the whole map is drained, every receiver has something to receive. -/
theorem Held.drain {b : Client} (h : Held s) (hphase : b.phase = s.phase)
    (hone : b.oneShot = s.oneShot) (hall : SettlesAll b s' (s.pending.map Prod.snd)) :
    ∀ d, (s'.phase d).listening → s'.oneShot d ≠ .waiting := by
  intro d hlisten hwait
  rw [hall.phase, hphase] at hlisten
  have hwas : s.oneShot d = .waiting := by
    rw [← hone]
    exact hall.waits d hwait
  obtain ⟨id, hget⟩ := h d hlisten hwas
  exact hall.own d (mem_owners_of_get? hget) (by rw [hphase]; exact hlisten) hwait

/-- Registration opens the call's channel, and closes the one it takes the key from. -/
theorem Held.register {id line : String} (h : Held s) (hphase : s.phase c = .registering id line) :
    Held (s.register c id line) := by
  have hset : ∀ base : Client, base.phase = s.phase → base.pending = s.pending →
      (∀ d, d ≠ c → (s.phase d).listening → base.oneShot d = .waiting →
        s.oneShot d = .waiting ∧ Assoc.get? id s.pending ≠ some d) →
      Held { base with
        pending := Assoc.put id c base.pending
        oneShot := Function.update base.oneShot c .waiting
        phase := Function.update base.phase c (.handingOff id line) } := by
    intro base hbp hbpend hold d hlisten hwait
    by_cases hdc : d = c
    · subst hdc
      exact ⟨id, Assoc.get?_put_self id d _⟩
    · have hl : (s.phase d).listening := by simpa [hdc, hbp] using hlisten
      obtain ⟨hwas, hne⟩ := hold d hdc hl (by simpa [hdc] using hwait)
      obtain ⟨id', hget⟩ := h d hl hwas
      have hid : id' ≠ id := by
        rintro rfl
        exact hne hget
      exact ⟨id', by rw [hbpend]; exact (Assoc.get?_put_ne hid c _).trans hget⟩
  unfold Client.register
  cases hget : Assoc.get? id s.pending with
  | none => exact hset s rfl rfl fun d _ _ hwait => ⟨hwait, by simp [hget]⟩
  | some old =>
    have hdrop := settles_dropSender s old
    refine hset _ hdrop.phase hdrop.pending fun d _ hl hwait => ⟨hdrop.waits_of hwait, ?_⟩
    intro heq
    obtain rfl := Option.some.inj (hget.symm.trans heq)
    exact hdrop.own hl hwait

/-! ## Steps of the teardown -/

theorem tornDown_spawned : TornDown .spawned where
  marked := by simp [Client.spawned]
  held := fun _ h => by simp [Client.spawned, Phase.listening] at h
  cleared := by simp [Client.spawned]

/-- A step that leaves the reader and the flag, and after the teardown opens nothing. -/
theorem TornDown.keep (h : TornDown s) (hheld : Held s') (hreader : s'.reader = s.reader)
    (halive : s'.alive = s.alive)
    (hopen : s.reader = .finished → s.pending = [] → s'.pending = [] ∧
      ∀ d, (s'.phase d).registers → (s.phase d).registers) : TornDown s' where
  marked := by
    rw [hreader, halive]
    exact h.marked
  held := hheld
  cleared := by
    intro hfin
    rw [hreader] at hfin
    obtain ⟨hnil, hnone⟩ := h.cleared hfin
    obtain ⟨hnil', hreg⟩ := hopen hfin hnil
    refine ⟨hnil', fun d => ?_⟩
    cases hd : (s'.phase d).registers with
    | false => rfl
    | true => exact absurd (hreg d hd) (by simp [hnone d])

/-- A call changes phase: it neither gets a receiver nor comes to wait for the lock. -/
theorem TornDown.move {p : Phase} (h : TornDown s) (hphase : s'.phase = Function.update s.phase c p)
    (hp : p.listening → (s.phase c).listening) (hreg : p.registers = false)
    (hpending : s'.pending = s.pending) (hone : s'.oneShot = s.oneShot)
    (hreader : s'.reader = s.reader) (halive : s'.alive = s.alive) : TornDown s' := by
  refine h.keep (h.held.move hphase hp hpending hone) hreader halive fun _ hnil => ?_
  refine ⟨hpending.trans hnil, fun d hd => ?_⟩
  rw [hphase] at hd
  by_cases hdc : d = c
  · subst hdc
    simp [hreg] at hd
  · simpa [hdc] using hd

theorem TornDown.begin (h : TornDown s) (hb : Begins s s' c) : TornDown s' := by
  obtain ⟨p, hphase, hp, hreg⟩ := hb.phase
  have hheld : Held s' := h.held.move hphase (by simp [hp]) hb.pending hb.oneShot
  refine h.keep hheld hb.reader hb.alive fun hfin hnil => ⟨hb.pending.trans hnil, fun d hd => ?_⟩
  rw [hphase] at hd
  by_cases hdc : d = c
  · subst hdc
    -- The flag is down, so the liveness check sent the call the other way.
    have halive : s.alive = true := hreg (registers_iff.mp (by simpa using hd))
    rw [h.marked (.inr hfin)] at halive
    cases halive
  · simpa [hdc] using hd

@[simp] theorem register_reader (s : Client) (c : CallId) (id line : String) :
    (s.register c id line).reader = s.reader := by
  unfold Client.register
  cases Assoc.get? id s.pending with
  | none => rfl
  | some old => exact (settles_dropSender s old).reader

@[simp] theorem register_alive (s : Client) (c : CallId) (id line : String) :
    (s.register c id line).alive = s.alive := by
  unfold Client.register
  cases Assoc.get? id s.pending with
  | none => rfl
  | some old => exact (settles_dropSender s old).alive

@[simp] theorem unregister_reader (s : Client) (id : String) :
    (s.unregister id).reader = s.reader := by
  rcases unregister_cases s id with ⟨d, -, hset⟩ | ⟨-, heq⟩
  · exact hset.reader
  · rw [heq]

theorem TornDown.register {id line : String} (h : TornDown s)
    (hphase : s.phase c = .registering id line) : TornDown (s.register c id line) := by
  refine h.keep (h.held.register hphase) (register_reader s c id line)
    (register_alive s c id line) fun hfin _ => ?_
  have hnone := (h.cleared hfin).2 c
  rw [hphase] at hnone
  cases hnone

/-- A step that takes one entry out of the map, or finds none to take. -/
theorem TornDown.take {id : String} {d : CallId} (h : TornDown s)
    (hget : Assoc.get? id s.pending = some d)
    (hset : Settles { s with pending := Assoc.erase id s.pending } s' d) : TornDown s' := by
  refine h.keep (h.held.take hget hset) hset.reader hset.alive fun _ hnil => ?_
  rw [hnil] at hget
  cases hget

theorem TornDown.unregister (h : TornDown s) (id : String) : TornDown (s.unregister id) := by
  rcases unregister_cases s id with ⟨d, hget, hset⟩ | ⟨-, heq⟩
  · exact h.take hget hset
  · rw [heq]
    exact h

/-- A step that leaves what the invariant reads. -/
theorem TornDown.same (h : TornDown s) (hphase : s'.phase = s.phase)
    (hpending : s'.pending = s.pending) (hone : s'.oneShot = s.oneShot)
    (hreader : s'.reader = s.reader) (halive : s'.alive = s.alive) : TornDown s' := by
  have hheld : Held s' := h.held.keep (by rw [hphase, hone]; exact fun _ hl hw => ⟨hl, hw⟩) hpending
  refine h.keep hheld hreader halive fun _ hnil => ⟨hpending.trans hnil, ?_⟩
  rw [hphase]
  exact fun _ hd => hd

theorem tornDown_onLine (text : String) (h : TornDown s) : TornDown (s.onLine cfg text) := by
  unfold Client.onLine
  dsimp only
  split
  · exact h
  · split
    · exact h
    · split
      · exact h
      · split
        · exact h
        · next hget => exact h.take hget (settles_sendResponse _ _ _ _)

/-- The whole map is drained: every receiver has something to receive. -/
theorem TornDown.drain {b : Client} (h : TornDown s) (hphase : b.phase = s.phase)
    (hone : b.oneShot = s.oneShot) (hall : SettlesAll b s' (s.pending.map Prod.snd))
    (hmarked : b.reader = .clearing ∨ b.reader = .finished → b.alive = false)
    (hcleared : b.reader = .finished → b.pending = [] ∧ ∀ c, (s.phase c).registers = false) :
    TornDown s' where
  marked := by
    rw [hall.reader, hall.alive]
    exact hmarked
  held := fun d hl hw => absurd hw (h.held.drain hphase hone hall d hl)
  cleared := by
    rw [hall.reader, hall.pending, hall.phase, hphase]
    exact hcleared

theorem tornDown_onOversized (kept : String) (scanned : Nat) (h : TornDown s)
    (hreading : s.reader = .reading) : TornDown (s.onOversized cfg kept scanned) := by
  unfold Client.onOversized
  split
  · next id d hfound =>
    obtain ⟨id', -, hmap⟩ := Option.bind_eq_some_iff.mp hfound
    obtain ⟨d', hget, heq⟩ := Option.map_eq_some_iff.mp hmap
    obtain ⟨rfl, rfl⟩ := Prod.mk.inj heq
    exact h.take hget (settles_sendError _ _ _)
  · have hall := settlesAll_foldl (settles_sendError (responseTooLarge scanned cfg.maxContentSize))
      (s.pending.map Prod.snd) { s with pending := [] }
    exact h.drain (b := { s with pending := [] }) rfl rfl hall h.marked (by simp [hreading])

theorem TornDown.append_line (h : TornDown s) (lines : List (Except String BoundedLine)) :
    TornDown { s with lines := lines } :=
  h.same rfl rfl rfl rfl rfl

theorem tornDown_onFrame (frame : Except String BoundedLine) (h : TornDown s)
    (hreading : s.reader = .reading) : TornDown (s.onFrame cfg frame) := by
  have hclose : TornDown { s with reader := .closing } :=
    { marked := by simp, held := h.held, cleared := by simp }
  match frame with
  | .error _ => exact hclose.append_line _
  | .ok .eof => exact hclose.append_line _
  | .ok (.line text) => exact (tornDown_onLine text h).append_line _
  | .ok (.oversized kept scanned) =>
    exact (tornDown_onOversized kept scanned h hreading).append_line _

/-- The teardown completes: with no call about to register, none is left in the map. -/
theorem tornDown_clear (h : TornDown s) (hnone : ∀ c, (s.phase c).registers = false)
    (hclearing : s.reader = .clearing) : TornDown s.clearPending := by
  have hall := settlesAll_foldl settles_dropSender (s.pending.map Prod.snd)
    { s with pending := [], reader := .finished }
  exact h.drain (b := { s with pending := [], reader := .finished }) rfl rfl hall
    (fun _ => h.marked (.inl hclearing)) fun _ => ⟨rfl, hnone⟩

theorem tornDown_handOff {id line : String} (h : TornDown s)
    (hphase : s.phase c = .handingOff id line) : TornDown (s.handOff c id line) := by
  have hlisten : (s.phase c).listening := by rw [hphase]; rfl
  unfold Client.handOff
  split
  · exact h.move rfl (fun _ => hlisten) rfl rfl rfl rfl rfl
  · exact h.move rfl (fun _ => hlisten) rfl rfl rfl rfl rfl

theorem tornDown_receive (h : TornDown s) (hs : s.receive c = some s') : TornDown s' := by
  unfold Client.receive at hs
  split at hs
  · obtain rfl := Option.some.inj hs
    exact h.move rfl (by simp [Phase.listening]) rfl rfl rfl rfl rfl
  · obtain rfl := Option.some.inj hs
    exact h.move rfl (by simp [Phase.listening]) rfl rfl rfl rfl rfl
  · obtain rfl := Option.some.inj hs
    exact h.move rfl (by simp [Phase.listening]) rfl rfl rfl rfl rfl
  · cases hs

/-- Every step keeps the invariant, the last one of the teardown when nobody is about to register. -/
theorem tornDown_step {l : Label} (h : TornDown s)
    (hok : l = .clear → ∀ c, (s.phase c).registers = false) (hs : step cfg s l = some s') :
    TornDown s' := by
  cases l with
  | call c id task =>
    simp only [step] at hs
    split at hs
    · obtain rfl := Option.some.inj hs
      exact h.begin (begins_beginSend cfg s c id task)
    · cases hs
  | register c =>
    simp only [step] at hs
    split at hs
    · next hphase =>
      obtain rfl := Option.some.inj hs
      exact h.register hphase
    · cases hs
  | handOff c =>
    simp only [step] at hs
    split at hs
    · next hphase =>
      obtain rfl := Option.some.inj hs
      exact tornDown_handOff h hphase
    · cases hs
  | withdraw c =>
    simp only [step] at hs
    split at hs
    · next id _ =>
      obtain rfl := Option.some.inj hs
      exact (h.unregister id).move rfl (by simp [Phase.listening]) rfl rfl rfl rfl rfl
    · cases hs
  | receive c =>
    simp only [step] at hs
    split at hs
    · exact tornDown_receive h hs
    · cases hs
  | timeOut c =>
    simp only [step] at hs
    split at hs
    · obtain rfl := Option.some.inj hs
      exact h.move rfl (by simp [Phase.listening]) rfl rfl rfl rfl rfl
    · cases hs
  | expire c =>
    simp only [step] at hs
    split at hs
    · next id _ =>
      obtain rfl := Option.some.inj hs
      exact (h.unregister id).move rfl (by simp [Phase.listening]) rfl rfl rfl rfl rfl
    · cases hs
  | report c =>
    simp only [step] at hs
    split at hs
    · obtain rfl := Option.some.inj hs
      exact h.move rfl (by simp [Phase.listening]) rfl rfl rfl rfl rfl
    · cases hs
  | cancel c =>
    simp only [step] at hs
    split at hs <;> first | (cases hs; done) | skip
    all_goals
      obtain rfl := Option.some.inj hs
      exact h.move rfl (by simp [Phase.listening]) rfl rfl rfl rfl rfl
  | read frame =>
    simp only [step] at hs
    split at hs
    · next hreading =>
      obtain rfl := Option.some.inj hs
      exact tornDown_onFrame frame h hreading
    · cases hs
  | markDead =>
    simp only [step] at hs
    split at hs
    · obtain rfl := Option.some.inj hs
      exact { marked := fun _ => rfl, held := h.held, cleared := by simp }
    · cases hs
  | clear =>
    simp only [step] at hs
    split at hs
    · next hclearing =>
      obtain rfl := Option.some.inj hs
      exact tornDown_clear h (hok rfl) hclearing
    · cases hs
  | writerExit =>
    obtain rfl := Option.some.inj hs
    exact h.same rfl rfl rfl rfl rfl
  | stderr line =>
    obtain rfl := Option.some.inj hs
    exact h.same rfl rfl rfl rfl rfl

/-- The reader task ends once: no step takes it back. -/
theorem finished_step {l : Label} (hfin : s.reader = .finished) (hs : step cfg s l = some s') :
    s'.reader = .finished := by
  cases l with
  | call c id task =>
    simp only [step] at hs
    split at hs
    · obtain rfl := Option.some.inj hs
      rw [(begins_beginSend cfg s c id task).reader, hfin]
    · cases hs
  | register c =>
    simp only [step] at hs
    split at hs
    · obtain rfl := Option.some.inj hs
      rw [register_reader, hfin]
    · cases hs
  | handOff c =>
    simp only [step, Client.handOff] at hs
    split at hs
    · split at hs
      · obtain rfl := Option.some.inj hs
        exact hfin
      · obtain rfl := Option.some.inj hs
        exact hfin
    · cases hs
  | withdraw c | expire c =>
    simp only [step] at hs
    split at hs
    · next id _ =>
      obtain rfl := Option.some.inj hs
      exact (unregister_reader s id).trans hfin
    · cases hs
  | receive c =>
    simp only [step, Client.receive] at hs
    split at hs
    · split at hs <;> first | (cases hs; done) | skip
      all_goals
        obtain rfl := Option.some.inj hs
        exact hfin
    · cases hs
  | timeOut c | report c =>
    simp only [step] at hs
    split at hs
    · obtain rfl := Option.some.inj hs
      exact hfin
    · cases hs
  | cancel c =>
    simp only [step] at hs
    split at hs <;> first | (cases hs; done) | skip
    all_goals
      obtain rfl := Option.some.inj hs
      exact hfin
  | read frame | markDead | clear => simp [step, hfin] at hs
  | writerExit | stderr line =>
    obtain rfl := Option.some.inj hs
    exact hfin

/-! ## No waiter is stranded -/

/--
What the teardown is for. In this state and in every later one nothing is registered, every
receiver has something to receive, and a call that begins fails without waiting.
-/
structure NoneStranded (cfg : Settings) (s : Client) : Prop where
  unregistered : ∀ es s', (client cfg).run s es = some s' → s'.pending = []
  received : ∀ es s' c, (client cfg).run s es = some s' → (s'.phase c).listening →
    s'.oneShot c ≠ .waiting
  fails_fast : ∀ c id task s', step cfg s (.call c id task) = some s' →
    s'.phase c = .reporting "worker process is no longer running"

/-- A torn-down client stays torn down. -/
theorem tornDown_later (h : TornDown s) (hfin : s.reader = .finished) {es : List Label}
    (hrun : (client cfg).run s es = some s') : TornDown s' ∧ s'.reader = .finished := by
  refine (client cfg).run_preserves (I := fun s => TornDown s ∧ s.reader = .finished) ?_
    ⟨h, hfin⟩ hrun
  rintro s l s' ⟨h, hfin⟩ hs
  refine ⟨tornDown_step h ?_ hs, finished_step hfin hs⟩
  rintro -
  exact (h.cleared hfin).2

theorem noneStranded_of_tornDown (h : TornDown s) (hfin : s.reader = .finished) :
    NoneStranded cfg s where
  unregistered := by
    intro es s' hrun
    obtain ⟨h', hfin'⟩ := tornDown_later h hfin hrun
    exact (h'.cleared hfin').1
  received := by
    intro es s' c hrun hlisten hwait
    obtain ⟨h', hfin'⟩ := tornDown_later h hfin hrun
    obtain ⟨id, hget⟩ := h'.held c hlisten hwait
    rw [(h'.cleared hfin').1] at hget
    cases hget
  fails_fast := by
    intro c id task s' hs
    simp only [step] at hs
    split at hs
    · obtain rfl := Option.some.inj hs
      simp [Client.beginSend, h.marked (.inr hfin), Client.setPhase]
    · cases hs

/-- A call that is about to register when the map is cleared registers afterwards. -/
theorem stranded_of_registers (hregs : (s.phase c).registers)
    (hs : step cfg s .clear = some s') : s'.reader = .finished ∧ ¬ NoneStranded cfg s' := by
  simp only [step] at hs
  split at hs
  · obtain rfl := Option.some.inj hs
    have hall := settlesAll_foldl settles_dropSender (s.pending.map Prod.snd)
      { s with pending := [], reader := .finished }
    obtain ⟨id, line, hphase⟩ := registers_iff.mp hregs
    have hphase' : s.clearPending.phase c = .registering id line := by
      rw [← hphase]
      exact congrFun hall.phase c
    have hstep : step cfg s.clearPending (.register c) =
        some (s.clearPending.register c id line) := by simp only [step, hphase']
    refine ⟨hall.reader, fun h => ?_⟩
    have hnil := h.unregistered [.register c] _
      ((client cfg).run_cons_eq_some.mpr ⟨_, hstep, rfl⟩)
    have hget : Assoc.get? id (s.clearPending.register c id line).pending = some c :=
      Assoc.get?_put_self id c _
    rw [hnil] at hget
    cases hget
  · cases hs

/--
**No waiter is stranded, exactly when nobody races the teardown.** In every state of a run after
the teardown nothing is registered or can be, if and only if no call stood between its liveness
check and its registration when the map was cleared.
-/
theorem none_stranded_iff (es : List Label) (hrun : (client cfg).run .spawned es = some s) :
    (client cfg).Always (fun s => s.reader = .finished → NoneStranded cfg s) .spawned es ↔
      (client cfg).Meets (fun s l => l = .clear → ∀ c, (s.phase c).registers = false)
        .spawned es := by
  refine (client cfg).always_iff_meets (I := TornDown)
    (fun s h hfin => noneStranded_of_tornDown h hfin) ?_ ?_ tornDown_spawned hrun
  · intro s l s' h hok hs
    exact tornDown_step h hok hs
  · intro s l s' _ hok hs hP
    rw [Classical.not_imp] at hok
    obtain ⟨rfl, hregs⟩ := hok
    rw [not_forall] at hregs
    obtain ⟨c, hc⟩ := hregs
    obtain ⟨hfin, hnot⟩ := stranded_of_registers (by simpa using hc) hs
    exact hnot (hP hfin)

/-- Stdout closes while call 0 waits for its response. -/
def drainedRun : List Label :=
  [.call 0 "a" (.object []), .register 0, .handOff 0, .read (.ok .eof), .markDead, .clear,
    .receive 0, .report 0]

theorem none_stranded_iff_drained :
    (∃ s, (client repliesSwapped).run .spawned drainedRun = some s ∧ s.reader = .finished ∧
      s.resolved = [(0, .error (.workerDied "worker exited while the request was in flight"))]) ∧
    ((client repliesSwapped).Always
        (fun s => s.reader = .finished → NoneStranded repliesSwapped s) .spawned drainedRun ↔
      (client repliesSwapped).Meets (fun s l => l = .clear → ∀ c, (s.phase c).registers = false)
        .spawned drainedRun) :=
  ⟨⟨_, rfl, rfl, rfl⟩, none_stranded_iff drainedRun rfl⟩

/-- Stdout closes while call 0 is between its liveness check and its registration. -/
def racingRun : List Label :=
  [.call 0 "a" (.object []), .read (.ok .eof), .markDead, .clear, .register 0, .handOff 0]

/-- The racing call waits for a reader that is gone, and only its timeout ends it. -/
theorem racing_call_stranded :
    ¬ (client repliesSwapped).Always
        (fun s => s.reader = .finished → NoneStranded repliesSwapped s) .spawned racingRun ∧
      ∃ s, (client repliesSwapped).run .spawned (racingRun ++ [.timeOut 0, .expire 0]) = some s ∧
        s.resolved = [(0, .error (.timeout 30))] := by
  refine ⟨fun h => ?_, _, rfl, rfl⟩
  have hlast := h racingRun _ (List.prefix_refl _) rfl
  have hnil := (hlast rfl).unregistered [] _ rfl
  cases hnil

end Cpex.Host.Worker
