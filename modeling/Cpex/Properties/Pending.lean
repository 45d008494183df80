import Mathlib.Data.List.Perm.Subperm
import Cpex.Properties.Worker

/-!
# What the pending map holds

A call enters `pending` before it hands its line over, and is taken out by its response, by the
teardown, or by its own exit after a closed writer or a timeout. A future that is dropped has no
exit of its own.

* `Settles` — what taking one call out of the map does to the channels
* `Tracked` — the invariant: distinct keys, and an awaited call with an open channel behind each
* `pending_awaited_iff` — every entry belongs to a call that is still awaited, exactly when no
  future is dropped while its entry is in the map
-/

namespace Cpex.Host.Worker

open Cpex.Infra

variable {cfg : Settings} {s s' : Client} {c : CallId}

/-! ## Taking a call out of the map -/

/--
What a send to, or a drop of, the channel of call `c` does: it touches no other channel, and a
receiver that still exists has something to receive afterwards.
-/
structure Settles (s s' : Client) (c : CallId) : Prop where
  phase : s'.phase = s.phase
  pending : s'.pending = s.pending
  reader : s'.reader = s.reader
  alive : s'.alive = s.alive
  others : ∀ d, d ≠ c → s'.oneShot d = s.oneShot d
  own : (s.phase c).listening → s'.oneShot c ≠ .waiting
  waits : s'.oneShot c = .waiting → s.oneShot c = .waiting

theorem settles_dropSender (s : Client) (c : CallId) : Settles s (s.dropSender c) c := by
  unfold Client.dropSender
  split
  · exact
      { phase := rfl, pending := rfl, reader := rfl, alive := rfl
        others := fun d hd => by simp [hd], own := fun _ => by simp, waits := fun h => by simp at h }
  · next hone =>
    exact
      { phase := rfl, pending := rfl, reader := rfl, alive := rfl
        others := fun _ _ => rfl, own := fun _ => hone, waits := fun h => h }

theorem settles_sendError (e : HostError) (s : Client) (c : CallId) :
    Settles s (s.sendError e c) c := by
  unfold Client.sendError
  split
  · exact
      { phase := rfl, pending := rfl, reader := rfl, alive := rfl
        others := fun d hd => by simp [hd], own := fun _ => by simp, waits := fun h => by simp at h }
  · next hnot =>
    exact
      { phase := rfl, pending := rfl, reader := rfl, alive := rfl
        others := fun _ _ => rfl, own := fun h => absurd h hnot, waits := fun h => h }

theorem settles_sendResponse (n : Nat) (response : Json) (s : Client) (c : CallId) :
    Settles s (s.sendResponse n response c) c := by
  unfold Client.sendResponse
  split
  · exact
      { phase := rfl, pending := rfl, reader := rfl, alive := rfl
        others := fun d hd => by simp [hd], own := fun _ => by simp, waits := fun h => by simp at h }
  · next hnot =>
    exact
      { phase := rfl, pending := rfl, reader := rfl, alive := rfl
        others := fun _ _ => rfl, own := fun h => absurd h hnot, waits := fun h => h }

theorem Settles.waits_of (h : Settles s s' c) {d : CallId} (hd : s'.oneShot d = .waiting) :
    s.oneShot d = .waiting := by
  by_cases hdc : d = c
  · subst hdc
    exact h.waits hd
  · rw [← h.others d hdc]
    exact hd

/-- What a loop over the drained calls does to every channel at once. -/
structure SettlesAll (s s' : Client) (cs : List CallId) : Prop where
  phase : s'.phase = s.phase
  pending : s'.pending = s.pending
  reader : s'.reader = s.reader
  alive : s'.alive = s.alive
  waits : ∀ d, s'.oneShot d = .waiting → s.oneShot d = .waiting
  own : ∀ c ∈ cs, (s.phase c).listening → s'.oneShot c ≠ .waiting

theorem settlesAll_foldl {f : Client → CallId → Client} (hf : ∀ s c, Settles s (f s c) c) :
    ∀ (cs : List CallId) (s : Client), SettlesAll s (cs.foldl f s) cs
  | [], s =>
    { phase := rfl, pending := rfl, reader := rfl, alive := rfl
      waits := fun _ h => h, own := fun _ h => by cases h }
  | c :: cs, s => by
    have hc := hf s c
    have hrest := settlesAll_foldl hf cs (f s c)
    rw [List.foldl_cons]
    refine
      { phase := hrest.phase.trans hc.phase, pending := hrest.pending.trans hc.pending
        reader := hrest.reader.trans hc.reader, alive := hrest.alive.trans hc.alive
        waits := fun d hd => hc.waits_of (hrest.waits d hd), own := ?_ }
    intro d hd hlisten
    rcases List.mem_cons.mp hd with rfl | hmem
    · intro hwait
      exact hc.own hlisten (hrest.waits d hwait)
    · exact hrest.own d hmem (by rw [hc.phase]; exact hlisten)

/-- Withdrawing an id: the entry goes, and whoever held it finds its sender dropped. -/
theorem unregister_cases (s : Client) (id : String) :
    (∃ d, Assoc.get? id s.pending = some d ∧
      Settles { s with pending := Assoc.erase id s.pending } (s.unregister id) d) ∨
    (Assoc.get? id s.pending = none ∧ s.unregister id = s) := by
  unfold Client.unregister
  split
  · next d hd => exact .inl ⟨d, hd, settles_dropSender _ d⟩
  · next hnone => exact .inr ⟨hnone, rfl⟩

theorem mem_owners_of_get? {id : String} {entries : List (String × CallId)}
    (h : Assoc.get? id entries = some c) : c ∈ entries.map Prod.snd :=
  List.mem_map.mpr ⟨(id, c), Assoc.mem_of_get? h, rfl⟩

/-! ## What the first part of a call does -/

/-- A call that begins moves to a phase without a channel, and registers only with a live reader. -/
structure Begins (s s' : Client) (c : CallId) : Prop where
  phase : ∃ p, s'.phase = Function.update s.phase c p ∧ p.listening = false ∧
    ((∃ id line, p = .registering id line) → s.alive = true)
  pending : s'.pending = s.pending
  oneShot : s'.oneShot = s.oneShot
  reader : s'.reader = s.reader
  alive : s'.alive = s.alive

theorem begins_of_phase {p : Phase} (hphase : s'.phase = Function.update s.phase c p)
    (hp : p.listening = false) (hreg : (∃ id line, p = .registering id line) → s.alive = true)
    (hpending : s'.pending = s.pending) (hone : s'.oneShot = s.oneShot)
    (hreader : s'.reader = s.reader) (halive : s'.alive = s.alive) : Begins s s' c where
  phase := ⟨p, hphase, hp, hreg⟩
  pending := hpending
  oneShot := hone
  reader := hreader
  alive := halive

theorem begins_beginSend (cfg : Settings) (s : Client) (c : CallId) (id : String) (task : Json) :
    Begins s (s.beginSend cfg c id task) c := by
  unfold Client.beginSend
  split
  · exact begins_of_phase rfl rfl (by simp) rfl rfl rfl rfl
  · next halive =>
    have halive : s.alive = true := by simpa using halive
    dsimp only
    split
    · split
      · exact begins_of_phase rfl rfl (by simp) rfl rfl rfl rfl
      · split
        · exact begins_of_phase rfl rfl (by simp) rfl rfl rfl rfl
        · exact begins_of_phase rfl rfl (fun _ => halive) rfl rfl rfl rfl
    · exact begins_of_phase rfl rfl (by simp) rfl rfl rfl rfl

/-! ## Entries and the calls they belong to -/

/-- The id under which a call that is still awaited may stand in the map. -/
def Phase.registered? : Phase → Option String
  | .handingOff id _ | .withdrawing id | .awaiting id | .expiring id => some id
  | _ => none

/-- Every entry is that of a call still awaited, and so there are no more entries than such calls. -/
structure PendingAwaited (s : Client) : Prop where
  awaited : ∀ id c, (id, c) ∈ s.pending → (s.phase c).registered? = some id
  bounded : ∀ cs : List CallId, (∀ c, (s.phase c).registered?.isSome → c ∈ cs) →
    s.pending.length ≤ cs.length

/-- What makes it so: distinct keys, and an open channel behind each entry. -/
structure Tracked (s : Client) : Prop where
  keys : (s.pending.map Prod.fst).Nodup
  entry : ∀ id c, Assoc.get? id s.pending = some c →
    (s.phase c).registered? = some id ∧ s.oneShot c = .waiting

/-- No call has two entries: each is under the call's own id. -/
theorem Tracked.nodup_owners (h : Tracked s) : (s.pending.map Prod.snd).Nodup := by
  have hpairs : s.pending.Nodup := h.keys.of_map
  refine hpairs.map_on ?_
  rintro ⟨id, c⟩ hmem ⟨id', c'⟩ hmem' heq
  obtain rfl : c = c' := heq
  have hid := (h.entry id c (Assoc.get?_of_mem h.keys hmem)).1
  have hid' := (h.entry id' c (Assoc.get?_of_mem h.keys hmem')).1
  rw [Option.some.inj (hid.symm.trans hid')]

theorem Tracked.pendingAwaited (h : Tracked s) : PendingAwaited s where
  awaited := fun id c hmem => (h.entry id c (Assoc.get?_of_mem h.keys hmem)).1
  bounded := by
    intro cs hcs
    have hsub : s.pending.map Prod.snd ⊆ cs := by
      intro c hc
      obtain ⟨⟨id, d⟩, hmem, rfl⟩ := List.mem_map.mp hc
      refine hcs d ?_
      rw [(h.entry id d (Assoc.get?_of_mem h.keys hmem)).1]
      rfl
    have hle := (h.nodup_owners.subperm hsub).length_le
    rwa [List.length_map] at hle

theorem tracked_spawned : Tracked .spawned where
  keys := List.nodup_nil
  entry := fun _ _ h => by simp [Client.spawned] at h

/-- A step that leaves the map and, for each call with an entry, its channel and its id. -/
theorem Tracked.keep (h : Tracked s) (hpending : s'.pending = s.pending)
    (hentry : ∀ id c, Assoc.get? id s.pending = some c → (s.phase c).registered? = some id →
      s.oneShot c = .waiting → (s'.phase c).registered? = some id ∧ s'.oneShot c = .waiting) :
    Tracked s' where
  keys := by
    rw [hpending]
    exact h.keys
  entry := by
    intro id c hget
    rw [hpending] at hget
    obtain ⟨hid, hwait⟩ := h.entry id c hget
    exact hentry id c hget hid hwait

/-- One call changes phase, to one that keeps the id of any entry it has. -/
theorem Tracked.move {p : Phase} (h : Tracked s) (hphase : s'.phase = Function.update s.phase c p)
    (hp : ∀ id, Assoc.get? id s.pending = some c → (s.phase c).registered? = some id →
      p.registered? = some id)
    (hpending : s'.pending = s.pending) (hone : s'.oneShot = s.oneShot) : Tracked s' := by
  refine h.keep hpending fun id d hget hid hwait => ⟨?_, by rw [hone]; exact hwait⟩
  rw [hphase]
  by_cases hdc : d = c
  · subst hdc
    simpa using hp id hget hid
  · simpa [hdc] using hid

/-- A call without an entry may move to any phase. -/
theorem Tracked.moveFree {p : Phase} (h : Tracked s)
    (hphase : s'.phase = Function.update s.phase c p)
    (hfree : ∀ id, Assoc.get? id s.pending ≠ some c) (hpending : s'.pending = s.pending)
    (hone : s'.oneShot = s.oneShot) : Tracked s' :=
  h.move hphase (fun id hget => absurd hget (hfree id)) hpending hone

/-- A call that stands in no registered phase has no entry. -/
theorem Tracked.free (h : Tracked s) (hnone : (s.phase c).registered? = none) (id : String) :
    Assoc.get? id s.pending ≠ some c := by
  intro hget
  have hid := (h.entry id c hget).1
  rw [hnone] at hid
  cases hid

/-- A call whose channel has been answered or closed has no entry. -/
theorem Tracked.free_of_answered (h : Tracked s) (hone : s.oneShot c ≠ .waiting) (id : String) :
    Assoc.get? id s.pending ≠ some c := fun hget => hone (h.entry id c hget).2

/-- An entry leaves the map and its owner's channel is settled: no other entry is the owner's. -/
theorem Tracked.take {id : String} (h : Tracked s) (hget : Assoc.get? id s.pending = some c)
    (hset : Settles { s with pending := Assoc.erase id s.pending } s' c) : Tracked s' where
  keys := by
    rw [hset.pending]
    exact Assoc.nodup_erase id h.keys
  entry := by
    intro id' d hget'
    rw [hset.pending] at hget'
    have hne : id' ≠ id := by
      rintro rfl
      rw [Assoc.get?_erase_self] at hget'
      cases hget'
    rw [Assoc.get?_erase_ne hne] at hget'
    obtain ⟨hid', hwait⟩ := h.entry id' d hget'
    have hdc : d ≠ c := by
      rintro rfl
      exact hne (Option.some.inj (hid'.symm.trans (h.entry id d hget).1))
    rw [hset.phase, hset.others d hdc]
    exact ⟨hid', hwait⟩

/-- Withdrawing an id leaves no entry under it. -/
theorem Tracked.unregister (h : Tracked s) (id : String) :
    Tracked (s.unregister id) ∧ Assoc.get? id (s.unregister id).pending = none := by
  rcases unregister_cases s id with ⟨d, hget, hset⟩ | ⟨hnone, heq⟩
  · refine ⟨h.take hget hset, ?_⟩
    rw [hset.pending]
    exact Assoc.get?_erase_self id _
  · rw [heq]
    exact ⟨h, hnone⟩

/-- A call takes its own id back and moves on. -/
theorem Tracked.withdraw {id : String} {p : Phase} (h : Tracked s)
    (hid : (s.phase c).registered? = some id)
    (hphase : s'.phase = Function.update (s.unregister id).phase c p)
    (hpending : s'.pending = (s.unregister id).pending)
    (hone : s'.oneShot = (s.unregister id).oneShot) : Tracked s' := by
  obtain ⟨hu, hnone⟩ := h.unregister id
  refine hu.moveFree hphase (fun id' hget => ?_) hpending hone
  have hid' := (hu.entry id' c hget).1
  rw [unregister_phase, hid, Option.some.injEq] at hid'
  rw [← hid', hnone] at hget
  cases hget

theorem Tracked.drained (hnil : s.pending = []) : Tracked s where
  keys := by simp [hnil]
  entry := fun _ _ hget => by simp [hnil] at hget

theorem Tracked.register {id line : String} (h : Tracked s)
    (hphase : s.phase c = .registering id line) : Tracked (s.register c id line) := by
  have hfree := h.free (c := c) (by rw [hphase]; rfl)
  have hset : ∀ b : Client, b.phase = s.phase → b.pending = s.pending →
      (∀ d id', id' ≠ id → Assoc.get? id' s.pending = some d → b.oneShot d = s.oneShot d) →
      Tracked { b with
        pending := Assoc.put id c b.pending
        oneShot := Function.update b.oneShot c .waiting
        phase := Function.update b.phase c (.handingOff id line) } := by
    intro b hbp hbpend hbone
    refine ⟨Assoc.nodup_put id c (by rw [hbpend]; exact h.keys), fun id' d hget => ?_⟩
    rw [hbpend] at hget
    by_cases hid : id' = id
    · subst hid
      rw [Assoc.get?_put_self, Option.some.injEq] at hget
      subst hget
      simp [Phase.registered?]
    · rw [Assoc.get?_put_ne hid] at hget
      have hdc : d ≠ c := by
        rintro rfl
        exact hfree id' hget
      obtain ⟨hid', hwait⟩ := h.entry id' d hget
      simpa [hdc, hbp, hbone d id' hid hget] using And.intro hid' hwait
  unfold Client.register
  cases hold : Assoc.get? id s.pending with
  | none => exact hset s rfl rfl fun _ _ _ _ => rfl
  | some old =>
    have hdrop := settles_dropSender s old
    refine hset _ hdrop.phase hdrop.pending fun d id' hne hget => hdrop.others d ?_
    rintro rfl
    have hid := (h.entry id' d hget).1
    exact hne (Option.some.inj (hid.symm.trans (h.entry id d hold).1))

/-! ## Steps of the tracked map -/

theorem tracked_onLine (text : String) (h : Tracked s) : Tracked (s.onLine cfg text) := by
  unfold Client.onLine
  dsimp only
  split
  · exact h
  · split
    · exact h
    · split
      · exact h
      · split
        · exact h
        · next hget => exact h.take hget (settles_sendResponse _ _ _ _)

theorem tracked_onOversized (kept : String) (scanned : Nat) (h : Tracked s) :
    Tracked (s.onOversized cfg kept scanned) := by
  unfold Client.onOversized
  split
  · next id d hfound =>
    obtain ⟨id', -, hmap⟩ := Option.bind_eq_some_iff.mp hfound
    obtain ⟨d', hget, heq⟩ := Option.map_eq_some_iff.mp hmap
    obtain ⟨rfl, rfl⟩ := Prod.mk.inj heq
    exact h.take hget (settles_sendError _ _ _)
  · have hall := settlesAll_foldl (settles_sendError (responseTooLarge scanned cfg.maxContentSize))
      (s.pending.map Prod.snd) { s with pending := [] }
    exact .drained hall.pending

theorem Tracked.append_line (h : Tracked s) (lines : List (Except String BoundedLine))
    (reader : ReaderPhase) : Tracked { s with lines := lines, reader := reader } :=
  h.keep rfl fun _ _ _ hid hwait => ⟨hid, hwait⟩

theorem tracked_onFrame (frame : Except String BoundedLine) (h : Tracked s) :
    Tracked (s.onFrame cfg frame) := by
  match frame with
  | .error _ => exact h.append_line _ .closing
  | .ok .eof => exact h.append_line _ .closing
  | .ok (.line text) => exact (tracked_onLine text h).append_line _ _
  | .ok (.oversized kept scanned) => exact (tracked_onOversized kept scanned h).append_line _ _

theorem tracked_handOff {id line : String} (h : Tracked s)
    (hphase : s.phase c = .handingOff id line) : Tracked (s.handOff c id line) := by
  have hkeep : ∀ p : Phase, p.registered? = some id → ∀ id', (s.phase c).registered? = some id' →
      p.registered? = some id' := by
    intro p hp id' hid'
    rw [hphase] at hid'
    exact hp.trans hid'
  unfold Client.handOff
  split
  · exact h.move rfl (fun id' _ => hkeep (.awaiting id) rfl id') rfl rfl
  · exact h.move rfl (fun id' _ => hkeep (.withdrawing id) rfl id') rfl rfl

theorem tracked_receive (h : Tracked s) (hs : s.receive c = some s') : Tracked s' := by
  unfold Client.receive at hs
  split at hs
  · next hone =>
    obtain rfl := Option.some.inj hs
    exact h.moveFree rfl (h.free_of_answered (by simp [hone])) rfl rfl
  · next hone =>
    obtain rfl := Option.some.inj hs
    exact h.moveFree rfl (h.free_of_answered (by simp [hone])) rfl rfl
  · next hone =>
    obtain rfl := Option.some.inj hs
    exact h.moveFree rfl (h.free_of_answered (by simp [hone])) rfl rfl
  · cases hs

theorem free_of_not_mem (hnot : c ∉ s.pending.map Prod.snd) (id : String) :
    Assoc.get? id s.pending ≠ some c := fun hget => hnot (mem_owners_of_get? hget)

/-- Every step keeps the invariant, a dropped future when it has no entry. -/
theorem tracked_step {l : Label} (h : Tracked s)
    (hok : ∀ c, l = .cancel c → c ∉ s.pending.map Prod.snd) (hs : step cfg s l = some s') :
    Tracked s' := by
  cases l with
  | call c id task =>
    simp only [step] at hs
    split at hs
    · next hidle =>
      obtain rfl := Option.some.inj hs
      have hb := begins_beginSend cfg s c id task
      obtain ⟨p, hphase, -, -⟩ := hb.phase
      exact h.moveFree hphase (h.free (by rw [hidle]; rfl)) hb.pending hb.oneShot
    · cases hs
  | register c =>
    simp only [step] at hs
    split at hs
    · next hphase =>
      obtain rfl := Option.some.inj hs
      exact h.register hphase
    · cases hs
  | handOff c =>
    simp only [step] at hs
    split at hs
    · next hphase =>
      obtain rfl := Option.some.inj hs
      exact tracked_handOff h hphase
    · cases hs
  | withdraw c | expire c =>
    simp only [step] at hs
    split at hs
    · next id hphase =>
      obtain rfl := Option.some.inj hs
      have hid : (s.phase c).registered? = some id := by
        rw [hphase]
        rfl
      exact h.withdraw hid rfl rfl rfl
    · cases hs
  | receive c =>
    simp only [step] at hs
    split at hs
    · exact tracked_receive h hs
    · cases hs
  | timeOut c =>
    simp only [step] at hs
    split at hs
    · next id hphase _ =>
      obtain rfl := Option.some.inj hs
      refine h.move rfl (fun id' _ hid' => ?_) rfl rfl
      rw [hphase] at hid'
      exact hid'
    · cases hs
  | report c =>
    simp only [step] at hs
    split at hs
    · next hphase =>
      obtain rfl := Option.some.inj hs
      exact h.moveFree rfl (h.free (by rw [hphase]; rfl)) rfl rfl
    · cases hs
  | cancel c =>
    simp only [step] at hs
    split at hs <;> first | (cases hs; done) | skip
    all_goals
      obtain rfl := Option.some.inj hs
      exact h.moveFree rfl (free_of_not_mem (hok c rfl)) rfl rfl
  | read frame =>
    simp only [step] at hs
    split at hs
    · obtain rfl := Option.some.inj hs
      exact tracked_onFrame frame h
    · cases hs
  | markDead =>
    simp only [step] at hs
    split at hs
    · obtain rfl := Option.some.inj hs
      exact h.keep rfl fun _ _ _ hid hwait => ⟨hid, hwait⟩
    · cases hs
  | clear =>
    simp only [step] at hs
    split at hs
    · obtain rfl := Option.some.inj hs
      have hall := settlesAll_foldl settles_dropSender (s.pending.map Prod.snd)
        { s with pending := [], reader := .finished }
      exact .drained hall.pending
    · cases hs
  | writerExit | stderr line =>
    obtain rfl := Option.some.inj hs
    exact h.keep rfl fun _ _ _ hid hwait => ⟨hid, hwait⟩

/-- A future dropped while its entry is in the map leaves the entry behind. -/
theorem not_pendingAwaited_of_cancel (hmem : c ∈ s.pending.map Prod.snd)
    (hs : step cfg s (.cancel c) = some s') : ¬ PendingAwaited s' := by
  obtain ⟨⟨id, d⟩, hentry, rfl⟩ := List.mem_map.mp hmem
  simp only [step] at hs
  split at hs <;> first | (cases hs; done) | skip
  all_goals
    obtain rfl := Option.some.inj hs
    intro h
    have hid := h.awaited id d hentry
    simp [Client.setPhase, Phase.registered?] at hid

/--
**The map holds the calls still awaited, exactly when no future with an entry is dropped.** In
every state of a run each entry belongs to a call still awaited, and the map is no larger than
their number, if and only if no step of the run drops a future whose entry is in the map.
-/
theorem pending_awaited_iff (es : List Label) (hrun : (client cfg).run .spawned es = some s) :
    (client cfg).Always PendingAwaited .spawned es ↔
      (client cfg).Meets (fun s l => ∀ c, l = .cancel c → c ∉ s.pending.map Prod.snd)
        .spawned es := by
  refine (client cfg).always_iff_meets (I := Tracked) (fun s h => h.pendingAwaited) ?_ ?_
    tracked_spawned hrun
  · intro s l s' h hok hs
    exact tracked_step h hok hs
  · intro s l s' _ hok hs
    rw [not_forall] at hok
    obtain ⟨c, hc⟩ := hok
    rw [Classical.not_imp, not_not] at hc
    obtain ⟨rfl, hmem⟩ := hc
    have hcancel : step cfg s (.cancel c) = some s' := hs
    exact not_pendingAwaited_of_cancel hmem hcancel

theorem pending_awaited_iff_swapped :
    (∃ s, (client repliesSwapped).run .spawned swappedRun = some s ∧ s.pending = []) ∧
    ((client repliesSwapped).Always PendingAwaited .spawned swappedRun ↔
      (client repliesSwapped).Meets (fun s l => ∀ c, l = .cancel c → c ∉ s.pending.map Prod.snd)
        .spawned swappedRun) :=
  ⟨⟨_, rfl, rfl⟩, pending_awaited_iff swappedRun rfl⟩

/-- The caller drops call 0 while it waits for a response. -/
def droppedRun : List Label :=
  [.call 0 "a" (.object []), .register 0, .handOff 0, .cancel 0]

/-- The dropped call is over and its entry is still there. -/
theorem dropped_call_stays_pending :
    ¬ (client repliesSwapped).Always PendingAwaited .spawned droppedRun ∧
      ∃ s, (client repliesSwapped).run .spawned droppedRun = some s ∧ s.pending = [("a", 0)] ∧
        s.phase 0 = .cancelled := by
  refine ⟨fun h => ?_, _, rfl, rfl, rfl⟩
  have hlast := h droppedRun _ (List.prefix_refl _) rfl
  have hid := hlast.awaited "a" 0 List.mem_cons_self
  cases hid

end Cpex.Host.Worker
