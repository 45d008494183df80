import Cpex.Properties.LifecycleSteps
import Cpex.Properties.Ownership

/-!
# Respawn against shutdown

An invocation that finds its worker dead sleeps, launches a process and installs it, while
`shutdown` sets a flag and empties the slot and `initialize` clears the flag again. The engine
runs `initialize` and `shutdown` one at a time.

* `engine` — the plugin under the engine's order, with what each respawn found when it took over
* `Orderly` — what a step owes to the calls around it
* `respawn_orderly_iff` — every step of a run is orderly, exactly when no respawn makes its last
  check after an initialize that followed a shutdown it overlapped
-/

namespace Cpex.Host.Lifecycle

open Cpex.Infra

variable {T : Types} {σ : Setup T} {c d e : CallId} {kind : Kind T} {w : World} {s s' : State T}
  {entry : Entry T} {id : WorkerId} {action : Action} {r : World × Phase T} {l : Label T}

/-! ## The engine's order -/

/-- The engine begins an `initialize` or a `shutdown` once the one before is over. -/
def engineOrder (s : State T) : Label T → Bool
  | .call kind =>
    !(kind.starts || kind.stops) ||
      s.calls.all fun e => !(e.kind.starts || e.kind.stops) || e.phase.isOver
  | _ => true

/-- What a respawn found when it took over: how many calls had begun, how many processes
`initialize` had installed, and the dead process in the slot. -/
structure Snapshot where
  calls : Nat
  installs : Nat
  dead : WorkerId
  deriving DecidableEq, Repr

/-- A plugin and two records of its run. -/
structure Watch (T : Types) where
  state : State T
  /-- How many processes `initialize` has installed. -/
  installs : Nat
  respawns : CallId → Option Snapshot

/-- The records after a step that leads to `s'`. -/
def Watch.after (w : Watch T) (l : Label T) (s' : State T) : Watch T :=
  match l with
  | .act c (.recheck _) =>
    match s'.phase? c with
    | some (.backingOff dead _) =>
      { w with
        state := s'
        respawns := Function.update w.respawns c (some ⟨s'.calls.length, w.installs, dead⟩) }
    | _ => { w with state := s' }
  | .act c .install =>
    match s'.kind? c with
    | some .initializes => { w with state := s', installs := w.installs + 1 }
    | _ => { w with state := s' }
  | _ => { w with state := s' }

/-- The plugin under the engine's order. -/
def engine (σ : Setup T) : Machine (Watch T) (Label T) where
  step w l := if engineOrder w.state l then (step σ w.state l).map (w.after l) else none

def Watch.fresh (owners : Venv.OwnersFile) : Watch T := ⟨.fresh owners, 0, fun _ => none⟩

/-! ## What is owed -/

/-- The call is an invocation. -/
def Kind.isInvocation (kind : Kind T) : Bool := !(kind.starts || kind.stops)

/-- No call and no slot holds the process: its last handle is dropped, which kills it. -/
def State.Dropped (s : State T) (id : WorkerId) : Prop :=
  s.world.worker ≠ some id ∧ ∀ entry ∈ s.calls, entry.phase.holds? ≠ some id

/-- Only invocations hold the process: its last handle is dropped with the last of them. -/
def State.Released (s : State T) (id : WorkerId) : Prop :=
  s.world.worker ≠ some id ∧ ∀ entry ∈ s.calls, entry.phase.holds? = some id →
    entry.kind.isInvocation = true

/-- The slot is empty, and stays so until another `initialize` begins. -/
def StaysEmpty (σ : Setup T) (w : Watch T) : Prop :=
  ∀ es w', (engine σ).run w es = some w' → (∀ l ∈ es, l ≠ .call .initializes) →
    w'.state.world.worker = none

/-- Call `c` launched process `id` and has neither installed nor stopped it. -/
def State.Launched (s : State T) (c : CallId) (id : WorkerId) : Prop :=
  (s.phase? c).bind Phase.launched? = some id

/-- No shutdown began since the snapshot, and the slot holds the process it names, stopped. -/
structure Snapshot.Current (r : Snapshot) (s : State T) : Prop where
  running : ∀ d, s.Stops d → d < r.calls
  slot : s.world.worker = some r.dead
  stopped : (s.world.client r.dead).child = false

/-- What a step owes to the calls around it. -/
structure Orderly (σ : Setup T) (w : Watch T) (l : Label T) (w' : Watch T) : Prop where
  /-- A respawn that installs its process began after every shutdown, and replaces the process it
  found dead, which was stopped. -/
  respawned : ∀ c call id, l = .act c .install → w.state.kind? c = some (.invokes call) →
    w.state.Launched c id → w'.state.world.worker = some id →
    ∃ r, w.respawns c = some r ∧ r.Current w.state
  /-- A process that its call did not keep is installed, stopped, or dropped with its call; a
  respawn that returns drops none. -/
  stopped : ∀ c id, w.state.Launched c id → ¬ w'.state.Launched c id →
    w'.state.world.worker = some id ∨ (w'.state.world.client id).child = false ∨
      (w'.state.Dropped id ∧
        (w'.state.phase? c = some .cancelled ∨ w.state.Starts c))
  /-- A process leaves the slot for the shutdown that is to stop it, is stopped already, or is
  released by the `initialize` that replaces it. -/
  vacated : ∀ id, w.state.world.worker = some id → w'.state.world.worker ≠ some id →
    (∃ c, l = .act c .takeSlot ∧ w'.state.phase? c = some (.stoppingWorker id)) ∨
      (w'.state.world.client id).child = false ∨
      ∃ c, l = .act c .install ∧ w.state.Starts c ∧ w'.state.Released id
  /-- A shutdown stops the process it took out of the slot, unless its own caller drops it. -/
  taken : ∀ c id, w.state.phase? c = some (.stoppingWorker id) →
    w'.state.phase? c ≠ some (.stoppingWorker id) →
    (w'.state.world.client id).child = false ∨
      w'.state.phase? c = some .cancelled ∧ w'.state.Released id
  /-- A shutdown that empties the slot leaves it empty. -/
  emptied : ∀ c, l = .act c .takeSlot → StaysEmpty σ w'

/-- The latest of the `initialize` and `shutdown` calls is a shutdown. -/
def State.LastStops (s : State T) : Prop := ∃ d, s.Stops d ∧ ∀ e, s.Starts e → e < d

/--
The last check of a respawn comes while the plugin is shut down, or no shutdown began and no
`initialize` installed a process since the respawn took over.
-/
def lastCheckInTime (w : Watch T) (l : Label T) : Prop :=
  ∀ c call r, l = .act c .install → w.state.kind? c = some (.invokes call) →
    w.respawns c = some r →
    w.state.LastStops ∨ ((∀ d, w.state.Stops d → d < r.calls) ∧ w.installs = r.installs)

/-! ## One at a time -/

/-- What the engine's order keeps: each call stands where its kind can, an `initialize` or
`shutdown` in progress is the latest, and the flag says what the latest was. -/
structure Ordered (s : State T) : Prop where
  fits : ∀ (d : CallId) (x : Entry T), s.calls[d]? = some x → x.phase.fits x.kind = true
  single : ∀ d e p, s.Starts d ∨ s.Stops d → s.phase? d = some p → p.isOver = false →
    s.Starts e ∨ s.Stops e → e ≤ d
  flag : s.world.shutDown = true ↔ s.LastStops

theorem ordered_fresh (owners : Venv.OwnersFile) : Ordered (.fresh owners : State T) where
  fits := fun _ _ h => by simp [State.fresh] at h
  single := fun _ _ _ _ h => by simp [State.phase?, State.fresh] at h
  flag := by
    refine iff_of_false (fun h => by cases h) ?_
    rintro ⟨d, hd, -⟩
    obtain ⟨k, hk, -⟩ := hd.exists
    simp [State.kind?, State.fresh] at hk

/-- The kinds of the calls are what the order of the engine is about. -/
theorem lastStops_congr (h : ∀ d, s'.kind? d = s.kind? d) : s'.LastStops ↔ s.LastStops := by
  unfold State.LastStops State.Stops State.Starts
  simp only [h]

theorem Ordered.same (h : Ordered s) (hcalls : s'.calls = s.calls)
    (hflag : s'.world.shutDown = s.world.shutDown) : Ordered s' where
  fits := by
    rw [hcalls]
    exact h.fits
  single := by
    unfold State.Starts State.Stops State.kind? State.phase?
    rw [hcalls]
    exact h.single
  flag := by
    rw [hflag, h.flag]
    exact (lastStops_congr fun d => by rw [State.kind?, State.kind?, hcalls]).symm

theorem ordered_stepped (h : Ordered s) (hentry : s.calls[c]? = some entry)
    (hmoves : Moves entry.kind s.world entry.phase action r) :
    Ordered (s.stepped c entry.kind r) where
  fits := by
    intro d x hx
    rcases getElem?_stepped hentry hx with ⟨rfl, rfl⟩ | ⟨-, hold⟩
    · exact hmoves.fits (h.fits d entry hentry)
    · exact h.fits d x hold
  single := by
    intro d e p hd hp hover he
    unfold State.Starts State.Stops at hd he
    rw [kind?_stepped hentry] at hd he
    by_cases hdc : d = c
    · subst hdc
      rw [phase?_stepped_self hentry, Option.some.injEq] at hp
      subst hp
      cases hbefore : entry.phase.isOver with
      | true =>
        rw [hmoves.isOver hbefore] at hover
        cases hover
      | false =>
        exact h.single d e entry.phase hd (by rw [State.phase?, hentry]; rfl) hbefore he
    · rw [phase?_stepped_ne hdc] at hp
      exact h.single d e p hd hp hover he
  flag := by
    show r.1.shutDown = true ↔ _
    rw [hmoves.flag, h.flag]
    exact (lastStops_congr fun d => kind?_stepped hentry).symm

theorem begins_flag : (begins σ c kind w).1.shutDown =
    (if kind.starts then false else if kind.stops then true else w.shutDown) := by
  cases kind with
  | initializes =>
    have h : Moves (.initializes : Kind T) { w with shutDown := false } .spawning .spawn
        (launch σ c .initializes { w with shutDown := false }) :=
      moves_launch rfl rfl rfl fun _ => rfl
    exact h.flag
  | invokes call => rfl
  | shutsDown => rfl

theorem begins_fits : (begins σ c kind w).2.fits kind = true := by
  cases kind with
  | initializes =>
    have h : Moves (.initializes : Kind T) { w with shutDown := false } .spawning .spawn
        (launch σ c .initializes { w with shutDown := false }) :=
      moves_launch rfl rfl rfl fun _ => rfl
    exact h.fits rfl
  | invokes call => rfl
  | shutsDown => rfl

/-- A call of the kind begins after all others. -/
theorem lastStops_begun : (s.begun kind r).LastStops ↔
    (kind.starts = false ∧ (kind.stops = true ∨ s.LastStops)) := by
  have hself : (s.begun kind r).kind? s.calls.length = some kind := kind?_begun_self
  have hlt : ∀ {d k}, (s.begun kind r).kind? d = some k →
      d = s.calls.length ∨ (d < s.calls.length ∧ s.kind? d = some k) := by
    intro d k hk
    obtain ⟨x, hx, rfl⟩ := Option.map_eq_some_iff.mp hk
    rcases getElem?_begun hx with ⟨rfl, -⟩ | ⟨hd, hold⟩
    · exact .inl rfl
    · exact .inr ⟨hd, by rw [State.kind?, hold]; rfl⟩
  constructor
  · rintro ⟨d, hd, hlast⟩
    obtain ⟨k, hk, hstops⟩ := hd.exists
    have hstarts : kind.starts = false := by
      cases h : kind.starts with
      | false => rfl
      | true =>
        have hlen := hlast _ ((starts_of_kind? hself).mpr h)
        rcases hlt hk with rfl | ⟨hd, -⟩
        · exact absurd hlen (Nat.lt_irrefl _)
        · exact absurd hlen (Nat.lt_asymm hd)
    refine ⟨hstarts, ?_⟩
    rcases hlt hk with rfl | ⟨hdlt, hold⟩
    · rw [hself, Option.some.injEq] at hk
      exact .inl (hk ▸ hstops)
    · refine .inr ⟨d, (stops_of_kind? hold).mpr hstops, fun e he => ?_⟩
      obtain ⟨k', hk', hs'⟩ := he.exists
      have helt := lt_of_kind? hk'
      refine hlast e ((starts_of_kind? ?_).mpr hs')
      exact (kind?_begun_lt helt).trans hk'
  · rintro ⟨hstarts, hstops | ⟨d, hd, hlast⟩⟩
    · refine ⟨s.calls.length, (stops_of_kind? hself).mpr hstops, fun e he => ?_⟩
      obtain ⟨k, hk, hs⟩ := he.exists
      rcases hlt hk with rfl | ⟨helt, -⟩
      · rw [hself, Option.some.injEq] at hk
        rw [← hk, hstarts] at hs
        cases hs
      · exact helt
    · obtain ⟨k, hk, hstops⟩ := hd.exists
      have hdlt := lt_of_kind? hk
      refine ⟨d, (stops_of_kind? ((kind?_begun_lt hdlt).trans hk)).mpr hstops, fun e he => ?_⟩
      obtain ⟨k', hk', hs'⟩ := he.exists
      rcases hlt hk' with rfl | ⟨-, hold⟩
      · rw [hself, Option.some.injEq] at hk'
        rw [← hk', hstarts] at hs'
        cases hs'
      · exact hlast e ((starts_of_kind? hold).mpr hs')

theorem ordered_begun (h : Ordered s) (ho : engineOrder s (.call kind) = true) :
    Ordered (s.begun kind (begins σ s.calls.length kind s.world)) where
  fits := by
    intro d x hx
    rcases getElem?_begun hx with ⟨rfl, rfl⟩ | ⟨-, hold⟩
    · exact begins_fits
    · exact h.fits d x hold
  single := by
    intro d e p hd hp hover he
    have hle : ∀ {e : CallId} {r : World × Phase T},
        (s.begun kind r).Starts e ∨ (s.begun kind r).Stops e → e ≤ s.calls.length := by
      intro e r he
      obtain ⟨k, hk⟩ : ∃ k, (s.begun kind r).kind? e = some k := by
        rcases he with he | he
        · exact he.exists.imp fun _ h => h.1
        · exact he.exists.imp fun _ h => h.1
      have hlt := lt_of_kind? hk
      rw [State.begun, List.length_append, List.length_singleton] at hlt
      exact Nat.le_of_lt_succ hlt
    obtain ⟨x, hx, rfl⟩ := Option.map_eq_some_iff.mp hp
    rcases getElem?_begun hx with ⟨rfl, -⟩ | ⟨hdlt, hold⟩
    · exact hle he
    · -- An older call in progress: the new one is neither of the two.
      have hd' : s.Starts d ∨ s.Stops d := by
        unfold State.Starts State.Stops at hd ⊢
        rwa [kind?_begun_lt hdlt] at hd
      have hkd : x.kind.starts = true ∨ x.kind.stops = true := by
        have hkx : s.kind? d = some x.kind := by rw [State.kind?, hold]; rfl
        exact hd'.imp (starts_of_kind? hkx).mp (stops_of_kind? hkx).mp
      have hnew : kind.starts = false ∧ kind.stops = false := by
        simp only [engineOrder, Bool.or_eq_true, Bool.not_eq_true', Bool.or_eq_false_iff] at ho
        refine ho.resolve_right fun hall => ?_
        have hxover := List.all_eq_true.mp hall x (List.mem_of_getElem? hold)
        rcases hkd with hk | hk <;> simp [hk, hover] at hxover
      have hlast : ∀ k, (s.begun kind (begins σ s.calls.length kind s.world)).kind? e = some k →
          k.starts = true ∨ k.stops = true → s.Starts e ∨ s.Stops e := by
        intro k hk hks
        obtain ⟨y, hy, rfl⟩ := Option.map_eq_some_iff.mp hk
        rcases getElem?_begun hy with ⟨-, rfl⟩ | ⟨-, hold'⟩
        · rcases hks with hks | hks
          · rw [hnew.1] at hks
            cases hks
          · rw [hnew.2] at hks
            cases hks
        · have hky : s.kind? e = some y.kind := by rw [State.kind?, hold']; rfl
          exact hks.imp (starts_of_kind? hky).mpr (stops_of_kind? hky).mpr
      have he' : s.Starts e ∨ s.Stops e := by
        rcases he with he | he
        · obtain ⟨k, hk, hs⟩ := he.exists
          exact hlast k hk (.inl hs)
        · obtain ⟨k, hk, hs⟩ := he.exists
          exact hlast k hk (.inr hs)
      exact h.single d e x.phase hd' (by rw [State.phase?, hold]; rfl) hover he'
  flag := by
    rw [lastStops_begun]
    show (begins σ s.calls.length kind s.world).1.shutDown = true ↔ _
    rw [begins_flag]
    cases kind with
    | initializes => simp [Kind.starts]
    | invokes call => simpa [Kind.starts, Kind.stops] using h.flag
    | shutsDown => simp [Kind.starts, Kind.stops]

/-- **Every step in the engine's order** keeps it. -/
theorem ordered_step (h : Ordered s) (ho : engineOrder s l = true) (hs : step σ s l = some s') :
    Ordered s' := by
  rcases step_cases hs with ⟨kind, rfl, rfl⟩ | ⟨c, action, entry, r, rfl, hentry, hadvance, rfl⟩ |
    ⟨id, rfl, rfl⟩ | ⟨owners, rfl, rfl⟩
  · exact ordered_begun h ho
  · exact ordered_stepped h hentry (advance_moves hadvance)
  · exact h.same rfl rfl
  · exact h.same rfl rfl

/-- No `shutdown` is in progress while the flag is clear. -/
theorem Ordered.shutdown_over (h : Ordered s) (hflag : s.world.shutDown = false) {p : Phase T}
    (hd : s.Stops d) (hp : s.phase? d = some p) : p.isOver = true := by
  cases hover : p.isOver with
  | true => rfl
  | false =>
    have hlast : s.LastStops := by
      refine ⟨d, hd, fun e he => ?_⟩
      have hle := h.single d e p (.inr hd) hp hover (.inl he)
      have hne : e ≠ d := by
        rintro rfl
        exact starts_stops_absurd he hd
      exact Nat.lt_of_le_of_ne hle hne
    rw [h.flag.mpr hlast] at hflag
    cases hflag

/-- An `initialize` or `shutdown` in progress is the only one. -/
theorem Ordered.only (h : Ordered s) {p q : Phase T} (hd : s.Starts d ∨ s.Stops d)
    (hp : s.phase? d = some p) (hpover : p.isOver = false) (he : s.Starts e ∨ s.Stops e)
    (hq : s.phase? e = some q) (hqover : q.isOver = false) : d = e :=
  Nat.le_antisymm (h.single e d q he hq hqover hd) (h.single d e p hd hp hpover he)

/-! ## An emptied slot -/

@[simp] theorem state_after (w : Watch T) (l : Label T) (s' : State T) :
    (w.after l s').state = s' := by
  unfold Watch.after
  split
  · split <;> rfl
  · split <;> rfl
  · rfl

theorem engine_step {w w' : Watch T} (hs : (engine σ).step w l = some w') :
    engineOrder w.state l = true ∧ step σ w.state l = some w'.state ∧
      w' = w.after l w'.state := by
  simp only [engine] at hs
  split at hs
  · next ho =>
    obtain ⟨s', hs', rfl⟩ := Option.map_eq_some_iff.mp hs
    exact ⟨ho, by simpa using hs', by simp⟩
  · cases hs

/-- The slot was emptied by a shutdown, and every `initialize` is over. -/
structure Emptied (s : State T) : Prop where
  ordered : Ordered s
  flag : s.world.shutDown = true
  slot : s.world.worker = none
  isOver : ∀ d p, s.Starts d → s.phase? d = some p → p.isOver = true

theorem Emptied.same (h : Emptied s) (hcalls : s'.calls = s.calls)
    (hflag : s'.world.shutDown = s.world.shutDown) (hslot : s'.world.worker = s.world.worker) :
    Emptied s' where
  ordered := h.ordered.same hcalls hflag
  flag := hflag.trans h.flag
  slot := hslot.trans h.slot
  isOver := by
    unfold State.Starts State.kind? State.phase?
    rw [hcalls]
    exact h.isOver

theorem begins_slot (hkind : kind.starts = false) : (begins σ c kind w).1.worker = w.worker := by
  cases kind with
  | initializes => cases hkind
  | invokes call => rfl
  | shutsDown => rfl

theorem emptied_step (h : Emptied s) (ho : engineOrder s l = true) (hs : step σ s l = some s')
    (hl : l ≠ .call .initializes) : Emptied s' := by
  have hordered := ordered_step h.ordered ho hs
  rcases step_cases hs with ⟨kind, rfl, rfl⟩ | ⟨c, action, entry, r, rfl, hentry, hadvance, rfl⟩ |
    ⟨id, rfl, rfl⟩ | ⟨owners, rfl, rfl⟩
  · have hkind : kind.starts = false := by
      cases kind with
      | initializes => exact absurd rfl hl
      | invokes call => rfl
      | shutsDown => rfl
    refine ⟨hordered, ?_, (begins_slot hkind).trans h.slot, fun d p hd hp => ?_⟩
    · show (begins σ s.calls.length kind s.world).1.shutDown = true
      rw [begins_flag, hkind, h.flag]
      simp
    · obtain ⟨k, hk, hstarts⟩ := hd.exists
      obtain ⟨x, hx, rfl⟩ := Option.map_eq_some_iff.mp hk
      rcases getElem?_begun hx with ⟨rfl, rfl⟩ | ⟨hdlt, hold⟩
      · rw [hkind] at hstarts
        cases hstarts
      · rw [phase?_begun_lt hdlt] at hp
        have hkx : s.kind? d = some x.kind := by rw [State.kind?, hold]; rfl
        exact h.isOver d p ((starts_of_kind? hkx).mpr hstarts) hp
  · have hmoves := advance_moves hadvance
    have hover : ∀ d p, (s.stepped c entry.kind r).Starts d →
        (s.stepped c entry.kind r).phase? d = some p → p.isOver = true := by
      intro d p hd hp
      have hd' : s.Starts d := by
        unfold State.Starts at hd ⊢
        rwa [kind?_stepped hentry] at hd
      by_cases hdc : d = c
      · subst hdc
        rw [phase?_stepped_self hentry, Option.some.injEq] at hp
        exact hp ▸ hmoves.isOver (h.isOver d entry.phase hd' (by rw [State.phase?, hentry]; rfl))
      · rw [phase?_stepped_ne hdc] at hp
        exact h.isOver d p hd' hp
    refine ⟨hordered, hmoves.flag.trans h.flag, ?_, hover⟩
    show r.1.worker = none
    have hslot := hmoves.slot
    generalize hphase : entry.phase = phase at hslot
    generalize r.1.worker = slot at hslot
    cases hslot with
    | keep => exact h.slot
    | take => rfl
    | install id hflag =>
      -- An invocation finds the flag, and an `initialize` that could install is over.
      have hkc : s.kind? c = some entry.kind := by rw [State.kind?, hentry]; rfl
      have hfits := h.ordered.fits c entry hentry
      rw [hphase] at hfits
      cases hkind : entry.kind with
      | initializes =>
        have hstarts : s.Starts c := (starts_of_kind? hkc).mpr (by rw [hkind]; rfl)
        have hfalse := h.isOver c entry.phase hstarts (by rw [State.phase?, hentry]; rfl)
        rw [hphase] at hfalse
        cases hfalse
      | invokes call =>
        have hclear := hflag call hkind
        rw [h.flag] at hclear
        cases hclear
      | shutsDown =>
        rw [hkind] at hfits
        cases hfits
  · exact h.same rfl rfl rfl
  · exact h.same rfl rfl rfl

/-- Nothing but another `initialize` fills an emptied slot. -/
theorem staysEmpty_of_emptied {w : Watch T} (h : Emptied w.state) : StaysEmpty σ w := by
  intro es w' hrun hnone
  induction es generalizing w with
  | nil =>
    rw [Machine.run_nil, Option.some.injEq] at hrun
    exact hrun ▸ h.slot
  | cons l es ih =>
    obtain ⟨m, hm, hrest⟩ := (engine σ).run_cons_eq_some.mp hrun
    obtain ⟨ho, hs, -⟩ := engine_step hm
    have hl : l ≠ .call .initializes := hnone l List.mem_cons_self
    exact ih (emptied_step h ho hs hl) hrest fun l' hl' => hnone l' (List.mem_cons_of_mem _ hl')

/-- A shutdown empties the slot: it is the only one of its kind in progress, and set the flag. -/
theorem emptied_of_taken (h : Ordered s) (hentry : s.calls[c]? = some entry)
    (hphase : entry.phase = .takingSlot)
    (hadvance : advance σ c entry.kind s.world entry.phase .takeSlot = some r)
    (hordered : Ordered (s.stepped c entry.kind r)) : Emptied (s.stepped c entry.kind r) := by
  have hmoves := advance_moves hadvance
  have hfits := h.fits c entry hentry
  rw [hphase] at hfits
  have hkc : s.kind? c = some entry.kind := by rw [State.kind?, hentry]; rfl
  have hstops : s.Stops c := (stops_of_kind? hkc).mpr hfits
  have hpc : s.phase? c = some .takingSlot := by rw [State.phase?, hentry, ← hphase]; rfl
  have hflag : s.world.shutDown = true := by
    cases hf : s.world.shutDown with
    | true => rfl
    | false => cases h.shutdown_over hf hstops hpc
  refine ⟨hordered, hmoves.flag.trans hflag, ?_, fun d p hd hp => ?_⟩
  · show r.1.worker = none
    rw [hphase] at hadvance
    simp only [advance] at hadvance
    split at hadvance <;>
    · obtain rfl := Option.some.inj hadvance
      rfl
  · have hd' : s.Starts d := by
      unfold State.Starts at hd ⊢
      rwa [kind?_stepped hentry] at hd
    have hdc : d ≠ c := by
      rintro rfl
      exact starts_stops_absurd hd' hstops
    rw [phase?_stepped_ne hdc] at hp
    cases hover : p.isOver with
    | true => rfl
    | false => exact absurd (h.only (.inl hd') hp hover (.inr hstops) hpc rfl) hdc

/-! ## The process a shutdown takes out -/

theorem isOver_of_holds {phase : Phase T} (h : phase.holds? = some id) : phase.isOver = false := by
  cases phase <;> first | rfl | cases h

/-- Beside an `initialize` or `shutdown` in progress only invocations hold a process. -/
theorem Ordered.isInvocation (h : Ordered s) {p : Phase T} (hd : s.Starts d ∨ s.Stops d)
    (hp : s.phase? d = some p) (hover : p.isOver = false) (hentry : s.calls[e]? = some entry)
    (hne : e ≠ d) (hheld : entry.phase.holds? = some id) : entry.kind.isInvocation = true := by
  have hkind : s.kind? e = some entry.kind := by rw [State.kind?, hentry]; rfl
  have hphase : s.phase? e = some entry.phase := by rw [State.phase?, hentry]; rfl
  by_contra hnot
  simp only [Kind.isInvocation, Bool.not_eq_true', Bool.not_eq_false, Bool.or_eq_true] at hnot
  have he : s.Starts e ∨ s.Stops e :=
    hnot.imp (starts_of_kind? hkind).mpr (stops_of_kind? hkind).mpr
  exact hne (h.only he hphase (isOver_of_holds hheld) hd hp hover)

theorem Ordered.stops_of_stopping (h : Ordered s) (hp : s.phase? d = some (.stoppingWorker id)) :
    s.Stops d := by
  obtain ⟨x, hx, hphase⟩ := Option.map_eq_some_iff.mp hp
  have hkind : s.kind? d = some x.kind := by rw [State.kind?, hx]; rfl
  have hfits := h.fits d x hx
  rw [hphase] at hfits
  exact (stops_of_kind? hkind).mpr hfits

/-- A shutdown takes the process to stop out of the slot. -/
theorem advance_stopping {phase : Phase T} (hfits : phase.fits kind = true)
    (h : advance σ c kind w phase action = some r) (hr : r.2 = .stoppingWorker id) :
    r.1.worker = none := by
  have hstops : kind.stops = true := by
    have hfits' := (advance_moves h).fits hfits
    rwa [hr] at hfits'
  have hend : ∀ result, (releaseOwner σ result : Phase T) ≠ .stoppingWorker id := by
    intro result
    unfold releaseOwner
    split
    · simp
    · simp
  cases kind with
  | initializes | invokes _ => cases hstops
  | shutsDown =>
    cases phase with
    | takingSlot =>
      cases action with
      | takeSlot =>
        simp only [advance] at h
        split at h
        · obtain rfl := Option.some.inj h
          rfl
        · obtain rfl := Option.some.inj h
          rfl
      | cancel =>
        obtain rfl := Option.some.inj h
        cases hr
      | _ => cases h
    | stoppingWorker j =>
      cases action with
      | stopped result =>
        simp only [advance] at h
        split at h
        · obtain rfl := Option.some.inj h
          exact absurd hr (hend result)
        · cases h
      | cancel =>
        obtain rfl := Option.some.inj h
        cases hr
      | _ => cases h
    | releasing result =>
      cases action with
      | registryWrites | registryFails _ _ | cancel =>
        obtain rfl := Option.some.inj h
        cases hr
      | _ => cases h
    | detached op =>
      cases action with
      | registryWrites | registryFails _ _ =>
        obtain rfl := Option.some.inj h
        cases hr
      | _ => cases h
    | finished _ | cancelled => cases action <;> cases h
    | _ => cases hfits

/-- While a shutdown stops the process it took out, nothing fills the slot. -/
theorem stopping_stepped (h : Ordered s)
    (hempty : ∀ d id, s.phase? d = some (.stoppingWorker id) → s.world.worker = none)
    (hentry : s.calls[c]? = some entry)
    (hadvance : advance σ c entry.kind s.world entry.phase action = some r) :
    ∀ d id, (s.stepped c entry.kind r).phase? d = some (.stoppingWorker id) →
      r.1.worker = none := by
  intro d id hp
  have hfits := h.fits c entry hentry
  by_cases hdc : d = c
  · subst hdc
    rw [phase?_stepped_self hentry, Option.some.injEq] at hp
    exact advance_stopping hfits hadvance hp
  · rw [phase?_stepped_ne hdc] at hp
    have hstops : s.Stops d := h.stops_of_stopping hp
    have hslot := (advance_moves hadvance).slot
    generalize hphase : entry.phase = phase at hslot hfits
    generalize r.1.worker = slot at hslot
    cases hslot with
    | keep => exact hempty d id hp
    | take => rfl
    | install id' hflag =>
      -- A respawn finds the flag, and no `initialize` is in progress.
      cases hkind : entry.kind with
      | initializes =>
        have hkc : s.kind? c = some entry.kind := by rw [State.kind?, hentry]; rfl
        have hpc : s.phase? c = some (.installing id') := by rw [State.phase?, hentry, ← hphase]; rfl
        have hstarts : s.Starts c := (starts_of_kind? hkc).mpr (by rw [hkind]; rfl)
        exact absurd (h.only (.inr hstops) hp rfl (.inl hstarts) hpc rfl) hdc
      | invokes call => cases h.shutdown_over (hflag call hkind) hstops hp
      | shutsDown =>
        rw [hkind] at hfits
        cases hfits

/-- A shutdown stops what it took out, or its caller drops it. -/
theorem advance_stopped {phase : Phase T} (hphase : phase = .stoppingWorker id)
    (h : advance σ c kind w phase action = some r) :
    (r.1.client id).child = false ∨ (r.2 = .cancelled ∧ r.1.worker = w.worker) := by
  subst hphase
  cases action with
  | stopped result =>
    simp only [advance] at h
    split at h
    · obtain rfl := Option.some.inj h
      exact .inl child_stop
    · cases h
  | cancel =>
    obtain rfl := Option.some.inj h
    exact .inr ⟨rfl, World.worker_unlock⟩
  | _ => cases h

/-- What is left to invocations, once the call that had it is over. -/
theorem released_stepped (h : Ordered s) (hc : s.Starts c ∨ s.Stops c)
    (hentry : s.calls[c]? = some entry) (hover : entry.phase.isOver = false)
    (hidle : r.2.holds? = none) (hslot : r.1.worker ≠ some id) :
    (s.stepped c entry.kind r).Released id := by
  refine ⟨hslot, fun x hx hheld => ?_⟩
  obtain ⟨d, hd⟩ := List.getElem?_of_mem hx
  have hpc : s.phase? c = some entry.phase := by rw [State.phase?, hentry]; rfl
  rcases getElem?_stepped hentry hd with ⟨-, rfl⟩ | ⟨hdc, hold⟩
  · rw [hidle] at hheld
    cases hheld
  · exact h.isInvocation hc hpc hover hold hdc hheld

/-! ## Who holds a process -/

/-- What is held was launched, and a process that a call has yet to install is its own. -/
structure Private (s : State T) : Prop where
  slot : ∀ id, s.world.worker = some id → id < s.world.workers.length
  held : ∀ entry ∈ s.calls, ∀ id, entry.phase.holds? = some id → id < s.world.workers.length
  alone : ∀ (c : CallId) (x : Entry T) id, s.calls[c]? = some x → x.phase.launched? = some id →
    s.world.worker ≠ some id ∧
    ∀ (d : CallId) (y : Entry T), s.calls[d]? = some y → d ≠ c → y.phase.holds? ≠ some id

theorem private_fresh (owners : Venv.OwnersFile) : Private (.fresh owners : State T) where
  slot := fun _ h => by cases h
  held := fun _ h => by cases h
  alone := fun _ _ _ h => by simp [State.fresh] at h

theorem Private.same (h : Private s) (hcalls : s'.calls = s.calls)
    (hslot : s'.world.worker = s.world.worker)
    (hlen : s'.world.workers.length = s.world.workers.length) : Private s' where
  slot := by
    rw [hslot, hlen]
    exact h.slot
  held := by
    rw [hcalls, hlen]
    exact h.held
  alone := by
    rw [hcalls, hslot]
    exact h.alone

/-- A process the call had launched, or one from the slot: where the new slot comes from. -/
theorem SlotStep.source {kind : Kind T} {w : World} {phase : Phase T} {slot : Option WorkerId}
    (h : SlotStep kind w phase action slot) (hslot : slot = some id) :
    w.worker = some id ∨ (phase = .installing id ∧ action = .install) := by
  cases h with
  | keep => exact .inl hslot
  | take => cases hslot
  | install id' hflag =>
    obtain rfl := Option.some.inj hslot
    exact .inr ⟨rfl, rfl⟩

/-- Once installed, a process no longer counts as one to install. -/
theorem install_launched (hslot : (install c kind w id).1.worker = some id)
    (hlaunched : (install c kind w id).2.launched? = some id) : w.worker = some id := by
  unfold install at hslot hlaunched
  split at hlaunched
  · split at hlaunched
    · next hflag => simpa [hflag] using hslot
    · cases hlaunched
  · cases hlaunched

theorem private_stepped (h : Private s) (hentry : s.calls[c]? = some entry)
    (hadvance : advance σ c entry.kind s.world entry.phase action = some r)
    (hmoves : Moves entry.kind s.world entry.phase action r)
    (hhandles : Handles entry.kind s.world entry.phase r) :
    Private (s.stepped c entry.kind r) where
  slot := by
    intro id hslot
    refine Nat.lt_of_lt_of_le ?_ hhandles.lasts.launched
    rcases hmoves.slot.source hslot with hold | ⟨hphase, -⟩
    · exact h.slot id hold
    · exact h.held entry (List.mem_of_getElem? hentry) id (by rw [hphase]; rfl)
  held := by
    intro x hx id hid
    rcases List.mem_or_eq_of_mem_set hx with hold | rfl
    · exact Nat.lt_of_lt_of_le (h.held x hold id hid) hhandles.lasts.launched
    · rcases hhandles.holds id hid with hheld | hslot | ⟨-, hlt⟩
      · exact Nat.lt_of_lt_of_le (h.held entry (List.mem_of_getElem? hentry) id hheld)
          hhandles.lasts.launched
      · exact Nat.lt_of_lt_of_le (h.slot id hslot) hhandles.lasts.launched
      · exact hlt
  alone := by
    have hnew : ∀ id, id = s.world.workers.length → s.world.worker ≠ some id ∧
        ∀ (d : CallId) (y : Entry T), s.calls[d]? = some y → y.phase.holds? ≠ some id := by
      rintro id rfl
      refine ⟨fun hslot => absurd (h.slot _ hslot) (Nat.lt_irrefl _), fun d y hy hheld => ?_⟩
      exact absurd (h.held y (List.mem_of_getElem? hy) _ hheld) (Nat.lt_irrefl _)
    intro d x id hx hid
    rcases getElem?_stepped hentry hx with ⟨rfl, rfl⟩ | ⟨hdc, hold⟩
    · -- The call that steps: it had launched the process, or launches it now.
      have hbefore : s.world.worker ≠ some id ∧
          ∀ (e : CallId) (y : Entry T), s.calls[e]? = some y → e ≠ d → y.phase.holds? ≠ some id := by
        rcases hhandles.launched id hid with hlaunched | hfresh
        · exact h.alone d entry id hentry hlaunched
        · obtain ⟨hslot, hheld⟩ := hnew id hfresh
          exact ⟨hslot, fun e y hy _ => hheld e y hy⟩
      refine ⟨fun hslot => ?_, fun e y hy hed => ?_⟩
      · rcases hmoves.slot.source hslot with hslot' | ⟨hphase, rfl⟩
        · exact hbefore.1 hslot'
        · rw [hphase] at hadvance
          obtain rfl := Option.some.inj hadvance
          exact hbefore.1 (install_launched hslot hid)
      · rcases getElem?_stepped hentry hy with ⟨rfl, -⟩ | ⟨-, hold⟩
        · exact absurd rfl hed
        · exact hbefore.2 e y hold hed
    · obtain ⟨hslot, hheld⟩ := h.alone d x id hold hid
      refine ⟨fun hslot' => ?_, fun e y hy hed => ?_⟩
      · rcases hmoves.slot.source hslot' with hslot'' | ⟨hphase, -⟩
        · exact hslot hslot''
        · exact hheld c entry hentry (Ne.symm hdc) (by rw [hphase]; rfl)
      · rcases getElem?_stepped hentry hy with ⟨rfl, rfl⟩ | ⟨-, hold'⟩
        · intro hholds
          rcases hhandles.holds id hholds with hh | hs | ⟨hlen, -⟩
          · exact hheld e entry hentry hed hh
          · exact hslot hs
          · have hlt := h.held x (List.mem_of_getElem? hold) id (holds_of_launched hid)
            exact absurd (hlen ▸ hlt) (Nat.lt_irrefl _)
        · exact hheld e y hold' hed

theorem begins_holds : (begins σ c kind w).2.holds? = none := by
  cases kind with
  | initializes =>
    show (launch σ c .initializes _).2.holds? = none
    unfold launch
    split
    · rfl
    · split
      · rfl
      · rfl
  | invokes call => rfl
  | shutsDown => rfl

theorem begins_worker : (begins σ c kind w).1.worker = w.worker ∧
    (begins σ c kind w).1.workers = w.workers := by
  cases kind with
  | initializes =>
    have hlaunch : ∀ w' : World, (launch σ c (.initializes : Kind T) w').1.worker = w'.worker ∧
        (launch σ c (.initializes : Kind T) w').1.workers = w'.workers := by
      intro w'
      unfold launch
      split
      · exact ⟨rfl, rfl⟩
      · split
        · exact ⟨rfl, rfl⟩
        · exact ⟨by simp [fails], by simp [fails]⟩
    exact hlaunch _
  | invokes call => exact ⟨rfl, rfl⟩
  | shutsDown => exact ⟨rfl, rfl⟩

theorem begins_launched : (begins σ c kind w).2.launched? = none := by
  cases hl : (begins σ c kind w).2.launched? with
  | none => rfl
  | some id =>
    have hidle : (begins σ c kind w).2.holds? = none := begins_holds
    rw [holds_of_launched hl] at hidle
    cases hidle

theorem private_begun (h : Private s) :
    Private (s.begun kind (begins σ s.calls.length kind s.world)) := by
  have hworld : (begins σ s.calls.length kind s.world).1.worker = s.world.worker ∧
      (begins σ s.calls.length kind s.world).1.workers = s.world.workers := begins_worker
  have hidle : (begins σ s.calls.length kind s.world).2.holds? = none := begins_holds
  refine ⟨?_, fun x hx id hid => ?_, fun d x id hx hid => ?_⟩
  · show ∀ id, (begins σ s.calls.length kind s.world).1.worker = some id →
      id < (begins σ s.calls.length kind s.world).1.workers.length
    rw [hworld.1, hworld.2]
    exact h.slot
  · show id < (begins σ s.calls.length kind s.world).1.workers.length
    rw [hworld.2]
    rcases List.mem_append.mp hx with hold | hnew
    · exact h.held x hold id hid
    · obtain rfl := List.mem_singleton.mp hnew
      rw [hidle] at hid
      cases hid
  · rcases getElem?_begun hx with ⟨rfl, rfl⟩ | ⟨-, hold⟩
    · rw [begins_launched] at hid
      cases hid
    · obtain ⟨hslot, hheld⟩ := h.alone d x id hold hid
      refine ⟨?_, fun e y hy hed => ?_⟩
      · show (begins σ s.calls.length kind s.world).1.worker ≠ some id
        rw [hworld.1]
        exact hslot
      · rcases getElem?_begun hy with ⟨rfl, rfl⟩ | ⟨-, hold'⟩
        · rw [hidle]
          simp
        · exact hheld e y hold' hed

/-- **Every step** keeps launched processes private. -/
theorem private_step (h : Private s) (ho : Ordered s) (hs : step σ s l = some s') : Private s' := by
  rcases step_cases hs with ⟨kind, rfl, rfl⟩ | ⟨c, action, entry, r, rfl, hentry, hadvance, rfl⟩ |
    ⟨id, rfl, rfl⟩ | ⟨owners, rfl, rfl⟩
  · exact private_begun h
  · exact private_stepped h hentry hadvance (advance_moves hadvance)
      (advance_handles (ho.fits c entry hentry) hadvance)
  · exact h.same rfl rfl (List.length_modify ..)
  · exact h.same rfl rfl rfl

/-! ## What a respawn can rely on -/

/-- What holds between a respawn in progress and the snapshot it took. -/
structure Follows (w : Watch T) (phase : Phase T) (r : Snapshot) : Prop where
  calls : r.calls ≤ w.state.calls.length
  installs : r.installs ≤ w.installs
  dead : ∀ id, phase.dead? = some id → id = r.dead
  launched : r.dead < w.state.world.workers.length
  free : ∀ x ∈ w.state.calls, x.phase.launched? ≠ some r.dead
  reaped : phase.reaped = true → (w.state.world.client r.dead).child = false
  /-- The shutdowns that began before the respawn took over are over. -/
  isOver : ∀ d p, d < r.calls → w.state.Stops d → w.state.phase? d = some p → p.isOver = true
  /-- Only a shutdown or an `initialize` that came since takes the dead process out of the slot. -/
  slot : (∀ d, w.state.Stops d → d < r.calls) → w.installs = r.installs →
    w.state.world.worker = some r.dead
  replaced : w.installs ≠ r.installs → w.state.world.worker ≠ some r.dead

/-- The invariant of the runs in the engine's order. -/
structure Tracked (w : Watch T) : Prop where
  ordered : Ordered w.state
  alone : Private w.state
  stopping : ∀ c id, w.state.phase? c = some (.stoppingWorker id) → w.state.world.worker = none
  lock : ∀ (c : CallId) (x : Entry T), w.state.calls[c]? = some x → x.kind.isInvocation = true →
    x.phase.locked = true → w.state.world.respawnLock = some c
  follows : ∀ (c : CallId) (x : Entry T), w.state.calls[c]? = some x →
    x.kind.isInvocation = true → x.phase.respawning = true →
    ∃ r, w.respawns c = some r ∧ Follows w x.phase r

theorem tracked_fresh (owners : Venv.OwnersFile) : Tracked (.fresh owners : Watch T) where
  ordered := ordered_fresh owners
  alone := private_fresh owners
  stopping := fun _ _ h => by simp [Watch.fresh, State.phase?, State.fresh] at h
  lock := fun _ _ h => by simp [Watch.fresh, State.fresh] at h
  follows := fun _ _ h => by simp [Watch.fresh, State.fresh] at h

variable {v v' : Watch T} {snapshot : Snapshot}

/-- An installation is what its name says. -/
theorem advance_install {phase : Phase T}
    (h : advance σ c kind w phase .install = some r) :
    ∃ id, phase = .installing id ∧ r = install c kind w id := by
  cases phase with
  | installing id => exact ⟨id, rfl, (Option.some.inj h).symm⟩
  | _ => cases h

/-- The launch of a process, by this call or another, is not that of the dead one. -/
theorem free_stepped (hfree : ∀ x ∈ s.calls, x.phase.launched? ≠ some id)
    (hid : id < s.world.workers.length) (hentry : s.calls[c]? = some entry)
    (hhandles : Handles entry.kind s.world entry.phase r) :
    ∀ x ∈ (s.stepped c entry.kind r).calls, x.phase.launched? ≠ some id := by
  intro x hx hlaunched
  rcases List.mem_or_eq_of_mem_set hx with hold | rfl
  · exact hfree x hold hlaunched
  · rcases hhandles.launched id hlaunched with hbefore | hnew
    · exact hfree entry (List.mem_of_getElem? hentry) hbefore
    · exact absurd (hnew ▸ hid) (Nat.lt_irrefl _)

theorem stops_stepped (hentry : s.calls[c]? = some entry) :
    (s.stepped c entry.kind r).Stops d ↔ s.Stops d := by
  unfold State.Stops
  rw [kind?_stepped hentry]

/-- A shutdown that is over stays over. -/
theorem over_stepped {n : Nat} (hentry : s.calls[c]? = some entry)
    (hmoves : Moves entry.kind s.world entry.phase action r)
    (h : ∀ d p, d < n → s.Stops d → s.phase? d = some p → p.isOver = true) :
    ∀ d p, d < n → (s.stepped c entry.kind r).Stops d →
      (s.stepped c entry.kind r).phase? d = some p → p.isOver = true := by
  intro d p hd hstops hp
  rw [stops_stepped hentry] at hstops
  by_cases hdc : d = c
  · subst hdc
    rw [phase?_stepped_self hentry, Option.some.injEq] at hp
    have hpd : s.phase? d = some entry.phase := by rw [State.phase?, hentry]; rfl
    exact hp ▸ hmoves.isOver (h d entry.phase hd hstops hpd)
  · rw [phase?_stepped_ne hdc] at hp
    exact h d p hd hstops hp

/-! ### The records after a step -/

theorem after_install (v : Watch T) (hk : s'.kind? c = some .initializes) :
    (v.after (.act c .install) s').installs = v.installs + 1 := by
  simp [Watch.after, hk]

theorem after_installs (v : Watch T)
    (h : action = .install → s'.kind? c ≠ some .initializes) :
    (v.after (.act c action) s').installs = v.installs := by
  unfold Watch.after
  split
  · split <;> rfl
  · next heq =>
    obtain ⟨rfl, rfl⟩ := Label.act.inj heq
    split
    · next hk => exact absurd hk (h rfl)
    · rfl
  · rfl

theorem after_installs_le (v : Watch T) (l : Label T) (s' : State T) :
    v.installs ≤ (v.after l s').installs := by
  unfold Watch.after
  split
  · split <;> exact Nat.le_refl _
  · split
    · exact Nat.le_succ _
    · exact Nat.le_refl _
  · exact Nat.le_refl _

theorem after_respawns_ne (v : Watch T) (hd : d ≠ c) :
    (v.after (.act c action) s').respawns d = v.respawns d := by
  unfold Watch.after
  split
  · next heq =>
    obtain ⟨rfl, rfl⟩ := Label.act.inj heq
    split
    · exact Function.update_of_ne hd _ _
    · rfl
  · split <;> rfl
  · rfl

theorem after_respawns (v : Watch T) (h : ∀ now, action ≠ .recheck now) :
    (v.after (.act c action) s').respawns = v.respawns := by
  unfold Watch.after
  split
  · next heq =>
    obtain ⟨rfl, rfl⟩ := Label.act.inj heq
    exact absurd rfl (h _)
  · split <;> rfl
  · rfl

theorem after_recheck (v : Watch T) {now dead ms : Nat}
    (hp : s'.phase? c = some (.backingOff dead ms)) :
    (v.after (.act c (.recheck now)) s').respawns c =
      some ⟨s'.calls.length, v.installs, dead⟩ := by
  simp [Watch.after, hp]

/-! ### A respawn while others step -/

/-- Another call steps: only a shutdown that came since, or an `initialize`, changes the slot. -/
theorem slot_other {c₀ : CallId} {x : Entry T} (h : Tracked v) (hf : Follows v x.phase snapshot)
    (hx : v.state.calls[c₀]? = some x) (hinv : x.kind.isInvocation = true)
    (hresp : x.phase.respawning = true) (hne : c ≠ c₀) (hentry : v.state.calls[c]? = some entry)
    (hadvance : advance σ c entry.kind v.state.world entry.phase action = some r) :
    let v' := v.after (.act c action) (v.state.stepped c entry.kind r)
    ((∀ d, v.state.Stops d → d < snapshot.calls) → v'.installs = snapshot.installs →
      r.1.worker = some snapshot.dead) ∧
    (v'.installs ≠ snapshot.installs → r.1.worker ≠ some snapshot.dead) := by
  intro v'
  have hfits := h.ordered.fits c entry hentry
  have hkc : v.state.kind? c = some entry.kind := by rw [State.kind?, hentry]; rfl
  have hkc' : (v.state.stepped c entry.kind r).kind? c = some entry.kind :=
    (kind?_stepped hentry).trans hkc
  by_cases hinstall : action = .install
  · subst hinstall
    obtain ⟨id, hphase, rfl⟩ := advance_install hadvance
    rw [hphase] at hfits
    cases hkind : entry.kind with
    | initializes =>
      have hmore : v'.installs = v.installs + 1 := after_install v (hkc'.trans (by rw [hkind]))
      have hle := hf.installs
      refine ⟨fun _ heq => ?_, fun _ hslot => ?_⟩
      · omega
      · have hid : id = snapshot.dead := Option.some.inj hslot
        exact hf.free entry (List.mem_of_getElem? hentry) (by rw [hphase, ← hid]; rfl)
    | invokes call =>
      -- Two respawns would both hold the lock.
      have hlocked : entry.phase.locked = true := by rw [hphase]; rfl
      have hl := h.lock c entry hentry (by rw [hkind]; rfl) hlocked
      have hl₀ := h.lock c₀ x hx hinv (locked_of_respawning hresp)
      exact absurd (Option.some.inj (hl.symm.trans hl₀)) hne
    | shutsDown =>
      rw [hkind] at hfits
      cases hfits
  · have hsame : v'.installs = v.installs := after_installs v fun h => absurd h hinstall
    have hslot := (advance_moves hadvance).slot
    rw [hsame]
    generalize hphase : entry.phase = phase at hslot hfits
    generalize hworker : r.1.worker = slot at hslot
    cases hslot with
    | keep => exact ⟨hf.slot, hf.replaced⟩
    | take =>
      refine ⟨fun hstops _ => ?_, fun _ => by simp⟩
      have hstop : v.state.Stops c := (stops_of_kind? hkc).mpr hfits
      have hover := hf.isOver c entry.phase (hstops c hstop) hstop (by rw [State.phase?, hentry]; rfl)
      rw [hphase] at hover
      cases hover
    | install => exact absurd rfl hinstall

theorem follows_other {c₀ : CallId} {x : Entry T} (h : Tracked v)
    (hf : Follows v x.phase snapshot) (hx : v.state.calls[c₀]? = some x)
    (hinv : x.kind.isInvocation = true) (hresp : x.phase.respawning = true) (hne : c ≠ c₀)
    (hentry : v.state.calls[c]? = some entry)
    (hadvance : advance σ c entry.kind v.state.world entry.phase action = some r) :
    Follows (v.after (.act c action) (v.state.stepped c entry.kind r)) x.phase snapshot := by
  have hmoves := advance_moves hadvance
  have hhandles := advance_handles (h.ordered.fits c entry hentry) hadvance
  obtain ⟨hslot, hreplaced⟩ := slot_other h hf hx hinv hresp hne hentry hadvance
  have hle := after_installs_le v (.act c action) (v.state.stepped c entry.kind r)
  have hlen : (v.state.stepped c entry.kind r).calls.length = v.state.calls.length :=
    List.length_set ..
  refine
    { calls := ?_, installs := hf.installs.trans hle, dead := hf.dead, launched := ?_, free := ?_
      reaped := ?_, isOver := ?_, slot := ?_, replaced := ?_ }
  all_goals rw [state_after]
  · exact hf.calls.trans_eq hlen.symm
  · exact Nat.lt_of_lt_of_le hf.launched hhandles.lasts.launched
  · exact free_stepped hf.free hf.launched hentry hhandles
  · intro hreaped
    exact hhandles.lasts.stopped _ hf.launched (hf.reaped hreaped)
  · exact over_stepped hentry hmoves hf.isOver
  · intro hstops
    exact hslot fun d hd => hstops d ((stops_stepped hentry).mpr hd)
  · exact hreplaced

/-! ### The steps of a respawn -/

/-- While a respawn is on its way it leaves the slot alone. -/
theorem install_respawning (h : (install c kind w id).2.respawning = true) :
    (install c kind w id).1.worker = w.worker := by
  unfold install at h ⊢
  cases kind with
  | initializes => cases h
  | invokes call =>
    by_cases hflag : w.shutDown = true
    · rw [if_pos hflag]
    · rw [if_neg hflag] at h
      cases h
  | shutsDown => cases h

/-- The re-check takes over a dead process. -/
theorem follows_began (h : Tracked v) (hentry : v.state.calls[c]? = some entry)
    (hmoves : Moves entry.kind v.state.world entry.phase action r)
    (hhandles : Handles entry.kind v.state.world entry.phase r) {now dead ms : Nat}
    (hflag : v.state.world.shutDown = false)
    (haction : action = .recheck now) (hbacking : r.2 = .backingOff dead ms)
    (hslot : v.state.world.worker = some dead) (hsame : r.1.worker = v.state.world.worker) :
    ∃ snapshot, (v.after (.act c action) (v.state.stepped c entry.kind r)).respawns c =
        some snapshot ∧
      Follows (v.after (.act c action) (v.state.stepped c entry.kind r)) r.2 snapshot := by
  subst haction
  have hlen : (v.state.stepped c entry.kind r).calls.length = v.state.calls.length :=
    List.length_set ..
  have hp : (v.state.stepped c entry.kind r).phase? c = some (.backingOff dead ms) :=
    (phase?_stepped_self hentry).trans (by rw [hbacking])
  have hinstalls : (v.after (.act c (.recheck now)) (v.state.stepped c entry.kind r)).installs =
      v.installs := after_installs v fun h => by cases h
  have hlt : dead < v.state.world.workers.length := h.alone.slot dead hslot
  have hfree : ∀ x ∈ v.state.calls, x.phase.launched? ≠ some dead := by
    intro x hx hlaunched
    obtain ⟨d, hd⟩ := List.getElem?_of_mem hx
    exact (h.alone.alone d x dead hd hlaunched).1 hslot
  have hover : ∀ d p, d < v.state.calls.length → v.state.Stops d →
      v.state.phase? d = some p → p.isOver = true :=
    fun d p _ hd hp => h.ordered.shutdown_over hflag hd hp
  refine ⟨_, after_recheck v hp, ?_⟩
  refine
    { calls := ?_, installs := hinstalls.ge, dead := ?_, launched := ?_, free := ?_, reaped := ?_
      isOver := ?_, slot := ?_, replaced := fun hne => absurd hinstalls hne }
  all_goals try rw [state_after]
  · intro id hid
    rw [hbacking] at hid
    exact (Option.some.inj hid).symm
  · exact Nat.lt_of_lt_of_le hlt hhandles.lasts.launched
  · exact free_stepped hfree hlt hentry hhandles
  · intro hreaped
    rw [hbacking] at hreaped
    cases hreaped
  · rw [hlen]
    exact over_stepped hentry hmoves hover
  · intro _ _
    exact hsame.trans hslot

/-- A respawn goes on: it reaps the process it found, and launches another. -/
theorem follows_self (h : Tracked v) (hf : Follows v entry.phase snapshot)
    (hentry : v.state.calls[c]? = some entry)
    (hresp : entry.phase.respawning = true) (haction : ∀ now, action ≠ .recheck now)
    (hadvance : advance σ c entry.kind v.state.world entry.phase action = some r)
    (hinv : entry.kind.isInvocation = true) (hresp' : r.2.respawning = true) :
    Follows (v.after (.act c action) (v.state.stepped c entry.kind r)) r.2 snapshot := by
  have hmoves := advance_moves hadvance
  have hhandles := advance_handles (h.ordered.fits c entry hentry) hadvance
  have hway := advance_respawns hadvance
  have hkc : (v.state.stepped c entry.kind r).kind? c = some entry.kind :=
    (kind?_stepped hentry).trans (by rw [State.kind?, hentry]; rfl)
  have hinstalls : (v.after (.act c action) (v.state.stepped c entry.kind r)).installs =
      v.installs := by
    refine after_installs v fun _ hk => ?_
    rw [hkc, Option.some.injEq] at hk
    rw [hk] at hinv
    cases hinv
  have hlen : (v.state.stepped c entry.kind r).calls.length = v.state.calls.length :=
    List.length_set ..
  have hslot : r.1.worker = v.state.world.worker := by
    have hstep := hmoves.slot
    generalize hphase : entry.phase = phase at hstep hresp
    generalize hworker : r.1.worker = slot at hstep
    cases hstep with
    | keep => rfl
    | take => cases hresp
    | install id =>
      rw [hphase] at hadvance
      obtain rfl := Option.some.inj hadvance
      exact hworker.symm.trans (install_respawning hresp')
  refine
    { calls := ?_, installs := hf.installs.trans hinstalls.ge, dead := ?_, launched := ?_
      free := ?_, reaped := ?_, isOver := ?_, slot := ?_, replaced := ?_ }
  all_goals try rw [state_after]
  · exact hf.calls.trans_eq hlen.symm
  · intro id hid
    rcases hway.dead id hid with hold | hphase
    · exact hf.dead id hold
    · rw [hphase] at hresp
      cases hresp
  · exact Nat.lt_of_lt_of_le hf.launched hhandles.lasts.launched
  · exact free_stepped hf.free hf.launched hentry hhandles
  · intro hreaped
    rcases hway.reaped hreaped with hold | ⟨id, hphase, hchild⟩
    · exact hhandles.lasts.stopped _ hf.launched (hf.reaped hold)
    · obtain rfl := hf.dead id (by rw [hphase]; rfl)
      exact hchild
  · exact over_stepped hentry hmoves hf.isOver
  · rw [hinstalls]
    intro hstops heq
    exact hslot.trans (hf.slot (fun d hd => hstops d ((stops_stepped hentry).mpr hd)) heq)
  · rw [hinstalls]
    intro hne
    exact hslot ▸ hf.replaced hne

/-! ### Calls that begin -/

theorem begins_lock (hd : d ≠ c) (h : w.respawnLock = some d) :
    (begins σ c kind w).1.respawnLock = some d := by
  cases kind with
  | initializes =>
    show (launch σ c (.initializes : Kind T) { w with shutDown := false }).1.respawnLock = some d
    unfold launch
    split
    · exact h
    · split
      · exact h
      · exact others_unlock hd h
  | invokes call => exact h
  | shutsDown => exact h

theorem begins_locked (hinv : kind.isInvocation = true) :
    (begins σ c kind w).2.locked = false := by
  cases kind with
  | initializes => cases hinv
  | invokes call => rfl
  | shutsDown => cases hinv

theorem follows_begun {phase : Phase T} (hf : Follows v phase snapshot) :
    Follows (v.after (.call kind)
      (v.state.begun kind (begins σ v.state.calls.length kind v.state.world))) phase snapshot := by
  have hworld : (begins σ v.state.calls.length kind v.state.world).1.worker =
        v.state.world.worker ∧
      (begins σ v.state.calls.length kind v.state.world).1.workers = v.state.world.workers :=
    begins_worker
  have hstops : ∀ {d r}, v.state.Stops d → (v.state.begun kind r).Stops d := by
    intro d r hd
    obtain ⟨k, hk, hs⟩ := hd.exists
    exact (stops_of_kind? ((kind?_begun_lt (lt_of_kind? hk)).trans hk)).mpr hs
  have hlasts : Lasts v.state.world (begins σ v.state.calls.length kind v.state.world).1 :=
    lasts_of_workers hworld.2
  exact
    { calls := by
        refine hf.calls.trans ?_
        show _ ≤ (v.state.calls ++ _).length
        simp
      installs := hf.installs
      dead := hf.dead
      launched := Nat.lt_of_lt_of_le hf.launched hlasts.launched
      free := by
        intro x hx
        rcases List.mem_append.mp hx with hold | hnew
        · exact hf.free x hold
        · obtain rfl := List.mem_singleton.mp hnew
          rw [begins_launched]
          simp
      reaped := fun hreaped => hlasts.stopped _ hf.launched (hf.reaped hreaped)
      isOver := by
        intro d p hd hstop hp
        have hlt : d < v.state.calls.length := Nat.lt_of_lt_of_le hd hf.calls
        obtain ⟨k, hk, hs⟩ := hstop.exists
        have hk' : v.state.kind? d = some k := (kind?_begun_lt hlt).symm.trans hk
        have hp' : v.state.phase? d = some p := (phase?_begun_lt hlt).symm.trans hp
        exact hf.isOver d p hd ((stops_of_kind? hk').mpr hs) hp'
      slot := fun hs heq => hworld.1.trans (hf.slot (fun d hd => hs d (hstops hd)) heq)
      replaced := fun hne hslot => hf.replaced hne (hworld.1.symm.trans hslot) }

/-- The environment touches neither the calls nor the slot. -/
theorem Follows.same {phase : Phase T} (hf : Follows v phase snapshot) {w' : World}
    (hworker : w'.worker = v.state.world.worker) (hlasts : Lasts v.state.world w') :
    Follows ⟨⟨w', v.state.calls⟩, v.installs, v.respawns⟩ phase snapshot where
  calls := hf.calls
  installs := hf.installs
  dead := hf.dead
  launched := Nat.lt_of_lt_of_le hf.launched hlasts.launched
  free := hf.free
  reaped := fun hreaped => hlasts.stopped _ hf.launched (hf.reaped hreaped)
  isOver := hf.isOver
  slot := fun hs heq => hworker.trans (hf.slot hs heq)
  replaced := fun hne hslot => hf.replaced hne (hworker.symm.trans hslot)

/-! ## Every run -/

theorem tracked_begun (h : Tracked v) (ho : engineOrder v.state (.call kind) = true)
    (hs : step σ v.state (.call kind) =
      some (v.state.begun kind (begins σ v.state.calls.length kind v.state.world))) :
    Tracked (v.after (.call kind)
      (v.state.begun kind (begins σ v.state.calls.length kind v.state.world))) where
  ordered := ordered_step h.ordered ho hs
  alone := private_step h.alone h.ordered hs
  stopping := by
    intro d id hp
    obtain ⟨x, hx, hphase⟩ := Option.map_eq_some_iff.mp hp
    rcases getElem?_begun hx with ⟨-, rfl⟩ | ⟨-, hold⟩
    · have hidle : (begins σ v.state.calls.length kind v.state.world).2.holds? = none :=
        begins_holds
      rw [show (begins σ v.state.calls.length kind v.state.world).2 = _ from hphase] at hidle
      cases hidle
    · exact begins_worker.1.trans (h.stopping d id (by rw [State.phase?, hold, ← hphase]; rfl))
  lock := by
    intro d x hx hinv hlocked
    rcases getElem?_begun hx with ⟨-, rfl⟩ | ⟨hd, hold⟩
    · have hfree : (begins σ v.state.calls.length kind v.state.world).2.locked = false :=
        begins_locked hinv
      rw [hfree] at hlocked
      cases hlocked
    · exact begins_lock (Nat.ne_of_lt hd) (h.lock d x hold hinv hlocked)
  follows := by
    intro d x hx hinv hresp
    rcases getElem?_begun hx with ⟨-, rfl⟩ | ⟨-, hold⟩
    · have hfree : (begins σ v.state.calls.length kind v.state.world).2.locked = false :=
        begins_locked hinv
      rw [locked_of_respawning hresp] at hfree
      cases hfree
    · obtain ⟨snapshot, hsnap, hf⟩ := h.follows d x hold hinv hresp
      exact ⟨snapshot, hsnap, follows_begun hf⟩

theorem tracked_stepped (h : Tracked v) (ho : engineOrder v.state (.act c action) = true)
    (hentry : v.state.calls[c]? = some entry)
    (hadvance : advance σ c entry.kind v.state.world entry.phase action = some r)
    (hs : step σ v.state (.act c action) = some (v.state.stepped c entry.kind r)) :
    Tracked (v.after (.act c action) (v.state.stepped c entry.kind r)) where
  ordered := by
    rw [state_after]
    exact ordered_step h.ordered ho hs
  alone := by
    rw [state_after]
    exact private_step h.alone h.ordered hs
  stopping := by
    rw [state_after]
    exact stopping_stepped h.ordered h.stopping hentry hadvance
  lock := by
    rw [state_after]
    intro d x hx hinv hlocked
    have hway := advance_respawns hadvance
    rcases getElem?_stepped hentry hx with ⟨rfl, rfl⟩ | ⟨hdc, hold⟩
    · exact hway.locked hlocked (h.lock d entry hentry hinv)
    · exact hway.others d hdc (h.lock d x hold hinv hlocked)
  follows := by
    rw [state_after]
    intro d x hx hinv hresp
    rcases getElem?_stepped hentry hx with ⟨rfl, rfl⟩ | ⟨hdc, hold⟩
    · rcases (advance_respawns hadvance).began hresp with ⟨hbefore, haction⟩ |
        ⟨-, hflag, hworld, now, dead, ms, haction, hbacking, hslot⟩
      · obtain ⟨snapshot, hsnap, hf⟩ := h.follows d entry hentry hinv hbefore
        exact ⟨snapshot, by rw [after_respawns v haction]; exact hsnap,
          follows_self h hf hentry hbefore haction hadvance hinv hresp⟩
      · exact follows_began h hentry (advance_moves hadvance)
          (advance_handles (h.ordered.fits d entry hentry) hadvance) hflag haction hbacking hslot
          (by rw [hworld])
    · obtain ⟨snapshot, hsnap, hf⟩ := h.follows d x hold hinv hresp
      refine ⟨snapshot, by rw [after_respawns_ne v hdc]; exact hsnap, ?_⟩
      exact follows_other h hf hold hinv hresp (Ne.symm hdc) hentry hadvance

/-- **Every step in the engine's order** keeps the invariant. -/
theorem tracked_step (h : Tracked v) (hs : (engine σ).step v l = some v') : Tracked v' := by
  obtain ⟨ho, hstep, hafter⟩ := engine_step hs
  generalize v'.state = s' at hstep hafter
  subst hafter
  rcases step_cases hstep with ⟨kind, rfl, rfl⟩ |
    ⟨c, action, entry, r, rfl, hentry, hadvance, rfl⟩ | ⟨id, rfl, rfl⟩ | ⟨owners, rfl, rfl⟩
  · exact tracked_begun h ho hstep
  · exact tracked_stepped h ho hentry hadvance hstep
  · have hlasts : Lasts v.state.world
        (v.state.world.modifyClient id fun k => { k with alive := false }) :=
      lasts_modifyClient fun _ h => h
    exact
      { ordered := ordered_step h.ordered ho hstep
        alone := private_step h.alone h.ordered hstep
        stopping := h.stopping
        lock := h.lock
        follows := fun d x hx hinv hresp => by
          obtain ⟨snapshot, hsnap, hf⟩ := h.follows d x hx hinv hresp
          exact ⟨snapshot, hsnap, hf.same rfl hlasts⟩ }
  · have hlasts : Lasts v.state.world { v.state.world with owners } := lasts_of_workers rfl
    exact
      { ordered := ordered_step h.ordered ho hstep
        alone := private_step h.alone h.ordered hstep
        stopping := h.stopping
        lock := h.lock
        follows := fun d x hx hinv hresp => by
          obtain ⟨snapshot, hsnap, hf⟩ := h.follows d x hx hinv hresp
          exact ⟨snapshot, hsnap, hf.same rfl hlasts⟩ }

/-- The records add nothing: what the engine's order allows is a run of the plugin. -/
theorem plugin_run_of_engine : ∀ {es : List (Label T)} {v v' : Watch T},
    (engine σ).run v es = some v' → (plugin σ).run v.state es = some v'.state
  | [], v, v', hrun => by
    rw [Machine.run_nil, Option.some.injEq] at hrun
    rw [hrun]
    rfl
  | l :: es, v, v', hrun => by
    obtain ⟨m, hm, hrest⟩ := (engine σ).run_cons_eq_some.mp hrun
    obtain ⟨-, hs, -⟩ := engine_step hm
    exact (plugin σ).run_cons_eq_some.mpr ⟨m.state, hs, plugin_run_of_engine hrest⟩

/-- An installation, taken apart. -/
theorem engine_install (hs : (engine σ).step v (.act c .install) = some v') :
    ∃ entry id, v.state.calls[c]? = some entry ∧ entry.phase = .installing id ∧
      v'.state = v.state.stepped c entry.kind (install c entry.kind v.state.world id) := by
  obtain ⟨-, hstep, -⟩ := engine_step hs
  rcases step_cases hstep with ⟨kind, hl, -⟩ | ⟨c', action, entry, r, hl, hentry, hadvance, heq⟩ |
    ⟨id, hl, -⟩ | ⟨owners, hl, -⟩
  · cases hl
  · obtain ⟨rfl, rfl⟩ := Label.act.inj hl
    obtain ⟨id, hphase, rfl⟩ := advance_install hadvance
    exact ⟨entry, id, hentry, hphase, heq⟩
  · cases hl
  · cases hl

theorem launched_iff (hentry : s.calls[c]? = some entry) :
    s.Launched c id ↔ entry.phase.launched? = some id := by
  unfold State.Launched State.phase?
  rw [hentry]
  rfl

/-- A respawn whose last check is in time installs over the process it found. -/
theorem respawned_of_inTime (h : Tracked v) (hok : lastCheckInTime v (.act c .install))
    (hs : (engine σ).step v (.act c .install) = some v') {call : Call T}
    (hkind : v.state.kind? c = some (.invokes call)) (hlaunched : v.state.Launched c id)
    (hslot : v'.state.world.worker = some id) :
    ∃ r, v.respawns c = some r ∧ r.Current v.state := by
  obtain ⟨entry, id', hentry, hphase, heq⟩ := engine_install hs
  have hk : entry.kind = .invokes call := by
    rw [State.kind?, hentry] at hkind
    exact Option.some.inj hkind
  have hl : entry.phase.launched? = some id := (launched_iff hentry).mp hlaunched
  obtain ⟨snapshot, hsnap, hf⟩ := h.follows c entry hentry (by rw [hk]; rfl) (by rw [hphase]; rfl)
  have hflag : v.state.world.shutDown = false := by
    cases hflag : v.state.world.shutDown with
    | false => rfl
    | true =>
      -- The respawn would have found the flag, and left the slot alone.
      rw [heq, hk] at hslot
      simp only [State.stepped, install, hflag, if_true] at hslot
      exact absurd hslot (h.alone.alone c entry id hentry hl).1
  rcases hok c call snapshot rfl hkind hsnap with hlast | ⟨hrunning, hinstalls⟩
  · rw [h.ordered.flag.mpr hlast] at hflag
    cases hflag
  · exact ⟨snapshot, hsnap, hrunning, hf.slot hrunning hinstalls,
      hf.reaped (by rw [hphase]; rfl)⟩

/-- A process its call did not keep is installed, stopped, or dropped with its call. -/
theorem stopped_of_step (h : Tracked v) (hs : (engine σ).step v l = some v')
    (hlaunched : v.state.Launched c id) (hnot : ¬ v'.state.Launched c id) :
    v'.state.world.worker = some id ∨ (v'.state.world.client id).child = false ∨
      (v'.state.Dropped id ∧ (v'.state.phase? c = some .cancelled ∨ v.state.Starts c)) := by
  obtain ⟨-, hstep, -⟩ := engine_step hs
  obtain ⟨phase, hphase, hl⟩ := Option.bind_eq_some_iff.mp hlaunched
  obtain ⟨x, hx, rfl⟩ := Option.map_eq_some_iff.mp hphase
  have hstays : v'.state.phase? c = v.state.phase? c → False := by
    intro heq
    refine hnot ?_
    unfold State.Launched
    rw [heq]
    exact hlaunched
  generalize v'.state = s' at hstep hnot hstays
  rcases step_cases hstep with ⟨kind, rfl, rfl⟩ |
    ⟨c', action, entry, r, rfl, hentry, hadvance, rfl⟩ | ⟨j, rfl, rfl⟩ | ⟨owners, rfl, rfl⟩
  · exact (hstays (phase?_begun_lt (List.getElem?_eq_some_iff.mp hx).1)).elim
  · by_cases hcc : c = c'
    · subst hcc
      obtain rfl := Option.some.inj (hx.symm.trans hentry)
      have hhandles := advance_handles (h.ordered.fits c x hx) hadvance
      have hkc : v.state.kind? c = some x.kind := by rw [State.kind?, hx]; rfl
      rcases hhandles.kept id hl with hkept | hslot | hchild | ⟨hslot, hidle, hwhy⟩
      · refine absurd ?_ hnot
        unfold State.Launched
        rw [phase?_stepped_self hx]
        exact hkept
      · exact .inl hslot
      · exact .inr (.inl hchild)
      · obtain ⟨hfree, hothers⟩ := h.alone.alone c x id hx hl
        refine .inr (.inr ⟨⟨?_, fun y hy => ?_⟩, ?_⟩)
        · show r.1.worker ≠ some id
          rw [hslot]
          exact hfree
        · obtain ⟨d, hd⟩ := List.getElem?_of_mem hy
          rcases getElem?_stepped hx hd with ⟨-, rfl⟩ | ⟨hdc, hold⟩
          · rw [hidle]
            simp
          · exact hothers d y hold hdc
        · refine hwhy.imp (fun hcancelled => ?_) (starts_of_kind? hkc).mpr
          rw [phase?_stepped_self hx, hcancelled]
    · exact (hstays (phase?_stepped_ne hcc)).elim
  · exact (hstays rfl).elim
  · exact (hstays rfl).elim

/-- A process that leaves the slot is to be stopped, was stopped, or is released. -/
theorem vacated_of_step (h : Tracked v) (hok : lastCheckInTime v l)
    (hs : (engine σ).step v l = some v') (hslot : v.state.world.worker = some id)
    (hnot : v'.state.world.worker ≠ some id) :
    (∃ c, l = .act c .takeSlot ∧ v'.state.phase? c = some (.stoppingWorker id)) ∨
      (v'.state.world.client id).child = false ∨
      ∃ c, l = .act c .install ∧ v.state.Starts c ∧ v'.state.Released id := by
  obtain ⟨-, hstep, -⟩ := engine_step hs
  have hlaunched : id < v.state.world.workers.length := h.alone.slot id hslot
  rcases step_cases hstep with ⟨kind, -, heq⟩ | ⟨c, action, entry, r, rfl, hentry, hadvance, heq⟩ |
    ⟨j, -, heq⟩ | ⟨owners, -, heq⟩
  · rw [heq] at hnot
    exact absurd (begins_worker.1.trans hslot) hnot
  · have hkc : v.state.kind? c = some entry.kind := by rw [State.kind?, hentry]; rfl
    have hfits := h.ordered.fits c entry hentry
    have hmove := (advance_moves hadvance).slot
    rw [heq] at hnot
    change r.1.worker ≠ some id at hnot
    generalize hphase : entry.phase = phase at hmove hfits
    generalize hworker : r.1.worker = slot at hmove hnot
    cases hmove with
    | keep => exact absurd hslot hnot
    | take =>
      refine .inl ⟨c, rfl, ?_⟩
      rw [hphase] at hadvance
      simp only [advance, hslot] at hadvance
      obtain rfl := Option.some.inj hadvance
      rw [heq]
      exact phase?_stepped_self hentry
    | install id' hflag =>
      cases hkind : entry.kind with
      | initializes =>
        have hstarts : v.state.Starts c := (starts_of_kind? hkc).mpr (by rw [hkind]; rfl)
        rw [hphase, hkind] at hadvance
        obtain rfl := Option.some.inj hadvance
        refine .inr (.inr ⟨c, rfl, hstarts, ?_⟩)
        rw [heq]
        refine released_stepped h.ordered (.inl hstarts) hentry (by rw [hphase]; rfl) rfl ?_
        exact hworker ▸ hnot
      | invokes call =>
        -- The process was stopped before the respawn launched another.
        have hl : v.state.Launched c id' := (launched_iff hentry).mpr (by rw [hphase]; rfl)
        have hslot' : v'.state.world.worker = some id' := by rw [heq]; exact hworker
        obtain ⟨snapshot, -, hcurrent⟩ :=
          respawned_of_inTime h hok hs (hkc.trans (by rw [hkind])) hl hslot'
        obtain rfl := Option.some.inj (hslot.symm.trans hcurrent.slot)
        have hlasts := (advance_handles (h.ordered.fits c entry hentry) hadvance).lasts
        rw [heq]
        exact .inr (.inl (hlasts.stopped _ hlaunched hcurrent.stopped))
      | shutsDown =>
        rw [hkind] at hfits
        cases hfits
  · rw [heq] at hnot
    exact absurd hslot hnot
  · rw [heq] at hnot
    exact absurd hslot hnot

/-- A shutdown stops the process it took out, or leaves it to the invocations that hold it. -/
theorem taken_of_step (h : Tracked v) (hs : (engine σ).step v l = some v')
    (hstopping : v.state.phase? c = some (.stoppingWorker id))
    (hnot : v'.state.phase? c ≠ some (.stoppingWorker id)) :
    (v'.state.world.client id).child = false ∨
      v'.state.phase? c = some .cancelled ∧ v'.state.Released id := by
  obtain ⟨-, hstep, -⟩ := engine_step hs
  obtain ⟨x, hx, hphase⟩ := Option.map_eq_some_iff.mp hstopping
  have hstops : v.state.Stops c := h.ordered.stops_of_stopping hstopping
  generalize v'.state = s' at hstep hnot
  rcases step_cases hstep with ⟨kind, rfl, rfl⟩ |
    ⟨c', action, entry, r, rfl, hentry, hadvance, rfl⟩ | ⟨j, rfl, rfl⟩ | ⟨owners, rfl, rfl⟩
  · refine absurd ?_ hnot
    rw [phase?_begun_lt (List.getElem?_eq_some_iff.mp hx).1, hstopping]
  · by_cases hcc : c = c'
    · subst hcc
      obtain rfl := Option.some.inj (hx.symm.trans hentry)
      rcases advance_stopped hphase hadvance with hchild | ⟨hcancelled, hslot⟩
      · exact .inl hchild
      · refine .inr ⟨by rw [phase?_stepped_self hx, hcancelled], ?_⟩
        refine released_stepped h.ordered (.inr hstops) hx (by rw [hphase]; rfl) ?_ ?_
        · rw [hcancelled]
          rfl
        · rw [hslot, h.stopping c id hstopping]
          simp
    · refine absurd ?_ hnot
      rw [phase?_stepped_ne hcc, hstopping]
  · exact absurd hstopping hnot
  · exact absurd hstopping hnot

theorem emptied_of_step (h : Tracked v) (hs : (engine σ).step v (.act c .takeSlot) = some v') :
    StaysEmpty σ v' := by
  obtain ⟨ho, hstep, -⟩ := engine_step hs
  refine staysEmpty_of_emptied ?_
  generalize v'.state = s' at hstep
  have hordered := ordered_step h.ordered ho hstep
  rcases step_cases hstep with ⟨kind, hl, -⟩ | ⟨c', action, entry, r, hl, hentry, hadvance, rfl⟩ |
    ⟨j, hl, -⟩ | ⟨owners, hl, -⟩
  · cases hl
  · obtain ⟨rfl, rfl⟩ := Label.act.inj hl
    have hphase : entry.phase = .takingSlot := by
      cases hp : entry.phase with
      | takingSlot => rfl
      | _ =>
        rw [hp] at hadvance
        cases hadvance
    exact emptied_of_taken h.ordered hentry hphase hadvance hordered
  · cases hl
  · cases hl

/-- A respawn whose last check comes too late installs over another's process, or after a
shutdown. -/
theorem inTime_of_respawned (h : Tracked v)
    (hs : (engine σ).step v l = some v')
    (hresp : ∀ c call id, l = .act c .install → v.state.kind? c = some (.invokes call) →
      v.state.Launched c id → v'.state.world.worker = some id →
      ∃ r, v.respawns c = some r ∧ r.Current v.state) : lastCheckInTime v l := by
  rintro c call snapshot rfl hkind hsnap
  by_cases hlast : v.state.LastStops
  · exact .inl hlast
  · have hflag : v.state.world.shutDown = false := by
      cases hf : v.state.world.shutDown with
      | false => rfl
      | true => exact absurd (h.ordered.flag.mp hf) hlast
    obtain ⟨entry, id, hentry, hphase, heq⟩ := engine_install hs
    have hk : entry.kind = .invokes call := by
      rw [State.kind?, hentry] at hkind
      exact Option.some.inj hkind
    have hlaunched : v.state.Launched c id := (launched_iff hentry).mpr (by rw [hphase]; rfl)
    have hslot : v'.state.world.worker = some id := by
      rw [heq, hk]
      simp [State.stepped, install, hflag]
    obtain ⟨r, hr, hcurrent⟩ := hresp c call id rfl hkind hlaunched hslot
    obtain rfl := Option.some.inj (hr.symm.trans hsnap)
    obtain ⟨snapshot', hsnap', hf⟩ := h.follows c entry hentry (by rw [hk]; rfl)
      (by rw [hphase]; rfl)
    obtain rfl := Option.some.inj (hsnap'.symm.trans hsnap)
    refine .inr ⟨hcurrent.running, ?_⟩
    by_contra hne
    exact hf.replaced hne hcurrent.slot

/--
**Respawn against shutdown.** In a run with `initialize` and `shutdown` one at a time, every step
is orderly if and only if each respawn makes its last check in time: while the plugin is shut
down, or before any shutdown began and any `initialize` installed since it took over.
-/
theorem respawn_orderly_iff (σ : Setup T) {owners : Venv.OwnersFile} (es : List (Label T))
    (hrun : (engine σ).run (.fresh owners) es = some v) :
    (engine σ).EachStep (Orderly σ) (.fresh owners) es ↔
      (engine σ).Meets lastCheckInTime (.fresh owners) es := by
  refine (engine σ).eachStep_iff_meets (I := Tracked) ?_ ?_ (tracked_fresh owners) hrun
  · intro v l v' h hok hs
    refine ⟨?_, tracked_step h hs⟩
    exact
      { respawned := by
          rintro c call id rfl hkind hlaunched hslot
          exact respawned_of_inTime h hok hs hkind hlaunched hslot
        stopped := fun c id hlaunched hnot => stopped_of_step h hs hlaunched hnot
        vacated := fun id hslot hnot => vacated_of_step h hok hs hslot hnot
        taken := fun c id hstopping hnot => taken_of_step h hs hstopping hnot
        emptied := by
          rintro c rfl
          exact emptied_of_step h hs }
  · intro v l v' h hok hs horderly
    exact hok (inTime_of_respawned h hs horderly.respawned)

/-- The plugin shuts down while an invocation is in its backoff, and the respawn gives up. -/
theorem respawn_orderly_iff_shut_down :
    (∃ v, (engine resolverSetup).run (.fresh .absent) shutdownDuringRespawnSteps = some v ∧
      v.state.world.worker = none ∧ (v.state.world.client 1).child = false) ∧
    ((engine resolverSetup).EachStep (Orderly resolverSetup) (.fresh .absent)
        shutdownDuringRespawnSteps ↔
      (engine resolverSetup).Meets lastCheckInTime (.fresh .absent)
        shutdownDuringRespawnSteps) :=
  ⟨⟨_, rfl, rfl, rfl⟩, respawn_orderly_iff resolverSetup shutdownDuringRespawnSteps rfl⟩

/-- The plugin shuts down and starts again while an invocation is in its backoff. -/
def revivedSteps : List (Label Plain.types) :=
  [.call .initializes] ++ launchSteps 0 credentialReply ++
  [.die 0, .call (.invokes resolveCall), .act 1 .acquire, .act 1 .lockRespawn, .act 1 (.recheck 0),
    .call .shutsDown, .act 2 .takeSlot, .act 2 (.stopped (.ok ())), .act 2 .registryWrites,
    .call .initializes] ++ launchSteps 3 credentialReply ++
  [.act 1 .wake, .act 1 (.stopped (.ok ())), .act 1 .ensured, .act 1 .registryWrites, .act 1 .spawn,
    .act 1 (.answer (.ok credentialReply))]

def revived : Watch Plain.types :=
  ((engine resolverSetup).run (.fresh .absent) revivedSteps).getD (.fresh .absent)

/-- **The old respawn replaces the new worker**, which is running and is not stopped. -/
theorem revived_respawn_overwrites :
    ¬ (engine resolverSetup).EachStep (Orderly resolverSetup) (.fresh .absent)
        (revivedSteps ++ [.act 1 .install]) ∧
    revived.state.world.worker = some 1 ∧
    ∃ v, (engine resolverSetup).step revived (.act 1 .install) = some v ∧
      v.state.world.worker = some 2 ∧ (v.state.world.client 1).child = true ∧
      (v.state.world.client 1).alive = true := by
  have hrun : (engine resolverSetup).run (.fresh .absent) revivedSteps = some revived := rfl
  refine ⟨fun heach => ?_, rfl, _, rfl, rfl, rfl, rfl⟩
  have horderly := heach.at_step _ hrun rfl
  obtain ⟨r, hr, hcurrent⟩ := horderly.respawned 1 resolveCall 2 rfl rfl rfl rfl
  obtain rfl := Option.some.inj hr
  exact absurd (hcurrent.running 2 rfl) (Nat.lt_irrefl 2)

end Cpex.Host.Lifecycle
