import Cpex.Properties.Pending

/-!
# An oversized frame and the calls it fails

The reader recovers a request id from what it kept of a frame over the limit. When the id is a key
of the pending map, the frame fails that call alone. When the id is one the map no longer has, its
owner having timed out, been answered or never been there, the reader takes the branch of a frame
without an id and fails every waiting call.

* `Contained` — what a frame that fails only its owner leaves of a client
* `onOversized_owned`, `onOversized_unowned` — the two branches of the reader
* `contained_iff` — the frame is contained exactly when its owner waits, or nobody does
-/

namespace Cpex.Host.Worker

open Cpex.Infra

variable {cfg : Settings} {s s' : Client} {c : CallId} {id kept : String} {scanned : Nat}

/--
The frame of `id` failed only its owner: the owner's entry is gone and its channel holds the error,
and every other entry, call and channel is as it was.
-/
structure Contained (s s' : Client) (id : String) (e : HostError) : Prop where
  taken : Assoc.get? id s'.pending = none
  told : ∀ c, Assoc.get? id s.pending = some c → (s.phase c).listening →
    s'.oneShot c = .sent (.error e)
  registered : ∀ id' c, id' ≠ id → Assoc.get? id' s.pending = some c →
    Assoc.get? id' s'.pending = some c
  unresolved : ∀ c, Assoc.get? id s.pending ≠ some c → s'.oneShot c = s.oneShot c
  phase : s'.phase = s.phase
  resolved : s'.resolved = s.resolved

/-! ## Sending the error -/

theorem sendError_listening (e : HostError) (h : (s.phase c).listening) :
    (s.sendError e c).oneShot c = .sent (.error e) := by
  rw [Client.sendError, if_pos h]
  simp

theorem sendError_resolved (e : HostError) (s : Client) (c : CallId) :
    (s.sendError e c).resolved = s.resolved := by
  unfold Client.sendError
  split
  · rfl
  · rfl

/-- A call that was told the frame's error returns it. -/
theorem receive_told {e : HostError} (hid : s.phase c = .awaiting id)
    (htold : s.oneShot c = .sent (.error e)) :
    step cfg s (.receive c) = some (s.resolve c (.error e)) := by
  simp only [step, hid]
  rw [Client.receive, htold]

/-! ## The two branches -/

/-- The recovered id is a key: its entry is removed and its sender used. -/
theorem onOversized_owned (hid : requestIdFromPrefix kept = some id)
    (hget : Assoc.get? id s.pending = some c) :
    s.onOversized cfg kept scanned =
      { s with pending := Assoc.erase id s.pending }.sendError
        (responseTooLarge scanned cfg.maxContentSize) c := by
  unfold Client.onOversized
  rw [hid, Option.bind_some, hget, Option.map_some]

/-- The recovered id is no key: the map is drained, as for a frame without an id. -/
theorem onOversized_unowned (hid : requestIdFromPrefix kept = some id)
    (hget : Assoc.get? id s.pending = none) :
    s.onOversized cfg kept scanned =
      (s.pending.map Prod.snd).foldl
        (Client.sendError · (responseTooLarge scanned cfg.maxContentSize))
        { s with pending := [] } := by
  unfold Client.onOversized
  rw [hid, Option.bind_some, hget, Option.map_none]

theorem contained_of_owned (hid : requestIdFromPrefix kept = some id)
    (hget : Assoc.get? id s.pending = some c) :
    Contained s (s.onOversized cfg kept scanned) id
      (responseTooLarge scanned cfg.maxContentSize) := by
  rw [onOversized_owned hid hget]
  have hset := settles_sendError (responseTooLarge scanned cfg.maxContentSize)
    { s with pending := Assoc.erase id s.pending } c
  refine
    { taken := ?_, told := ?_, registered := ?_, unresolved := ?_
      phase := hset.phase, resolved := sendError_resolved _ _ _ }
  · rw [hset.pending]
    exact Assoc.get?_erase_self id s.pending
  · intro d hd hlisten
    obtain rfl : c = d := Option.some.inj (hget.symm.trans hd)
    exact sendError_listening _ hlisten
  · intro id' d hne hd
    rw [hset.pending]
    exact (Assoc.get?_erase_ne hne s.pending).trans hd
  · intro d hd
    refine hset.others d ?_
    rintro rfl
    exact hd hget

theorem contained_of_nobody (hid : requestIdFromPrefix kept = some id) (hnil : s.pending = []) :
    Contained s (s.onOversized cfg kept scanned) id
      (responseTooLarge scanned cfg.maxContentSize) := by
  have hnone : Assoc.get? id s.pending = none := by
    rw [hnil]
    rfl
  have hsame : s.onOversized cfg kept scanned = { s with pending := [] } := by
    rw [onOversized_unowned hid hnone, hnil]
    rfl
  rw [hsame]
  refine
    { taken := rfl, told := fun d hd => ?_, registered := fun id' d _ hd => ?_
      unresolved := fun _ _ => rfl, phase := rfl, resolved := rfl }
  · rw [hnone] at hd
    cases hd
  · rw [hnil] at hd
    cases hd

/-- An id that is no key empties the map. -/
theorem onOversized_drains (hid : requestIdFromPrefix kept = some id)
    (hget : Assoc.get? id s.pending = none) : (s.onOversized cfg kept scanned).pending = [] := by
  rw [onOversized_unowned hid hget]
  exact (settlesAll_foldl (settles_sendError (responseTooLarge scanned cfg.maxContentSize))
    (s.pending.map Prod.snd) { s with pending := [] }).pending

/-- And each call of the map that still listens is told of a frame that was not its own. -/
theorem onOversized_unowned_told (hid : requestIdFromPrefix kept = some id)
    (hget : Assoc.get? id s.pending = none) (hmem : c ∈ s.pending.map Prod.snd)
    (hlisten : (s.phase c).listening) : (s.onOversized cfg kept scanned).oneShot c ≠ .waiting := by
  rw [onOversized_unowned hid hget]
  exact (settlesAll_foldl (settles_sendError (responseTooLarge scanned cfg.maxContentSize))
    (s.pending.map Prod.snd) { s with pending := [] }).own c hmem hlisten

/-! ## Exactly when the frame is contained -/

/--
**An oversized frame fails only its owner, exactly when the owner waits or nobody does.** In every
state of the client and for every frame over the limit whose id is recovered, the frame is
contained if and only if the id is a key of the pending map or the map is empty.
-/
theorem contained_iff (hid : requestIdFromPrefix kept = some id)
    (hs : step cfg s (.read (.ok (.oversized kept scanned))) = some s') :
    Contained s s' id (responseTooLarge scanned cfg.maxContentSize) ↔
      (Assoc.get? id s.pending).isSome ∨ s.pending = [] := by
  have hs' : s' = { s.onOversized cfg kept scanned with
      lines := s.lines ++ [.ok (.oversized kept scanned)] } := by
    simp only [step] at hs
    split at hs
    · exact (Option.some.inj hs).symm
    · cases hs
  -- The line that is logged is no part of what `Contained` speaks of.
  have hlog : Contained s s' id (responseTooLarge scanned cfg.maxContentSize) ↔
      Contained s (s.onOversized cfg kept scanned) id
        (responseTooLarge scanned cfg.maxContentSize) := by
    subst hs'
    constructor
    · rintro ⟨h1, h2, h3, h4, h5, h6⟩
      exact ⟨h1, h2, h3, h4, h5, h6⟩
    · rintro ⟨h1, h2, h3, h4, h5, h6⟩
      exact ⟨h1, h2, h3, h4, h5, h6⟩
  rw [hlog]
  constructor
  · intro hcont
    cases hget : Assoc.get? id s.pending with
    | some c => exact .inl rfl
    | none =>
      right
      cases hpending : s.pending with
      | nil => rfl
      | cons entry rest =>
        obtain ⟨id', d⟩ := entry
        have hfirst : Assoc.get? id' s.pending = some d := by
          rw [hpending]
          exact Assoc.get?_cons_self id' d rest
        have hne : id' ≠ id := by
          rintro rfl
          rw [hget] at hfirst
          cases hfirst
        have hkept := hcont.registered id' d hne hfirst
        rw [onOversized_drains hid hget] at hkept
        cases hkept
  · rintro (hsome | hnil)
    · obtain ⟨c, hget⟩ := Option.isSome_iff_exists.mp hsome
      exact contained_of_owned hid hget
    · exact contained_of_nobody hid hnil

/-- Calls 0 and 1 wait, and the frame over the limit is that of call 0. -/
def oversizedRun : List Label :=
  [.call 0 "a" (.object []), .register 0, .handOff 0, .call 1 "b" (.object []), .register 1,
    .handOff 1]

/-- What is kept of the frame: its first member is the id. -/
def oversizedKept : String := "\x7b\"request_id\":\"a\",\"out\":\"xxxx"

theorem contained_iff_owner_waits :
    ∃ s s', (client repliesSwapped).run .spawned oversizedRun = some s ∧
      step repliesSwapped s (.read (.ok (.oversized oversizedKept 2000))) = some s' ∧
      (Contained s s' "a" (responseTooLarge 2000 repliesSwapped.maxContentSize) ↔
        (Assoc.get? "a" s.pending).isSome ∨ s.pending = []) := by
  have hid : requestIdFromPrefix oversizedKept = some "a" := by decide
  exact ⟨_, _, rfl, rfl, contained_iff hid rfl⟩

/--
Call 0 timed out before its frame came: call 1, which waits for a response of its own, is failed
with the size of a frame that was not its.
-/
theorem expired_owner_fails_bystander :
    ∃ s s', (client repliesSwapped).run .spawned (oversizedRun ++ [.timeOut 0, .expire 0]) =
        some s ∧
      s.pending = [("b", 1)] ∧ requestIdFromPrefix oversizedKept = some "a" ∧
      step repliesSwapped s (.read (.ok (.oversized oversizedKept 2000))) = some s' ∧
      s'.pending = [] ∧ s'.oneShot 1 = .sent (.error (.responseTooLarge 2000 1000)) ∧
      ¬ Contained s s' "a" (responseTooLarge 2000 1000) := by
  refine ⟨_, _, rfl, rfl, by decide, rfl, rfl, rfl, fun h => ?_⟩
  have hkept := h.registered "b" 1 (by decide) rfl
  cases hkept

end Cpex.Host.Worker
