import Cpex.Go.EngineLock

/-!
# The lock of a Go engine

However the goroutines interleave, `cpex_shutdown` runs at most once and never beside a use of the
engine, and the lock makes every call take effect at one moment.

* `reliance` — what a frame relies on
* `Inv`, `inv_step` — the lock guards the handle
* `guarded_sound` — no use after free, no double free, no call let in after `Shutdown`
* `guarded_refines_gate` — the history of calls and returns is one of the `gate`
* `guarded_stuck_iff`, `guarded_returns` — what can block a call, and that nothing else does
-/

namespace Cpex.Go

open Cpex.Infra

/-! ## What the lock guards -/

namespace Protected

def live : Protected := ⟨true, .live⟩

def shut : Protected := ⟨false, .freed⟩

end Protected

namespace Frame

def stance : Frame → Option Stance
  | .locking _ | .announcing => none
  | .checking _ | .inHost _ | .entering _ | .inC _ | .unlocking _ _ => some .reading
  | .draining => some .waiting
  | .shutChecking | .shutEntering | .shuttingDown | .clearing | .shutUnlocking => some .writing

/-- What the frame relies on. -/
def needs : Frame → Protected → Prop
  | .locking _, _ | .checking _, _ | .announcing, _ | .draining, _ => True
  | .inHost m, v => v = .live ∧ m.runsHost
  | .entering _, v | .inC _, v | .shutEntering, v => v = .live
  | .unlocking _ outcome, v => v = if outcome = .refused then .shut else .live
  | .shutChecking, v => v = .live ∨ v = .shut
  | .shuttingDown, v => v = ⟨true, .freeing⟩
  | .clearing, v => v = ⟨true, .freed⟩
  | .shutUnlocking, v => v = .shut

/-- C, or the code of the host, has the handle. -/
def uses : Frame → Bool
  | .inHost .registerFactories | .inC _ => true
  | _ => false

end Frame

/-- The handle is set and the engine lives, or neither. -/
def reliance : Reliance Frame Protected where
  stance := Frame.stance
  rest v := v = .live ∨ v = .shut
  needs := Frame.needs
  free f v hreading hwriting := by
    cases f <;> trivial

def Inv (s : PolicyEngine) : Prop := Guarded reliance s.lock s.shared s.frames

/-! ## One step -/

/-- A change of one goroutine's stack, seen in all the frames. -/
theorem flatten_set_append {α : Type*} {stack : List α} : ∀ {gs : List (List α)} {g : Nat},
    gs[g]? = some stack → ∀ xs rest, (gs.set g (xs ++ rest)).flatten.Perm
      (xs ++ (gs.set g rest).flatten)
  | [], _, h, _, _ => nomatch h
  | st :: gs, 0, _, xs, rest => by
    simp only [List.set_cons_zero, List.flatten_cons, List.append_assoc]
    exact .refl _
  | st :: gs, g + 1, h, xs, rest => by
    rw [List.getElem?_cons_succ] at h
    simp only [List.set_cons_succ, List.flatten_cons]
    have ih := (flatten_set_append h xs rest).append_left st
    exact ih.trans (List.perm_append_comm_assoc st xs _)

theorem set_getElem?_self {α : Type*} {gs : List α} {g : Nat} {a : α} (h : gs[g]? = some a) :
    gs.set g a = gs := by
  obtain ⟨hlt, rfl⟩ := List.getElem?_eq_some_iff.mp h
  exact List.set_getElem_self hlt

/-- The innermost frame of a goroutine, beside all the others. -/
theorem frames_perm {s : PolicyEngine} {g : Nat} {f : Frame} {rest : List Frame}
    (hg : s.goroutines[g]? = some (f :: rest)) :
    s.frames.Perm (f :: (s.setStack g rest).frames) := by
  have hperm := flatten_set_append hg [f] rest
  rwa [List.singleton_append, set_getElem?_self hg] at hperm

theorem setStack_perm {s : PolicyEngine} {g : Nat} {stack : List Frame}
    (hg : s.goroutines[g]? = some stack) (xs rest : List Frame) :
    (s.setStack g (xs ++ rest)).frames.Perm (xs ++ (s.setStack g rest).frames) :=
  flatten_set_append hg xs rest

/-- A lock operation of a frame that relies on nothing new. -/
theorem turn_move {t : Turn} {l l' : RwLock} {v : Protected} {f f' : Frame}
    (hturn : l.turn t = some l') (hf : f.stance = t.before) (hf' : f'.stance = t.after)
    (hneeds : reliance.rest v → f'.needs v) (hleaves : t = .writeUnlock → f.needs v → v = .shut) :
    Guarded.Move reliance l v l' v f f' :=
  .turn t hf hf' hturn hneeds fun ht hn => .inr (hleaves ht hn)

/-- A frame answers for what it does. One that returns leaves nothing behind. -/
theorem advance_move {l l' : RwLock} {v v' : Protected} {f : Frame} {next : Option Frame}
    (h : advance l v f = some (l', v', next)) :
    Guarded.Move reliance l v l' v' f (next.getD .announcing) := by
  cases f with
  | locking m =>
    obtain ⟨m', hturn, heq⟩ := Option.map_eq_some_iff.mp h
    obtain ⟨rfl, rfl, rfl⟩ : m' = l' ∧ v = v' ∧ some (Frame.checking m) = next := by simpa using heq
    exact turn_move hturn rfl rfl (fun _ => trivial) fun ht => nomatch ht
  | checking m =>
    obtain ⟨rfl, rfl, hnext⟩ : l = l' ∧ v = v' ∧ _ = next := by simpa [advance] using h
    subst hnext
    refine .stay ?_ fun hrest _ => ?_
    · show Frame.stance (if _ then _ else _) = _
      split_ifs <;> rfl
    · show Frame.needs (if _ then _ else _) v
      rcases hrest rfl with rfl | rfl
      · cases hm : m.runsHost with
        | false => rfl
        | true => exact ⟨rfl, hm⟩
      · rfl
  | inHost m => cases h
  | entering m =>
    obtain ⟨rfl, rfl, rfl⟩ : l = l' ∧ v = v' ∧ some (Frame.inC m) = next := by
      simpa [advance] using h
    exact .stay rfl fun _ hv => hv
  | inC m =>
    obtain ⟨rfl, rfl, rfl⟩ : l = l' ∧ v = v' ∧ some (Frame.unlocking m .answered) = next := by
      simpa [advance] using h
    exact .stay rfl fun _ hv => hv
  | unlocking m outcome =>
    obtain ⟨m', hturn, heq⟩ := Option.map_eq_some_iff.mp h
    obtain ⟨rfl, rfl, rfl⟩ : m' = l' ∧ v = v' ∧ none = next := by simpa using heq
    exact turn_move hturn rfl rfl (fun _ => trivial) fun ht => nomatch ht
  | announcing =>
    obtain ⟨m', hturn, heq⟩ := Option.map_eq_some_iff.mp h
    obtain ⟨rfl, rfl, rfl⟩ : m' = l' ∧ v = v' ∧ some Frame.draining = next := by simpa using heq
    exact turn_move hturn rfl rfl (fun _ => trivial) fun ht => nomatch ht
  | draining =>
    obtain ⟨m', hturn, heq⟩ := Option.map_eq_some_iff.mp h
    obtain ⟨rfl, rfl, rfl⟩ : m' = l' ∧ v = v' ∧ some Frame.shutChecking = next := by
      simpa using heq
    exact turn_move hturn rfl rfl id fun ht => nomatch ht
  | shutChecking =>
    obtain ⟨rfl, rfl, hnext⟩ : l = l' ∧ v = v' ∧ _ = next := by simpa [advance] using h
    subst hnext
    refine .write rfl ?_ fun hv => ?_
    · show Frame.stance (if _ then _ else _) = _
      split_ifs <;> rfl
    · show Frame.needs (if _ then _ else _) v
      rcases hv with rfl | rfl <;> rfl
  | shutEntering =>
    obtain ⟨rfl, rfl, rfl⟩ : l = l' ∧ { v with box := .freeing } = v' ∧
        some Frame.shuttingDown = next := by simpa [advance] using h
    refine .write rfl rfl fun hv => ?_
    rw [show v = .live from hv]
    rfl
  | shuttingDown =>
    obtain ⟨rfl, rfl, rfl⟩ : l = l' ∧ { v with box := .freed } = v' ∧
        some Frame.clearing = next := by simpa [advance] using h
    refine .write rfl rfl fun hv => ?_
    rw [show v = ⟨true, .freeing⟩ from hv]
    rfl
  | clearing =>
    obtain ⟨rfl, rfl, rfl⟩ : l = l' ∧ { v with handle := false } = v' ∧
        some Frame.shutUnlocking = next := by simpa [advance] using h
    refine .write rfl rfl fun hv => ?_
    rw [show v = ⟨true, .freed⟩ from hv]
    rfl
  | shutUnlocking =>
    obtain ⟨m', hturn, heq⟩ := Option.map_eq_some_iff.mp h
    obtain ⟨rfl, rfl, rfl⟩ : m' = l' ∧ v = v' ∧ none = next := by simpa using heq
    exact turn_move hturn rfl rfl (fun _ => trivial) fun _ hv => hv

/-- What a step does to the frames and to the lock. -/
theorem step_cases {s s' : PolicyEngine} {e : Label} (h : guarded.step s e = some s') :
    (e = .spawn ∧ s' = { s with goroutines := s.goroutines ++ [[]] }) ∨
    (∃ g op stack, e = .call g op ∧ s.goroutines[g]? = some stack ∧ mayCall stack ∧
      s' = s.setStack g (op.start :: stack)) ∨
    (∃ g ok m rest, e = .hostReturns g ok ∧ s.goroutines[g]? = some (.inHost m :: rest) ∧
      s' = s.setStack g (hosted m ok :: rest)) ∨
    (∃ g f rest l v next, e = .advance g ∧ s.goroutines[g]? = some (f :: rest) ∧
      advance s.lock s.shared f = some (l, v, next) ∧
      s' = { s.setStack g (next.toList ++ rest) with lock := l, shared := v }) := by
  cases e with
  | spawn => exact .inl ⟨rfl, (Option.some.inj h).symm⟩
  | call g op =>
    simp only [guarded, PolicyEngine.step] at h
    split at h
    next stack hg =>
      split at h
      next hmay => exact .inr (.inl ⟨g, op, stack, rfl, hg, hmay, (Option.some.inj h).symm⟩)
      next => cases h
    next => cases h
  | hostReturns g ok =>
    simp only [guarded, PolicyEngine.step] at h
    split at h
    next m rest hg =>
      exact .inr (.inr (.inl ⟨g, ok, m, rest, rfl, hg, (Option.some.inj h).symm⟩))
    next => cases h
  | advance g =>
    simp only [guarded, PolicyEngine.step] at h
    split at h
    next f rest hg =>
      obtain ⟨⟨l, v, next⟩, hadv, heq⟩ := Option.map_eq_some_iff.mp h
      exact .inr (.inr (.inr ⟨g, f, rest, l, v, next, rfl, hg, hadv, heq.symm⟩))
    next => cases h

/-- What the code of the host leaves relies on what it relied on. -/
theorem hosted_move {l : RwLock} {v : Protected} (m : Method) (ok : Bool) :
    Guarded.Move reliance l v l v (.inHost m) (hosted m ok) := by
  refine .stay ?_ fun _ hv => ?_
  · cases ok <;> cases m <;> rfl
  · cases ok <;> cases m <;> exact hv.1

/-- **Every step keeps the lock and what it guards.** -/
theorem inv_step {s s' : PolicyEngine} {e : Label} (hs : Inv s) (h : guarded.step s e = some s') :
    Inv s' := by
  obtain ⟨-, rfl⟩ | ⟨g, op, stack, -, hg, -, rfl⟩ | ⟨g, ok, m, rest, -, hg, rfl⟩ |
    ⟨g, f, rest, l, v, next, -, hg, hadv, rfl⟩ := step_cases h
  · show Guarded reliance s.lock s.shared (s.goroutines ++ [[]]).flatten
    rw [List.flatten_append, List.flatten_cons, List.flatten_nil, List.append_nil, List.append_nil]
    exact hs
  · have hperm := setStack_perm hg [op.start] stack
    rw [PolicyEngine.setStack, PolicyEngine.setStack, set_getElem?_self hg] at hperm
    have hpush : Guarded reliance s.lock s.shared (op.start :: s.frames) :=
      hs.push (by cases op <;> rfl)
    exact hpush.perm hperm.symm
  · have hmoved := (hs.perm (frames_perm hg)).move (hosted_move m ok)
    exact hmoved.perm (setStack_perm hg [hosted m ok] rest).symm
  · have hmoved := (hs.perm (frames_perm hg)).move (advance_move hadv)
    cases next with
    | none => exact hmoved.pop rfl
    | some f' => exact hmoved.perm (setStack_perm hg [f'] rest).symm

theorem inv_new : Inv .new where
  kept := RwLock.kept_new
  needs _ hf := nomatch hf
  rest _ := .inl rfl

/-! ## Safety -/

/-- `cpex_shutdown` is called. -/
def frees (s : PolicyEngine) : Label → Option Unit
  | .advance g =>
    match s.goroutines[g]? with
    | some (.shutEntering :: _) => some ()
    | _ => none
  | _ => none

/-- What a step of the goroutines never does. -/
structure SafeStep (s : PolicyEngine) (e : Label) (s' : PolicyEngine) : Prop where
  /-- The engine lives while C or the host has the handle, so `cpex_shutdown` runs beside none. -/
  used : ∀ f ∈ s'.frames, f.uses → s'.box = .live
  /-- `cpex_shutdown` is given a live engine. -/
  once : (frees s e).isSome → s.box = .live
  /-- A method is refused if and only if the engine is shut down. -/
  refused : ∀ g f rest m outcome, e = .advance g → s.goroutines[g]? = some (f :: rest) →
    f.returns = some (.method m, outcome) → (outcome = .refused ↔ s.handle = false)
  /-- When a `Shutdown` returns, the engine is shut down. -/
  shut : ∀ g f rest outcome, e = .advance g → s.goroutines[g]? = some (f :: rest) →
    f.returns = some (.shutdown, outcome) → s.handle = false
  /-- And it stays so. -/
  stays : s.handle = false → s'.handle = false ∧ s'.box = .freed

theorem needs_top {s : PolicyEngine} (hs : Inv s) {g : Nat} {f : Frame} {rest : List Frame}
    (hg : s.goroutines[g]? = some (f :: rest)) : f.needs s.shared :=
  hs.needs f ((frames_perm hg).mem_iff.mpr List.mem_cons_self)

theorem uses_live {s : PolicyEngine} (hs : Inv s) {f : Frame} (hf : f ∈ s.frames)
    (huses : f.uses) : s.shared = .live := by
  have hneeds : f.needs s.shared := hs.needs f hf
  cases f with
  | inHost m => exact hneeds.1
  | inC m => exact hneeds
  | _ => cases huses

theorem frees_eq_some {s : PolicyEngine} {e : Label} (h : (frees s e).isSome) :
    ∃ g rest, e = .advance g ∧ s.goroutines[g]? = some (.shutEntering :: rest) := by
  cases e with
  | advance g =>
    simp only [frees] at h
    split at h
    next rest hg => exact ⟨g, rest, rfl, hg⟩
    next => cases h
  | _ => cases h

/-- The value changes only in the steps of a `Shutdown` that found the handle set. -/
theorem shared_of_shut {l l' : RwLock} {v v' : Protected} {f : Frame} {next : Option Frame}
    (h : advance l v f = some (l', v', next)) (hneeds : f.needs v) (hshut : v = .shut) :
    v' = .shut := by
  subst hshut
  cases f with
  | shutEntering => cases hneeds
  | shuttingDown => cases hneeds
  | clearing => cases hneeds
  | checking | shutChecking | entering | inC =>
    obtain ⟨-, rfl, -⟩ : _ ∧ Protected.shut = v' ∧ _ := by simpa [advance] using h
    rfl
  | inHost => cases h
  | locking | unlocking | announcing | draining | shutUnlocking =>
    obtain ⟨m', -, heq⟩ := Option.map_eq_some_iff.mp h
    obtain ⟨-, rfl, -⟩ : _ ∧ Protected.shut = v' ∧ _ := by simpa using heq
    rfl

/-- A nil handle is that of an engine that is freed: in between, the writer is alone. -/
theorem shut_of_handle {s : PolicyEngine} (hs : Inv s) (h : s.handle = false) :
    s.shared = .shut := by
  by_cases hno : some .writing ∈ s.frames.map reliance.stance
  · obtain ⟨f, hf, hwriting⟩ := List.mem_map.mp hno
    have hneeds : f.needs s.shared := hs.needs f hf
    have hne : ∀ b, s.shared ≠ ⟨true, b⟩ := fun b heq => by
      rw [PolicyEngine.handle, heq] at h
      cases h
    cases f with
    | shutChecking => exact hneeds.resolve_left (hne .live)
    | shutEntering => exact absurd hneeds (hne .live)
    | shuttingDown => exact absurd hneeds (hne .freeing)
    | clearing => exact absurd hneeds (hne .freed)
    | shutUnlocking => exact hneeds
    | _ => cases hwriting
  · refine (hs.rest hno).resolve_left fun heq => ?_
    rw [PolicyEngine.handle, heq] at h
    cases h

theorem stays_shut {s s' : PolicyEngine} {e : Label} (hs : Inv s) (h : guarded.step s e = some s')
    (hshut : s.shared = .shut) : s'.shared = .shut := by
  obtain ⟨-, rfl⟩ | ⟨g, op, stack, -, hg, -, rfl⟩ | ⟨g, ok, m, rest, -, hg, rfl⟩ |
    ⟨g, f, rest, l, v, next, -, hg, hadv, rfl⟩ := step_cases h
  · exact hshut
  · exact hshut
  · exact hshut
  · exact shared_of_shut hadv (needs_top hs hg) hshut

theorem safe_step {s s' : PolicyEngine} {e : Label} (hs : Inv s)
    (h : guarded.step s e = some s') : SafeStep s e s' where
  used f hf huses := by
    rw [PolicyEngine.box, uses_live (inv_step hs h) hf huses]
    rfl
  once hfrees := by
    obtain ⟨g, rest, -, hg⟩ := frees_eq_some hfrees
    have hneeds : s.shared = .live := needs_top hs hg
    rw [PolicyEngine.box, hneeds]
    rfl
  refused g f rest m outcome _ hg hreturns := by
    have hneeds : f.needs s.shared := needs_top hs hg
    cases f with
    | unlocking m' outcome' =>
      obtain ⟨-, rfl⟩ : m' = m ∧ outcome' = outcome := by simpa [Frame.returns] using hreturns
      rw [PolicyEngine.handle, show s.shared = _ from hneeds]
      split_ifs with hrefused
      · exact iff_of_true hrefused rfl
      · exact iff_of_false hrefused Bool.noConfusion
    | _ => cases hreturns
  shut g f rest outcome _ hg hreturns := by
    have hneeds : f.needs s.shared := needs_top hs hg
    cases f with
    | shutUnlocking =>
      rw [PolicyEngine.handle, show s.shared = .shut from hneeds]
      rfl
    | _ => cases hreturns
  stays hhandle := by
    rw [PolicyEngine.handle, PolicyEngine.box, stays_shut hs h (shut_of_handle hs hhandle)]
    exact ⟨rfl, rfl⟩

/-- Only a new engine lives. -/
theorem box_step {s s' : PolicyEngine} {e : Label} (h : guarded.step s e = some s')
    (hbox : s.box ≠ .live ∨ (frees s e).isSome) : s'.box ≠ .live := by
  have hnot : ∀ {g f rest}, e = .advance g → s.goroutines[g]? = some (f :: rest) →
      f ≠ .shutEntering → s.box ≠ .live := by
    rintro g f rest rfl hg hne
    refine hbox.resolve_right fun hfrees => ?_
    obtain ⟨g', rest', hg', hs⟩ := frees_eq_some hfrees
    obtain rfl : g = g' := Label.advance.inj hg'
    rw [hg] at hs
    exact hne (List.cons.inj (Option.some.inj hs)).1
  obtain ⟨rfl, rfl⟩ | ⟨g, op, stack, rfl, hg, -, rfl⟩ | ⟨g, ok, m, rest, rfl, hg, rfl⟩ |
    ⟨g, f, rest, l, v, next, he, hg, hadv, rfl⟩ := step_cases h
  · exact hbox.resolve_right (by simp [frees])
  · exact hbox.resolve_right (by simp [frees])
  · exact hbox.resolve_right (by simp [frees])
  · show v.box ≠ .live
    cases f with
    | shutEntering =>
      obtain ⟨-, rfl, -⟩ : _ ∧ { s.shared with box := .freeing } = v ∧ _ := by
        simpa [advance] using hadv
      nofun
    | shuttingDown =>
      obtain ⟨-, rfl, -⟩ : _ ∧ { s.shared with box := .freed } = v ∧ _ := by
        simpa [advance] using hadv
      nofun
    | clearing =>
      obtain ⟨-, rfl, -⟩ : _ ∧ { s.shared with handle := false } = v ∧ _ := by
        simpa [advance] using hadv
      exact hnot he hg nofun
    | checking | shutChecking | entering | inC =>
      obtain ⟨-, rfl, -⟩ : _ ∧ s.shared = v ∧ _ := by simpa [advance] using hadv
      exact hnot he hg nofun
    | inHost => cases hadv
    | locking | unlocking | announcing | draining | shutUnlocking =>
      obtain ⟨m', -, heq⟩ := Option.map_eq_some_iff.mp hadv
      obtain ⟨-, rfl, -⟩ : _ ∧ s.shared = v ∧ _ := by simpa using heq
      exact hnot he hg nofun

theorem frees_le_one {es : List Label} {s : PolicyEngine} (hs : Inv s) :
    (guarded.seen frees s es).length ≤ if s.box = .live then 1 else 0 := by
  induction es generalizing s with
  | nil => exact Nat.zero_le _
  | cons e es ih =>
    cases hm : guarded.step s e with
    | none =>
      rw [guarded.seen_stopped frees hm]
      exact Nat.zero_le _
    | some m =>
      have hrest := ih (inv_step hs hm)
      rw [guarded.seen_cons frees hm, List.length_append]
      cases hfrees : frees s e with
      | some u =>
        have hisSome : (frees s e).isSome := by rw [hfrees]; rfl
        have hlive : s.box = .live := (safe_step hs hm).once hisSome
        rw [if_neg (box_step hm (.inr hisSome))] at hrest
        rw [if_pos hlive]
        exact Nat.add_le_add_left hrest 1
      | none =>
        rw [Option.toList_none, List.length_nil, Nat.zero_add]
        refine Nat.le_trans hrest ?_
        by_cases hlive : s.box = .live
        · rw [if_pos hlive]
          split_ifs <;> omega
        · exact Nat.le_of_eq (by rw [if_neg hlive, if_neg (box_step hm (.inl hlive))])

/-- **The handle of a Go engine is used safely**, however its methods, `Shutdown` and the finalizer
interleave: it is freed at most once, and nobody uses it during or after that. -/
theorem guarded_sound (es : List Label) :
    guarded.EachStep SafeStep .new es ∧ (guarded.seen frees .new es).length ≤ 1 :=
  ⟨guarded.eachStep_of_invariant (I := Inv)
    (fun _ _ _ hs h => ⟨safe_step hs h, inv_step hs h⟩) inv_new, frees_le_one inv_new⟩

/-! ## Refinement -/

/-- Where the frame stands to the gate. -/
def Frame.stage : Frame → Stage
  | .locking m | .checking m => .pending (.method m)
  | .inHost m | .entering m | .inC m => .inside m
  | .unlocking m outcome => .decided (.method m) outcome
  | .announcing | .draining | .shutChecking | .shutEntering | .shuttingDown | .clearing =>
    .pending .shutdown
  | .shutUnlocking => .decided .shutdown .answered

/-- The gate is open while the handle is set. -/
structure Abstracts (s : PolicyEngine) (t : Gate) : Prop where
  inv : Inv s
  isOpen : t.isOpen = s.handle
  goroutines : t.goroutines = s.goroutines.map (·.map Frame.stage)

theorem Abstracts.stack {s : PolicyEngine} {t : Gate} (h : Abstracts s t) {g : Nat}
    {stack : List Frame} (hg : s.goroutines[g]? = some stack) :
    t.goroutines[g]? = some (stack.map Frame.stage) := by
  rw [h.goroutines, List.getElem?_map, hg]
  rfl

/-- One goroutine goes on, in both. -/
theorem Abstracts.setStack {s s' : PolicyEngine} {t : Gate} (h : Abstracts s t) (hinv : Inv s')
    (hhandle : s'.handle = s.handle) {g : Nat} {stack : List Frame}
    (hs' : s'.goroutines = s.goroutines.set g stack) :
    Abstracts s' (t.setStack g (stack.map Frame.stage)) where
  inv := hinv
  isOpen := h.isOpen.trans hhandle.symm
  goroutines := by
    show t.goroutines.set g _ = _
    rw [hs', h.goroutines, List.map_set]

/-- What the gate does not see of a goroutine. -/
theorem Abstracts.unseen {s s' : PolicyEngine} {t : Gate} (h : Abstracts s t) (hinv : Inv s')
    (hhandle : s'.handle = s.handle) {g : Nat} {stack stack' : List Frame}
    (hg : s.goroutines[g]? = some stack) (hs' : s'.goroutines = s.goroutines.set g stack')
    (hsame : stack'.map Frame.stage = stack.map Frame.stage) : Abstracts s' t := by
  have hset := h.setStack hinv hhandle hs'
  rwa [hsame, Gate.setStack, set_getElem?_self (h.stack hg)] at hset

/-- A writer finds nobody inside. -/
theorem Abstracts.vacant {s : PolicyEngine} {t : Gate} (h : Abstracts s t) {g : Nat} {f : Frame}
    {rest : List Frame} (hg : s.goroutines[g]? = some (f :: rest))
    (hf : f.stance = some .writing) : t.vacant := by
  have hguarded := h.inv.perm (frames_perm hg)
  have hkept := hguarded.kept
  rw [List.map_cons, show reliance.stance f = some .writing from hf] at hkept
  rw [Gate.vacant, h.goroutines, ← List.map_flatten, List.all_map, List.all_eq_true]
  intro k hk
  rcases List.mem_cons.mp ((frames_perm hg).mem_iff.mp hk) with rfl | hk
  · cases k <;> first | rfl | cases hf
  · have hreading : k.stance ≠ some .reading := fun heq =>
      hkept.alone .reading (List.mem_map.mpr ⟨k, hk, heq⟩)
    cases k <;> first | rfl | exact absurd rfl hreading

/-- The handle is written only by a `Shutdown` at its end. -/
theorem handle_of_advance {l l' : RwLock} {v v' : Protected} {f : Frame} {next : Option Frame}
    (h : advance l v f = some (l', v', next)) (hne : f ≠ .clearing) : v'.handle = v.handle := by
  cases f with
  | clearing => exact absurd rfl hne
  | inHost => cases h
  | shutEntering | shuttingDown | checking | shutChecking | entering | inC =>
    obtain ⟨-, rfl, -⟩ : _ ∧ _ = v' ∧ _ := by simpa [advance] using h
    rfl
  | locking | unlocking | announcing | draining | shutUnlocking =>
    obtain ⟨m', -, heq⟩ := Option.map_eq_some_iff.mp h
    obtain ⟨-, rfl, -⟩ : _ ∧ v = v' ∧ _ := by simpa using heq
    rfl

/-- The step of a frame that goes on to one of the same stage. -/
theorem Abstracts.silent {s s' : PolicyEngine} {t : Gate} (h : Abstracts s t) (hinv : Inv s')
    (hhandle : s'.handle = s.handle) {g : Nat} {f f' : Frame} {rest : List Frame}
    (hg : s.goroutines[g]? = some (f :: rest))
    (hs' : s'.goroutines = s.goroutines.set g (f' :: rest)) (hstage : f'.stage = f.stage) {e : Label}
    (hobs : observed s e = none) :
    ∃ ds t', gate.run t ds = some t' ∧ gate.seen gateObserved t ds = (observed s e).toList ∧
      Abstracts s' t' := by
  refine Simulation.silent hobs (h.unseen hinv hhandle hg hs' ?_)
  rw [List.map_cons, List.map_cons, hstage]

/-- The step of a frame that the gate answers by one step. -/
theorem Abstracts.answer {s s' : PolicyEngine} {t : Gate} (h : Abstracts s t) (hinv : Inv s')
    (hhandle : s'.handle = s.handle) {g : Nat} {stack : List Frame}
    (hs' : s'.goroutines = s.goroutines.set g stack) {e : Label} (d : GateLabel)
    (hstep : t.step d = some (t.setStack g (stack.map Frame.stage)))
    (hobs : gateObserved t d = observed s e) :
    ∃ ds t', gate.run t ds = some t' ∧ gate.seen gateObserved t ds = (observed s e).toList ∧
      Abstracts s' t' :=
  Simulation.answer hstep hobs (h.setStack hinv hhandle hs')

/-- A `Shutdown` that is done with the handle closes the gate. -/
theorem Abstracts.close {s s' : PolicyEngine} {t : Gate} (h : Abstracts s t) (hinv : Inv s')
    (hhandle : s'.handle = false) {g : Nat} {f : Frame} {rest : List Frame}
    (hg : s.goroutines[g]? = some (f :: rest)) (hf : f.stance = some .writing)
    (hstage : f.stage = .pending .shutdown)
    (hs' : s'.goroutines = s.goroutines.set g (.shutUnlocking :: rest))
    (hobs : observed s (.advance g) = none) :
    ∃ ds t', gate.run t ds = some t' ∧
      gate.seen gateObserved t ds = (observed s (.advance g)).toList ∧ Abstracts s' t' := by
  have hstack := h.stack hg
  rw [List.map_cons, hstage] at hstack
  have hstep : gate.step t (.decide g) = some { t.setStack g
      (.decided .shutdown .answered :: rest.map Frame.stage) with isOpen := false } := by
    simp only [gate, Gate.step, hstack, h.vacant hg hf, if_true]
  have hgoroutines : { t.setStack g (.decided .shutdown .answered :: rest.map Frame.stage) with
      isOpen := false }.goroutines = s'.goroutines.map (·.map Frame.stage) := by
    rw [hs', List.map_set]
    show t.goroutines.set g _ = _
    rw [h.goroutines]
    rfl
  have habstracts : Abstracts s' { t.setStack g
      (.decided .shutdown .answered :: rest.map Frame.stage) with isOpen := false } :=
    ⟨hinv, hhandle.symm, hgoroutines⟩
  exact Simulation.answer hstep hobs.symm habstracts

/-- The gate's answer to a step of a frame. -/
theorem advance_answer {s s' : PolicyEngine} {t : Gate} (h : Abstracts s t) (hinv : Inv s') {g : Nat}
    {f : Frame} {rest : List Frame} (hg : s.goroutines[g]? = some (f :: rest)) {l : RwLock}
    {v : Protected} {next : Option Frame} (hadv : advance s.lock s.shared f = some (l, v, next))
    (hs' : s' = { s.setStack g (next.toList ++ rest) with lock := l, shared := v }) :
    ∃ ds t', gate.run t ds = some t' ∧
      gate.seen gateObserved t ds = (observed s (.advance g)).toList ∧ Abstracts s' t' := by
  have hhandle : f ≠ .clearing → s'.handle = s.handle := fun hne => by
    rw [hs']
    exact handle_of_advance hadv hne
  have hgoroutines : s'.goroutines = s.goroutines.set g (next.toList ++ rest) := by rw [hs']; rfl
  have hstack := h.stack hg
  have hobserved : observed s (.advance g) =
      f.returns.map fun r => .returned g r.1 r.2 := by
    simp only [observed, hg]
  cases f with
  | locking m =>
    obtain ⟨m', -, heq⟩ := Option.map_eq_some_iff.mp hadv
    obtain ⟨-, -, rfl⟩ : _ ∧ _ ∧ some (Frame.checking m) = next := by simpa using heq
    exact h.silent hinv (hhandle (by simp)) hg hgoroutines rfl hobserved
  | checking m =>
    obtain ⟨-, -, rfl⟩ : _ ∧ _ ∧ _ = next := by simpa [advance] using hadv
    refine h.answer hinv (hhandle (by simp)) hgoroutines (.decide g) ?_ hobserved.symm
    rw [List.map_cons, Frame.stage] at hstack
    simp only [Gate.step, hstack, h.isOpen, PolicyEngine.handle]
    cases s.shared.handle <;> cases m.runsHost <;> rfl
  | inHost m => cases hadv
  | entering m =>
    obtain ⟨-, -, rfl⟩ : _ ∧ _ ∧ some (Frame.inC m) = next := by simpa [advance] using hadv
    exact h.silent hinv (hhandle (by simp)) hg hgoroutines rfl hobserved
  | inC m =>
    obtain ⟨-, -, rfl⟩ : _ ∧ _ ∧ some (Frame.unlocking m .answered) = next := by
      simpa [advance] using hadv
    refine h.answer hinv (hhandle (by simp)) hgoroutines (.finish g .answered) ?_ hobserved.symm
    rw [List.map_cons, Frame.stage] at hstack
    simp only [Gate.step, hstack, true_or, if_true]
    rfl
  | unlocking m outcome =>
    obtain ⟨m', -, heq⟩ := Option.map_eq_some_iff.mp hadv
    obtain ⟨-, -, rfl⟩ : _ ∧ _ ∧ none = next := by simpa using heq
    rw [List.map_cons, Frame.stage] at hstack
    refine h.answer hinv (hhandle (by simp)) hgoroutines (.return_ g) ?_ ?_
    · simp only [Gate.step, hstack]
      rfl
    · simp only [gateObserved, hstack, hobserved, Frame.returns, Option.map_some]
  | announcing =>
    obtain ⟨m', -, heq⟩ := Option.map_eq_some_iff.mp hadv
    obtain ⟨-, -, rfl⟩ : _ ∧ _ ∧ some Frame.draining = next := by simpa using heq
    exact h.silent hinv (hhandle (by simp)) hg hgoroutines rfl hobserved
  | draining =>
    obtain ⟨m', -, heq⟩ := Option.map_eq_some_iff.mp hadv
    obtain ⟨-, -, rfl⟩ : _ ∧ _ ∧ some Frame.shutChecking = next := by simpa using heq
    exact h.silent hinv (hhandle (by simp)) hg hgoroutines rfl hobserved
  | shutChecking =>
    obtain ⟨-, -, rfl⟩ : _ ∧ _ ∧ _ = next := by simpa [advance] using hadv
    cases hset : s.shared.handle with
    | true =>
      rw [hset] at hgoroutines
      exact h.silent hinv (hhandle (by simp)) hg hgoroutines rfl hobserved
    | false =>
      rw [hset] at hgoroutines
      exact h.close hinv ((hhandle (by simp)).trans hset) hg rfl rfl hgoroutines hobserved
  | shutEntering =>
    obtain ⟨-, -, rfl⟩ : _ ∧ _ ∧ some Frame.shuttingDown = next := by simpa [advance] using hadv
    exact h.silent hinv (hhandle (by simp)) hg hgoroutines rfl hobserved
  | shuttingDown =>
    obtain ⟨-, -, rfl⟩ : _ ∧ _ ∧ some Frame.clearing = next := by simpa [advance] using hadv
    exact h.silent hinv (hhandle (by simp)) hg hgoroutines rfl hobserved
  | clearing =>
    obtain ⟨-, hv, rfl⟩ : _ ∧ { s.shared with handle := false } = v ∧
        some Frame.shutUnlocking = next := by simpa [advance] using hadv
    have hnil : s'.handle = false := by
      rw [hs', PolicyEngine.handle, ← hv]
    exact h.close hinv hnil hg rfl rfl hgoroutines hobserved
  | shutUnlocking =>
    obtain ⟨m', -, heq⟩ := Option.map_eq_some_iff.mp hadv
    obtain ⟨-, -, rfl⟩ : _ ∧ _ ∧ none = next := by simpa using heq
    rw [List.map_cons, Frame.stage] at hstack
    refine h.answer hinv (hhandle (by simp)) hgoroutines (.return_ g) ?_ ?_
    · simp only [Gate.step, hstack]
      rfl
    · simp only [gateObserved, hstack, hobserved, Frame.returns, Option.map_some]

/-- The code of the host, as the gate sees it. -/
theorem hosted_answer {s s' : PolicyEngine} {t : Gate} (h : Abstracts s t) (hinv : Inv s') {g : Nat}
    {m : Method} {rest : List Frame} (hg : s.goroutines[g]? = some (.inHost m :: rest)) (ok : Bool)
    (hs' : s' = s.setStack g (hosted m ok :: rest)) :
    ∃ ds t', gate.run t ds = some t' ∧
      gate.seen gateObserved t ds = (observed s (.hostReturns g ok)).toList ∧ Abstracts s' t' := by
  have hruns : m.runsHost := (needs_top h.inv hg).2
  have hhandle : s'.handle = s.handle := by rw [hs']; rfl
  have hgoroutines : s'.goroutines = s.goroutines.set g (hosted m ok :: rest) := by rw [hs']; rfl
  have hstack := h.stack hg
  rw [List.map_cons, Frame.stage] at hstack
  have hfinish : ∀ outcome, outcome = .answered ∨ outcome = .stopped ∧ m.runsHost →
      t.step (.finish g outcome) =
        some (t.setStack g (.decided (.method m) outcome :: rest.map Frame.stage)) := by
    intro outcome hout
    simp only [Gate.step, hstack, if_pos hout]
  cases ok with
  | false =>
    exact h.answer hinv hhandle hgoroutines (.finish g .stopped) (hfinish _ (.inr ⟨rfl, hruns⟩)) rfl
  | true =>
    by_cases hm : m = .registerFactories
    · subst hm
      exact h.answer hinv hhandle hgoroutines (.finish g .answered) (hfinish _ (.inl rfl)) rfl
    · have hentering : hosted m true = .entering m := by cases m <;> first | rfl | exact absurd rfl hm
      rw [hentering] at hgoroutines
      exact h.silent hinv hhandle hg hgoroutines rfl rfl

/-- The lock machine, simulated by the gate. -/
def gateSimulation : Simulation guarded gate observed gateObserved where
  Rel := Abstracts
  step {s e s' t} h hstep := by
    have hinv := inv_step h.inv hstep
    obtain ⟨rfl, rfl⟩ | ⟨g, op, stack, rfl, hg, hmay, rfl⟩ | ⟨g, ok, m, rest, rfl, hg, rfl⟩ |
      ⟨g, f, rest, l, v, next, rfl, hg, hadv, rfl⟩ := step_cases hstep
    · refine Simulation.answer (d := .spawn) rfl rfl ⟨hinv, h.isOpen, ?_⟩
      show t.goroutines ++ [[]] = _
      rw [h.goroutines, List.map_append]
      rfl
    · refine h.answer hinv rfl rfl (.call g op) ?_ rfl
      have hgate : Gate.mayCall (stack.map Frame.stage) := by
        cases stack with
        | nil => rfl
        | cons f rest =>
          cases f with
          | inHost m => exact (needs_top h.inv hg).2
          | _ => cases hmay
      simp only [Gate.step, h.stack hg, if_pos hgate]
      cases op <;> rfl
    · exact hosted_answer h hinv hg ok rfl
    · exact advance_answer h hinv hg hadv rfl

theorem abstracts_new : Abstracts .new .new := ⟨inv_new, rfl, rfl⟩

/-- **The lock makes each call take effect at one moment.** Whatever the goroutines see of a run,
they could have seen of the gate, where a method is let in or refused at once and a `Shutdown`
closes an engine that nobody is in. -/
theorem guarded_refines_gate {es : List Label} {s : PolicyEngine}
    (h : guarded.run .new es = some s) : ∃ ds t, gate.run .new ds = some t ∧
      gate.seen gateObserved .new ds = guarded.seen observed .new es := by
  obtain ⟨ds, t, hrun, hseen, -⟩ := gateSimulation.run abstracts_new h
  exact ⟨ds, t, hrun, hseen⟩

/-- A hook that is asked for on an engine that is shut down. -/
theorem guarded_refines_gate_query :
    ∃ ds t, gate.run .new ds = some t ∧ gate.seen gateObserved .new ds =
      [.called 0 .shutdown, .returned 0 .shutdown .answered, .called 0 (.method .hasHooksFor),
        .returned 0 (.method .hasHooksFor) .refused] := by
  have hrun : guarded.run .new (.spawn :: .call 0 .shutdown :: List.replicate 7 (.advance 0) ++
      .call 0 (.method .hasHooksFor) :: List.replicate 3 (.advance 0)) =
        some ⟨.new, .shut, [[]]⟩ := rfl
  exact guarded_refines_gate hrun

/-! ## Progress -/

/-- The goroutine waits for the lock. -/
def Frame.waits : Frame → Bool
  | .locking _ | .announcing | .draining => true
  | _ => false

/-- A step of a call in progress. -/
def Label.continues : Label → Bool
  | .hostReturns _ _ | .advance _ => true
  | .spawn | .call _ _ => false

/-- Some call is in progress, and none can go on. -/
structure Stuck (s : PolicyEngine) : Prop where
  busy : s.frames ≠ []
  blocked : ∀ e s', e.continues → guarded.step s e ≠ some s'

theorem advance_isSome {s : PolicyEngine} (hs : Inv s) {g : Nat} {f : Frame} {rest : List Frame}
    (hg : s.goroutines[g]? = some (f :: rest)) (hf : ∀ m, f ≠ .inHost m) (hwaits : f.waits = false) :
    (advance s.lock s.shared f).isSome := by
  have hkept := (hs.perm (frames_perm hg)).kept
  rw [List.map_cons] at hkept
  cases f with
  | inHost m => exact absurd rfl (hf m)
  | locking | announcing | draining => cases hwaits
  | unlocking m outcome =>
    rw [advance, Option.isSome_map]
    exact RwLock.Kept.unlock (t := .readUnlock) hkept (.inl rfl)
  | shutUnlocking =>
    rw [advance, Option.isSome_map]
    exact RwLock.Kept.unlock (t := .writeUnlock) hkept (.inr rfl)
  | _ => rfl

/-- In a stuck engine every goroutine waits for the lock. -/
theorem Stuck.waits {s : PolicyEngine} (hs : Inv s) (h : Stuck s) {g : Nat} {f : Frame}
    {rest : List Frame} (hg : s.goroutines[g]? = some (f :: rest)) :
    f.waits ∧ advance s.lock s.shared f = none := by
  have hhost : ∀ m, f ≠ .inHost m := by
    rintro m rfl
    refine h.blocked (.hostReturns g true) (s.setStack g (hosted m true :: rest)) rfl ?_
    simp only [guarded, PolicyEngine.step, hg]
  have hnone : advance s.lock s.shared f = none := by
    cases hadv : advance s.lock s.shared f with
    | none => rfl
    | some next =>
      refine absurd ?_ (h.blocked (.advance g)
        { s.setStack g (next.2.2.toList ++ rest) with lock := next.1, shared := next.2.1 } rfl)
      simp only [guarded, PolicyEngine.step, hg, hadv, Option.map_some]
  refine ⟨?_, hnone⟩
  cases hwaits : f.waits with
  | true => rfl
  | false =>
    have hsome := advance_isSome hs hg hhost hwaits
    rw [hnone] at hsome
    cases hsome

/-- Below the innermost call of a goroutine there is only code of the host. -/
def Nested (s : PolicyEngine) : Prop :=
  ∀ stack ∈ s.goroutines, ∀ k ∈ stack.tail, ∃ m, k = .inHost m

theorem nested_step {s s' : PolicyEngine} {e : Label} (hs : Nested s)
    (h : guarded.step s e = some s') : Nested s' := by
  have htail : ∀ {g : Nat} {f : Frame} {rest : List Frame}, s.goroutines[g]? = some (f :: rest) →
      ∀ k ∈ rest, ∃ m, k = .inHost m :=
    fun hg k hk => hs _ (List.mem_of_getElem? hg) k hk
  have hset : ∀ {g : Nat} {stack : List Frame}, (∀ k ∈ stack.tail, ∃ m, k = .inHost m) →
      ∀ stack' ∈ s.goroutines.set g stack, ∀ k ∈ stack'.tail, ∃ m, k = .inHost m := by
    intro g stack hstack stack' hmem k hk
    rcases List.mem_or_eq_of_mem_set hmem with hold | rfl
    · exact hs stack' hold k hk
    · exact hstack k hk
  obtain ⟨-, rfl⟩ | ⟨g, op, stack, -, hg, hmay, rfl⟩ | ⟨g, ok, m, rest, -, hg, rfl⟩ |
    ⟨g, f, rest, l, v, next, -, hg, hadv, rfl⟩ := step_cases h
  · intro stack hstack k hk
    rcases List.mem_append.mp hstack with hold | hnew
    · exact hs stack hold k hk
    · rw [List.mem_singleton.mp hnew] at hk
      cases hk
  · refine hset fun k hk => ?_
    cases stack with
    | nil => cases hk
    | cons f rest =>
      cases f with
      | inHost m =>
        rcases List.mem_cons.mp hk with rfl | hk
        · exact ⟨m, rfl⟩
        · exact htail hg k hk
      | _ => cases hmay
  · exact hset (htail hg)
  · refine hset fun k hk => ?_
    cases next with
    | none => exact htail hg k (List.mem_of_mem_tail hk)
    | some f' => exact htail hg k hk

/-- Where the lock stands when every goroutine waits for it. -/
theorem waiting_stance {f : Frame} (h : f.waits) :
    f.stance = none ∨ f.stance = some .waiting ∧ f = .draining := by
  cases f <;> first | exact .inl rfl | exact .inr ⟨rfl, rfl⟩ | cases h

theorem mem_frames {s : PolicyEngine} {g : Nat} {stack : List Frame} {f : Frame}
    (hg : s.goroutines[g]? = some stack) (hf : f ∈ stack) : f ∈ s.frames :=
  List.mem_flatten.mpr ⟨stack, List.mem_of_getElem? hg, hf⟩

theorem exists_of_mem_frames {s : PolicyEngine} {f : Frame} (hf : f ∈ s.frames) :
    ∃ (g : Nat) (k : Frame) (rest : List Frame), s.goroutines[g]? = some (k :: rest) ∧
      f ∈ k :: rest := by
  obtain ⟨stack, hstack, hmem⟩ := List.mem_flatten.mp hf
  obtain ⟨g, hg⟩ := List.mem_iff_getElem?.mp hstack
  cases stack with
  | nil => cases hmem
  | cons k rest => exact ⟨g, k, rest, hg, hmem⟩

theorem mem_stances {s : PolicyEngine} {f : Frame} {x : Stance} (hf : f ∈ s.frames)
    (hx : f.stance = some x) : some x ∈ s.frames.map reliance.stance :=
  List.mem_map.mpr ⟨f, hf, hx⟩

/-- Where everybody waits, nobody writes. -/
theorem not_writing_of_waits {s : PolicyEngine} (hn : Nested s)
    (hwaits : ∀ (g : Nat) (f : Frame) (rest : List Frame),
      s.goroutines[g]? = some (f :: rest) → f.waits) :
    some .writing ∉ s.frames.map reliance.stance := by
  intro hmem
  obtain ⟨k, hk, hwriting⟩ := List.mem_map.mp hmem
  obtain ⟨g, f, rest, hg, hkmem⟩ := exists_of_mem_frames hk
  rcases List.mem_cons.mp hkmem with rfl | hrest
  · rcases waiting_stance (hwaits g k rest hg) with hnone | ⟨hwaiting, -⟩
    · cases hnone.symm.trans hwriting
    · cases hwaiting.symm.trans hwriting
  · obtain ⟨m, rfl⟩ := hn _ (List.mem_of_getElem? hg) k hrest
    cases hwriting

/-- Only a `Shutdown` makes readers wait. -/
theorem draining_of_mem {s : PolicyEngine} (h : some .waiting ∈ s.frames.map reliance.stance) :
    .draining ∈ s.frames := by
  obtain ⟨k, hk, hstance⟩ := List.mem_map.mp h
  cases k with
  | draining => exact hk
  | _ => cases hstance

/-- A frame that waits is blocked only by a writer that waits before it, or by readers. -/
theorem blocked_of_waits {s : PolicyEngine} {f : Frame} (hs : Inv s) (hf : f.waits)
    (hdraining : .draining ∈ s.frames) (hreading : some .reading ∈ s.frames.map reliance.stance) :
    advance s.lock s.shared f = none := by
  obtain ⟨hread, hannounce, -, hwrite⟩ := hs.kept.waits (mem_stances hdraining rfl)
  cases f with
  | locking m => rw [advance, hread, Option.map_none]
  | announcing => rw [advance, hannounce, Option.map_none]
  | draining => rw [advance, hwrite hreading, Option.map_none]
  | _ => cases hf

/-- A `Shutdown` waits for the readers, every goroutine waits for the lock, and one of them waits in
the code of the host that a method runs under the lock. -/
def Deadlocked (s : PolicyEngine) : Prop :=
  .draining ∈ s.frames ∧ (∀ stack ∈ s.goroutines, stack.head?.all Frame.waits) ∧
    ∃ (g : Nat) (f : Frame) (m : Method) (rest : List Frame),
      s.goroutines[g]? = some (f :: .inHost m :: rest)

theorem waits_top {s : PolicyEngine} (h : ∀ stack ∈ s.goroutines, stack.head?.all Frame.waits)
    (g : Nat) (f : Frame) (rest : List Frame) (hg : s.goroutines[g]? = some (f :: rest)) :
    f.waits :=
  h _ (List.mem_of_getElem? hg)

theorem waits_all {s : PolicyEngine} (h : ∀ (g : Nat) (f : Frame) (rest : List Frame),
    s.goroutines[g]? = some (f :: rest) → f.waits) :
    ∀ stack ∈ s.goroutines, stack.head?.all Frame.waits := by
  intro stack hstack
  obtain ⟨g, hg⟩ := List.mem_iff_getElem?.mp hstack
  cases stack with
  | nil => rfl
  | cons f rest => exact h g f rest hg

theorem stuck_iff {s : PolicyEngine} (hs : Inv s) (hn : Nested s) : Stuck s ↔ Deadlocked s := by
  constructor
  · intro h
    have hwaits : ∀ (g : Nat) (f : Frame) (rest : List Frame),
        s.goroutines[g]? = some (f :: rest) → f.waits := fun g f rest hg => (h.waits hs hg).1
    have hwriting := not_writing_of_waits hn hwaits
    -- a goroutine at its top waits for a `Shutdown`, and that one for a reader
    have hdraining : .draining ∈ s.frames := by
      by_contra hno
      obtain ⟨k, hk⟩ := List.exists_mem_of_ne_nil _ h.busy
      obtain ⟨g, f, rest, hg, -⟩ := exists_of_mem_frames hk
      obtain ⟨hf, hnone⟩ := h.waits hs hg
      have hwaiting : some .waiting ∉ s.frames.map reliance.stance := fun hmem =>
        hno (draining_of_mem hmem)
      obtain ⟨hread, hannounce⟩ := hs.kept.open_ hwaiting hwriting
      cases f with
      | locking m =>
        rw [advance, Option.map_eq_none_iff] at hnone
        rw [hnone] at hread
        cases hread
      | announcing =>
        rw [advance, Option.map_eq_none_iff] at hnone
        rw [hnone] at hannounce
        cases hannounce
      | draining => exact hno (mem_frames hg List.mem_cons_self)
      | _ => cases hf
    refine ⟨hdraining, waits_all hwaits, ?_⟩
    -- the code of the host under which a goroutine waits is that of a reader
    have hreading : some .reading ∈ s.frames.map reliance.stance := by
      by_contra hno
      obtain ⟨g, f, rest, hg, hmem⟩ := exists_of_mem_frames hdraining
      rcases List.mem_cons.mp hmem with rfl | hrest
      · obtain ⟨-, hnone⟩ := h.waits hs hg
        obtain ⟨-, -, hwrite, -⟩ := hs.kept.waits (mem_stances hdraining rfl)
        have hsome := hwrite hno
        rw [Option.map_eq_none_iff.mp hnone] at hsome
        cases hsome
      · obtain ⟨m, hm⟩ := hn _ (List.mem_of_getElem? hg) _ hrest
        cases hm
    obtain ⟨k, hk, hstance⟩ := List.mem_map.mp hreading
    obtain ⟨g, f, rest, hg, hmem⟩ := exists_of_mem_frames hk
    cases rest with
    | nil =>
      obtain rfl := List.mem_singleton.mp hmem
      rcases waiting_stance (hwaits g k [] hg) with hnone | ⟨hwaiting, -⟩
      · cases hnone.symm.trans hstance
      · cases hwaiting.symm.trans hstance
    | cons k' rest =>
      obtain ⟨m, rfl⟩ := hn _ (List.mem_of_getElem? hg) k' List.mem_cons_self
      exact ⟨g, f, m, rest, hg⟩
  · rintro ⟨hdraining, hall, g, f, m, rest, hg⟩
    have hwaits := waits_top hall
    have hreading : some .reading ∈ s.frames.map reliance.stance :=
      mem_stances (mem_frames hg (List.mem_cons_of_mem f List.mem_cons_self)) rfl
    refine ⟨List.ne_nil_of_mem hdraining, fun e s' he hstep => ?_⟩
    obtain ⟨rfl, -⟩ | ⟨g', op, stack, rfl, -⟩ | ⟨g', ok, m', rest', -, hg', -⟩ |
      ⟨g', f', rest', l, v, next, -, hg', hadv, -⟩ := step_cases hstep
    · cases he
    · cases he
    · cases hwaits g' _ rest' hg'
    · rw [blocked_of_waits hs (hwaits g' f' rest' hg') hdraining hreading] at hadv
      cases hadv

theorem reachable {es : List Label} {s : PolicyEngine} (h : guarded.run .new es = some s) :
    Inv s ∧ Nested s := by
  refine guarded.run_preserves (I := fun s => Inv s ∧ Nested s) ?_ ⟨inv_new, ?_⟩ h
  · rintro s e s' ⟨hs, hn⟩ hstep
    exact ⟨inv_step hs hstep, nested_step hn hstep⟩
  · intro stack hstack
    cases hstack

/-- **What a deadlock is.** The calls of an engine get stuck in one way only: the code of the host
that `RegisterFactories` or an invoke runs under the read lock calls the engine again while a
`Shutdown` waits, or calls `Shutdown` itself. -/
theorem guarded_stuck_iff {es : List Label} {s : PolicyEngine} (h : guarded.run .new es = some s) :
    Stuck s ↔ Deadlocked s :=
  stuck_iff (reachable h).1 (reachable h).2

/-- A factory registration asks the engine for its hooks while another goroutine shuts it down. -/
def reentrantSchedule : List Label :=
  [.spawn, .spawn, .call 0 (.method .registerFactories), .advance 0, .advance 0,
    .call 1 .shutdown, .advance 1, .call 0 (.method .hasHooksFor)]

theorem guarded_stuck_iff_reentrant : ∃ s, guarded.run .new reentrantSchedule = some s ∧ Stuck s := by
  have hrun : guarded.run .new reentrantSchedule = some ⟨⟨1, some .waiting⟩, .live,
      [[.locking .hasHooksFor, .inHost .registerFactories], [.draining]]⟩ := rfl
  have hdeadlocked : Deadlocked ⟨⟨1, some .waiting⟩, .live,
      [[.locking .hasHooksFor, .inHost .registerFactories], [.draining]]⟩ :=
    ⟨by decide, by decide, 0, _, _, _, rfl⟩
  exact ⟨_, hrun, (guarded_stuck_iff hrun).mpr hdeadlocked⟩

/-- The steps a frame has left, at most. -/
def Frame.left : Frame → Nat
  | .unlocking _ _ | .shutUnlocking => 1
  | .inC _ | .clearing => 2
  | .entering _ | .shuttingDown => 3
  | .inHost _ | .shutEntering => 4
  | .checking _ | .shutChecking => 5
  | .locking _ | .draining => 6
  | .announcing => 7

/-- The steps that the calls in progress have left, at most. -/
def PolicyEngine.work (s : PolicyEngine) : Nat := total Frame.left s.frames

theorem total_perm {α : Type*} {f : α → Nat} {l l' : List α} (h : l.Perm l') :
    total f l = total f l' := (h.map f).sum_nat

theorem advance_left {l l' : RwLock} {v v' : Protected} {f : Frame} {next : Option Frame}
    (h : advance l v f = some (l', v', next)) : total Frame.left next.toList < f.left := by
  cases f with
  | inHost m => cases h
  | checking m =>
    obtain ⟨-, -, rfl⟩ : _ ∧ _ ∧ _ = next := by simpa [advance] using h
    show total Frame.left [if _ then _ else _] < 5
    split_ifs <;> simp [Frame.left]
  | shutChecking =>
    obtain ⟨-, -, rfl⟩ : _ ∧ _ ∧ _ = next := by simpa [advance] using h
    show total Frame.left [if _ then _ else _] < 5
    split_ifs <;> simp [Frame.left]
  | entering | inC | shutEntering | shuttingDown | clearing =>
    obtain ⟨-, -, rfl⟩ : _ ∧ _ ∧ _ = next := by simpa [advance] using h
    simp [Frame.left]
  | locking | unlocking | announcing | draining | shutUnlocking =>
    obtain ⟨m', -, heq⟩ := Option.map_eq_some_iff.mp h
    obtain ⟨-, -, rfl⟩ : _ ∧ _ ∧ _ = next := by simpa using heq
    simp [Frame.left]

/-- Every step of the calls in progress brings them nearer to their return. -/
theorem work_step {s s' : PolicyEngine} {e : Label} (he : e.continues)
    (h : guarded.step s e = some s') : s'.work < s.work := by
  have hset : ∀ {g : Nat} {f : Frame} {rest xs : List Frame},
      s.goroutines[g]? = some (f :: rest) → total Frame.left xs < f.left →
      (s.setStack g (xs ++ rest)).work < s.work := by
    intro g f rest xs hg hlt
    rw [PolicyEngine.work, PolicyEngine.work, total_perm (frames_perm hg),
      total_perm (setStack_perm hg xs rest), total_append, total_cons]
    exact Nat.add_lt_add_right hlt _
  obtain ⟨rfl, -⟩ | ⟨g, op, stack, rfl, -⟩ | ⟨g, ok, m, rest, -, hg, rfl⟩ |
    ⟨g, f, rest, l, v, next, -, hg, hadv, rfl⟩ := step_cases h
  · cases he
  · cases he
  · show (s.setStack g ([hosted m ok] ++ rest)).work < s.work
    refine hset hg ?_
    cases ok <;> cases m <;> simp [hosted, Frame.left]
  · exact hset hg (advance_left hadv)

/-- A call is made at the top of a goroutine. -/
def Flat (s : PolicyEngine) : Label → Prop
  | .call g _ => s.goroutines[g]? = some []
  | .spawn | .hostReturns _ _ | .advance _ => True

instance (s : PolicyEngine) : ∀ e, Decidable (Flat s e)
  | .call g _ => inferInstanceAs (Decidable (s.goroutines[g]? = some []))
  | .spawn | .hostReturns _ _ | .advance _ => .isTrue trivial

theorem flat_step {s s' : PolicyEngine} {e : Label} (hs : ∀ stack ∈ s.goroutines, stack.tail = [])
    (he : Flat s e) (h : guarded.step s e = some s') : ∀ stack ∈ s'.goroutines, stack.tail = [] := by
  have hset : ∀ {g : Nat} {stack : List Frame}, stack.tail = [] →
      ∀ stack' ∈ s.goroutines.set g stack, stack'.tail = [] := by
    intro g stack hstack stack' hmem
    rcases List.mem_or_eq_of_mem_set hmem with hold | rfl
    · exact hs stack' hold
    · exact hstack
  obtain ⟨-, rfl⟩ | ⟨g, op, stack, rfl, hg, hmay, rfl⟩ | ⟨g, ok, m, rest, -, hg, rfl⟩ |
    ⟨g, f, rest, l, v, next, -, hg, hadv, rfl⟩ := step_cases h
  · intro stack hstack
    rcases List.mem_append.mp hstack with hold | hnew
    · exact hs stack hold
    · rw [List.mem_singleton.mp hnew, List.tail_nil]
  · obtain rfl : stack = [] := Option.some.inj (hg.symm.trans he)
    exact hset rfl
  · have hrest : rest = [] := hs _ (List.mem_of_getElem? hg)
    refine hset ?_
    exact hrest
  · have hrest : rest = [] := hs _ (List.mem_of_getElem? hg)
    refine hset ?_
    rw [hrest, List.append_nil]
    cases next <;> rfl

/-- A run of steps of the calls in progress is no longer than the work they have left. -/
theorem length_le_work {es : List Label} {s s' : PolicyEngine} (hes : ∀ e ∈ es, e.continues)
    (h : guarded.run s es = some s') : es.length + s'.work ≤ s.work := by
  induction es generalizing s with
  | nil =>
    rw [Machine.run_nil, Option.some.injEq] at h
    exact Nat.le_of_eq (by rw [h, List.length_nil, Nat.zero_add])
  | cons e es ih =>
    obtain ⟨m, hm, hrest⟩ := guarded.run_cons_eq_some.mp h
    have hwork := work_step (hes e List.mem_cons_self) hm
    have hle := ih (fun e he => hes e (List.mem_cons_of_mem _ he)) hrest
    rw [List.length_cons]
    omega

/-- **Every call returns**, when no code of the host under the lock calls the engine: however the
calls in progress go on, they come to their end after a bounded number of steps, and before that
one of them can take a step. -/
theorem guarded_returns {es es' : List Label} {s s' : PolicyEngine}
    (h : guarded.run .new es = some s) (hflat : guarded.Meets Flat .new es)
    (hes : ∀ e ∈ es', e.continues) (h' : guarded.run s es' = some s') :
    es'.length ≤ s.work ∧
      ((∀ e, e.continues → guarded.step s' e = none) → s'.frames = []) := by
  have hle := length_le_work hes h'
  refine ⟨by omega, fun hstop => ?_⟩
  by_contra hbusy
  obtain ⟨hs', hn'⟩ := reachable (guarded.run_append h h')
  have hs : ∀ stack ∈ s.goroutines, stack.tail = [] := by
    refine guarded.run_invariant (fun _ _ _ hs he hstep => flat_step hs he hstep) ?_ hflat h
    intro stack hstack
    cases hstack
  have hmeets : guarded.Meets (fun _ e => e.continues) s es' := guarded.meets_of_mem hes
  have htail : ∀ stack ∈ s'.goroutines, stack.tail = [] := by
    refine guarded.run_invariant (fun _ e _ hs he hstep => flat_step hs ?_ hstep) hs hmeets h'
    cases e with
    | call g op => cases he
    | _ => trivial
  have hstuck : Stuck s' := ⟨hbusy, fun e m he hm => by rw [hstop e he] at hm; cases hm⟩
  obtain ⟨-, -, g, f, m, rest, hg⟩ := (stuck_iff hs' hn').mp hstuck
  have hnil := htail _ (List.mem_of_getElem? hg)
  cases hnil

/-- A `LoadConfig` beside a `Shutdown` that waits for it. -/
def loadSchedule : List Label :=
  [.spawn, .spawn, .call 0 (.method .loadConfig), .advance 0, .call 1 .shutdown, .advance 1]

theorem guarded_returns_load :
    ∃ s, guarded.run .new loadSchedule = some s ∧ [Label.advance 0].length ≤ s.work := by
  have hflat : guarded.Meets Flat .new loadSchedule := by decide
  have hes : ∀ e ∈ [Label.advance 0], e.continues := by decide
  have hrun : guarded.run .new loadSchedule =
      some ⟨⟨1, some .waiting⟩, .live, [[.checking .loadConfig], [.draining]]⟩ := rfl
  exact ⟨_, hrun, (guarded_returns hrun hflat hes rfl).1⟩

end Cpex.Go
