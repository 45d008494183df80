import Cpex.Infra.Machine
import Cpex.Infra.Mealy

/-!
# Simulation of one machine by another

An observer sees some steps of a machine. A machine is simulated by another when each of its steps
can be answered by steps that the observer cannot tell from it.

* `Machine.seen` — what is observed of a run
* `Machine.length_seen_le` — an amortised count: what a run spends against what it earns
* `Machine.seen_outputs` — a part of the state that moves as a machine of its own
* `Simulation.run` — every run of the one is answered by a run of the other that looks the same
-/

namespace Cpex.Infra

variable {σ τ ε δ ω : Type*}

namespace Machine

variable (M : Machine σ ε) (obs : σ → ε → Option ω)

/-- The observations of the steps of a run, in order. -/
def seen : σ → List ε → List ω
  | _, [] => []
  | s, e :: es => ((M.step s e).map fun s' => (obs s e).toList ++ seen s' es).getD []

@[simp] theorem seen_nil (s : σ) : M.seen obs s [] = [] := rfl

theorem seen_cons {s m : σ} {e : ε} (h : M.step s e = some m) (es : List ε) :
    M.seen obs s (e :: es) = (obs s e).toList ++ M.seen obs m es := by
  rw [seen, h]
  rfl

theorem seen_stopped {s : σ} {e : ε} (h : M.step s e = none) (es : List ε) :
    M.seen obs s (e :: es) = [] := by
  rw [seen, h]
  rfl

theorem seen_singleton {s m : σ} {e : ε} (h : M.step s e = some m) :
    M.seen obs s [e] = (obs s e).toList := by
  rw [M.seen_cons obs h, seen_nil, List.append_nil]

theorem seen_append {es' : List ε} : ∀ {es : List ε} {s m : σ}, M.run s es = some m →
    M.seen obs s (es ++ es') = M.seen obs s es ++ M.seen obs m es'
  | [], s, m, h => by
    rw [run_nil, Option.some.injEq] at h
    exact h ▸ rfl
  | e :: es, s, m, h => by
    obtain ⟨k, hk, hrest⟩ := M.run_cons_eq_some.mp h
    rw [List.cons_append, M.seen_cons obs hk, M.seen_cons obs hk, seen_append hrest,
      List.append_assoc]

/-- What is seen is seen of a step of the run. -/
theorem exists_of_mem_seen {x : ω} : ∀ {es : List ε} {s : σ}, x ∈ M.seen obs s es →
    ∃ e ∈ es, ∃ m, obs m e = some x
  | e :: es, s, h => by
    cases hm : M.step s e with
    | none =>
      rw [M.seen_stopped obs hm] at h
      cases h
    | some m =>
      rw [M.seen_cons obs hm] at h
      rcases List.mem_append.mp h with hx | hx
      · exact ⟨e, List.mem_cons_self, s, Option.mem_toList.mp hx⟩
      · obtain ⟨e', he', m', hobs⟩ := exists_of_mem_seen hx
        exact ⟨e', List.mem_cons_of_mem e he', m', hobs⟩

theorem seen_filter (p : ω → Bool) : ∀ (es : List ε) (s : σ),
    M.seen (fun s e => (obs s e).filter p) s es = (M.seen obs s es).filter p
  | [], _ => rfl
  | e :: es, s => by
    cases h : M.step s e with
    | none => rw [seen_stopped _ _ h, seen_stopped _ _ h, List.filter_nil]
    | some m =>
      rw [M.seen_cons _ h, M.seen_cons _ h, List.filter_append, seen_filter p es m]
      cases obs s e <;> simp [Option.filter, List.filter_cons, apply_ite Option.toList]

/--
**What is spent was earned.** When no step spends more than it earns and than the potential falls
by, no run does.
-/
theorem length_seen_le {α β : Type*} {I : σ → Prop} {potential : σ → Int}
    {spend : σ → ε → Option α} {earn : σ → ε → Option β}
    (hstep : ∀ s e s', I s → M.step s e = some s' → I s' ∧
      (spend s e).toList.length + potential s' ≤ potential s + (earn s e).toList.length) :
    ∀ {es : List ε} {s s' : σ}, I s → M.run s es = some s' →
      (M.seen spend s es).length + potential s' ≤ potential s + (M.seen earn s es).length
  | [], s, s', _, hrun => by
    rw [run_nil, Option.some.injEq] at hrun
    subst hrun
    exact Int.le_of_eq (Int.add_comm _ _)
  | e :: es, s, s', hI, hrun => by
    obtain ⟨m, hm, hrest⟩ := M.run_cons_eq_some.mp hrun
    obtain ⟨hI', hpaid⟩ := hstep s e m hI hm
    have ih := length_seen_le hstep hI' hrest
    rw [M.seen_cons _ hm, M.seen_cons _ hm, List.length_append, List.length_append]
    omega

/--
**A part that answers events.** When what is read off the state moves as a machine that answers
every event does, on the events that the steps are to it, it is that machine after those events, and
what is seen of its answers is its history.
-/
theorem seen_outputs {τ δ ω : Type*} {I : σ → Prop} (B : Mealy τ δ ω) {part : σ → τ}
    {event : σ → ε → Option δ}
    (hstep : ∀ s e s', I s → M.step s e = some s' → I s' ∧
      part s' = ((event s e).map fun d => (B.step (part s) d).1).getD (part s)) :
    ∀ {es : List ε} {s s' : σ}, I s → M.run s es = some s' →
      part s' = B.after (part s) (M.seen event s es) ∧
      M.seen (fun s e => (event s e).map fun d => (B.step (part s) d).2) s es =
        B.outputs (part s) (M.seen event s es)
  | [], s, s', _, hrun => by
    rw [run_nil, Option.some.injEq] at hrun
    exact ⟨hrun ▸ rfl, rfl⟩
  | e :: es, s, s', hI, hrun => by
    obtain ⟨m, hm, hrest⟩ := M.run_cons_eq_some.mp hrun
    obtain ⟨hI', hpart⟩ := hstep s e m hI hm
    obtain ⟨hafter, hseen⟩ := seen_outputs B hstep hI' hrest
    rw [M.seen_cons _ hm, M.seen_cons _ hm, hafter, hseen, B.after_append, B.outputs_append, hpart]
    cases event s e with
    | none => exact ⟨rfl, rfl⟩
    | some d => exact ⟨rfl, rfl⟩

end Machine

/-- A relation under which `A` answers every step of `C` by steps that look the same. -/
structure Simulation (C : Machine σ ε) (A : Machine τ δ) (obsC : σ → ε → Option ω)
    (obsA : τ → δ → Option ω) where
  Rel : σ → τ → Prop
  step : ∀ {s e s' t}, Rel s t → C.step s e = some s' →
    ∃ ds t', A.run t ds = some t' ∧ A.seen obsA t ds = (obsC s e).toList ∧ Rel s' t'

namespace Simulation

variable {C : Machine σ ε} {A : Machine τ δ} {obsC : σ → ε → Option ω} {obsA : τ → δ → Option ω}

/-- **Every run is answered by one that looks the same.** -/
theorem run (S : Simulation C A obsC obsA) : ∀ {es : List ε} {s s' : σ} {t : τ}, S.Rel s t →
    C.run s es = some s' →
    ∃ ds t', A.run t ds = some t' ∧ A.seen obsA t ds = C.seen obsC s es ∧ S.Rel s' t'
  | [], s, s', t, hrel, hrun => by
    rw [Machine.run_nil, Option.some.injEq] at hrun
    exact ⟨[], t, rfl, rfl, hrun ▸ hrel⟩
  | e :: es, s, s', t, hrel, hrun => by
    obtain ⟨m, hm, hrest⟩ := C.run_cons_eq_some.mp hrun
    obtain ⟨ds, k, hk, hseen, hrel'⟩ := S.step hrel hm
    obtain ⟨ds', t', ht', hseen', hrel''⟩ := S.run hrel' hrest
    refine ⟨ds ++ ds', t', A.run_append hk ht', ?_, hrel''⟩
    rw [A.seen_append obsA hk, hseen, hseen', C.seen_cons obsC hm]

/-- The step is answered by no step: the observer sees nothing. -/
theorem silent {Rel : σ → τ → Prop} {s s' : σ} {e : ε} {t : τ} (hobs : obsC s e = none)
    (hrel : Rel s' t) :
    ∃ ds t', A.run t ds = some t' ∧ A.seen obsA t ds = (obsC s e).toList ∧ Rel s' t' :=
  ⟨[], t, rfl, by rw [hobs]; rfl, hrel⟩

/-- The step is answered by one step. -/
theorem answer {Rel : σ → τ → Prop} {s s' : σ} {e : ε} {t t' : τ} {d : δ}
    (hstep : A.step t d = some t') (hobs : obsA t d = obsC s e) (hrel : Rel s' t') :
    ∃ ds t', A.run t ds = some t' ∧ A.seen obsA t ds = (obsC s e).toList ∧ Rel s' t' := by
  refine ⟨[d], t', A.run_cons_eq_some.mpr ⟨t', hstep, rfl⟩, ?_, hrel⟩
  rw [A.seen_singleton obsA hstep, hobs]

end Simulation

end Cpex.Infra
