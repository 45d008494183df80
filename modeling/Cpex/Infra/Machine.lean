import Mathlib.Logic.Basic

/-!
# Machines with partial labelled steps

A machine takes one labelled step at a time; a label that is not enabled in a state has no
successor. A run is a list of labels, so a schedule, an adversary's choices and the answers of
the environment are all data of the run.

* `Meets` — every step of a run satisfies a condition on the state it starts from
* `run_invariant` — what each such step preserves, the whole run preserves
* `run_preserves` — the same for a property that every step preserves
* `run_history` — and for one of the state and the labels so far
* `eachStep_iff_meets`, `always_iff_meets` — a property of every step, or of every state on the way,
  against a condition on the steps
-/

namespace Cpex.Infra

/-- A machine with states `σ` and labels `ε`. -/
structure Machine (σ ε : Type*) where
  step : σ → ε → Option σ

namespace Machine

variable {σ ε : Type*} (M : Machine σ ε)

/-- Takes the steps of `es` in order. A label that is not enabled ends the run with `none`. -/
def run : σ → List ε → Option σ
  | s, [] => some s
  | s, e :: es => (M.step s e).bind fun s' => run s' es

@[simp] theorem run_nil (s : σ) : M.run s [] = some s := rfl

theorem run_cons_eq_some {s s' : σ} {e : ε} {es : List ε} :
    M.run s (e :: es) = some s' ↔ ∃ m, M.step s e = some m ∧ M.run m es = some s' := by
  rw [run, Option.bind_eq_some_iff]

theorem run_append {es' : List ε} : ∀ {es : List ε} {s m s' : σ}, M.run s es = some m →
    M.run m es' = some s' → M.run s (es ++ es') = some s'
  | [], s, m, s', h, h' => by
    rw [run_nil, Option.some.injEq] at h
    exact h ▸ h'
  | e :: es, s, m, s', h, h' => by
    obtain ⟨k, hk, hrest⟩ := M.run_cons_eq_some.mp h
    exact M.run_cons_eq_some.mpr ⟨k, hk, run_append hrest h'⟩

/-- Every step of the run satisfies `ok` in the state it is taken from. -/
def Meets (ok : σ → ε → Prop) : σ → List ε → Prop
  | _, [] => True
  | s, e :: es => ok s e ∧ ∀ s', M.step s e = some s' → Meets ok s' es

/-- A schedule can be checked against a condition step by step. -/
instance instDecidableMeets (ok : σ → ε → Prop) [∀ s e, Decidable (ok s e)] :
    ∀ (s : σ) (es : List ε), Decidable (M.Meets ok s es)
  | _, [] => .isTrue trivial
  | s, e :: es =>
    match hs : M.step s e with
    | none => decidable_of_iff (ok s e) (by simp [Meets, hs])
    | some m =>
      have := instDecidableMeets ok m es
      decidable_of_iff (ok s e ∧ M.Meets ok m es) (by simp [Meets, hs])

/-- The condition that holds of every step is met by every run. -/
theorem meets_of_forall {ok : σ → ε → Prop} (h : ∀ s e, ok s e) :
    ∀ (es : List ε) (s : σ), M.Meets ok s es
  | [], _ => trivial
  | e :: es, s => ⟨h s e, fun s' _ => meets_of_forall h es s'⟩

/-- A condition on the labels alone. -/
theorem meets_of_mem {p : ε → Prop} : ∀ {es : List ε} {s : σ}, (∀ e ∈ es, p e) →
    M.Meets (fun _ e => p e) s es
  | [], _, _ => trivial
  | e :: _, _, h => ⟨h e List.mem_cons_self, fun _ _ =>
      meets_of_mem fun e he => h e (List.mem_cons_of_mem _ he)⟩

/-- **Invariant rule.** A property that every step meeting `ok` preserves survives the run. Every
state a run reaches is the last state of a run, so this is about every state reached. -/
theorem run_invariant {I : σ → Prop} {ok : σ → ε → Prop}
    (hstep : ∀ s e s', I s → ok s e → M.step s e = some s' → I s') :
    ∀ {es : List ε} {s s' : σ}, I s → M.Meets ok s es → M.run s es = some s' → I s'
  | [], s, s', hI, _, hrun => by
    rw [run_nil, Option.some.injEq] at hrun
    exact hrun ▸ hI
  | e :: es, s, s', hI, hok, hrun => by
    obtain ⟨m, hm, hrest⟩ := M.run_cons_eq_some.mp hrun
    exact run_invariant hstep (hstep s e m hI hok.1 hm) (hok.2 m hm) hrest

/-- A property that every step preserves survives every run. -/
theorem run_preserves {I : σ → Prop} (hstep : ∀ s e s', I s → M.step s e = some s' → I s')
    {es : List ε} {s s' : σ} (hI : I s) (hrun : M.run s es = some s') : I s' := by
  have hmeets : M.Meets (fun _ _ => True) s es := M.meets_of_forall (fun _ _ => trivial) es s
  exact M.run_invariant (fun s e s' h _ hs => hstep s e s' h hs) hI hmeets hrun

/-- What each step preserves of a state and of the labels that led to it. -/
theorem run_history {I : List ε → σ → Prop}
    (hstep : ∀ es s e s', I es s → M.step s e = some s' → I (es ++ [e]) s') :
    ∀ {es before : List ε} {s s' : σ}, I before s → M.run s es = some s' → I (before ++ es) s'
  | [], before, s, s', hI, hrun => by
    rw [run_nil, Option.some.injEq] at hrun
    rw [List.append_nil]
    exact hrun ▸ hI
  | e :: es, before, s, s', hI, hrun => by
    obtain ⟨m, hm, hrest⟩ := M.run_cons_eq_some.mp hrun
    have hI' : I ((before ++ [e]) ++ es) s' := run_history hstep (hstep before s e m hI hm) hrest
    rwa [List.append_assoc] at hI'

/-! ## Properties of every step and every state of a run -/

/-- `P` holds of every step the run takes. -/
def EachStep (P : σ → ε → σ → Prop) : σ → List ε → Prop
  | _, [] => True
  | s, e :: es => ∀ s', M.step s e = some s' → P s e s' ∧ EachStep P s' es

/-- What every step that starts in the invariant has and keeps, every step of every run has. -/
theorem eachStep_of_invariant {I : σ → Prop} {P : σ → ε → σ → Prop}
    (hstep : ∀ s e s', I s → M.step s e = some s' → P s e s' ∧ I s') :
    ∀ {es : List ε} {s : σ}, I s → M.EachStep P s es
  | [], _, _ => trivial
  | _ :: _, s, hI => fun s' hs' =>
    have h := hstep s _ s' hI hs'
    ⟨h.1, eachStep_of_invariant hstep h.2⟩

/-- Each step of the run, where it is taken. -/
theorem EachStep.at_step {P : σ → ε → σ → Prop} {e : ε} {es₂ : List ε} :
    ∀ {es₁ : List ε} {s m m' : σ}, M.EachStep P s (es₁ ++ e :: es₂) → M.run s es₁ = some m →
      M.step m e = some m' → P m e m'
  | [], s, m, m', h, hrun, hm => by
    rw [run_nil, Option.some.injEq] at hrun
    subst hrun
    exact (h m' hm).1
  | e' :: es₁, s, m, m', h, hrun, hm => by
    obtain ⟨k, hk, hrest⟩ := M.run_cons_eq_some.mp hrun
    exact EachStep.at_step (h k hk).2 hrest hm

/--
**Exact conditions.** When the steps that meet `ok` have `P` and keep the invariant, and a step
that does not meet it lacks `P`, then every step of a run has `P` if and only if every step of it
meets `ok`.
-/
theorem eachStep_iff_meets {I : σ → Prop} {P : σ → ε → σ → Prop} {ok : σ → ε → Prop}
    (hkeep : ∀ s e s', I s → ok s e → M.step s e = some s' → P s e s' ∧ I s')
    (hbreak : ∀ s e s', I s → ¬ ok s e → M.step s e = some s' → ¬ P s e s') :
    ∀ {es : List ε} {s s' : σ}, I s → M.run s es = some s' →
      (M.EachStep P s es ↔ M.Meets ok s es)
  | [], _, _, _, _ => iff_of_true trivial trivial
  | e :: es, s, s', hI, hrun => by
    obtain ⟨m, hm, hrest⟩ := M.run_cons_eq_some.mp hrun
    by_cases hok : ok s e
    · obtain ⟨hP, hI'⟩ := hkeep s e m hI hok hm
      have ih := eachStep_iff_meets hkeep hbreak hI' hrest
      constructor
      · intro heach
        refine ⟨hok, fun m' hm' => ?_⟩
        obtain rfl : m = m' := Option.some.inj (hm.symm.trans hm')
        exact ih.mp (heach m hm).2
      · rintro ⟨-, hmeets⟩ m' hm'
        obtain rfl : m = m' := Option.some.inj (hm.symm.trans hm')
        exact ⟨hP, ih.mpr (hmeets m hm)⟩
    · refine iff_of_false (fun heach => ?_) fun hmeets => hok hmeets.1
      exact hbreak s e m hI hok hm (heach m hm).1

/-- `P` holds of every state the run passes through, the first and the last included. -/
def Always (P : σ → Prop) (s : σ) (es : List ε) : Prop :=
  ∀ es₁ m, es₁ <+: es → M.run s es₁ = some m → P m

/-- A property of every state is one of the first state and of the state after each step. -/
theorem always_iff_eachStep {P : σ → Prop} : ∀ {es : List ε} {s : σ},
    M.Always P s es ↔ P s ∧ M.EachStep (fun _ _ s' => P s') s es
  | [], s => by
    constructor
    · intro h
      exact ⟨h [] s (List.prefix_refl _) rfl, trivial⟩
    · rintro ⟨hs, -⟩ es₁ m hpre hrun
      obtain rfl := List.prefix_nil.mp hpre
      rw [run_nil, Option.some.injEq] at hrun
      exact hrun ▸ hs
  | e :: es, s => by
    constructor
    · intro h
      refine ⟨h [] s List.nil_prefix rfl, fun m hm => ?_⟩
      have hrest : M.Always P m es := by
        intro es₁ m' hpre hrun
        have hcons : M.run s (e :: es₁) = some m' := M.run_cons_eq_some.mpr ⟨m, hm, hrun⟩
        exact h (e :: es₁) m' ((List.prefix_cons_inj e).mpr hpre) hcons
      exact ⟨hrest [] m List.nil_prefix rfl, (always_iff_eachStep.mp hrest).2⟩
    · rintro ⟨hs, heach⟩ es₁ m' hpre hrun
      cases es₁ with
      | nil =>
        rw [run_nil, Option.some.injEq] at hrun
        exact hrun ▸ hs
      | cons e' es₁ =>
        obtain ⟨rfl, hpre'⟩ := List.cons_prefix_cons.mp hpre
        obtain ⟨m, hm, hrest⟩ := M.run_cons_eq_some.mp hrun
        exact always_iff_eachStep.mpr (heach m hm) es₁ m' hpre' hrest

/-- The same for a property of states that the invariant implies. -/
theorem always_iff_meets {I P : σ → Prop} {ok : σ → ε → Prop} (hP : ∀ s, I s → P s)
    (hkeep : ∀ s e s', I s → ok s e → M.step s e = some s' → I s')
    (hbreak : ∀ s e s', I s → ¬ ok s e → M.step s e = some s' → ¬ P s')
    {es : List ε} {s s' : σ} (hI : I s) (hrun : M.run s es = some s') :
    M.Always P s es ↔ M.Meets ok s es := by
  have hsteps : M.EachStep (fun _ _ s' => P s') s es ↔ M.Meets ok s es :=
    M.eachStep_iff_meets (fun s e s' hs hok hm =>
      have hI' := hkeep s e s' hs hok hm
      ⟨hP s' hI', hI'⟩) hbreak hI hrun
  rw [always_iff_eachStep, hsteps]
  exact and_iff_right (hP s hI)

end Machine

end Cpex.Infra
