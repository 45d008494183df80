import Mathlib.Logic.Basic

/-!
# Computations that may fail

How a sequence of fallible steps succeeds: each step does, and hands its value to the next one.
-/

namespace Cpex.Infra

universe u

variable {ε : Type*} {α β : Type u}

@[simp] theorem ok_bind (a : α) (f : α → Except ε β) : (Except.ok a >>= f) = f a := rfl

@[simp] theorem error_bind (e : ε) (f : α → Except ε β) : (Except.error e >>= f) = .error e := rfl

@[simp] theorem pure_eq_ok (a : α) : (pure a : Except ε α) = .ok a := rfl

/-- A sequence succeeds when its first step does and the rest succeeds on the value. -/
theorem bind_eq_ok {x : Except ε α} {f : α → Except ε β} {b : β} :
    (x >>= f) = .ok b ↔ ∃ a, x = .ok a ∧ f a = .ok b := by
  cases x with
  | error e => simp
  | ok a => simp

/-- When the rest cannot fail, a sequence succeeds exactly when its first step does. -/
theorem exists_bind_eq_ok_iff {x : Except ε α} {f : α → Except ε β}
    (htotal : ∀ a, ∃ b, f a = .ok b) : (∃ b, (x >>= f) = .ok b) ↔ ∃ a, x = .ok a := by
  constructor
  · rintro ⟨b, h⟩
    obtain ⟨a, ha, -⟩ := bind_eq_ok.mp h
    exact ⟨a, ha⟩
  · rintro ⟨a, ha⟩
    obtain ⟨b, hb⟩ := htotal a
    exact ⟨b, bind_eq_ok.mpr ⟨a, ha, hb⟩⟩

theorem map_eq_ok {x : Except ε α} {f : α → β} {b : β} :
    x.map f = .ok b ↔ ∃ a, x = .ok a ∧ f a = b := by
  cases x with
  | error e => simp [Except.map]
  | ok a => simp [Except.map]

/-- Two guarded results with one refusal agree when both are refused, or their values do. -/
theorem ite_error_eq_iff {c c' : Prop} [Decidable c] [Decidable c'] {e : ε} {a b : α}
    (h : a = b → (c ↔ c')) :
    (if c then Except.error e else .ok a) = (if c' then Except.error e else .ok b) ↔
      c ∧ c' ∨ a = b := by
  by_cases hc : c
  · by_cases hc' : c'
    · rw [if_pos hc, if_pos hc']
      exact iff_of_true rfl (.inl ⟨hc, hc'⟩)
    · rw [if_pos hc, if_neg hc']
      refine iff_of_false nofun ?_
      rintro (⟨-, h'⟩ | hab)
      · exact hc' h'
      · exact hc' ((h hab).mp hc)
  · by_cases hc' : c'
    · rw [if_neg hc, if_pos hc']
      refine iff_of_false nofun ?_
      rintro (⟨h', -⟩ | hab)
      · exact hc h'
      · exact hc ((h hab).mpr hc')
    · rw [if_neg hc, if_neg hc', Except.ok.injEq]
      exact ⟨.inr, fun h' => h'.resolve_left fun hboth => hc hboth.1⟩

end Cpex.Infra
