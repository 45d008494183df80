import Mathlib.Logic.Function.Basic

/-!
# A lock and what it protects

Parties that share a value take turns by a lock. While the lock is free the value is at rest; while
a party holds it, the value is what the party's progress says. A step touches one party, and where
it takes, keeps or gives back the lock it answers for the value.

* `Kept.turn` — every such step keeps the discipline
* `bind_set`, `bind_push` — the holds of a list of parties
* `countP_set_add`, `countP_le_one` — how many parties of a list have something
* `Kept.exclusive` — no two parties hold the lock
* `Kept.shared_cases` — what the value can be
-/

namespace Cpex.Infra

/-- A lock, how far each holder is, and the value the lock protects. -/
structure Lock (ι H σ : Type*) where
  owner : Option ι
  hold : ι → Option H
  shared : σ

/-- What the protected value satisfies while the lock is free, and while a holder is somewhere. -/
structure Discipline (H σ : Type*) where
  rest : σ → Prop
  during : H → σ → Prop

namespace Lock

variable {ι H σ : Type*} {D : Discipline H σ}

/-- The lock is held by the party that holds it, and the value is as the discipline says. -/
structure Kept (D : Discipline H σ) (l : Lock ι H σ) : Prop where
  free : l.owner = none → D.rest l.shared
  held : ∀ i h, l.hold i = some h → l.owner = some i ∧ D.during h l.shared
  owned : ∀ i, l.owner = some i → ∃ h, l.hold i = some h

/-- One step of party `i`, which was at `h` and is at `h'`: how the owner and the value change, and
what the step answers for. -/
inductive Turn (D : Discipline H σ) (i : ι) (owner owner' : Option ι) (v v' : σ) :
    (h h' : Option H) → Prop
  /-- Neither is touched. -/
  | idle {h : Option H} (howner : owner' = owner) (hshared : v' = v) :
      Turn D i owner owner' v v' h h
  | acquire {h : H} (hfree : owner = none) (howner : owner' = some i)
      (hshared : D.rest v → D.during h v') : Turn D i owner owner' v v' none (some h)
  | advance {h h' : H} (howner : owner' = owner) (hshared : D.during h v → D.during h' v') :
      Turn D i owner owner' v v' (some h) (some h')
  | release {h : H} (howner : owner' = none) (hshared : D.during h v → D.rest v') :
      Turn D i owner owner' v v' (some h) none

/-- The holds of a list of parties, when one of them moves. -/
theorem bind_set {α : Type*} {parties : List α} {i : Nat} {a a' : α}
    (hi : parties[i]? = some a) (hold : α → Option H) :
    (fun k : Nat => (parties.set i a')[k]?.bind hold) =
      Function.update (fun k : Nat => parties[k]?.bind hold) i (hold a') := by
  funext k
  by_cases hk : k = i
  · subst hk
    rw [Function.update_self, List.getElem?_set_self (List.getElem?_eq_some_iff.mp hi).1,
      Option.bind_some]
  · rw [Function.update_of_ne hk, List.getElem?_set_ne (Ne.symm hk)]

/-- A party that comes holds nothing. -/
theorem bind_push {α : Type*} (parties : List α) {a : α} {hold : α → Option H} (ha : hold a = none) :
    (fun k : Nat => (parties ++ [a])[k]?.bind hold) = fun k : Nat => parties[k]?.bind hold := by
  funext k
  rcases Nat.lt_trichotomy k parties.length with hlt | rfl | hgt
  · rw [List.getElem?_append_left hlt]
  · rw [List.getElem?_concat_length, Option.bind_some, ha, List.getElem?_eq_none (Nat.le_refl _),
      Option.bind_none]
  · have hle : (parties ++ [a]).length ≤ k := by
      rw [List.length_append, List.length_singleton]
      exact hgt
    rw [List.getElem?_eq_none hle, List.getElem?_eq_none (Nat.le_of_lt hgt)]

/-- **Mutual exclusion.** -/
theorem Kept.exclusive {l : Lock ι H σ} (hk : Kept D l) {i j : ι} {h h' : H}
    (hi : l.hold i = some h) (hj : l.hold j = some h') : i = j ∧ h = h' := by
  obtain ⟨hown, -⟩ := hk.held i h hi
  obtain ⟨hown', -⟩ := hk.held j h' hj
  obtain rfl : i = j := Option.some.inj (hown.symm.trans hown')
  exact ⟨rfl, Option.some.inj (hi.symm.trans hj)⟩

/-- The value is at rest, or what the one holder makes of it. -/
theorem Kept.shared_cases {l : Lock ι H σ} (hk : Kept D l) :
    D.rest l.shared ∨ ∃ i h, l.hold i = some h ∧ D.during h l.shared := by
  cases hown : l.owner with
  | none => exact .inl (hk.free hown)
  | some i =>
    obtain ⟨h, hh⟩ := hk.owned i hown
    exact .inr ⟨i, h, hh, (hk.held i h hh).2⟩

/-- **A step that answers for the value keeps the discipline.** -/
theorem Kept.turn [DecidableEq ι] {l : Lock ι H σ} (hk : Kept D l) {i : ι} {owner' : Option ι}
    {v' : σ} {h' : Option H} (hturn : Turn D i l.owner owner' l.shared v' (l.hold i) h') :
    Kept D ⟨owner', Function.update l.hold i h', v'⟩ := by
  generalize hh : l.hold i = h at hturn
  have hother : ∀ {j k}, j ≠ i → Function.update l.hold i h' j = some k → l.hold j = some k :=
    fun {j k} hne hj => by rwa [Function.update_of_ne hne] at hj
  cases hturn with
  | idle howner hshared =>
    rw [← hh, Function.update_eq_self, howner, hshared]
    exact hk
  | @acquire h' hfree howner hshared =>
    have hnone : ∀ j, l.hold j = none := fun j => by
      cases hj : l.hold j with
      | none => rfl
      | some k => cases hfree.symm.trans (hk.held j k hj).1
    refine ⟨fun hno => ?_, fun j k hj => ?_, fun j hj => ?_⟩
    · cases howner.symm.trans hno
    · by_cases hij : j = i
      · subst hij
        obtain rfl := Option.some.inj ((Function.update_self j _ l.hold).symm.trans hj)
        exact ⟨howner, hshared (hk.free hfree)⟩
      · cases (hnone j).symm.trans (hother hij hj)
    · obtain rfl := Option.some.inj (howner.symm.trans hj)
      exact ⟨h', Function.update_self _ _ _⟩
  | @advance h h' howner hshared =>
    obtain ⟨hown, hduring⟩ := hk.held i h hh
    refine ⟨fun hno => ?_, fun j k hj => ?_, fun j hj => ?_⟩
    · cases (howner.trans hown).symm.trans hno
    · by_cases hij : j = i
      · subst hij
        obtain rfl := Option.some.inj ((Function.update_self j _ l.hold).symm.trans hj)
        exact ⟨howner.trans hown, hshared hduring⟩
      · exact absurd (hk.exclusive (hother hij hj) hh).1 hij
    · obtain rfl := Option.some.inj ((howner.trans hown).symm.trans hj)
      exact ⟨h', Function.update_self _ _ _⟩
  | @release h howner hshared =>
    obtain ⟨hown, hduring⟩ := hk.held i h hh
    refine ⟨fun _ => hshared hduring, fun j k hj => ?_, fun j hj => ?_⟩
    · by_cases hij : j = i
      · subst hij
        cases (Function.update_self j _ l.hold).symm.trans hj
      · exact absurd (hk.exclusive (hother hij hj) hh).1 hij
    · cases howner.symm.trans hj

end Lock

/-- A place that changes is counted before or after. -/
theorem countP_set_add {α : Type*} (p : α → Bool) {xs : List α} {i : Nat} {x y : α}
    (h : xs[i]? = some x) : (xs.set i y).countP p + (p x).toNat = xs.countP p + (p y).toNat := by
  obtain ⟨hi, hget⟩ := List.getElem?_eq_some_iff.mp h
  have hpos : (p x).toNat ≤ xs.countP p := by
    cases hx : p x with
    | false => exact Nat.zero_le _
    | true => exact List.countP_pos_iff.mpr ⟨x, List.mem_of_getElem? h, hx⟩
  rw [List.countP_set hi, hget]
  cases hx : p x <;> cases p y <;> rw [hx] at hpos <;>
    simp only [Bool.toNat_true, Bool.toNat_false, Bool.false_eq_true, if_true, if_false] at hpos ⊢ <;>
    omega

/-- What at most one place of a list has is counted once at most. -/
theorem countP_le_one {α : Type*} {p : α → Bool} : ∀ {xs : List α},
    (∀ (i j : Nat) (x y : α), xs[i]? = some x → xs[j]? = some y → p x = true → p y = true → i = j) →
      xs.countP p ≤ 1
  | [], _ => Nat.zero_le _
  | x :: xs, h => by
    have htail : xs.countP p ≤ 1 := countP_le_one fun i j y z hy hz hpy hpz =>
      Nat.succ.inj (h (i + 1) (j + 1) y z hy hz hpy hpz)
    by_cases hx : p x = true
    · have hnone : xs.countP p = 0 := by
        refine List.countP_eq_zero.mpr fun y hy hpy => ?_
        obtain ⟨i, hi, rfl⟩ := List.mem_iff_getElem.mp hy
        exact absurd (h 0 (i + 1) x xs[i] rfl (List.getElem?_eq_getElem hi) hx hpy)
          (Nat.succ_ne_zero i).symm
      exact Nat.le_of_eq (by rw [List.countP_cons_of_pos hx, hnone])
    · rwa [List.countP_cons_of_neg hx]

end Cpex.Infra
