import Mathlib.Data.List.Perm.Basic

/-!
# A readers-writer lock and what it protects

Any number of readers hold the lock, or one writer. A writer announces itself first, which keeps
new readers out, and has the lock once the readers before it are gone.

* `RwLock.turn` — one operation on the lock, if it does not block
* `Kept.turn` — the lock counts its parties, whatever they do
* `Kept.alone` — a writer is alone
* `Kept.open_`, `Kept.waits` — who blocks, and on whom
* `Guarded.move` — what a party that holds the lock may rely on
-/

namespace Cpex.Infra

inductive Writer where
  | waiting
  | holding
  deriving DecidableEq, Repr

/-- How many readers hold the lock, and whether a writer waits for it or has it. -/
structure RwLock where
  readers : Nat
  writer : Option Writer
  deriving DecidableEq, Repr

/-- What a party is to the lock. A party that has not asked for it, or only wants to read, is
nothing to it. -/
inductive Stance where
  | reading
  | waiting
  | writing
  deriving DecidableEq, Repr

/-- An operation on the lock. A writer takes it in two steps. -/
inductive Turn where
  | readLock
  | readUnlock
  | announce
  | writeLock
  | writeUnlock
  deriving DecidableEq, Repr

namespace Turn

/-- What the party is before the operation. -/
def before : Turn → Option Stance
  | .readLock | .announce => none
  | .readUnlock => some .reading
  | .writeLock => some .waiting
  | .writeUnlock => some .writing

/-- And after it. -/
def after : Turn → Option Stance
  | .readLock => some .reading
  | .announce => some .waiting
  | .writeLock => some .writing
  | .readUnlock | .writeUnlock => none

end Turn

namespace RwLock

def new : RwLock := ⟨0, none⟩

/-- The lock after the operation. `none` is a party that blocks. -/
def turn (l : RwLock) : Turn → Option RwLock
  | .readLock => if l.writer = none then some { l with readers := l.readers + 1 } else none
  | .readUnlock => if l.readers = 0 then none else some { l with readers := l.readers - 1 }
  | .announce => if l.writer = none then some { l with writer := some .waiting } else none
  | .writeLock =>
    if l.writer = some .waiting ∧ l.readers = 0 then some { l with writer := some .holding }
    else none
  | .writeUnlock => if l.writer = some .holding then some { l with writer := none } else none

/-! ## Counting the parties -/

/-- How many of the parties have the stance. -/
def census (stances : List (Option Stance)) (x : Stance) : Nat := stances.count (some x)

theorem census_perm {ps qs : List (Option Stance)} (h : ps.Perm qs) (x : Stance) :
    census ps x = census qs x := h.count_eq (some x)

/-- The lock agrees with what its parties are to it. -/
structure Kept (l : RwLock) (stances : List (Option Stance)) : Prop where
  readers : census stances .reading = l.readers
  waiting : census stances .waiting = if l.writer = some .waiting then 1 else 0
  writing : census stances .writing = if l.writer = some .holding then 1 else 0
  apart : l.writer = some .holding → l.readers = 0

variable {l l' : RwLock} {ps qs : List (Option Stance)}

theorem kept_new : Kept .new [] := ⟨rfl, rfl, rfl, fun h => nomatch h⟩

theorem Kept.perm (h : Kept l ps) (hp : ps.Perm qs) : Kept l qs := by
  obtain ⟨hreaders, hwaiting, hwriting, hapart⟩ := h
  refine ⟨?_, ?_, ?_, hapart⟩
  · rw [← census_perm hp, hreaders]
  · rw [← census_perm hp, hwaiting]
  · rw [← census_perm hp, hwriting]

/-- A party that is nothing to the lock comes or goes. -/
theorem kept_none_cons : Kept l (none :: ps) ↔ Kept l ps := by
  have hcount : ∀ x, census (none :: ps) x = census ps x := fun x => by simp [census]
  constructor
  · rintro ⟨hreaders, hwaiting, hwriting, hapart⟩
    exact ⟨hcount _ ▸ hreaders, hcount _ ▸ hwaiting, hcount _ ▸ hwriting, hapart⟩
  · rintro ⟨hreaders, hwaiting, hwriting, hapart⟩
    exact ⟨(hcount _).trans hreaders, (hcount _).trans hwaiting, (hcount _).trans hwriting, hapart⟩

/-- **An operation on the lock moves one party.** -/
theorem Kept.turn {t : Turn} (hk : Kept l (t.before :: ps)) (ht : l.turn t = some l') :
    Kept l' (t.after :: ps) := by
  obtain ⟨hreaders, hwaiting, hwriting, hapart⟩ := hk
  cases t with
  | readLock =>
    simp only [RwLock.turn, Option.ite_none_right_eq_some, Option.some.injEq] at ht
    obtain ⟨hnone, rfl⟩ := ht
    simp [census, Turn.before, hnone] at hreaders hwaiting hwriting
    constructor <;> simp [census, Turn.after, hnone, hreaders, hwaiting, hwriting]
  | readUnlock =>
    simp only [RwLock.turn, Option.ite_none_left_eq_some, Option.some.injEq] at ht
    obtain ⟨hsome, rfl⟩ := ht
    simp [census, Turn.before] at hreaders hwaiting hwriting
    constructor
    · simp [census, Turn.after]
      omega
    · simpa [census, Turn.after] using hwaiting
    · simpa [census, Turn.after] using hwriting
    · intro hholding
      exact absurd (hapart hholding) hsome
  | announce =>
    simp only [RwLock.turn, Option.ite_none_right_eq_some, Option.some.injEq] at ht
    obtain ⟨hnone, rfl⟩ := ht
    simp [census, Turn.before, hnone] at hreaders hwaiting hwriting
    constructor <;> simp [census, Turn.after, hreaders, hwaiting, hwriting]
  | writeLock =>
    simp only [RwLock.turn, Option.ite_none_right_eq_some, Option.some.injEq] at ht
    obtain ⟨⟨hwaits, hempty⟩, rfl⟩ := ht
    simp [census, Turn.before, hwaits] at hreaders hwaiting hwriting
    constructor <;> simp [census, Turn.after, hreaders, hwaiting, hwriting, hempty]
  | writeUnlock =>
    simp only [RwLock.turn, Option.ite_none_right_eq_some, Option.some.injEq] at ht
    obtain ⟨hholds, rfl⟩ := ht
    simp [census, Turn.before, hholds] at hreaders hwaiting hwriting
    constructor <;> simp [census, Turn.after, hreaders, hwaiting, hwriting]

/-- **Exclusion.** While one party writes, no other reads, waits or writes. -/
theorem Kept.alone (hk : Kept l (some .writing :: ps)) (x : Stance) : some x ∉ ps := by
  obtain ⟨hreaders, hwaiting, hwriting, hapart⟩ := hk
  have hholds : l.writer = some .holding := by
    by_contra hno
    rw [if_neg hno] at hwriting
    simp [census] at hwriting
  have hempty : l.readers = 0 := hapart hholds
  simp [census, hholds, hempty] at hreaders hwaiting hwriting
  rw [← List.count_eq_zero]
  cases x with
  | reading => exact hreaders
  | waiting => exact hwaiting
  | writing => exact hwriting

/-- Nobody writes while a party reads. -/
theorem Kept.not_writing (hk : Kept l (some .reading :: ps)) : some .writing ∉ ps := by
  intro hmem
  have hperm := (List.perm_cons_erase hmem).cons (some Stance.reading)
  have hk' := hk.perm (hperm.trans (List.Perm.swap _ _ _))
  exact hk'.alone .reading List.mem_cons_self

/-- Only a writer that leaves finds a writer there. -/
theorem Kept.quiet {t : Turn} (hk : Kept l ps) (ht : l.turn t = some l') (hne : t ≠ .writeUnlock)
    (hread : t = .readUnlock → some .reading ∈ ps) : some .writing ∉ ps := by
  have hnot : l.writer ≠ some .holding := by
    intro hholds
    cases t with
    | readLock => simp [RwLock.turn, hholds] at ht
    | announce => simp [RwLock.turn, hholds] at ht
    | writeLock => simp [RwLock.turn, hholds] at ht
    | writeUnlock => exact hne rfl
    | readUnlock =>
      have hpos : 0 < census ps .reading := List.count_pos_iff.mpr (hread rfl)
      rw [hk.readers, hk.apart hholds] at hpos
      exact Nat.lt_irrefl 0 hpos
  have hzero : census ps .writing = 0 := by rw [hk.writing, if_neg hnot]
  exact List.count_eq_zero.mp hzero

/-- A party that holds the lock can give it back. -/
theorem Kept.unlock {t : Turn} (hk : Kept l (t.before :: ps))
    (ht : t = .readUnlock ∨ t = .writeUnlock) : (l.turn t).isSome := by
  obtain ⟨hreaders, -, hwriting, -⟩ := hk
  rcases ht with rfl | rfl
  · have hpos : l.readers ≠ 0 := by
      rw [← hreaders]
      simp [census, Turn.before]
    simp [RwLock.turn, hpos]
  · have hholds : l.writer = some .holding := by
      by_contra hno
      rw [if_neg hno] at hwriting
      simp [census, Turn.before] at hwriting
    simp [RwLock.turn, hholds]

/-- A lock that no writer waits for or has is open to whoever asks. -/
theorem Kept.open_ (hk : Kept l ps) (hwaiting : some .waiting ∉ ps) (hwriting : some .writing ∉ ps) :
    (l.turn .readLock).isSome ∧ (l.turn .announce).isSome := by
  have hzero : ∀ x, some x ∉ ps → census ps x = 0 := fun x => List.count_eq_zero.mpr
  have hnone : l.writer = none := by
    cases hw : l.writer with
    | none => rfl
    | some w =>
      cases w with
      | waiting =>
        have hone := hk.waiting
        rw [if_pos hw, hzero _ hwaiting] at hone
        exact absurd hone.symm Nat.one_ne_zero
      | holding =>
        have hone := hk.writing
        rw [if_pos hw, hzero _ hwriting] at hone
        exact absurd hone.symm Nat.one_ne_zero
  simp [RwLock.turn, hnone]

/-- A writer waits for it, and keeps everybody else out. -/
theorem Kept.waits (hk : Kept l ps) (hwaiting : some .waiting ∈ ps) :
    l.turn .readLock = none ∧ l.turn .announce = none ∧
      (some .reading ∉ ps → (l.turn .writeLock).isSome) ∧
      (some .reading ∈ ps → l.turn .writeLock = none) := by
  have hpos : 0 < census ps .waiting := List.count_pos_iff.mpr hwaiting
  have hwaits : l.writer = some .waiting := by
    by_contra hno
    rw [hk.waiting, if_neg hno] at hpos
    exact Nat.lt_irrefl 0 hpos
  refine ⟨by simp [RwLock.turn, hwaits], by simp [RwLock.turn, hwaits], fun hreading => ?_,
    fun hreading => ?_⟩
  · have hempty : l.readers = 0 := by
      rw [← hk.readers]
      exact List.count_eq_zero.mpr hreading
    simp [RwLock.turn, hwaits, hempty]
  · have hbusy : l.readers ≠ 0 := by
      rw [← hk.readers]
      exact Nat.pos_iff_ne_zero.mp (List.count_pos_iff.mpr hreading)
    simp [RwLock.turn, hbusy]

end RwLock

/-! ## What the lock protects -/

/-- What the protected value satisfies while nobody writes, and what a party at `h` relies on. A
party without the lock relies on nothing. -/
structure Reliance (H σ : Type*) where
  stance : H → Option Stance
  rest : σ → Prop
  needs : H → σ → Prop
  free : ∀ h v, stance h ≠ some .reading → stance h ≠ some .writing → needs h v

/-- The parties of the lock, and the value as each of them relies on it. -/
structure Guarded {H σ : Type*} (R : Reliance H σ) (l : RwLock) (v : σ) (parties : List H) :
    Prop where
  kept : l.Kept (parties.map R.stance)
  needs : ∀ h ∈ parties, R.needs h v
  rest : some .writing ∉ parties.map R.stance → R.rest v

namespace Guarded

variable {H σ : Type*} {R : Reliance H σ} {l l' : RwLock} {v v' : σ} {ps qs : List H}

theorem perm (hg : Guarded R l v ps) (hp : ps.Perm qs) : Guarded R l v qs where
  kept := hg.kept.perm (hp.map R.stance)
  needs h hh := hg.needs h (hp.mem_iff.mpr hh)
  rest hno := hg.rest fun hmem => hno ((hp.map R.stance).mem_iff.mp hmem)

/-- A party that does not hold the lock comes. -/
theorem push {h : H} (hg : Guarded R l v ps) (hh : R.stance h = none) :
    Guarded R l v (h :: ps) where
  kept := by
    rw [List.map_cons, hh]
    exact RwLock.kept_none_cons.mpr hg.kept
  needs k hk := by
    rcases List.mem_cons.mp hk with rfl | hk
    · exact R.free k v (by simp [hh]) (by simp [hh])
    · exact hg.needs k hk
  rest hno := hg.rest fun hmem => hno (List.mem_cons_of_mem _ hmem)

/-- A party that does not hold the lock goes. -/
theorem pop {h : H} (hg : Guarded R l v (h :: ps)) (hh : R.stance h = none) :
    Guarded R l v ps where
  kept := by
    have hkept := hg.kept
    rw [List.map_cons, hh] at hkept
    exact RwLock.kept_none_cons.mp hkept
  needs k hk := hg.needs k (List.mem_cons_of_mem _ hk)
  rest hno := hg.rest (by simpa [hh] using hno)

/-- One step of a party from `h` to `h'`: what it does to the lock and to the value, and what it
answers for. -/
inductive Move (R : Reliance H σ) (l : RwLock) (v : σ) : RwLock → σ → H → H → Prop
  /-- Neither is touched. -/
  | stay {h h' : H} (hstance : R.stance h' = R.stance h)
      (hneeds : (R.stance h = some .reading → R.rest v) → R.needs h v → R.needs h' v) :
      Move R l v l v h h'
  | write {h h' : H} {v' : σ} (hstance : R.stance h = some .writing)
      (hstance' : R.stance h' = some .writing) (hneeds : R.needs h v → R.needs h' v') :
      Move R l v l v' h h'
  /-- A party that takes the lock finds the value at rest, and leaves it so. -/
  | turn {h h' : H} {l' : RwLock} (t : Turn) (hstance : R.stance h = t.before)
      (hstance' : R.stance h' = t.after) (hturn : l.turn t = some l')
      (hneeds : R.rest v → R.needs h' v) (hleaves : t = .writeUnlock → R.needs h v → R.rest v) :
      Move R l v l' v h h'

/-- Nobody but the writer relies on what it writes. -/
theorem needs_of_writing {h : H} (hg : Guarded R l v (h :: ps)) (hh : R.stance h = some .writing)
    (v' : σ) : ∀ k ∈ ps, R.needs k v' := by
  intro k hk
  have hkept := hg.kept
  rw [List.map_cons, hh] at hkept
  refine R.free k v' (fun hreading => ?_) fun hwriting => ?_
  · exact hkept.alone .reading (List.mem_map.mpr ⟨k, hk, hreading⟩)
  · exact hkept.alone .writing (List.mem_map.mpr ⟨k, hk, hwriting⟩)

/-- The value is at rest beside a reader. -/
theorem rest_of_reading {h : H} (hg : Guarded R l v (h :: ps)) (hh : R.stance h = some .reading) :
    R.rest v := by
  have hkept := hg.kept
  rw [List.map_cons, hh] at hkept
  refine hg.rest fun hmem => ?_
  rw [List.map_cons, hh] at hmem
  rcases List.mem_cons.mp hmem with hmem | hmem
  · cases hmem
  · exact hkept.not_writing hmem

/-- **A step that answers for the value keeps what every party relies on.** -/
theorem move {h h' : H} (hg : Guarded R l v (h :: ps)) (hm : Move R l v l' v' h h') :
    Guarded R l' v' (h' :: ps) := by
  cases hm with
  | stay hstance hneeds =>
    refine ⟨?_, fun k hk => ?_, fun hno => ?_⟩
    · rw [List.map_cons, hstance]
      exact hg.kept
    · rcases List.mem_cons.mp hk with rfl | hk
      · exact hneeds (hg.rest_of_reading) (hg.needs h List.mem_cons_self)
      · exact hg.needs k (List.mem_cons_of_mem _ hk)
    · rw [List.map_cons, hstance] at hno
      exact hg.rest hno
  | write hstance hstance' hneeds =>
    refine ⟨?_, fun k hk => ?_, fun hno => ?_⟩
    · rw [List.map_cons, hstance', ← hstance]
      exact hg.kept
    · rcases List.mem_cons.mp hk with rfl | hk
      · exact hneeds (hg.needs h List.mem_cons_self)
      · exact hg.needs_of_writing hstance v' k hk
    · rw [List.map_cons, hstance'] at hno
      exact absurd List.mem_cons_self hno
  | turn t hstance hstance' hturn hneeds hleaves =>
    have hkept := hg.kept
    rw [List.map_cons, hstance] at hkept
    have hquiet : t ≠ .writeUnlock → R.rest v := by
      intro hne
      refine hg.rest ?_
      rw [List.map_cons, hstance]
      exact hkept.quiet hturn hne fun ht => by simp [ht, Turn.before]
    refine ⟨?_, fun k hk => ?_, fun hno => ?_⟩
    · rw [List.map_cons, hstance']
      exact hkept.turn hturn
    · rcases List.mem_cons.mp hk with rfl | hk
      · by_cases hne : t = .writeUnlock
        · subst hne
          exact R.free k v (by simp [hstance', Turn.after]) (by simp [hstance', Turn.after])
        · exact hneeds (hquiet hne)
      · exact hg.needs k (List.mem_cons_of_mem _ hk)
    · by_cases hne : t = .writeUnlock
      · exact hleaves hne (hg.needs h List.mem_cons_self)
      · exact hquiet hne

end Guarded

end Cpex.Infra
