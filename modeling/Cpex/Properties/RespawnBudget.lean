import Cpex.Infra.Mealy
import Cpex.Host.Lifecycle

/-!
# The respawn budget

Attempts reserve from a budget that a success returns to full, and that an attempt returns to full
once the window has elapsed. The results are about the history of any sequence of attempts and
successes, whatever the clock reads.

* `budget` — the budget as a machine, an event at a time
* `BudgetTracked`, `budgetTracked_history` — what the state says of the history so far
* `BudgetKept` — numbers, windows, spans, and refusals that end
* `respawn_budget_kept` — every history keeps to the budget
-/

namespace Cpex.Host.Lifecycle

open Cpex.Infra

/-! ## Attempts and successes -/

/-- What happens to the budget. An attempt reads the clock. -/
inductive BudgetEvent where
  | attempt (now : Nat)
  | success

/-- What comes of an event. -/
inductive BudgetRecord where
  | granted (now number : Nat)
  | refused (now : Nat)
  | success
  deriving DecidableEq

/-- The clock reading of an attempt. -/
def BudgetRecord.reading : BudgetRecord → Option Nat
  | .granted now _ => some now
  | .refused now => some now
  | .success => none

def BudgetRecord.isGrant : BudgetRecord → Bool
  | .granted _ _ => true
  | .refused _ | .success => false

def RespawnState.attempt (r : RespawnState) (now : Nat) : RespawnState × BudgetRecord :=
  match r.tryReserve now with
  | (r', some number) => (r', .granted now number)
  | (r', none) => (r', .refused now)

/-- The respawn budget, an event at a time. -/
def budget : Mealy RespawnState BudgetEvent BudgetRecord where
  step r e :=
    match e with
    | .attempt now => r.attempt now
    | .success => (r.recordSuccess, .success)

/-- The window in the unit of the clock. -/
def windowNanos : Nat := respawnBudgetResetSecs * 1000000000

variable {n s now : Nat}

theorem expired_iff : RespawnState.expired ⟨n, some s⟩ now = true ↔ s + windowNanos ≤ now := by
  unfold RespawnState.expired windowNanos respawnBudgetResetSecs
  rw [Option.any_some, decide_eq_true_iff]
  omega

/-- A full budget grants, and opens a window. -/
theorem attempt_new : RespawnState.new.attempt now = (⟨1, some now⟩, .granted now 1) := rfl

/-- An elapsed window is replaced. -/
theorem attempt_elapsed (h : s + windowNanos ≤ now) :
    RespawnState.attempt ⟨n, some s⟩ now = (⟨1, some now⟩, .granted now 1) := by
  unfold RespawnState.attempt RespawnState.tryReserve
  rw [expired_iff.mpr h]
  rfl

/-- A window that is open grants the next number. -/
theorem attempt_open (h : now < s + windowNanos) (hn : n < maxRespawnAttempts) :
    RespawnState.attempt ⟨n, some s⟩ now = (⟨n + 1, some s⟩, .granted now (n + 1)) := by
  have hopen : RespawnState.expired ⟨n, some s⟩ now = false := by
    rw [Bool.eq_false_iff, ne_eq, expired_iff]
    omega
  unfold RespawnState.attempt RespawnState.tryReserve
  rw [hopen]
  simp only [Bool.false_eq_true, ↓reduceIte, if_neg (Nat.not_le.mpr hn)]
  rfl

/-- A window that is spent refuses. -/
theorem attempt_spent (h : now < s + windowNanos) (hn : maxRespawnAttempts ≤ n) :
    RespawnState.attempt ⟨n, some s⟩ now = (⟨n, some s⟩, .refused now) := by
  have hopen : RespawnState.expired ⟨n, some s⟩ now = false := by
    rw [Bool.eq_false_iff, ne_eq, expired_iff]
    omega
  unfold RespawnState.attempt RespawnState.tryReserve
  rw [hopen]
  simp only [Bool.false_eq_true, ↓reduceIte, if_pos hn]

/-! ## What the state says of the history -/

/-- The history is that of a window: it has a first grant at `s`, no success since, and a last grant
numbered `n` with nothing granted since. -/
structure InWindow (history : List BudgetRecord) (n s : Nat) : Prop where
  opened : ∃ earlier between, history = earlier ++ .granted s 1 :: between ∧
    .success ∉ between
  last : ∃ earlier now between, history = earlier ++ .granted now n :: between ∧
    ∀ x ∈ between, ∃ t, x = .refused t

/-- A budget that is full, or the one of a window. -/
inductive BudgetTracked (history : List BudgetRecord) : RespawnState → Prop where
  | full : BudgetTracked history .new
  | window {n s : Nat} (pos : 1 ≤ n) (le : n ≤ maxRespawnAttempts)
      (inWindow : InWindow history n s) : BudgetTracked history ⟨n, some s⟩

variable {history : List BudgetRecord} {r : RespawnState}

theorem budgetTracked_opened (history : List BudgetRecord) (now : Nat) :
    BudgetTracked (history ++ [.granted now 1]) ⟨1, some now⟩ :=
  .window (Nat.le_refl 1) (by decide)
    ⟨⟨history, [], rfl, by simp⟩, ⟨history, now, [], rfl, by simp⟩⟩

theorem BudgetTracked.attempt (h : BudgetTracked history r) (now : Nat) :
    BudgetTracked (history ++ [(r.attempt now).2]) (r.attempt now).1 := by
  cases h with
  | full => exact budgetTracked_opened history now
  | @window n s pos le inWindow =>
    obtain ⟨⟨earlier, between, hopened, hsuccess⟩, hlast⟩ := inWindow
    by_cases helapsed : s + windowNanos ≤ now
    · rw [attempt_elapsed helapsed]
      exact budgetTracked_opened history now
    · have hopen : now < s + windowNanos := by omega
      by_cases hn : n < maxRespawnAttempts
      · rw [attempt_open hopen hn]
        refine .window (by omega) hn ⟨⟨earlier, between ++ [.granted now (n + 1)], ?_, ?_⟩,
          ⟨history, now, [], rfl, by simp⟩⟩
        · rw [hopened, List.append_assoc, List.cons_append]
        · simp [hsuccess]
      · rw [attempt_spent hopen (by omega)]
        obtain ⟨earlier', now', between', hlast, hrefused⟩ := hlast
        refine .window pos le ⟨⟨earlier, between ++ [.refused now], ?_, ?_⟩,
          ⟨earlier', now', between' ++ [.refused now], ?_, ?_⟩⟩
        · rw [hopened, List.append_assoc, List.cons_append]
        · simp [hsuccess]
        · rw [hlast, List.append_assoc, List.cons_append]
        · intro x hx
          rcases List.mem_append.mp hx with hx | hx
          · exact hrefused x hx
          · exact ⟨now, List.mem_singleton.mp hx⟩

/-- **The state after any events says what the history ends with.** -/
theorem budgetTracked_history (events : List BudgetEvent) :
    BudgetTracked (budget.outputs .new events) (budget.after .new events) := by
  refine budget.history_invariant (fun history r e h => ?_) .full events
  cases e with
  | attempt now => exact h.attempt now
  | success => exact .full

/-- What a healthy answer records is a success. -/
theorem BudgetTracked.noteHealthy (h : BudgetTracked history r) :
    r.noteHealthy = r.recordSuccess := by
  cases h with
  | full => rfl
  | window pos le inWindow => exact if_pos pos

/-- Where a history is cut, the state tracks the part before. -/
theorem exists_budgetTracked {events : List BudgetEvent} {before rest : List BudgetRecord}
    (h : budget.outputs .new events = before ++ rest) :
    ∃ r later, BudgetTracked before r ∧ budget.outputs r later = rest := by
  obtain ⟨es₁, es₂, rfl, hbefore, hrest⟩ := budget.exists_of_outputs_eq_append h
  exact ⟨budget.after .new es₁, es₂, hbefore ▸ budgetTracked_history es₁, hrest⟩

/-! ## Attempts of a history -/

variable {events : List BudgetEvent} {before rest : List BudgetRecord} {number : Nat}

/-- A grant is the first of a window or the next of one. -/
inductive Granting (before : List BudgetRecord) (r : RespawnState) (now : Nat) : Nat → Prop where
  | first (next : r.attempt now = (⟨1, some now⟩, .granted now 1)) : Granting before r now 1
  | next {n s : Nat} (pos : 1 ≤ n) (lt : n < maxRespawnAttempts) (opened : now < s + windowNanos)
      (inWindow : InWindow before n s) : Granting before r now (n + 1)

theorem BudgetTracked.granting (h : BudgetTracked before r)
    (hgrant : (r.attempt now).2 = .granted now number) : Granting before r now number := by
  cases h with
  | full =>
    obtain rfl : 1 = number := (BudgetRecord.granted.inj hgrant).2
    exact .first rfl
  | @window n s pos le inWindow =>
    by_cases helapsed : s + windowNanos ≤ now
    · rw [attempt_elapsed helapsed] at hgrant
      obtain rfl : 1 = number := (BudgetRecord.granted.inj hgrant).2
      exact .first (attempt_elapsed helapsed)
    · have hopen : now < s + windowNanos := by omega
      by_cases hn : n < maxRespawnAttempts
      · rw [attempt_open hopen hn] at hgrant
        obtain rfl : n + 1 = number := (BudgetRecord.granted.inj hgrant).2
        exact .next pos hn hopen inWindow
      · rw [attempt_spent hopen (by omega)] at hgrant
        cases hgrant

theorem reading_attempt (r : RespawnState) (now : Nat) :
    (r.attempt now).2.reading = some now := by
  unfold RespawnState.attempt
  split
  · rfl
  · rfl

/-- A record that is no success is that of an attempt, with its reading. -/
theorem exists_attempt {later : List BudgetEvent} {x : BudgetRecord}
    (h : budget.outputs r later = x :: rest) (hx : x ≠ .success) :
    ∃ now later', (r.attempt now).2 = x ∧ x.reading = some now ∧
      budget.outputs (r.attempt now).1 later' = rest := by
  obtain ⟨e, later', -, hout, hrest⟩ := budget.exists_of_outputs_eq_cons h
  cases e with
  | success => exact absurd hout.symm hx
  | attempt now => exact ⟨now, later', hout, hout ▸ reading_attempt r now, hrest⟩

/-- Every grant of a history is made in a state that tracks what is before it. -/
theorem exists_granting (h : budget.outputs .new events = before ++ .granted now number :: rest) :
    ∃ r later, BudgetTracked before r ∧ Granting before r now number ∧
      budget.outputs (r.attempt now).1 later = rest := by
  obtain ⟨r, later, htracked, hrest⟩ := exists_budgetTracked h
  obtain ⟨now', later', hout, hreading, hrest'⟩ := exists_attempt hrest (by simp)
  obtain rfl : now = now' := Option.some.inj hreading
  exact ⟨r, later', htracked, htracked.granting hout, hrest'⟩

/-! ## Numbers and windows -/

theorem number_bounds (h : budget.outputs .new events = before ++ .granted now number :: rest) :
    1 ≤ number ∧ number ≤ maxRespawnAttempts := by
  obtain ⟨r, later, -, hgranting, -⟩ := exists_granting h
  cases hgranting with
  | first next => exact ⟨Nat.le_refl 1, by decide⟩
  | next pos lt opened inWindow => exact ⟨by omega, lt⟩

/-- A number after the first follows the one before it, with nothing but refusals between, in a
window that is open. -/
theorem number_follows
    (h : budget.outputs .new events = before ++ .granted now (number + 1) :: rest)
    (hpos : number ≠ 0) :
    (∃ earlier now' between, before = earlier ++ .granted now' number :: between ∧
      ∀ x ∈ between, ∃ t, x = .refused t) ∧
    ∃ earlier opened between, before = earlier ++ .granted opened 1 :: between ∧
      .success ∉ between ∧ now < opened + windowNanos := by
  obtain ⟨r, later, -, hgranting, -⟩ := exists_granting h
  cases hgranting with
  | first next => exact absurd rfl hpos
  | @next n s pos lt hopen inWindow =>
    obtain ⟨earlier, between, hbefore, hsuccess⟩ := inWindow.opened
    exact ⟨inWindow.last, earlier, s, between, hbefore, hsuccess, hopen⟩

/-- From a window on, the next first grant with no success before it waits for the window. -/
theorem next_window_le : ∀ {between : List BudgetRecord} {later : List BudgetEvent} {n s : Nat},
    1 ≤ n → budget.outputs ⟨n, some s⟩ later = between ++ .granted now 1 :: rest →
      .success ∉ between → s + windowNanos ≤ now
  | [], later, n, s, hn, h, _ => by
    obtain ⟨now', later', hout, hreading, -⟩ := exists_attempt h (by simp)
    obtain rfl : now = now' := Option.some.inj hreading
    by_contra helapsed
    have hopen : now < s + windowNanos := by omega
    by_cases hlt : n < maxRespawnAttempts
    · rw [attempt_open hopen hlt, BudgetRecord.granted.injEq] at hout
      omega
    · rw [attempt_spent hopen (by omega)] at hout
      cases hout
  | x :: between, later, n, s, hn, h, hsuccess => by
    have hx : x ≠ .success := fun heq => hsuccess (heq ▸ List.mem_cons_self)
    have hsuccess' : .success ∉ between := fun hmem => hsuccess (List.mem_cons_of_mem x hmem)
    obtain ⟨now', later', -, -, hrest⟩ := exists_attempt h hx
    by_cases helapsed : s + windowNanos ≤ now'
    · rw [attempt_elapsed helapsed] at hrest
      have hlater := next_window_le (Nat.le_refl 1) hrest hsuccess'
      omega
    · have hopen : now' < s + windowNanos := by omega
      by_cases hlt : n < maxRespawnAttempts
      · rw [attempt_open hopen hlt] at hrest
        exact next_window_le (by omega) hrest hsuccess'
      · rw [attempt_spent hopen (by omega)] at hrest
        exact next_window_le hn hrest hsuccess'

/-- Two first grants with no success between them are a window apart. -/
theorem windows_apart {between : List BudgetRecord} {now' : Nat}
    (h : budget.outputs .new events =
      before ++ .granted now 1 :: (between ++ .granted now' 1 :: rest))
    (hsuccess : .success ∉ between) : now + windowNanos ≤ now' := by
  obtain ⟨r, later, -, hgranting, hrest⟩ := exists_granting h
  cases hgranting with
  | first next =>
    rw [next] at hrest
    exact next_window_le (Nat.le_refl 1) hrest hsuccess
  | next pos lt opened inWindow => exact absurd pos (by decide)

/-! ## Grants in a span -/

/-- The grants of a part of a history. -/
def grants (span : List BudgetRecord) : Nat := (span.filter BudgetRecord.isGrant).length

theorem grants_cons_granted (now number : Nat) (span : List BudgetRecord) :
    grants (.granted now number :: span) = grants span + 1 := rfl

theorem grants_cons_refused (now : Nat) (span : List BudgetRecord) :
    grants (.refused now :: span) = grants span := rfl

/-- All readings of the part are within less than a window. -/
def Short (span : List BudgetRecord) : Prop :=
  ∀ x ∈ span, ∀ y ∈ span, ∀ t t', x.reading = some t → y.reading = some t' →
    t' < t + windowNanos

/-- While a window is open it grants what is left of the budget. -/
theorem grants_open : ∀ {span : List BudgetRecord} {later : List BudgetEvent} {n s : Nat},
    n ≤ maxRespawnAttempts → budget.outputs ⟨n, some s⟩ later = span ++ rest →
      .success ∉ span → (∀ x ∈ span, ∀ t, x.reading = some t → t < s + windowNanos) →
        grants span ≤ maxRespawnAttempts - n
  | [], later, n, s, _, _, _, _ => Nat.zero_le _
  | x :: span, later, n, s, hn, h, hsuccess, hshort => by
    have hx : x ≠ .success := fun heq => hsuccess (heq ▸ List.mem_cons_self)
    have hsuccess' : .success ∉ span := fun hmem => hsuccess (List.mem_cons_of_mem x hmem)
    have hshort' : ∀ y ∈ span, ∀ t, y.reading = some t → t < s + windowNanos :=
      fun y hy => hshort y (List.mem_cons_of_mem x hy)
    obtain ⟨now, later', hout, hreading, hrest⟩ := exists_attempt h hx
    have hopen := hshort x List.mem_cons_self now hreading
    by_cases hlt : n < maxRespawnAttempts
    · rw [attempt_open hopen hlt] at hout hrest
      have hgrants := grants_open hlt hrest hsuccess' hshort'
      rw [← hout, grants_cons_granted]
      omega
    · rw [attempt_spent hopen (by omega)] at hout hrest
      have hgrants := grants_open hn hrest hsuccess' hshort'
      rwa [← hout, grants_cons_refused]

/-- A window opened in a short span takes the rest of the span. -/
theorem grants_opened {later : List BudgetEvent} {span : List BudgetRecord}
    (h : budget.outputs ⟨1, some now⟩ later = span ++ rest)
    (hsuccess : .success ∉ span) (hshort : Short (.granted now 1 :: span)) :
    grants (.granted now 1 :: span) ≤ maxRespawnAttempts := by
  have hreadings : ∀ x ∈ span, ∀ t, x.reading = some t → t < now + windowNanos :=
    fun x hx t ht => hshort _ List.mem_cons_self x (List.mem_cons_of_mem _ hx) now t rfl ht
  have hgrants := grants_open (by decide) h hsuccess hreadings
  have hmax : maxRespawnAttempts = 3 := rfl
  rw [grants_cons_granted]
  omega

/-- A short span that starts in a window sees the end of it, and one more at most. -/
theorem grants_window : ∀ {span : List BudgetRecord} {later : List BudgetEvent} {n s : Nat},
    n ≤ maxRespawnAttempts → budget.outputs ⟨n, some s⟩ later = span ++ rest →
      .success ∉ span → Short span → grants span ≤ 2 * maxRespawnAttempts - n
  | [], later, n, s, _, _, _, _ => Nat.zero_le _
  | x :: span, later, n, s, hn, h, hsuccess, hshort => by
    have hx : x ≠ .success := fun heq => hsuccess (heq ▸ List.mem_cons_self)
    have hsuccess' : .success ∉ span := fun hmem => hsuccess (List.mem_cons_of_mem x hmem)
    have hshort' : Short span := fun y hy z hz =>
      hshort y (List.mem_cons_of_mem x hy) z (List.mem_cons_of_mem x hz)
    obtain ⟨now, later', hout, -, hrest⟩ := exists_attempt h hx
    by_cases helapsed : s + windowNanos ≤ now
    · rw [attempt_elapsed helapsed] at hout hrest
      obtain rfl : .granted now 1 = x := hout
      have hgrants := grants_opened hrest hsuccess' hshort
      omega
    · have hopen : now < s + windowNanos := by omega
      by_cases hlt : n < maxRespawnAttempts
      · rw [attempt_open hopen hlt] at hout hrest
        have hgrants := grants_window hlt hrest hsuccess' hshort'
        rw [← hout, grants_cons_granted]
        omega
      · rw [attempt_spent hopen (by omega)] at hout hrest
        have hgrants := grants_window hn hrest hsuccess' hshort'
        rwa [← hout, grants_cons_refused]

/-- A short span with no success has the grants of two windows at most, less one. -/
theorem grants_short {span : List BudgetRecord}
    (h : budget.outputs .new events = before ++ (span ++ rest)) (hsuccess : .success ∉ span)
    (hshort : Short span) : grants span ≤ 2 * maxRespawnAttempts - 1 := by
  obtain ⟨r, later, htracked, hrest⟩ := exists_budgetTracked h
  cases htracked with
  | window pos le inWindow =>
    have hgrants := grants_window le hrest hsuccess hshort
    omega
  | full =>
    cases span with
    | nil => exact Nat.zero_le _
    | cons x span =>
      have hx : x ≠ .success := fun heq => hsuccess (heq ▸ List.mem_cons_self)
      obtain ⟨now, later', hout, -, hrest'⟩ := exists_attempt hrest hx
      rw [attempt_new] at hout hrest'
      obtain rfl : .granted now 1 = x := hout
      have hgrants := grants_opened hrest' (fun hmem => hsuccess (List.mem_cons_of_mem _ hmem))
        hshort
      have hmax : maxRespawnAttempts = 3 := rfl
      omega

/-! ## Refusals -/

/-- After a success the budget is full. -/
theorem exists_full {later : List BudgetEvent}
    (h : budget.outputs r later = .success :: rest) :
    ∃ later', budget.outputs .new later' = rest := by
  obtain ⟨e, later', -, hout, hrest⟩ := budget.exists_of_outputs_eq_cons h
  cases e with
  | success => exact ⟨later', hrest⟩
  | attempt now =>
    have hreading := reading_attempt r now
    rw [show (r.attempt now).2 = .success from hout] at hreading
    cases hreading

variable {x : BudgetRecord} {t : Nat}

/-- A full budget grants the next attempt. -/
theorem grant_of_full : ∀ {waiting : List BudgetRecord} {later : List BudgetEvent},
    budget.outputs .new later = waiting ++ x :: rest → x.reading = some t →
      ∃ y ∈ waiting ++ [x], y.isGrant = true
  | [], later, h, ht => by
    obtain ⟨now, later', hout, -, -⟩ := exists_attempt h fun heq => by rw [heq] at ht; cases ht
    exact ⟨x, List.mem_singleton_self x, hout ▸ rfl⟩
  | y :: waiting, later, h, ht => by
    by_cases hy : y = .success
    · subst hy
      obtain ⟨later', hrest⟩ := exists_full h
      obtain ⟨z, hz, hgrant⟩ := grant_of_full hrest ht
      exact ⟨z, List.mem_cons_of_mem _ hz, hgrant⟩
    · obtain ⟨now, later', hout, -, -⟩ := exists_attempt h hy
      exact ⟨y, List.mem_cons_self, hout ▸ rfl⟩

/-- From a window on, an attempt after the window is granted, unless one was before. -/
theorem grant_of_elapsed {s : Nat} : ∀ {waiting : List BudgetRecord} {later : List BudgetEvent},
    budget.outputs ⟨n, some s⟩ later = waiting ++ x :: rest → x.reading = some t →
      s + windowNanos ≤ t → ∃ y ∈ waiting ++ [x], y.isGrant = true
  | [], later, h, ht, helapsed => by
    obtain ⟨now, later', hout, hreading, -⟩ :=
      exists_attempt h fun heq => by rw [heq] at ht; cases ht
    obtain rfl : now = t := Option.some.inj (hreading.symm.trans ht)
    rw [attempt_elapsed helapsed] at hout
    exact ⟨x, List.mem_singleton_self x, hout ▸ rfl⟩
  | y :: waiting, later, h, ht, helapsed => by
    by_cases hy : y = .success
    · subst hy
      obtain ⟨later', hrest⟩ := exists_full h
      obtain ⟨z, hz, hgrant⟩ := grant_of_full hrest ht
      exact ⟨z, List.mem_cons_of_mem _ hz, hgrant⟩
    · obtain ⟨now, later', hout, -, hrest⟩ := exists_attempt h hy
      by_cases hgranted : y.isGrant = true
      · exact ⟨y, List.mem_cons_self, hgranted⟩
      · -- A refusal leaves the window as it was.
        by_cases hnow : s + windowNanos ≤ now
        · rw [attempt_elapsed hnow] at hout
          exact absurd (hout ▸ rfl) hgranted
        · have hopen : now < s + windowNanos := by omega
          by_cases hlt : n < maxRespawnAttempts
          · rw [attempt_open hopen hlt] at hout
            exact absurd (hout ▸ rfl) hgranted
          · rw [attempt_spent hopen (by omega)] at hrest
            obtain ⟨z, hz, hgrant⟩ := grant_of_elapsed hrest ht helapsed
            exact ⟨z, List.mem_cons_of_mem y hz, hgrant⟩

/-- A refusal is in an open window, and ends with it. -/
theorem refusal_ends (h : budget.outputs .new events = before ++ .refused now :: rest) :
    ∃ earlier opened between, before = earlier ++ .granted opened 1 :: between ∧
      .success ∉ between ∧ now < opened + windowNanos ∧
      ∀ waiting x rest' t, rest = waiting ++ x :: rest' → x.reading = some t →
        opened + windowNanos ≤ t → ∃ y ∈ waiting ++ [x], y.isGrant = true := by
  obtain ⟨r, later, htracked, hrest⟩ := exists_budgetTracked h
  obtain ⟨now', later', hout, hreading, hrest'⟩ := exists_attempt hrest (by simp)
  obtain rfl : now = now' := Option.some.inj hreading
  cases htracked with
  | full => cases hout
  | @window n s pos le inWindow =>
    by_cases helapsed : s + windowNanos ≤ now
    · rw [attempt_elapsed helapsed] at hout
      cases hout
    · have hopen : now < s + windowNanos := by omega
      by_cases hlt : n < maxRespawnAttempts
      · rw [attempt_open hopen hlt] at hout
        cases hout
      · rw [attempt_spent hopen (by omega)] at hrest'
        obtain ⟨earlier, between, hbefore, hsuccess⟩ := inWindow.opened
        refine ⟨earlier, s, between, hbefore, hsuccess, hopen, ?_⟩
        intro waiting x rest'' t hsplit ht helapsed'
        subst hsplit
        exact grant_of_elapsed hrest' ht helapsed'

/-! ## Every history -/

/--
What is meant to hold of a history. The numbers are in range, so that the backoff shifts by less
than the width of its word, and count up from 1; two windows with no success between them do not
overlap; a span shorter than a window, with no success, has the grants of two windows at most, less
one; and a refusal falls in a window, after which the next attempt is granted.
-/
structure BudgetKept (history : List BudgetRecord) : Prop where
  range : ∀ before now number rest, history = before ++ .granted now number :: rest →
    1 ≤ number ∧ number ≤ maxRespawnAttempts ∧ number - 1 < 64
  consecutive : ∀ before now number rest,
    history = before ++ .granted now (number + 1) :: rest → number ≠ 0 →
      (∃ earlier now' between, before = earlier ++ .granted now' number :: between ∧
        ∀ x ∈ between, ∃ t, x = .refused t) ∧
      ∃ earlier opened between, before = earlier ++ .granted opened 1 :: between ∧
        .success ∉ between ∧ now < opened + windowNanos
  windows : ∀ before now between now' rest,
    history = before ++ .granted now 1 :: (between ++ .granted now' 1 :: rest) →
      .success ∉ between → now + windowNanos ≤ now'
  spans : ∀ before span rest, history = before ++ (span ++ rest) → .success ∉ span →
    Short span → grants span ≤ 2 * maxRespawnAttempts - 1
  recovers : ∀ before now rest, history = before ++ .refused now :: rest →
    ∃ earlier opened between, before = earlier ++ .granted opened 1 :: between ∧
      .success ∉ between ∧ now < opened + windowNanos ∧
      ∀ waiting x rest' t, rest = waiting ++ x :: rest' → x.reading = some t →
        opened + windowNanos ≤ t → ∃ y ∈ waiting ++ [x], y.isGrant = true

/--
**The respawn budget is kept.** Every history of attempts and successes, from a full budget on,
keeps to it, whatever the clock reads at the attempts.
-/
theorem respawn_budget_kept (events : List BudgetEvent) :
    BudgetKept (budget.outputs .new events) where
  range := by
    intro before now number rest h
    obtain ⟨hpos, hle⟩ := number_bounds h
    have hmax : maxRespawnAttempts = 3 := rfl
    exact ⟨hpos, hle, by omega⟩
  consecutive _ _ _ _ h hpos := number_follows h hpos
  windows _ _ _ _ _ h hsuccess := windows_apart h hsuccess
  spans _ _ _ h hsuccess hshort := grants_short h hsuccess hshort
  recovers _ _ _ h := refusal_ends h

end Cpex.Host.Lifecycle
