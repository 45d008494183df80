import Mathlib.Algebra.GroupWithZero.Nat
import Mathlib.Data.List.Basic

/-!
# A heap whose cells are released by their holders

Cells are handed out as handles: an address with what kind of cell is there. Releasing or using an
address with no live cell of the right kind is undefined. The holders of a handle are counted, so
that who holds what is an equation between numbers.

* `Exchange` — what a piece of code takes from its caller and gives back
* `Balanced` — each live cell has one holder, and nothing else is held
* `Balanced.exchange` — the accounting rule
* `Balanced.not_drop` — a handle that is dropped is leaked
-/

namespace Cpex.Infra

/-! ## Totals -/

/-- The sum of `f` over a list. -/
def total {α : Type*} (f : α → Nat) (l : List α) : Nat := (l.map f).sum

section Total

variable {α : Type*} {f : α → Nat}

@[simp] theorem total_nil : total f [] = 0 := rfl

@[simp] theorem total_cons (a : α) (l : List α) : total f (a :: l) = f a + total f l := rfl

theorem total_append (l l' : List α) : total f (l ++ l') = total f l + total f l' := by
  rw [total, List.map_append, List.sum_append]
  rfl

theorem total_singleton (a : α) : total f [a] = f a := Nat.add_zero (f a)

/-- One element is replaced. -/
theorem total_set : ∀ {l : List α} {i : Nat} {a b : α}, l[i]? = some a →
    total f (l.set i b) + f a = total f l + f b
  | x :: l, 0, a, b, h => by
    obtain rfl := Option.some.inj h
    simp only [List.set_cons_zero, total_cons]
    omega
  | x :: l, i + 1, a, b, h => by
    have ih := total_set (l := l) (b := b) h
    simp only [List.set_cons_succ, total_cons]
    omega

theorem le_total {l : List α} {i : Nat} {a : α} (h : l[i]? = some a) : f a ≤ total f l := by
  obtain ⟨before, after, rfl⟩ := List.append_of_mem (List.mem_of_getElem? h)
  rw [total_append, total_cons]
  omega

end Total

/-! ## The heap -/

abbrev Addr : Type := Nat

/-- A cell of the heap. Addresses are not used again. -/
structure Cell (κ : Type*) where
  content : κ
  released : Bool

structure Heap (κ : Type*) where
  cells : List (Cell κ)
  /-- Something undefined has happened. -/
  undefined : Bool

namespace Heap

variable {κ τ : Type*}

def empty : Heap κ := ⟨[], false⟩

/-- The live cell at `p`. -/
def get? (h : Heap κ) (p : Addr) : Option κ :=
  match h.cells[p]? with
  | some ⟨content, false⟩ => some content
  | _ => none

def misuse (h : Heap κ) : Heap κ := { h with undefined := true }

def alloc (h : Heap κ) (content : κ) : Heap κ × Addr :=
  ({ h with cells := h.cells ++ [⟨content, false⟩] }, h.cells.length)

def release (h : Heap κ) (p : Addr) : Heap κ :=
  match h.get? p with
  | some content => { h with cells := h.cells.set p ⟨content, true⟩ }
  | none => h.misuse

theorem get?_eq_some_iff {h : Heap κ} {p : Addr} {content : κ} :
    h.get? p = some content ↔ h.cells[p]? = some ⟨content, false⟩ := by
  unfold get?
  constructor
  · intro hget
    split at hget
    · next c hc =>
      obtain rfl := Option.some.inj hget
      exact hc
    · cases hget
  · intro hcell
    rw [hcell]

theorem get?_alloc (h : Heap κ) (content : κ) (p : Addr) :
    (h.alloc content).1.get? p = if p = h.cells.length then some content else h.get? p := by
  unfold get? alloc
  split_ifs with hp
  · subst hp
    rw [List.getElem?_append_right (Nat.le_refl _), Nat.sub_self]
    rfl
  · by_cases hlt : p < h.cells.length
    · rw [List.getElem?_append_left hlt]
    · have hgt : h.cells.length < p := Nat.lt_of_le_of_ne (Nat.le_of_not_lt hlt) (Ne.symm hp)
      rw [List.getElem?_eq_none (Nat.le_of_not_lt hlt), List.getElem?_eq_none]
      simp only [List.length_append, List.length_singleton]
      omega

theorem get?_lt {h : Heap κ} {p : Addr} {content : κ} (hget : h.get? p = some content) :
    p < h.cells.length :=
  (List.getElem?_eq_some_iff.mp (get?_eq_some_iff.mp hget)).1

theorem get?_release {h : Heap κ} {p : Addr} {content : κ} (hget : h.get? p = some content)
    (q : Addr) : (h.release p).get? q = if q = p then none else h.get? q := by
  rw [release, hget]
  unfold get?
  split_ifs with hq
  · subst hq
    rw [List.getElem?_set_self (get?_lt hget)]
  · rw [List.getElem?_set_ne (Ne.symm hq)]

/-- The cell at `p` was handed out and released. -/
def Released (h : Heap κ) (p : Addr) : Prop := ∃ content, h.cells[p]? = some ⟨content, true⟩

theorem Released.alloc {h : Heap κ} {p : Addr} (hp : h.Released p) (content : κ) :
    (h.alloc content).1.Released p := by
  obtain ⟨old, hcell⟩ := hp
  refine ⟨old, ?_⟩
  rw [Heap.alloc, List.getElem?_append_left (List.getElem?_eq_some_iff.mp hcell).1]
  exact hcell

theorem Released.release {h : Heap κ} {p : Addr} (hp : h.Released p) (q : Addr) :
    (h.release q).Released p := by
  obtain ⟨old, hcell⟩ := hp
  refine ⟨old, ?_⟩
  unfold Heap.release
  split
  · next content hget =>
    have hne : q ≠ p := by
      rintro rfl
      cases hcell.symm.trans (get?_eq_some_iff.mp hget)
    exact (List.getElem?_set_ne hne).trans hcell
  · exact hcell

theorem released_release {h : Heap κ} {p : Addr} {content : κ} (hget : h.get? p = some content) :
    (h.release p).Released p := by
  refine ⟨content, ?_⟩
  rw [release, hget]
  exact List.getElem?_set_self (get?_lt hget)

theorem undefined_release {h : Heap κ} {p : Addr} {content : κ} (hget : h.get? p = some content) :
    (h.release p).undefined = h.undefined := by
  rw [release, hget]

end Heap

/-! ## Handles -/

/-- An address, with the kind of the cell there. -/
abbrev Handle (τ : Type*) : Type _ := Addr × τ

section Handles

variable {κ τ : Type*} [DecidableEq τ] {kind : κ → τ}

/-- Whether a handle, if there is one, is `x`. -/
def holding (o : Option (Handle τ)) (x : Handle τ) : Nat := if o = some x then 1 else 0

@[simp] theorem holding_none (x : Handle τ) : holding none x = 0 := rfl

theorem holding_self (x : Handle τ) : holding (some x) x = 1 := if_pos rfl

/-- Whether `x` is live. -/
def live (kind : κ → τ) (h : Heap κ) (x : Handle τ) : Nat :=
  if (h.get? x.1).map kind = some x.2 then 1 else 0

theorem live_le_one (h : Heap κ) (x : Handle τ) : live kind h x ≤ 1 := by
  unfold live
  split <;> omega

theorem live_eq_one_iff {h : Heap κ} {x : Handle τ} :
    live kind h x = 1 ↔ ∃ content, h.get? x.1 = some content ∧ kind content = x.2 := by
  rw [← Option.map_eq_some_iff, live]
  split <;> simp_all

theorem live_alloc (h : Heap κ) (content : κ) (x : Handle τ) :
    live kind (h.alloc content).1 x =
      live kind h x + holding (some (h.cells.length, kind content)) x := by
  obtain ⟨p, t⟩ := x
  simp only [live, holding, Heap.get?_alloc, Option.some.injEq, Prod.mk.injEq]
  by_cases hp : p = h.cells.length
  · subst hp
    have hnone : h.get? h.cells.length = none := by
      rw [Heap.get?, List.getElem?_eq_none (Nat.le_refl _)]
    simp [hnone]
  · have hne : h.cells.length ≠ p := Ne.symm hp
    simp [hp, hne]

theorem live_release {h : Heap κ} {p : Addr} {content : κ} (hget : h.get? p = some content)
    (x : Handle τ) :
    live kind (h.release p) x + holding (some (p, kind content)) x = live kind h x := by
  obtain ⟨q, t⟩ := x
  simp only [live, holding, Heap.get?_release hget, Option.some.injEq, Prod.mk.injEq]
  by_cases hq : q = p
  · subst hq
    simp [hget]
  · have hne : p ≠ q := Ne.symm hq
    simp [hq, hne]

/-! ## The accounting -/

/-- Code that was handed `taken` and hands out `given`. -/
structure Exchange (kind : κ → τ) (h h' : Heap κ) (taken given : Handle τ → Nat) : Prop where
  undefined : h'.undefined = h.undefined
  /-- What was released stays so. -/
  released : ∀ p, h.Released p → h'.Released p
  balance : ∀ x, live kind h' x + taken x = live kind h x + given x

theorem Exchange.refl {h : Heap κ} {t g : Handle τ → Nat} (heq : ∀ x, t x = g x) :
    Exchange kind h h t g :=
  ⟨rfl, fun _ hp => hp, fun x => congrArg (live kind h x + ·) (heq x)⟩

theorem Exchange.trans {h h' h'' : Heap κ} {taken given taken' given' : Handle τ → Nat}
    (first : Exchange kind h h' taken given) (second : Exchange kind h' h'' taken' given') :
    Exchange kind h h'' (fun x => taken x + taken' x) (fun x => given x + given' x) where
  undefined := second.undefined.trans first.undefined
  released p hp := second.released p (first.released p hp)
  balance x := by
    have hfirst := first.balance x
    have hsecond := second.balance x
    omega

theorem Exchange.alloc (h : Heap κ) (content : κ) :
    Exchange kind h (h.alloc content).1 (fun _ => 0)
      (holding (some ((h.alloc content).2, kind content))) where
  undefined := rfl
  released _ hp := hp.alloc content
  balance := live_alloc h content

theorem Exchange.release {h : Heap κ} {p : Addr} {content : κ} (hget : h.get? p = some content) :
    Exchange kind h (h.release p) (holding (some (p, kind content))) (fun _ => 0) where
  undefined := Heap.undefined_release hget
  released _ hp := hp.release p
  balance := live_release hget

/-- Nothing undefined has happened, each live cell has one holder, and only live cells are held. -/
structure Balanced (kind : κ → τ) (h : Heap κ) (held : Handle τ → Nat) : Prop where
  defined : h.undefined = false
  balance : ∀ x, held x = live kind h x

/-- What someone holds is there. -/
theorem Balanced.get? {h : Heap κ} {held : Handle τ → Nat} (hb : Balanced kind h held)
    {x : Handle τ} (hx : 1 ≤ held x) : ∃ content, h.get? x.1 = some content ∧ kind content = x.2 := by
  have hle : live kind h x ≤ 1 := live_le_one h x
  have hbalance := hb.balance x
  have hlive : live kind h x = 1 := by omega
  exact live_eq_one_iff.mp hlive

/-- **The accounting rule.** The holders give up what the code takes, and take what it gives. -/
theorem Balanced.exchange {h h' : Heap κ} {held held' taken given : Handle τ → Nat}
    (hb : Balanced kind h held) (he : Exchange kind h h' taken given)
    (hheld : ∀ x, held' x + taken x = held x + given x) : Balanced kind h' held' where
  defined := he.undefined.trans hb.defined
  balance x := by
    have hbalance := hb.balance x
    have hexchange := he.balance x
    have hholders := hheld x
    omega

/-- What its holder drops is leaked. -/
theorem Balanced.not_drop {h h' : Heap κ} {held held' taken given : Handle τ → Nat}
    (hb : Balanced kind h held) (he : Exchange kind h h' taken given) {x : Handle τ}
    (hdrop : held' x + taken x < held x + given x) : ¬ Balanced kind h' held' := fun hb' => by
  have hbalance := hb.balance x
  have hbalance' := hb'.balance x
  have hexchange := he.balance x
  omega

end Handles

end Cpex.Infra
