import Mathlib.Data.List.Sort

/-!
# Stable sorting

A list sorted by a comparator keeps the order of the elements it does not tell apart. So the
result depends on the order of the list exactly where two elements are tied and different.

* `sortBy` — the sort by a comparator
* `filter_tied_sortBy` — the elements tied with one keep their order
* `sortBy_eq_of_perm` — without different ties the order of the list does not matter
* `head_eq_of_sortBy_eq` — with them it does
-/

namespace Cpex.Infra

/-- Comparing by a part of the values. -/
theorem transCmp_on {α β : Type*} (f : α → β) (cmp : β → β → Ordering) [Std.TransCmp cmp] :
    Std.TransCmp fun a b => cmp (f a) (f b) where
  eq_swap := by
    intro a b
    have hswap : cmp (f a) (f b) = (cmp (f b) (f a)).swap := Std.OrientedCmp.eq_swap
    exact hswap
  isLE_trans := by
    intro a b c hab hbc
    have hac : (cmp (f a) (f c)).isLE := Std.TransCmp.isLE_trans hab hbc
    exact hac

variable {α : Type*} (cmp : α → α → Ordering) [Std.TransCmp cmp]

theorem isTrans_ne_gt : IsTrans α fun a b => cmp a b ≠ .gt := by
  constructor
  intro a b c hab hbc
  exact Ordering.isLE_iff_ne_gt.mp (Std.TransCmp.isLE_trans
    (Ordering.isLE_iff_ne_gt.mpr hab) (Ordering.isLE_iff_ne_gt.mpr hbc))

theorem total_ne_gt : Std.Total fun a b => cmp a b ≠ .gt := by
  constructor
  intro a b
  have hswap : cmp b a = (cmp a b).swap := Std.OrientedCmp.eq_swap
  rw [hswap]
  cases cmp a b <;> simp

/-- `sort_by`, which is stable. -/
def sortBy (l : List α) : List α := l.insertionSort fun a b => cmp a b ≠ .gt

theorem pairwise_sortBy (l : List α) : (sortBy cmp l).Pairwise fun a b => cmp a b ≠ .gt :=
  have := isTrans_ne_gt cmp
  have := total_ne_gt cmp
  List.pairwise_insertionSort _ l

omit [Std.TransCmp cmp] in
theorem perm_sortBy (l : List α) : (sortBy cmp l).Perm l := List.perm_insertionSort _ l

/-- **The elements tied with one keep their order.** -/
theorem filter_tied_sortBy (a : α) (l : List α) :
    (sortBy cmp l).filter (cmp a · = .eq) = l.filter (cmp a · = .eq) := by
  have htied : (l.filter (cmp a · = .eq)).Pairwise fun b c => cmp b c ≠ .gt := by
    refine List.pairwise_of_forall_mem_list fun b hb c hc => ?_
    have hab : cmp a b = .eq := of_decide_eq_true (List.mem_filter.mp hb).2
    have hac : cmp a c = .eq := of_decide_eq_true (List.mem_filter.mp hc).2
    have hbc : cmp b c = .eq := Std.TransCmp.eq_trans (Std.OrientedCmp.eq_symm hab) hac
    rw [hbc]
    decide
  have hsub : (l.filter (cmp a · = .eq)).Sublist (sortBy cmp l) :=
    List.sublist_insertionSort htied List.filter_sublist
  have hsub' := hsub.filter (cmp a · = .eq)
  rw [List.filter_filter, List.filter_congr (q := (cmp a · = .eq)) (by simp)] at hsub'
  exact (hsub'.eq_of_length ((perm_sortBy cmp l).filter _).length_eq.symm).symm

variable {cmp} {l l₁ l₂ : List α}

/-- Two orders of a list whose ties are equal are sorted to one list. -/
theorem sortBy_eq_of_perm (hperm : l₁.Perm l₂)
    (hties : ∀ a ∈ l₁, ∀ b ∈ l₁, cmp a b = .eq → a = b) : sortBy cmp l₁ = sortBy cmp l₂ := by
  have hsorted : (sortBy cmp l₁).Perm (sortBy cmp l₂) :=
    (perm_sortBy cmp l₁).trans (hperm.trans (perm_sortBy cmp l₂).symm)
  refine hsorted.eq_of_pairwise ?_ (pairwise_sortBy cmp l₁) (pairwise_sortBy cmp l₂)
  intro a b ha hb hab hba
  have ha' : a ∈ l₁ := (perm_sortBy cmp l₁).mem_iff.mp ha
  have hb' : b ∈ l₁ := (hperm.trans (perm_sortBy cmp l₂).symm).mem_iff.mpr hb
  refine hties a ha' b hb' ?_
  have hswap : cmp b a = (cmp a b).swap := Std.OrientedCmp.eq_swap
  rw [hswap] at hba
  cases hcmp : cmp a b with
  | lt => rw [hcmp] at hba; exact absurd rfl hba
  | eq => rfl
  | gt => exact absurd hcmp hab

/-- Two tied elements, each the first of its list. -/
theorem head_eq_of_sortBy_eq {a b : α} (htied : cmp a b = .eq)
    (h : sortBy cmp (a :: l₁) = sortBy cmp (b :: l₂)) : a = b := by
  have hself : cmp a a = .eq := Std.ReflCmp.compare_self
  have hfilter := congrArg (List.filter (cmp a · = .eq)) h
  rw [filter_tied_sortBy, filter_tied_sortBy, List.filter_cons, if_pos (decide_eq_true hself),
    List.filter_cons, if_pos (decide_eq_true htied)] at hfilter
  exact (List.cons.inj hfilter).1

end Cpex.Infra
