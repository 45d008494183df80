import Mathlib.Data.List.Nodup

/-!
# Maps as lists of entries

Lookup, insertion and removal on a list of key-value pairs, first entry first. The lookup lemmas
hold of every list; `Nodup` keys are what a hash map or a sorted map keeps and what makes lookup
and membership agree.

`put` keeps the place of an existing key and appends a new one; `putSorted` keeps the keys of a
sorted list sorted.
-/

namespace Cpex.Infra.Assoc

variable {κ ν : Type*} [DecidableEq κ]

/-- The value of the first entry of this key. -/
def get? (key : κ) : List (κ × ν) → Option ν
  | [] => none
  | (k, v) :: rest => if k = key then some v else get? key rest

/-- Removes every entry of this key. -/
def erase (key : κ) (entries : List (κ × ν)) : List (κ × ν) :=
  entries.filter fun e => e.1 ≠ key

/-- Replaces the value of this key, or appends an entry for it. -/
def put (key : κ) (v : ν) : List (κ × ν) → List (κ × ν)
  | [] => [(key, v)]
  | (k, w) :: rest => if k = key then (key, v) :: rest else (k, w) :: put key v rest

/-- A strict total order on keys. -/
structure KeyOrder (κ : Type*) where
  lt : κ → κ → Bool
  irrefl : ∀ a, lt a a = false
  trans : ∀ a b c, lt a b = true → lt b c = true → lt a c = true
  total : ∀ a b, lt a b = false → a ≠ b → lt b a = true

/-- Replaces the value of this key, or inserts an entry before the first greater key. -/
def putSorted (o : KeyOrder κ) (key : κ) (v : ν) : List (κ × ν) → List (κ × ν)
  | [] => [(key, v)]
  | (k, w) :: rest =>
    if k = key then (key, v) :: rest
    else if o.lt key k then (key, v) :: (k, w) :: rest
    else (k, w) :: putSorted o key v rest

/-! ## Lookup after an update -/

@[simp] theorem get?_nil (key : κ) : get? key ([] : List (κ × ν)) = none := rfl

theorem get?_cons (key k : κ) (v : ν) (rest : List (κ × ν)) :
    get? key ((k, v) :: rest) = if k = key then some v else get? key rest := rfl

@[simp] theorem get?_cons_self (key : κ) (v : ν) (rest : List (κ × ν)) :
    get? key ((key, v) :: rest) = some v := by simp [get?]

theorem get?_cons_ne {key k : κ} (hne : k ≠ key) (v : ν) (rest : List (κ × ν)) :
    get? key ((k, v) :: rest) = get? key rest := by simp [get?, hne]

@[simp] theorem get?_put_self (key : κ) (v : ν) :
    ∀ entries : List (κ × ν), get? key (put key v entries) = some v
  | [] => by simp [put]
  | (k, w) :: rest => by
    rw [put]
    split
    · simp
    · next hne => rw [get?_cons_ne hne, get?_put_self key v rest]

theorem get?_put_ne {key j : κ} (hne : j ≠ key) (v : ν) :
    ∀ entries : List (κ × ν), get? j (put key v entries) = get? j entries
  | [] => by simp [put, get?, hne.symm]
  | (k, w) :: rest => by
    rw [put]
    split
    · next hk => rw [get?_cons_ne hne.symm, hk, get?_cons_ne hne.symm]
    · rw [get?_cons, get?_cons, get?_put_ne hne v rest]

@[simp] theorem get?_putSorted_self (o : KeyOrder κ) (key : κ) (v : ν) :
    ∀ entries : List (κ × ν), get? key (putSorted o key v entries) = some v
  | [] => by simp [putSorted]
  | (k, w) :: rest => by
    rw [putSorted]
    split
    · simp
    · next hne =>
      split
      · simp
      · rw [get?_cons_ne hne, get?_putSorted_self o key v rest]

theorem get?_putSorted_ne (o : KeyOrder κ) {key j : κ} (hne : j ≠ key) (v : ν) :
    ∀ entries : List (κ × ν), get? j (putSorted o key v entries) = get? j entries
  | [] => by simp [putSorted, get?, hne.symm]
  | (k, w) :: rest => by
    rw [putSorted]
    split
    · next hk => rw [get?_cons_ne hne.symm, hk, get?_cons_ne hne.symm]
    · split
      · rw [get?_cons_ne hne.symm]
      · rw [get?_cons, get?_cons, get?_putSorted_ne o hne v rest]

@[simp] theorem get?_erase_self (key : κ) :
    ∀ entries : List (κ × ν), get? key (erase key entries) = none
  | [] => rfl
  | (k, w) :: rest => by
    by_cases hk : k = key
    · rw [erase, List.filter_cons_of_neg (by simp [hk])]
      exact get?_erase_self key rest
    · rw [erase, List.filter_cons_of_pos (by simpa using hk), get?_cons_ne hk]
      exact get?_erase_self key rest

theorem get?_erase_ne {key j : κ} (hne : j ≠ key) :
    ∀ entries : List (κ × ν), get? j (erase key entries) = get? j entries
  | [] => rfl
  | (k, w) :: rest => by
    by_cases hk : k = key
    · rw [erase, List.filter_cons_of_neg (by simp [hk]), hk, get?_cons_ne hne.symm]
      exact get?_erase_ne hne rest
    · rw [erase, List.filter_cons_of_pos (by simpa using hk), get?_cons, get?_cons]
      rw [show List.filter (fun e : κ × ν => decide (e.1 ≠ key)) rest = erase key rest from rfl,
        get?_erase_ne hne rest]

theorem get?_append (key : κ) (xs ys : List (κ × ν)) :
    get? key (xs ++ ys) = (get? key xs).or (get? key ys) := by
  induction xs with
  | nil => simp
  | cons e xs ih =>
    obtain ⟨k, v⟩ := e
    rw [List.cons_append, get?_cons, get?_cons]
    split
    · rfl
    · exact ih

theorem get?_map_snd {μ : Type*} (f : ν → μ) (key : κ) : ∀ entries : List (κ × ν),
    get? key (entries.map fun e => (e.1, f e.2)) = (get? key entries).map f
  | [] => rfl
  | (k, v) :: rest => by
    rw [List.map_cons, get?_cons, get?_cons]
    split
    · rfl
    · exact get?_map_snd f key rest

/-! ## The keys after an update -/

theorem keys_put (key : κ) (v : ν) : ∀ entries : List (κ × ν),
    (put key v entries).map Prod.fst =
      if key ∈ entries.map Prod.fst then entries.map Prod.fst
      else entries.map Prod.fst ++ [key]
  | [] => by simp [put]
  | (k, w) :: rest => by
    rw [put]
    split
    · next hk => simp [hk]
    · next hk =>
      have hne : key ≠ k := fun he => hk he.symm
      rw [List.map_cons, List.map_cons, keys_put key v rest]
      by_cases hmem : key ∈ rest.map Prod.fst
      · rw [if_pos hmem, if_pos (List.mem_cons_of_mem _ hmem)]
      · rw [if_neg hmem, if_neg (fun h => (List.mem_cons.mp h).elim hne hmem)]
        rfl

/-- A new key goes to the end. -/
theorem put_of_not_mem (key : κ) (v : ν) : ∀ {entries : List (κ × ν)},
    key ∉ entries.map Prod.fst → put key v entries = entries ++ [(key, v)]
  | [], _ => rfl
  | (k, w) :: rest, h => by
    rw [List.map_cons, List.mem_cons, not_or] at h
    rw [put, if_neg (Ne.symm h.1), put_of_not_mem key v h.2]
    rfl

/-- Insertion keeps the keys distinct. -/
theorem nodup_put (key : κ) (v : ν) {entries : List (κ × ν)}
    (h : (entries.map Prod.fst).Nodup) : ((put key v entries).map Prod.fst).Nodup := by
  rw [keys_put]
  split
  · exact h
  · next hnot =>
    refine List.nodup_append.mpr ⟨h, List.nodup_singleton _, ?_⟩
    rintro a ha b hb rfl
    exact hnot (List.mem_singleton.mp hb ▸ ha)

theorem nodup_erase (key : κ) {entries : List (κ × ν)} (h : (entries.map Prod.fst).Nodup) :
    ((erase key entries).map Prod.fst).Nodup :=
  h.sublist (List.filter_sublist.map _)

/-! ## The keys of a sorted list -/

variable (o : KeyOrder κ)

theorem mem_keys_putSorted {key j : κ} {v : ν} : ∀ {entries : List (κ × ν)},
    j ∈ (putSorted o key v entries).map Prod.fst ↔ j = key ∨ j ∈ entries.map Prod.fst
  | [] => by simp [putSorted]
  | (k, w) :: rest => by
    rw [putSorted]
    split
    · next heq =>
      rw [List.map_cons, List.map_cons, List.mem_cons, List.mem_cons]
      simp [heq]
    · split
      · exact List.mem_cons
      · rw [List.map_cons, List.map_cons, List.mem_cons, List.mem_cons, mem_keys_putSorted]
        tauto

/-- Insertion into a list sorted by key keeps it sorted. -/
theorem sorted_putSorted (key : κ) (v : ν) : ∀ {entries : List (κ × ν)},
    (entries.map Prod.fst).Pairwise (o.lt · · = true) →
      ((putSorted o key v entries).map Prod.fst).Pairwise (o.lt · · = true)
  | [], _ => by simp [putSorted]
  | (k, w) :: rest, h => by
    rw [List.map_cons, List.pairwise_cons] at h
    obtain ⟨hk, hrest⟩ := h
    rw [putSorted]
    split
    · next heq =>
      rw [List.map_cons, List.pairwise_cons]
      exact ⟨heq ▸ hk, hrest⟩
    · next hne =>
      split
      · next hlt =>
        rw [List.map_cons, List.pairwise_cons, List.map_cons, List.pairwise_cons]
        refine ⟨fun j hj => ?_, hk, hrest⟩
        rcases List.mem_cons.mp hj with he | ht
        · exact he ▸ hlt
        · exact o.trans _ _ _ hlt (hk j ht)
      · next hnlt =>
        rw [List.map_cons, List.pairwise_cons]
        refine ⟨fun j hj => ?_, sorted_putSorted key v hrest⟩
        rcases (mem_keys_putSorted o).mp hj with he | ht
        · exact he ▸ o.total _ _ (by simpa using hnlt) (Ne.symm hne)
        · exact hk j ht

omit [DecidableEq κ] in
theorem nodup_of_sorted {keys : List κ} (h : keys.Pairwise (o.lt · · = true)) : keys.Nodup :=
  h.imp fun {a b} hlt he => by
    rw [he, o.irrefl b] at hlt
    cases hlt

/-! ## Lookup and membership -/

theorem mem_of_get? {key : κ} {v : ν} :
    ∀ {entries : List (κ × ν)}, get? key entries = some v → (key, v) ∈ entries
  | (k, w) :: rest, h => by
    rw [get?_cons] at h
    split at h
    · next hk => simp_all
    · exact List.mem_cons_of_mem _ (mem_of_get? h)

theorem get?_of_mem {key : κ} {v : ν} : ∀ {entries : List (κ × ν)},
    (entries.map Prod.fst).Nodup → (key, v) ∈ entries → get? key entries = some v
  | (k, w) :: rest, hnodup, hmem => by
    obtain ⟨hk, hrest⟩ := List.nodup_cons.mp hnodup
    rcases List.mem_cons.mp hmem with he | htail
    · obtain ⟨rfl, rfl⟩ := Prod.mk.inj he
      exact get?_cons_self _ _ _
    · have hne : k ≠ key := by
        rintro rfl
        exact hk (List.mem_map.mpr ⟨_, htail, rfl⟩)
      rw [get?_cons_ne hne]
      exact get?_of_mem hrest htail

theorem get?_eq_none_iff {key : κ} :
    ∀ {entries : List (κ × ν)}, get? key entries = none ↔ ∀ v, (key, v) ∉ entries
  | [] => by simp
  | (k, w) :: rest => by
    rw [get?_cons]
    split
    · next hk =>
      refine iff_of_false (by simp) fun h => h w ?_
      rw [hk]
      exact List.mem_cons_self
    · next hk =>
      rw [get?_eq_none_iff]
      simp [Ne.symm hk]

/-- Lists sorted by key that answer every lookup alike are one list. -/
theorem eq_of_sorted {entries entries' : List (κ × ν)}
    (h : (entries.map Prod.fst).Pairwise (o.lt · · = true))
    (h' : (entries'.map Prod.fst).Pairwise (o.lt · · = true))
    (hget : ∀ key, get? key entries = get? key entries') : entries = entries' := by
  have hnodup := nodup_of_sorted o h
  have hnodup' := nodup_of_sorted o h'
  have hperm : entries.Perm entries' := by
    refine (List.perm_ext_iff_of_nodup hnodup.of_map hnodup'.of_map).mpr fun e => ?_
    obtain ⟨key, v⟩ := e
    constructor
    · exact fun hmem => mem_of_get? ((hget key).symm.trans (get?_of_mem hnodup hmem))
    · exact fun hmem => mem_of_get? ((hget key).trans (get?_of_mem hnodup' hmem))
  refine hperm.eq_of_pairwise (fun a b _ _ hab hba => ?_) (List.pairwise_map.mp h)
    (List.pairwise_map.mp h')
  have hcycle := o.trans _ _ _ hab hba
  rw [o.irrefl] at hcycle
  cases hcycle

end Cpex.Infra.Assoc
