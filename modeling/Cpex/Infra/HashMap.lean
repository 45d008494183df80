import Cpex.Infra.Json

/-!
# Hash maps

A map as the list of its entries in enumeration order, with distinct keys. The order is part of
the value, so that code whose result depends on it can be told apart; `Same` compares what two
maps hold and forgets it.

* `get?_insert` — lookup after an update
* `same_ofObject_toObject` — a map survives the trip through a JSON object
-/

namespace Cpex.Infra

/-- A map as its entries in enumeration order. -/
structure HashMap (κ ν : Type*) where
  entries : List (κ × ν)
  nodup : (entries.map Prod.fst).Nodup

namespace HashMap

variable {κ ν : Type*} [DecidableEq κ]

instance [DecidableEq ν] : DecidableEq (HashMap κ ν) := fun a b =>
  decidable_of_iff (a.entries = b.entries)
    ⟨fun h => by cases a; cases b; simp_all, fun h => h ▸ rfl⟩

def empty : HashMap κ ν := ⟨[], List.nodup_nil⟩

/-- `HashMap::is_empty`. -/
def isEmpty (m : HashMap κ ν) : Bool := m.entries.isEmpty

def get? (m : HashMap κ ν) (key : κ) : Option ν := Assoc.get? key m.entries

/-- The entries that satisfy `p`, collected into a new map. -/
def filter (p : κ × ν → Bool) (m : HashMap κ ν) : HashMap κ ν :=
  ⟨m.entries.filter p, m.nodup.sublist (List.filter_sublist.map _)⟩

/-- `HashMap::insert`. -/
def insert (key : κ) (v : ν) (m : HashMap κ ν) : HashMap κ ν where
  entries := Assoc.put key v m.entries
  nodup := Assoc.nodup_put key v m.nodup

/-- The map of these entries, a later one replacing an earlier one of its key. -/
def ofList (entries : List (κ × ν)) : HashMap κ ν :=
  entries.foldl (fun m e => m.insert e.1 e.2) empty

/-- Two maps hold the same values under the same keys. -/
def Same (a b : HashMap κ ν) : Prop := ∀ key, a.get? key = b.get? key

/-! ## Lookup -/

@[simp] theorem get?_empty (key : κ) : (empty : HashMap κ ν).get? key = none := rfl

theorem get?_insert (m : HashMap κ ν) (key j : κ) (v : ν) :
    (m.insert key v).get? j = if j = key then some v else m.get? j := by
  unfold get? insert
  split
  · next h => rw [h, Assoc.get?_put_self]
  · next h => rw [Assoc.get?_put_ne h]

theorem mem_of_get? {m : HashMap κ ν} {key : κ} {v : ν} (h : m.get? key = some v) :
    (key, v) ∈ m.entries := Assoc.mem_of_get? h

/-- Lookup and membership agree. -/
theorem get?_eq_some_iff {m : HashMap κ ν} {key : κ} {v : ν} :
    m.get? key = some v ↔ (key, v) ∈ m.entries :=
  ⟨mem_of_get?, Assoc.get?_of_mem m.nodup⟩

theorem Same.refl (m : HashMap κ ν) : Same m m := fun _ => rfl

theorem Same.symm {a b : HashMap κ ν} (h : Same a b) : Same b a := fun key => (h key).symm

theorem Same.mem_iff {a b : HashMap κ ν} (h : Same a b) {key : κ} {v : ν} :
    (key, v) ∈ a.entries ↔ (key, v) ∈ b.entries := by
  rw [← get?_eq_some_iff, ← get?_eq_some_iff, h key]

/-- Two enumerations of the same entries. -/
theorem same_of_perm {a b : HashMap κ ν} (h : a.entries.Perm b.entries) : Same a b := by
  intro key
  refine Option.ext fun v => ?_
  rw [get?_eq_some_iff, get?_eq_some_iff]
  exact h.mem_iff

omit [DecidableEq κ] in
/-- Any entry may be the first of an enumeration. -/
theorem exists_enumeration {m : HashMap κ ν} {e : κ × ν} (he : e ∈ m.entries) :
    ∃ (m' : HashMap κ ν) (rest : List (κ × ν)), m'.entries.Perm m.entries ∧
      m'.entries = e :: rest := by
  obtain ⟨before, after, hentries⟩ := List.append_of_mem he
  have hperm : (e :: (before ++ after)).Perm m.entries := by
    rw [hentries]
    exact List.perm_middle.symm
  exact ⟨⟨e :: (before ++ after), (hperm.map Prod.fst).nodup_iff.mpr m.nodup⟩, _, hperm, rfl⟩

/-- Any entry may be the first that a map enumerates. -/
theorem exists_first {m : HashMap κ ν} {e : κ × ν} (he : e ∈ m.entries) :
    ∃ m' rest, Same m' m ∧ m'.entries = e :: rest := by
  obtain ⟨m', rest, hperm, hentries⟩ := exists_enumeration he
  exact ⟨m', rest, same_of_perm hperm, hentries⟩

theorem Same.insert {a b : HashMap κ ν} (h : Same a b) (key : κ) (v : ν) :
    Same (a.insert key v) (b.insert key v) := by
  intro j
  rw [get?_insert, get?_insert, h j]

/-- Whether some entry satisfies `p` does not depend on the order. -/
theorem Same.any_entries {a b : HashMap κ ν} (h : Same a b) (p : κ × ν → Bool) :
    a.entries.any p = b.entries.any p := by
  rw [Bool.eq_iff_iff, List.any_eq_true, List.any_eq_true]
  exact exists_congr fun e => and_congr_left fun _ => h.mem_iff

/-! ## JSON objects -/

/-- `serde_json::to_value` of a map: an object, which forgets the order. -/
def toObject (m : HashMap String Json) : Json := Json.ofFields m.entries

/-- `serde_json::from_value` into a map of JSON values. -/
def ofObject : Json → Option (HashMap String Json)
  | .object fields => some (ofList fields)
  | _ => none

theorem get?_foldl_insert (key : κ) : ∀ (fields : List (κ × ν)) (m : HashMap κ ν),
    (fields.foldl (fun m e => m.insert e.1 e.2) m).get? key =
      (Assoc.get? key fields.reverse).or (m.get? key)
  | [], m => by simp
  | (k, v) :: rest, m => by
    rw [List.foldl_cons, get?_foldl_insert key rest, get?_insert, List.reverse_cons,
      Assoc.get?_append, Option.or_assoc]
    congr 1
    by_cases h : key = k
    · subst h
      simp
    · rw [if_neg h, Assoc.get?_cons_ne (Ne.symm h), Assoc.get?_nil, Option.none_or]

theorem get?_reverse {key : κ} {entries : List (κ × ν)}
    (hnodup : (entries.map Prod.fst).Nodup) :
    Assoc.get? key entries.reverse = Assoc.get? key entries := by
  have hrev : (entries.reverse.map Prod.fst).Nodup := by
    rw [List.map_reverse]
    exact List.nodup_reverse.mpr hnodup
  refine Option.ext fun v => ?_
  constructor
  · exact fun h => Assoc.get?_of_mem hnodup (List.mem_reverse.mp (Assoc.mem_of_get? h))
  · exact fun h => Assoc.get?_of_mem hrev (List.mem_reverse.mpr (Assoc.mem_of_get? h))

theorem get?_ofList {key : κ} {fields : List (κ × ν)}
    (hnodup : (fields.map Prod.fst).Nodup) : (ofList fields).get? key = Assoc.get? key fields := by
  rw [ofList, get?_foldl_insert, get?_reverse hnodup, get?_empty, Option.or_none]

theorem entries_foldl_insert : ∀ (fields : List (κ × ν)) (m : HashMap κ ν),
    ((m.entries ++ fields).map Prod.fst).Nodup →
      (fields.foldl (fun m e => m.insert e.1 e.2) m).entries = m.entries ++ fields
  | [], m, _ => by simp
  | (k, v) :: rest, m, h => by
    have hnot : k ∉ m.entries.map Prod.fst := fun hmem => by
      rw [List.map_append, List.nodup_append] at h
      exact h.2.2 k hmem k List.mem_cons_self rfl
    have hput : (m.insert k v).entries = m.entries ++ [(k, v)] := Assoc.put_of_not_mem k v hnot
    have happend : (m.insert k v).entries ++ rest = m.entries ++ (k, v) :: rest := by
      rw [hput, List.append_assoc]
      rfl
    rw [List.foldl_cons, entries_foldl_insert rest _ (happend ▸ h), happend]

/-- A list of distinct keys is the map it makes. -/
theorem entries_ofList {fields : List (κ × ν)} (hnodup : (fields.map Prod.fst).Nodup) :
    (ofList fields).entries = fields := entries_foldl_insert fields empty hnodup

/-- **A map survives the trip through a JSON object.** -/
theorem same_ofObject_toObject (m : HashMap String Json) :
    ∃ m', ofObject m.toObject = some m' ∧ Same m' m := by
  refine ⟨_, rfl, fun key => ?_⟩
  rw [get?_ofList (Json.nodup_ofFields m.entries), Json.get?_foldl_putSorted,
    get?_reverse m.nodup, Assoc.get?_nil, Option.or_none]
  rfl

end HashMap

end Cpex.Infra
