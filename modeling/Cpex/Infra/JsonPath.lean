import Cpex.Infra.Json

/-!
# Paths into JSON values

A path is a list of object keys and array indices, and leads to at most one value. The values that
say something are the leaves: texts that are not empty, numbers and booleans. An object or an array
holds what its members hold.

* `at?_key`, `at?_index` — one step of a path
* `Keeps` — a value keeps what another one holds, leaf by leaf
-/

namespace Cpex.Infra.Json

/-- One step into an object or an array. -/
inductive Step where
  | key (k : String)
  | index (i : Nat)
  deriving DecidableEq, Repr

abbrev Path := List Step

/-- The value a path leads to. -/
def at? : Path → Json → Option Json
  | [], v => some v
  | .key k :: rest, v => (v.get? k).bind (at? rest)
  | .index i :: rest, v => (v.asArray.bind fun items => items[i]?).bind (at? rest)

/-- A value that is neither a container nor empty. -/
def isLeaf : Json → Bool
  | .bool _ | .number _ => true
  | .string s => !s.isEmpty
  | .null | .array _ | .object _ => false

/-- The path leads to a leaf. -/
def Leaf (v : Json) (path : Path) (leaf : Json) : Prop :=
  at? path v = some leaf ∧ leaf.isLeaf = true

/-- Every leaf of `returned` that differs from what `sent` has there is in `held`. -/
def Keeps (sent returned held : Json) : Prop :=
  ∀ path v, returned.Leaf path v → sent.at? path ≠ some v → held.at? path = some v

/-- The keys of every object inside are distinct, as they are in the map of a parsed object. -/
inductive DistinctKeys : Json → Prop
  | null : DistinctKeys .null
  | bool (b : Bool) : DistinctKeys (.bool b)
  | number (n : Number) : DistinctKeys (.number n)
  | string (s : String) : DistinctKeys (.string s)
  | array {items : List Json} (members : ∀ v ∈ items, DistinctKeys v) :
      DistinctKeys (.array items)
  | object {fields : List (String × Json)} (nodup : (fields.map Prod.fst).Nodup)
      (members : ∀ f ∈ fields, DistinctKeys f.2) : DistinctKeys (.object fields)

/-! ## One step -/

@[simp] theorem at?_nil (v : Json) : v.at? [] = some v := rfl

theorem at?_key {v leaf : Json} {k : String} {rest : Path} :
    v.at? (.key k :: rest) = some leaf ↔ ∃ w, v.get? k = some w ∧ w.at? rest = some leaf :=
  Option.bind_eq_some_iff

theorem at?_of_get? {v w : Json} {k : String} (h : v.get? k = some w) (rest : Path) :
    v.at? (.key k :: rest) = w.at? rest := by
  rw [at?, h, Option.bind_some]

theorem at?_single (v : Json) (k : String) : v.at? [.key k] = v.get? k := by
  cases h : v.get? k with
  | none => rw [at?, h, Option.bind_none]
  | some w => rw [at?_of_get? h, at?_nil]

theorem at?_index {v leaf : Json} {i : Nat} {rest : Path} :
    v.at? (.index i :: rest) = some leaf ↔
      ∃ items w, v = .array items ∧ items[i]? = some w ∧ w.at? rest = some leaf := by
  constructor
  · intro h
    obtain ⟨w, hw, hleaf⟩ := Option.bind_eq_some_iff.mp h
    obtain ⟨items, hitems, hget⟩ := Option.bind_eq_some_iff.mp hw
    cases v with
    | array items' =>
      obtain rfl := Option.some.inj hitems
      exact ⟨_, w, rfl, hget, hleaf⟩
    | null | bool _ | number _ | string _ | object _ => cases hitems
  · rintro ⟨items, w, rfl, hget, hleaf⟩
    exact Option.bind_eq_some_iff.mpr ⟨w, hget, hleaf⟩

theorem get?_eq_some_iff {v w : Json} {k : String} :
    v.get? k = some w ↔ ∃ fields, v = .object fields ∧ Assoc.get? k fields = some w := by
  cases v <;> simp [get?, asObject]

theorem DistinctKeys.of_get? {v w : Json} {k : String} (h : v.DistinctKeys)
    (hget : v.get? k = some w) : w.DistinctKeys := by
  obtain ⟨fields, rfl, hw⟩ := get?_eq_some_iff.mp hget
  cases h with
  | object _ members => exact members _ (Assoc.mem_of_get? hw)

theorem DistinctKeys.nodup {fields : List (String × Json)} (h : (Json.object fields).DistinctKeys) :
    (fields.map Prod.fst).Nodup := by
  cases h
  assumption

/-! ## Leaves -/

/-- A text is a leaf at its own place only. -/
theorem leaf_string {s : String} {path : Path} {leaf : Json} (h : (string s).Leaf path leaf) :
    path = [] ∧ leaf = .string s := by
  obtain ⟨hat, -⟩ := h
  cases path with
  | nil => exact ⟨rfl, (Option.some.inj hat).symm⟩
  | cons step rest => cases step <;> cases hat

theorem not_leaf_null {path : Path} {leaf : Json} : ¬null.Leaf path leaf := by
  rintro ⟨hat, hleaf⟩
  cases path with
  | nil =>
    obtain rfl := Option.some.inj hat
    cases hleaf
  | cons step rest => cases step <;> cases hat

/-- The leaves of an object are those of its fields. -/
theorem leaf_object {fields : List (String × Json)} {path : Path} {leaf : Json}
    (h : (object fields).Leaf path leaf) :
    ∃ k rest w, path = .key k :: rest ∧ Assoc.get? k fields = some w ∧ w.Leaf rest leaf := by
  obtain ⟨hat, hleaf⟩ := h
  cases path with
  | nil =>
    obtain rfl := Option.some.inj hat
    cases hleaf
  | cons step rest =>
    cases step with
    | key k =>
      obtain ⟨w, hget, hw⟩ := at?_key.mp hat
      exact ⟨k, rest, w, rfl, hget, hw, hleaf⟩
    | index i => cases hat

/-- The leaves of an array are those of its items. -/
theorem leaf_array {items : List Json} {path : Path} {leaf : Json}
    (h : (array items).Leaf path leaf) :
    ∃ i rest w, path = .index i :: rest ∧ items[i]? = some w ∧ w.Leaf rest leaf := by
  obtain ⟨hat, hleaf⟩ := h
  cases path with
  | nil =>
    obtain rfl := Option.some.inj hat
    cases hleaf
  | cons step rest =>
    cases step with
    | key k => cases hat
    | index i =>
      obtain ⟨items', w, heq, hget, hw⟩ := at?_index.mp hat
      obtain rfl := array.inj heq
      exact ⟨i, rest, w, rfl, hget, hw, hleaf⟩

theorem leaf_ofFields {fields : List (String × Json)} {path : Path} {leaf : Json}
    (h : (ofFields fields).Leaf path leaf) :
    ∃ k rest w, path = .key k :: rest ∧ Assoc.get? k fields.reverse = some w ∧
      w.Leaf rest leaf := by
  obtain ⟨k, rest, w, hpath, hget, hw⟩ := leaf_object h
  rw [← get?_object] at hget
  exact ⟨k, rest, w, hpath, (get?_ofFields k fields).symm.trans hget, hw⟩

end Cpex.Infra.Json
