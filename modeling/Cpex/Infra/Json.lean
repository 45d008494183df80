import Cpex.Infra.Assoc

/-!
# JSON values

The value type of `serde_json`: an integer is kept as `u64` or `i64`, and only a literal with a
fraction or an exponent is a float.

An object is a map that compares equal whatever the order of its fields, as `serde_json::Map` does.
The dependencies of the workspace turn on its `indexmap` feature, so that the map keeps the order of
insertion. Here an object that is built is sorted by key, by `Assoc.putSorted`: the assumption is
that the order of a built object does not matter, and no result needs it. What is proved of an
object is about its fields by their keys, or about every order of them.
-/

namespace Cpex.Infra

/-- A JSON number. A float is kept as its bits: nothing in this project computes with one. -/
inductive Number where
  | posInt (n : UInt64)
  | negInt (i : Int64)
  | float (bits : UInt64)
  deriving DecidableEq, Repr

inductive Json where
  | null
  | bool (b : Bool)
  | number (n : Number)
  | string (s : String)
  | array (items : List Json)
  | object (fields : List (String × Json))
  deriving Repr

namespace Json

/-! ## Decidable equality -/

mutual

def decEq : (a b : Json) → Decidable (a = b)
  | .null, .null => .isTrue rfl
  | .bool a, .bool b => decidable_of_iff (a = b) (by simp)
  | .number a, .number b => decidable_of_iff (a = b) (by simp)
  | .string a, .string b => decidable_of_iff (a = b) (by simp)
  | .array a, .array b =>
    match decEqItems a b with
    | .isTrue h => .isTrue (by rw [h])
    | .isFalse h => .isFalse (by simpa using h)
  | .object a, .object b =>
    match decEqFields a b with
    | .isTrue h => .isTrue (by rw [h])
    | .isFalse h => .isFalse (by simpa using h)
  | .null, .bool _ | .null, .number _ | .null, .string _ | .null, .array _ | .null, .object _
  | .bool _, .null | .bool _, .number _ | .bool _, .string _ | .bool _, .array _
  | .bool _, .object _
  | .number _, .null | .number _, .bool _ | .number _, .string _ | .number _, .array _
  | .number _, .object _
  | .string _, .null | .string _, .bool _ | .string _, .number _ | .string _, .array _
  | .string _, .object _
  | .array _, .null | .array _, .bool _ | .array _, .number _ | .array _, .string _
  | .array _, .object _
  | .object _, .null | .object _, .bool _ | .object _, .number _ | .object _, .string _
  | .object _, .array _ => .isFalse (by simp)

def decEqItems : (a b : List Json) → Decidable (a = b)
  | [], [] => .isTrue rfl
  | [], _ :: _ | _ :: _, [] => .isFalse (by simp)
  | a :: as, b :: bs =>
    match decEq a b, decEqItems as bs with
    | .isTrue h, .isTrue hs => .isTrue (by rw [h, hs])
    | .isFalse h, _ => .isFalse (by simp [h])
    | _, .isFalse hs => .isFalse (by simp [hs])

def decEqFields : (a b : List (String × Json)) → Decidable (a = b)
  | [], [] => .isTrue rfl
  | [], _ :: _ | _ :: _, [] => .isFalse (by simp)
  | (k, a) :: as, (l, b) :: bs =>
    if hk : k = l then
      match decEq a b, decEqFields as bs with
      | .isTrue h, .isTrue hs => .isTrue (by rw [hk, h, hs])
      | .isFalse h, _ => .isFalse (by simp [h])
      | _, .isFalse hs => .isFalse (by simp [hs])
    else .isFalse (by simp [hk])

end

instance : DecidableEq Json := decEq

/-! ## Reading -/

/-- `Value::as_object`. -/
def asObject : Json → Option (List (String × Json))
  | .object fields => some fields
  | _ => none

/-- `Value::as_array`. -/
def asArray : Json → Option (List Json)
  | .array items => some items
  | _ => none

/-- `Value::as_str`. -/
def asStr : Json → Option String
  | .string s => some s
  | _ => none

/-- `Value::as_bool`. -/
def asBool : Json → Option Bool
  | .bool b => some b
  | _ => none

/-- `Value::as_i64`: a positive integer converts when it fits. -/
def asI64 : Json → Option Int64
  | .number (.posInt n) => if n.toNat < 0x8000000000000000 then some n.toInt64 else none
  | .number (.negInt i) => some i
  | _ => none

/-- `Value::as_u64`. -/
def asU64 : Json → Option UInt64
  | .number (.posInt n) => some n
  | _ => none

/-- `Value::get` with a string key: `none` on anything but an object. -/
def get? (v : Json) (key : String) : Option Json :=
  v.asObject.bind (Assoc.get? key)

@[simp] theorem get?_object (fields : List (String × Json)) (key : String) :
    (Json.object fields).get? key = Assoc.get? key fields := rfl

theorem asStr_eq_some {v : Json} {s : String} : v.asStr = some s ↔ v = .string s := by
  cases v <;> simp [asStr]

theorem bind_asStr_eq_some {v : Option Json} {s : String} :
    v.bind asStr = some s ↔ v = some (.string s) := by
  cases v with
  | none => simp
  | some v => simp [asStr_eq_some]

/-! ## Writing -/

/-- Keys compare by their characters, which is how UTF-8 orders their bytes. -/
def keyOrder : Assoc.KeyOrder String where
  lt a b := a.toList.lex b.toList
  irrefl a := by
    rw [List.lex_eq_false_iff_ge]
    exact List.le_refl _
  trans a b c hab hbc := by
    rw [List.lex_eq_true_iff_lt] at hab hbc ⊢
    exact List.lt_trans hab hbc
  total a b hab hne := by
    rw [List.lex_eq_false_iff_ge] at hab
    rw [List.lex_eq_true_iff_lt]
    rcases List.le_iff_lt_or_eq.mp hab with hlt | heq
    · exact hlt
    · exact absurd (String.toList_injective heq.symm) hne

/-- The object with these fields, a later one replacing an earlier one of its key. -/
def ofFields (fields : List (String × Json)) : Json :=
  .object (fields.foldl (fun acc f => Assoc.putSorted keyOrder f.1 f.2 acc) [])

/-- `value[key] = v` on an object. -/
def set (value : Json) (key : String) (v : Json) : Json :=
  match value with
  | .object fields => .object (Assoc.putSorted keyOrder key v fields)
  | other => other

/-- `Map::remove` on the object inside, with the field it removed. -/
def remove (value : Json) (key : String) : Option Json × Json :=
  match value with
  | .object fields => (Assoc.get? key fields, .object (Assoc.erase key fields))
  | other => (none, other)

theorem get?_set_self {v : Json} {key : String} {fields : List (String × Json)} :
    ((Json.object fields).set key v).get? key = some v := by
  simp only [set, get?_object, Assoc.get?_putSorted_self]

theorem get?_set_ne {v w : Json} {key j : String} (hne : j ≠ key) :
    (w.set key v).get? j = w.get? j := by
  cases w with
  | object fields => simp only [set, get?_object, Assoc.get?_putSorted_ne keyOrder hne]
  | null | bool _ | number _ | string _ | array _ => rfl

/-- Building an object sorts its fields. -/
theorem sorted_foldl_putSorted : ∀ (fields acc : List (String × Json)),
    (acc.map Prod.fst).Pairwise (keyOrder.lt · · = true) →
      ((fields.foldl (fun acc f => Assoc.putSorted keyOrder f.1 f.2 acc) acc).map
        Prod.fst).Pairwise (keyOrder.lt · · = true)
  | [], _, h => h
  | f :: fields, _, h =>
    sorted_foldl_putSorted fields _ (Assoc.sorted_putSorted keyOrder f.1 f.2 h)

/-- A later field wins. -/
theorem get?_foldl_putSorted (key : String) : ∀ (fields acc : List (String × Json)),
    Assoc.get? key (fields.foldl (fun acc f => Assoc.putSorted keyOrder f.1 f.2 acc) acc) =
      (Assoc.get? key fields.reverse).or (Assoc.get? key acc)
  | [], acc => by simp
  | (k, v) :: rest, acc => by
    rw [List.foldl_cons, get?_foldl_putSorted key rest, List.reverse_cons, Assoc.get?_append,
      Option.or_assoc]
    congr 1
    by_cases h : key = k
    · subst h
      simp
    · rw [Assoc.get?_putSorted_ne keyOrder h, Assoc.get?_cons_ne (Ne.symm h), Assoc.get?_nil,
        Option.none_or]

/-- The keys of an object that was built are distinct. -/
theorem nodup_ofFields (fields : List (String × Json)) :
    ((fields.foldl (fun acc f => Assoc.putSorted keyOrder f.1 f.2 acc) []).map Prod.fst).Nodup :=
  Assoc.nodup_of_sorted keyOrder (sorted_foldl_putSorted fields [] List.Pairwise.nil)

/-- An object that was built has no other field. -/
theorem mem_of_mem_ofFields {fields : List (String × Json)} {f : String × Json}
    (h : f ∈ fields.foldl (fun acc f => Assoc.putSorted keyOrder f.1 f.2 acc) []) :
    f ∈ fields := by
  have hget := Assoc.get?_of_mem (nodup_ofFields fields) h
  rw [get?_foldl_putSorted, Assoc.get?_nil, Option.or_none] at hget
  exact List.mem_reverse.mp (Assoc.mem_of_get? hget)

theorem get?_ofFields (key : String) (fields : List (String × Json)) :
    (ofFields fields).get? key = Assoc.get? key fields.reverse := by
  rw [ofFields, get?_object, get?_foldl_putSorted, Assoc.get?_nil, Option.or_none]

/-- An object is its lookups. -/
theorem ofFields_eq {fields fields' : List (String × Json)}
    (h : ∀ key, Assoc.get? key fields.reverse = Assoc.get? key fields'.reverse) :
    ofFields fields = ofFields fields' := by
  rw [ofFields, ofFields, object.injEq]
  refine Assoc.eq_of_sorted keyOrder (sorted_foldl_putSorted fields [] List.Pairwise.nil)
    (sorted_foldl_putSorted fields' [] List.Pairwise.nil) fun key => ?_
  rw [get?_foldl_putSorted, get?_foldl_putSorted, h key]

end Json

end Cpex.Infra
