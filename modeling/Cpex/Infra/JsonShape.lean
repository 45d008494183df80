import Cpex.Infra.Json
import Cpex.Infra.HashMap

/-!
# Which JSON values there are

`serde_json` keeps its values in one form each: a negative integer apart from the others, floats
finite, the fields of an object by key.

* `Json.Represented` — values in that form
* `Json.depth` — how deep a value is nested
* `Json.foldl_putSorted_fields` — the fields of an object, inserted one by one
-/

namespace Cpex.Infra

/-- `f64::is_finite`: the exponent is not all ones. -/
def isFinite (bits : UInt64) : Bool := bits >>> 52 &&& 0x7ff != 0x7ff

def Number.Represented : Number → Prop
  | .posInt _ => True
  | .negInt i => i.toInt < 0
  | .float bits => isFinite bits = true

namespace Json

/-- The keys of an object are distinct, and in their order. -/
def Ordered {α : Type*} (fields : List (String × α)) : Prop :=
  (fields.map Prod.fst).Pairwise (keyOrder.lt · · = true)

mutual

def Represented : Json → Prop
  | .null | .bool _ | .string _ => True
  | .number n => n.Represented
  | .array items => RepresentedItems items
  | .object fields => Ordered fields ∧ RepresentedFields fields

def RepresentedItems : List Json → Prop
  | [] => True
  | v :: rest => v.Represented ∧ RepresentedItems rest

def RepresentedFields : List (String × Json) → Prop
  | [] => True
  | (_, v) :: rest => v.Represented ∧ RepresentedFields rest

end

mutual

/-- The number of containers around the innermost value. -/
def depth : Json → Nat
  | .null | .bool _ | .number _ | .string _ => 0
  | .array items => depthItems items
  | .object fields => depthFields fields

def depthItems : List Json → Nat
  | [] => 0
  | v :: rest => max (v.depth + 1) (depthItems rest)

def depthFields : List (String × Json) → Nat
  | [] => 0
  | (_, v) :: rest => max (v.depth + 1) (depthFields rest)

end

/-- The fields of an object, inserted one by one. -/
theorem foldl_putSorted_fields {fields : List (String × Json)} (h : Ordered fields) :
    fields.foldl (fun acc f => Assoc.putSorted keyOrder f.1 f.2 acc) [] = fields := by
  refine Assoc.eq_of_sorted keyOrder (sorted_foldl_putSorted fields [] List.Pairwise.nil) h
    fun key => ?_
  rw [get?_foldl_putSorted, Assoc.get?_nil, Option.or_none]
  exact HashMap.get?_reverse (Assoc.nodup_of_sorted keyOrder h)

end Json

end Cpex.Infra
