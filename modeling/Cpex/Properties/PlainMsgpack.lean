import Cpex.Infra.Msgpack

/-!
# Plain decoding without a type

Values are kept, but for maps, which are read entry by entry with strings as their keys.

* `decodeInterface`, `decodeMap` — values decoded without a type
* `decodeInterface_of_generic`, `generic_of_decodeInterface` — the values that are kept
-/

namespace Cpex.Infra.Msgpack.Plain

/-- A key, which is read from either form of bytes. -/
def decodeString : Value → Option Str
  | .str s | .bin s => some s
  | .nil => some []
  | _ => none

mutual

/-- A value decoded without a type. The keys of a map are read as strings. -/
def decodeInterface : Value → Option Value
  | .array items => (decodeItems items).map .array
  | .map entries => (decodeEntries entries []).map ofFields
  | .nil => some .nil
  | .bool b => some (.bool b)
  | .int i => some (.int i)
  | .float32 bits => some (.float32 bits)
  | .float64 bits => some (.float64 bits)
  | .str s => some (.str s)
  | .bin data => some (.bin data)

def decodeItems : List Value → Option (List Value)
  | [] => some []
  | v :: rest => do
    let item ← decodeInterface v
    let items ← decodeItems rest
    return item :: items

/-- `m` is what was set so far. -/
def decodeEntries : List (Value × Value) → Fields → Option Fields
  | [], m => some m
  | (k, v) :: rest, m => do
    let key ← decodeString k
    let value ← decodeInterface v
    decodeEntries rest (Assoc.put key value m)

end

/-- A value decoded into a map with strings as keys, which `nil` is the absence of. -/
def decodeMap : Value → Option (Option Fields)
  | .nil => some none
  | .map entries => (decodeEntries entries []).map some
  | _ => none

/-! ## Values that are kept -/

/-- Entries with strings as keys are fields. -/
theorem exists_fields : ∀ {entries : List (Value × Value)}, GenericEntries entries →
    ∃ fields : Fields, entries = fields.map keyed
  | [], _ => ⟨[], rfl⟩
  | (k, v) :: rest, h => by
    obtain ⟨⟨s, rfl⟩, -, hrest⟩ := h
    obtain ⟨fields, rfl⟩ := exists_fields hrest
    exact ⟨(s, v) :: fields, rfl⟩

mutual

/-- **A generic value is kept.** -/
theorem decodeInterface_of_generic : ∀ v : Value, v.Generic → decodeInterface v = some v
  | .array items, h => by
    rw [decodeInterface, decodeItems_of_generic items h]
    rfl
  | .map entries, h => by
    obtain ⟨fields, rfl⟩ := exists_fields h.2
    have hnodup := (nodup_map_keyed fields).mp h.1
    rw [decodeInterface, decodeEntries_of_generic (fields.map keyed) h.2 fields [] rfl hnodup]
    rfl
  | .nil, _ | .bool _, _ | .int _, _ | .float32 _, _ | .float64 _, _ | .str _, _ | .bin _, _ => rfl

theorem decodeItems_of_generic : ∀ items : List Value, GenericItems items →
    decodeItems items = some items
  | [], _ => rfl
  | v :: rest, h => by
    rw [decodeItems, decodeInterface_of_generic v h.1, decodeItems_of_generic rest h.2]
    rfl

/-- The keys are distinct, so each entry is appended. -/
theorem decodeEntries_of_generic : ∀ entries : List (Value × Value),
    GenericEntries entries → ∀ fields m : Fields, entries = fields.map keyed →
      ((m ++ fields).map Prod.fst).Nodup → decodeEntries entries m = some (m ++ fields)
  | [], _, fields, m, hfields, _ => by
    obtain rfl : fields = [] := List.map_eq_nil_iff.mp hfields.symm
    rw [decodeEntries, List.append_nil]
  | (k, v) :: rest, h, fields, m, hfields, hnodup => by
    cases fields with
    | nil => cases hfields
    | cons e fields =>
      obtain ⟨hentry, hrest⟩ := List.cons.inj hfields
      obtain ⟨rfl, rfl⟩ := Prod.mk.inj hentry
      have hassoc : m ++ [e] ++ fields = m ++ e :: fields := List.append_cons .. ▸ rfl
      have hnot : e.1 ∉ m.map Prod.fst := by
        intro hmem
        rw [List.map_append, List.nodup_append] at hnodup
        exact hnodup.2.2 e.1 hmem e.1 List.mem_cons_self rfl
      have hput : Assoc.put e.1 e.2 m = m ++ [e] := Assoc.put_of_not_mem e.1 e.2 hnot
      rw [decodeEntries, decodeString, decodeInterface_of_generic e.2 h.2.1]
      refine (congrArg (decodeEntries rest) hput).trans ?_
      rw [decodeEntries_of_generic rest h.2.2 fields (m ++ [e]) hrest (hassoc ▸ hnodup), hassoc]

end

theorem genericFields_put {fields : Fields} (h : GenericFields fields) (key : Str) {v : Value}
    (hv : v.Generic) : GenericFields (Assoc.put key v fields) := by
  have hnodup := Assoc.nodup_put key v h.1
  refine ⟨hnodup, fun e he => ?_⟩
  have hget : Assoc.get? e.1 (Assoc.put key v fields) = some e.2 := Assoc.get?_of_mem hnodup he
  by_cases hkey : e.1 = key
  · rw [hkey, Assoc.get?_put_self] at hget
    exact Option.some.inj hget ▸ hv
  · rw [Assoc.get?_put_ne hkey] at hget
    exact h.2 e (Assoc.mem_of_get? hget)

mutual

/-- **What is decoded is generic.** -/
theorem generic_of_decodeInterface : ∀ {v v' : Value}, decodeInterface v = some v' → v'.Generic
  | .array items, v', h => by
    obtain ⟨items', hitems, rfl⟩ := Option.map_eq_some_iff.mp h
    exact generic_of_decodeItems hitems
  | .map entries, v', h => by
    obtain ⟨fields, hfields, rfl⟩ := Option.map_eq_some_iff.mp h
    exact (generic_ofFields fields).mpr (generic_of_decodeEntries genericFields_nil hfields)
  | .nil, v', h | .bool _, v', h | .int _, v', h | .float32 _, v', h | .float64 _, v', h
  | .str _, v', h | .bin _, v', h => by
    obtain rfl := Option.some.inj h
    trivial

theorem generic_of_decodeItems : ∀ {items items' : List Value}, decodeItems items = some items' →
    GenericItems items'
  | [], items', h => by
    obtain rfl := Option.some.inj h
    trivial
  | v :: rest, items', h => by
    obtain ⟨item, hitem, h⟩ := Option.bind_eq_some_iff.mp h
    obtain ⟨items, hitems, h⟩ := Option.bind_eq_some_iff.mp h
    obtain rfl := Option.some.inj h
    exact ⟨generic_of_decodeInterface hitem, generic_of_decodeItems hitems⟩

theorem generic_of_decodeEntries : ∀ {entries : List (Value × Value)} {m fields : Fields},
    GenericFields m → decodeEntries entries m = some fields → GenericFields fields
  | [], m, fields, hm, h => by
    obtain rfl := Option.some.inj h
    exact hm
  | (k, v) :: rest, m, fields, hm, h => by
    obtain ⟨key, hkey, h⟩ := Option.bind_eq_some_iff.mp h
    obtain ⟨value, hvalue, h⟩ := Option.bind_eq_some_iff.mp h
    exact generic_of_decodeEntries
      (genericFields_put hm key (generic_of_decodeInterface hvalue)) h

end

theorem decodeMap_of_generic {fields : Fields} (h : GenericFields fields) :
    decodeMap (ofFields fields) = some (some fields) := by
  have hentries := (generic_ofFields fields).mpr h
  rw [ofFields, decodeMap, decodeEntries_of_generic _ hentries.2 fields [] rfl h.1]
  rfl

theorem generic_of_decodeMap {v : Value} {fields : Fields}
    (h : decodeMap v = some (some fields)) : GenericFields fields := by
  unfold decodeMap at h
  split at h
  · cases h
  · obtain ⟨fields', hfields, heq⟩ := Option.map_eq_some_iff.mp h
    obtain rfl := Option.some.inj heq
    exact generic_of_decodeEntries genericFields_nil hfields
  · cases h

end Cpex.Infra.Msgpack.Plain
