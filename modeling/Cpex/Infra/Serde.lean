import Cpex.Infra.HashMap

/-!
# Deriving serializers

What `serde` derives for a plain struct: its JSON object, and how its fields are read back from an
object or, by position, from an array. A reader returns `none` where `serde` reports an error.

* `optional_map` — an optional field is read back
* `readMap_written` — a map is read back, up to the order of its entries
-/

namespace Cpex.Infra.Serde

/-! ## Writing -/

/-- A field that is skipped when it is `None`. -/
def optionalField (key : String) (write : α → Json) : Option α → List (String × Json)
  | some a => [(key, write a)]
  | none => []

/-- `Option` without a skip: `None` is `null`. -/
def nullable (write : α → Json) : Option α → Json
  | some a => write a
  | none => .null

def strings (items : List String) : Json := .array (items.map .string)

/-- A map of strings as an object. -/
def stringMap (m : HashMap String String) : Json :=
  Json.ofFields (m.entries.map fun e => (e.1, .string e.2))

/-- What is written does not depend on the order of the map. -/
theorem stringMap_eq {a b : HashMap String String} (h : HashMap.Same a b) :
    stringMap a = stringMap b := by
  have hget : ∀ (m : HashMap String String) (key : String),
      Assoc.get? key (m.entries.map fun e => (e.1, Json.string e.2)).reverse =
        (m.get? key).map Json.string := by
    intro m key
    have hnodup : ((m.entries.map fun e => (e.1, Json.string e.2)).map Prod.fst).Nodup := by
      rw [List.map_map]
      exact m.nodup
    rw [HashMap.get?_reverse hnodup, Assoc.get?_map_snd, HashMap.get?]
  refine Json.ofFields_eq fun key => ?_
  rw [hget, hget, h key]

/-- An unsigned integer. -/
def unsigned (n : Nat) : Json := .number (.posInt (UInt64.ofNat n))

/-- `Value::from` of an `i64`: a non-negative one is kept as `u64`. -/
def signed (i : Int64) : Json :=
  if 0 ≤ i.toInt then .number (.posInt i.toUInt64) else .number (.negInt i)

/-! ## Reading -/

/-- The fields of a struct: by name from an object, by position from an array. -/
def structFields (names : List String) : Json → Option (String → Option Json)
  | .object fields => some fun key => Assoc.get? key fields
  | .array items =>
    if items.length ≤ names.length then some fun key => Assoc.get? key (names.zip items) else none
  | _ => none

/-- A field that must be there. -/
def required (read : Json → Option α) (field : Option Json) : Option α := field.bind read

/-- A field with `#[serde(default)]`. -/
def defaulted (default : α) (read : Json → Option α) : Option Json → Option α
  | some v => read v
  | none => some default

/-- An `Option` field with `#[serde(default)]`: absent and `null` are `None`. -/
def optional (read : Json → Option α) : Option Json → Option (Option α)
  | none | some .null => some none
  | some v => (read v).map some

def readString : Json → Option String := Json.asStr

def readValue (v : Json) : Option Json := some v

def readU16 (v : Json) : Option UInt16 :=
  v.asU64.bind fun n => if n.toNat < UInt16.size then some n.toUInt16 else none

def readI64 : Json → Option Int64 := Json.asI64

def readStrings : Json → Option (List String)
  | .array items => items.mapM readString
  | _ => none

def readMap (read : Json → Option α) : Json → Option (HashMap String α)
  | .object fields => (fields.mapM fun f => (read f.2).map (f.1, ·)).map HashMap.ofList
  | _ => none

/-! ## Reading what was written -/

theorem readString_string (s : String) : readString (.string s) = some s := rfl

theorem readString_eq_some {v : Json} {s : String} : readString v = some s ↔ v = .string s :=
  Json.asStr_eq_some

theorem string_ne_null (s : String) : Json.string s ≠ .null := by simp

/-- The fields of an object that was built are the ones it was built of. -/
theorem structFields_ofFields (names : List String) (fields : List (String × Json)) :
    structFields names (Json.ofFields fields) = some fun key => Assoc.get? key fields.reverse := by
  refine congrArg some (funext fun key => ?_)
  rw [Json.get?_foldl_putSorted, Assoc.get?_nil, Option.or_none]

theorem get?_optionalField {α : Type} (key j : String) (write : α → Json) (a : Option α) :
    Assoc.get? j (optionalField key write a).reverse = if key = j then a.map write else none := by
  cases a with
  | none => simp [optionalField]
  | some a => simp [optionalField, Assoc.get?_cons]

theorem key_of_mem_optionalField {α : Type} {key : String} {write : α → Json} {a : Option α}
    {f : String × Json} (h : f ∈ optionalField key write a) : f.1 = key := by
  cases a with
  | none => cases h
  | some a => rw [List.mem_singleton.mp h]

/-- An optional field is read back. -/
theorem optional_map {α : Type} {read : Json → Option α} {write : α → Json}
    (hread : ∀ a, read (write a) = some a) (hnull : ∀ a, write a ≠ .null) (a : Option α) :
    Serde.optional read (a.map write) = some a := by
  cases a with
  | none => rfl
  | some a =>
    unfold Serde.optional
    split
    · next he => exact absurd he (by simp)
    · next he => exact absurd (Option.some.inj he) (hnull a)
    · next v _ he =>
      rw [← Option.some.inj he, hread]
      rfl

/-! ## Reading a map -/

/-- The fields of an object, each read under its own key. -/
def readFields {α : Type} (read : Json → Option α) (fields : List (String × Json)) :
    Option (List (String × α)) :=
  fields.mapM fun f => (read f.2).map (f.1, ·)

theorem readFields_cons {α : Type} {read : Json → Option α} {f : String × Json}
    {fields : List (String × Json)} {entries : List (String × α)} :
    readFields read (f :: fields) = some entries ↔
      ∃ a rest, read f.2 = some a ∧ readFields read fields = some rest ∧
        entries = (f.1, a) :: rest := by
  unfold readFields
  rw [List.mapM_cons]
  cases read f.2 with
  | none => simp
  | some a =>
    cases fields.mapM fun f => (read f.2).map (f.1, ·) with
    | none => simp
    | some rest => simp [eq_comm]

theorem keys_readFields {α : Type} {read : Json → Option α} : ∀ {fields : List (String × Json)}
    {entries : List (String × α)}, readFields read fields = some entries →
      entries.map Prod.fst = fields.map Prod.fst
  | [], entries, h => by
    obtain rfl : [] = entries := Option.some.inj h
    rfl
  | f :: fields, entries, h => by
    obtain ⟨a, rest, -, hrest, rfl⟩ := readFields_cons.mp h
    rw [List.map_cons, List.map_cons, keys_readFields hrest]

theorem get?_readFields {α : Type} {read : Json → Option α} (key : String) :
    ∀ {fields : List (String × Json)} {entries : List (String × α)},
      readFields read fields = some entries →
        Assoc.get? key entries = (Assoc.get? key fields).bind read
  | [], entries, h => by
    obtain rfl : [] = entries := Option.some.inj h
    rfl
  | (k, v) :: fields, entries, h => by
    obtain ⟨a, rest, ha, hrest, rfl⟩ := readFields_cons.mp h
    rw [Assoc.get?_cons, Assoc.get?_cons]
    split
    · exact ha.symm
    · exact get?_readFields key hrest

/-- No field is left unread. -/
theorem exists_of_readFields {α : Type} {read : Json → Option α} {key : String} {v : Json} :
    ∀ {fields : List (String × Json)} {entries : List (String × α)},
      readFields read fields = some entries → Assoc.get? key fields = some v →
        ∃ a, read v = some a ∧ Assoc.get? key entries = some a
  | (k, w) :: fields, entries, h, hget => by
    obtain ⟨a, rest, ha, hrest, rfl⟩ := readFields_cons.mp h
    rw [Assoc.get?_cons] at hget
    split at hget
    · next hk =>
      obtain rfl := Option.some.inj hget
      exact ⟨a, ha, by rw [Assoc.get?_cons, if_pos hk]⟩
    · next hk =>
      obtain ⟨b, hb, hentry⟩ := exists_of_readFields hrest hget
      exact ⟨b, hb, by rw [Assoc.get?_cons, if_neg hk, hentry]⟩

theorem readFields_isSome {α : Type} {read : Json → Option α} : ∀ {fields : List (String × Json)},
    (∀ f ∈ fields, ∃ a, read f.2 = some a) → ∃ entries, readFields read fields = some entries
  | [], _ => ⟨[], rfl⟩
  | f :: fields, h => by
    obtain ⟨a, ha⟩ := h f List.mem_cons_self
    obtain ⟨rest, hrest⟩ := readFields_isSome fun g hg => h g (List.mem_cons_of_mem _ hg)
    exact ⟨_, readFields_cons.mpr ⟨a, rest, ha, hrest, rfl⟩⟩

/-- A map read from an object holds what was read under each key. -/
theorem get?_readMap {α : Type} {read : Json → Option α} {fields : List (String × Json)}
    {m : HashMap String α} (hnodup : (fields.map Prod.fst).Nodup)
    (h : readMap read (.object fields) = some m) (key : String) :
    m.get? key = (Assoc.get? key fields).bind read := by
  obtain ⟨entries, hentries, rfl⟩ := Option.map_eq_some_iff.mp h
  have hkeys : (entries.map Prod.fst).Nodup := keys_readFields hentries ▸ hnodup
  rw [HashMap.get?_ofList hkeys, get?_readFields key hentries]

/-- What an optional map read from an object holds. -/
theorem exists_of_optional_readMap {α : Type} {read : Json → Option α} {key : String}
    {fields : List (String × Json)} {args : Option (HashMap String α)} {v : Json}
    (hnodup : (fields.map Prod.fst).Nodup)
    (h : Serde.optional (readMap read) (some (.object fields)) = some args)
    (hget : Assoc.get? key fields = some v) :
    ∃ m a, args = some m ∧ read v = some a ∧ m.get? key = some a := by
  obtain ⟨m, hm, rfl⟩ := Option.map_eq_some_iff.mp h
  obtain ⟨entries, hentries, -⟩ := Option.map_eq_some_iff.mp hm
  obtain ⟨a, ha, -⟩ := exists_of_readFields hentries hget
  refine ⟨m, a, rfl, ha, ?_⟩
  rw [get?_readMap hnodup hm key, hget]
  exact ha

/-- **A map that is written field by field is read back.** -/
theorem readMap_written {α : Type} {read : Json → Option α} {write : α → Json}
    (hread : ∀ a, read (write a) = some a) (m : HashMap String α) :
    ∃ m', readMap read (Json.ofFields (m.entries.map fun e => (e.1, write e.2))) = some m' ∧
      m'.Same m := by
  have hkeys : ((m.entries.map fun e => (e.1, write e.2)).map Prod.fst).Nodup := by
    rw [List.map_map]
    exact m.nodup
  have hget : ∀ key, (Json.ofFields (m.entries.map fun e => (e.1, write e.2))).get? key =
      (m.get? key).map write := fun key => by
    rw [Json.get?_ofFields, HashMap.get?_reverse hkeys]
    exact Assoc.get?_map_snd write key m.entries
  have hnodup := Json.nodup_ofFields (m.entries.map fun e => (e.1, write e.2))
  obtain ⟨entries, hentries⟩ : ∃ entries, readFields read
      ((m.entries.map fun e => (e.1, write e.2)).foldl
        (fun acc f => Assoc.putSorted Json.keyOrder f.1 f.2 acc) []) = some entries := by
    refine readFields_isSome fun f hf => ?_
    have hsome := (hget f.1).symm.trans (Assoc.get?_of_mem hnodup hf)
    obtain ⟨a, -, ha⟩ := Option.map_eq_some_iff.mp hsome
    exact ⟨a, ha ▸ hread a⟩
  have hmap : readMap read (Json.ofFields (m.entries.map fun e => (e.1, write e.2))) =
      some (HashMap.ofList entries) := Option.map_eq_some_iff.mpr ⟨entries, hentries, rfl⟩
  refine ⟨_, hmap, fun key => ?_⟩
  rw [get?_readMap hnodup hmap key, ← Json.get?_object, show Json.object _ =
    Json.ofFields (m.entries.map fun e => (e.1, write e.2)) from rfl, hget key]
  cases m.get? key with
  | none => rfl
  | some a => exact hread a

end Cpex.Infra.Serde
