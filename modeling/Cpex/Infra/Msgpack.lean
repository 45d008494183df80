import Cpex.Infra.Assoc

/-!
# MessagePack values and tagged structs

MessagePack as trees of values: how wide the encoding of a number is, and in what order a map is
written, is left out, and so are extension values. A struct is a map of its fields by their tags,
without the empty ones that may be omitted.

* `Value.Generic` — the values that can be decoded without a type, which wants strings as keys
* `Decoder`, `Decoder.Lawful` — what is read of a value, by the type it is read into
* `Field`, `encodeStruct`, `fieldOr` — a struct by its tags
-/

namespace Cpex.Infra.Msgpack

/-- The bytes of a string. They need not be UTF-8. -/
abbrev Str : Type := List UInt8

inductive Value where
  | nil
  | bool (b : Bool)
  | int (i : Int)
  | float32 (bits : UInt32)
  | float64 (bits : UInt64)
  | str (s : Str)
  | bin (data : List UInt8)
  | array (items : List Value)
  | map (entries : List (Value × Value))

/-- A map with strings as keys. -/
abbrev Fields : Type := List (Str × Value)

/-- An entry with a string as its key. -/
def keyed (e : Str × Value) : Value × Value := (.str e.1, e.2)

def ofFields (fields : Fields) : Value := .map (fields.map keyed)

/-- A zero number, `false`, nothing or a container without elements. -/
def Value.isEmpty : Value → Bool
  | .nil => true
  | .bool b => !b
  | .int i => i == 0
  | .float32 bits => bits &&& 0x7fffffff == 0
  | .float64 bits => bits &&& 0x7fffffffffffffff == 0
  | .str s => s.isEmpty
  | .bin data => data.isEmpty
  | .array items => items.isEmpty
  | .map entries => entries.isEmpty

mutual

/-- How deep a value is nested. -/
def Value.depth : Value → Nat
  | .array items => depthItems items + 1
  | .map entries => depthEntries entries + 1
  | _ => 0

def depthItems : List Value → Nat
  | [] => 0
  | v :: rest => max v.depth (depthItems rest)

def depthEntries : List (Value × Value) → Nat
  | [] => 0
  | (_, v) :: rest => max v.depth (depthEntries rest)

end

/-! ## Values that a decoder keeps -/

mutual

/-- The keys of each map are strings, and distinct. -/
def Value.Generic : Value → Prop
  | .array items => GenericItems items
  | .map entries => (entries.map Prod.fst).Nodup ∧ GenericEntries entries
  | _ => True

def GenericItems : List Value → Prop
  | [] => True
  | v :: rest => v.Generic ∧ GenericItems rest

def GenericEntries : List (Value × Value) → Prop
  | [] => True
  | (k, v) :: rest => (∃ s, k = .str s) ∧ v.Generic ∧ GenericEntries rest

end

def GenericFields (fields : Fields) : Prop :=
  (fields.map Prod.fst).Nodup ∧ ∀ e ∈ fields, e.2.Generic

theorem keyed_injective : Function.Injective keyed := by
  rintro ⟨s, v⟩ ⟨t, w⟩ h
  obtain ⟨hkey, hvalue⟩ := Prod.mk.inj h
  exact Prod.ext (Value.str.inj hkey) hvalue

theorem ofFields_inj {fields fields' : Fields} :
    ofFields fields = ofFields fields' ↔ fields = fields' := by
  constructor
  · intro h
    exact List.map_injective_iff.mpr keyed_injective (Value.map.inj h)
  · rintro rfl
    rfl

theorem genericItems_iff : ∀ items : List Value,
    GenericItems items ↔ ∀ v ∈ items, v.Generic
  | [] => by simp [GenericItems]
  | v :: rest => by rw [GenericItems, genericItems_iff rest, List.forall_mem_cons]

theorem genericEntries_map_keyed : ∀ fields : Fields,
    GenericEntries (fields.map keyed) ↔ ∀ e ∈ fields, e.2.Generic
  | [] => by simp [GenericEntries]
  | (k, v) :: rest => by
    rw [List.map_cons, keyed, GenericEntries, genericEntries_map_keyed rest, List.forall_mem_cons]
    exact and_iff_right ⟨k, rfl⟩

theorem nodup_map_keyed (fields : Fields) :
    ((fields.map keyed).map Prod.fst).Nodup ↔ (fields.map Prod.fst).Nodup := by
  have hkeys : (fields.map keyed).map Prod.fst = (fields.map Prod.fst).map Value.str := by
    rw [List.map_map, List.map_map]
    rfl
  rw [hkeys]
  exact List.nodup_map_iff fun _ _ => Value.str.inj

theorem generic_ofFields (fields : Fields) : (ofFields fields).Generic ↔ GenericFields fields := by
  rw [ofFields, Value.Generic, nodup_map_keyed, genericEntries_map_keyed]
  rfl

theorem genericFields_nil : GenericFields [] :=
  ⟨List.nodup_nil, fun _ => (absurd · List.not_mem_nil)⟩

/-! ## Decoding -/

/-- What a decoder makes of a value that is read into a field of this type. -/
structure Decoder where
  string : Value → Option Str
  bool : Value → Option Bool
  uint64 : Value → Option UInt64
  uint8 : Value → Option UInt8
  /-- The fields that a struct with these tags is read from. -/
  struct : List String → Value → Option Fields
  /-- A value decoded without a type. -/
  interface : Value → Option Value
  /-- A value decoded into a map with strings as keys, which may be absent. -/
  map : Value → Option (Option Fields)

/-- A value that was written from a field of the type is read back. Without a type, a generic one
is, and what is read is one. -/
structure Decoder.Lawful (D : Decoder) : Prop where
  string : ∀ s, D.string (.str s) = some s
  bool : ∀ b, D.bool (.bool b) = some b
  uint64 : ∀ n : UInt64, D.uint64 (.int n.toNat) = some n
  uint8 : ∀ n : UInt8, D.uint8 (.int n.toNat) = some n
  struct : ∀ tags {fields : Fields}, (fields.map Prod.fst).Nodup →
    D.struct tags (ofFields fields) = some fields
  interface : ∀ {v : Value}, v.Generic → D.interface v = some v
  generic_of_interface : ∀ {v v' : Value}, D.interface v = some v' → v'.Generic
  map : ∀ {fields : Fields}, GenericFields fields → D.map (ofFields fields) = some (some fields)
  generic_of_map : ∀ {v : Value} {fields : Fields}, D.map v = some (some fields) →
    GenericFields fields

/-- A value decoded into a slice. A missing slice and an empty one are not told apart. -/
def decodeSlice {α : Type} (decode : Value → Option α) : Value → Option (List α)
  | .nil => some []
  | .array items => items.mapM decode
  | _ => none

theorem decodeSlice_map {α β : Type} {decode : Value → Option β} {encode : α → Value} {f : α → β}
    {items : List α} (h : ∀ a ∈ items, decode (encode a) = some (f a)) :
    decodeSlice decode (.array (items.map encode)) = some (items.map f) := by
  rw [decodeSlice, List.mapM_map]
  induction items with
  | nil => rfl
  | cons a rest ih =>
    rw [List.mapM_cons, Function.comp_apply, h a List.mem_cons_self,
      ih fun b hb => h b (List.mem_cons_of_mem a hb)]
    rfl

/-! ## Nesting -/

theorem depth_lt_array {v : Value} {items : List Value} (h : v ∈ items) :
    v.depth < (Value.array items).depth := by
  suffices hle : v.depth ≤ depthItems items from Nat.lt_succ_of_le hle
  induction items with
  | nil => cases h
  | cons w rest ih =>
    rcases List.mem_cons.mp h with rfl | h
    · exact Nat.le_max_left ..
    · exact Nat.le_trans (ih h) (Nat.le_max_right ..)

theorem depth_lt_ofFields {e : Str × Value} {fields : Fields} (h : e ∈ fields) :
    e.2.depth < (ofFields fields).depth := by
  suffices hle : e.2.depth ≤ depthEntries (fields.map keyed) from Nat.lt_succ_of_le hle
  induction fields with
  | nil => cases h
  | cons e' rest ih =>
    rcases List.mem_cons.mp h with rfl | h
    · exact Nat.le_max_left ..
    · exact Nat.le_trans (ih h) (Nat.le_max_right ..)

/-! ## Structs -/

/-- The bytes of a tag. -/
def utf8 (s : String) : Str := s.toByteArray.data.toList

theorem utf8_inj {s t : String} : utf8 s = utf8 t ↔ s = t := by
  constructor
  · intro h
    exact String.toByteArray_inj.mp (ByteArray.ext (Array.toList_inj.mp h))
  · rintro rfl
    rfl

/-- A field by its tag, which is left out when it is empty and may be omitted. -/
structure Field where
  tag : String
  value : Value
  omitted : Bool

/-- A field that is always there. -/
def field (tag : String) (value : Value) : Field := ⟨tag, value, false⟩

/-- A field that is left out when it is empty. -/
def omitempty (tag : String) (empty : Bool) (value : Value) : Field := ⟨tag, value, empty⟩

def encodeFields (fields : List Field) : Fields :=
  (fields.filter fun f => !f.omitted).map fun f => (utf8 f.tag, f.value)

def encodeStruct (fields : List Field) : Value := ofFields (encodeFields fields)

theorem encodeStruct_ne_nil (fields : List Field) : encodeStruct fields ≠ .nil := nofun

/-- A field that is missing has the zero value of its type. -/
def fieldOr {α : Type} (fields : Fields) (tag : String) (zero : α) (decode : Value → Option α) :
    Option α :=
  match Assoc.get? (utf8 tag) fields with
  | none => some zero
  | some v => decode v

/-! ### Fields by their types -/

def strField (tag : String) (s : Str) : Field := field tag (.str s)

def omitStr (tag : String) (s : Str) : Field := omitempty tag s.isEmpty (.str s)

def omitBool (tag : String) (b : Bool) : Field := omitempty tag (!b) (.bool b)

/-- A pointer to a number. Zero is not a missing one. -/
def omitUint64 (tag : String) (n : Option UInt64) : Field :=
  omitempty tag n.isNone (.int (n.getD 0).toNat)

def omitMap (tag : String) (m : Fields) : Field := omitempty tag m.isEmpty (ofFields m)

def omitSlice (tag : String) (items : List Value) : Field :=
  omitempty tag items.isEmpty (.array items)

/-- A value of any type. -/
def omitAny (tag : String) (v : Value) : Field := omitempty tag v.isEmpty v

@[simp] theorem tag_strField (tag : String) (s : Str) : (strField tag s).tag = tag := (rfl)

@[simp] theorem tag_omitStr (tag : String) (s : Str) : (omitStr tag s).tag = tag := (rfl)

@[simp] theorem tag_omitBool (tag : String) (b : Bool) : (omitBool tag b).tag = tag := (rfl)

@[simp] theorem tag_omitUint64 (tag : String) (n : Option UInt64) :
    (omitUint64 tag n).tag = tag := (rfl)

@[simp] theorem tag_omitMap (tag : String) (m : Fields) : (omitMap tag m).tag = tag := (rfl)

@[simp] theorem tag_omitSlice (tag : String) (items : List Value) :
    (omitSlice tag items).tag = tag := (rfl)

@[simp] theorem tag_omitAny (tag : String) (v : Value) : (omitAny tag v).tag = tag := (rfl)

@[simp] theorem tag_omitempty (tag : String) (empty : Bool) (v : Value) :
    (omitempty tag empty v).tag = tag := (rfl)

/-- A pointer, which `nil` sets to null. -/
def decodePointer {α : Type} (decode : Value → Option α) : Value → Option (Option α)
  | .nil => some none
  | v => (decode v).map some

variable (D : Decoder)

def readStr (fields : Fields) (tag : String) : Option Str := fieldOr fields tag [] D.string

def readBool (fields : Fields) (tag : String) : Option Bool := fieldOr fields tag false D.bool

def readUint64 (fields : Fields) (tag : String) : Option (Option UInt64) :=
  fieldOr fields tag none (decodePointer D.uint64)

def readMap (fields : Fields) (tag : String) : Option Fields :=
  fieldOr fields tag [] fun v => (D.map v).map (Option.getD · [])

def readSlice {α : Type} (decode : Value → Option α) (fields : Fields) (tag : String) :
    Option (List α) :=
  fieldOr fields tag [] (decodeSlice decode)

def readAny (fields : Fields) (tag : String) : Option Value :=
  fieldOr fields tag .nil D.interface

variable {D}

section

variable {α : Type} {tag : String} {zero : α} {decode : Value → Option α} {f : Field}
variable {fields : List Field}

/-- A field is read where its tag is. -/
theorem fieldOr_cons : fieldOr (encodeFields (f :: fields)) tag zero decode =
    if f.tag = tag ∧ f.omitted = false then decode f.value
    else fieldOr (encodeFields fields) tag zero decode := by
  unfold fieldOr encodeFields
  cases hf : f.omitted with
  | true => simp [hf]
  | false =>
    rw [List.filter_cons, hf]
    simp only [Bool.not_false, if_true, List.map_cons, Assoc.get?_cons, utf8_inj, and_true]
    by_cases htag : f.tag = tag
    · rw [if_pos htag, if_pos htag]
    · rw [if_neg htag, if_neg htag]

theorem fieldOr_cons_ne (h : f.tag ≠ tag) : fieldOr (encodeFields (f :: fields)) tag zero decode =
    fieldOr (encodeFields fields) tag zero decode := by
  rw [fieldOr_cons, if_neg fun hf => h hf.1]

theorem fieldOr_of_not_mem (h : tag ∉ fields.map Field.tag) :
    fieldOr (encodeFields fields) tag zero decode = some zero := by
  induction fields with
  | nil => rfl
  | cons f rest ih =>
    rw [List.map_cons, List.mem_cons, not_or] at h
    rw [fieldOr_cons_ne (Ne.symm h.1), ih h.2]

theorem fieldOr_field {v : Value} :
    fieldOr (encodeFields (field tag v :: fields)) tag zero decode = decode v := by
  rw [fieldOr_cons]
  exact if_pos ⟨rfl, rfl⟩

/-- A field that is left out has the zero value. -/
theorem fieldOr_omitempty {empty : Bool} {v : Value} (h : tag ∉ fields.map Field.tag) :
    fieldOr (encodeFields (omitempty tag empty v :: fields)) tag zero decode =
      if empty then some zero else decode v := by
  rw [fieldOr_cons, fieldOr_of_not_mem h]
  cases empty <;> simp [omitempty]

theorem nodup_encodeFields (hnodup : (fields.map Field.tag).Nodup) :
    ((encodeFields fields).map Prod.fst).Nodup := by
  have hkeys : (encodeFields fields).map Prod.fst =
      ((fields.filter fun f => !f.omitted).map Field.tag).map utf8 := by
    rw [encodeFields, List.map_map, List.map_map]
    rfl
  rw [hkeys]
  exact (hnodup.sublist (List.filter_sublist.map _)).map fun _ _ => utf8_inj.mp

theorem mem_encodeFields {e : Str × Value} (h : e ∈ encodeFields fields) :
    ∃ f ∈ fields, f.omitted = false ∧ e = (utf8 f.tag, f.value) := by
  obtain ⟨f, hf, rfl⟩ := List.mem_map.mp h
  obtain ⟨hmem, hpresent⟩ := List.mem_filter.mp hf
  exact ⟨f, hmem, Bool.not_eq_true' _ ▸ hpresent, rfl⟩

theorem depth_lt_encodeStruct (h : f ∈ fields) (hpresent : f.omitted = false) :
    f.value.depth < (encodeStruct fields).depth := by
  have hmem : f ∈ fields.filter fun f => !f.omitted :=
    List.mem_filter.mpr ⟨h, by rw [hpresent]; rfl⟩
  exact depth_lt_ofFields (List.mem_map_of_mem (f := fun f => (utf8 f.tag, f.value)) hmem)

/-- An element of a slice that is a field is nested in the struct. -/
theorem depth_lt_of_mem_slice (tag : String) {v : Value} {items : List Value} (hv : v ∈ items)
    (h : omitSlice tag items ∈ fields) : v.depth < (encodeStruct fields).depth := by
  have hpresent : (omitSlice tag items).omitted = false := by
    cases items with
    | nil => cases hv
    | cons w rest => rfl
  exact Nat.lt_trans (depth_lt_array hv) (depth_lt_encodeStruct h hpresent)

/-- A struct is read from its own fields. -/
theorem struct_encodeStruct (hD : D.Lawful) (hnodup : (fields.map Field.tag).Nodup)
    {tags : List String} : D.struct tags (encodeStruct fields) = some (encodeFields fields) :=
  hD.struct tags (nodup_encodeFields hnodup)

end

/-! ### What is read is generic -/

theorem fieldOr_eq_some {α : Type} {fields : Fields} {tag : String} {zero a : α}
    {decode : Value → Option α} (h : fieldOr fields tag zero decode = some a) :
    a = zero ∨ ∃ v, decode v = some a := by
  unfold fieldOr at h
  split at h
  · exact Or.inl (Option.some.inj h).symm
  · exact Or.inr ⟨_, h⟩

theorem generic_of_readMap (hD : D.Lawful) {fields m : Fields} {tag : String}
    (h : readMap D fields tag = some m) : GenericFields m := by
  rcases fieldOr_eq_some h with rfl | ⟨v, hv⟩
  · exact genericFields_nil
  · obtain ⟨raw, hraw, rfl⟩ := Option.map_eq_some_iff.mp hv
    cases raw with
    | none => exact genericFields_nil
    | some m => exact hD.generic_of_map hraw

theorem generic_of_readAny (hD : D.Lawful) {fields : Fields} {tag : String} {v : Value}
    (h : readAny D fields tag = some v) : v.Generic := by
  rcases fieldOr_eq_some h with rfl | ⟨w, hw⟩
  · trivial
  · exact hD.generic_of_interface hw

theorem exists_of_mapM {α β : Type} {decode : β → Option α} : ∀ {vs : List β} {items : List α},
    vs.mapM decode = some items → ∀ a ∈ items, ∃ v, decode v = some a
  | [], items, h, a, ha => by
    obtain rfl := Option.some.inj h
    cases ha
  | v :: rest, items, h, a, ha => by
    rw [List.mapM_cons] at h
    obtain ⟨b, hb, h⟩ := Option.bind_eq_some_iff.mp h
    obtain ⟨bs, hbs, h⟩ := Option.bind_eq_some_iff.mp h
    obtain rfl := Option.some.inj h
    rcases List.mem_cons.mp ha with rfl | ha
    · exact ⟨v, hb⟩
    · exact exists_of_mapM hbs a ha

/-- Each element of a slice was decoded. -/
theorem exists_of_readSlice {α : Type} {decode : Value → Option α} {fields : Fields} {tag : String}
    {items : List α} (h : readSlice decode fields tag = some items) {a : α} (ha : a ∈ items) :
    ∃ v, decode v = some a := by
  rcases fieldOr_eq_some h with rfl | ⟨v, hv⟩
  · cases ha
  · unfold decodeSlice at hv
    split at hv
    · obtain rfl := Option.some.inj hv
      cases ha
    · exact exists_of_mapM hv a ha
    · cases hv

/-! ### A field that is written is read -/

section

variable {tag : String} {f : Field} {fields : List Field}

theorem readStr_strField (hD : D.Lawful) (s : Str) :
    readStr D (encodeFields (strField tag s :: fields)) tag = some s :=
  fieldOr_field.trans (hD.string s)

theorem readStr_omitStr (hD : D.Lawful) (s : Str) (htag : tag ∉ fields.map Field.tag) :
    readStr D (encodeFields (omitStr tag s :: fields)) tag = some s := by
  rw [readStr, omitStr, fieldOr_omitempty htag, hD.string]
  cases s <;> rfl

theorem readBool_omitBool (hD : D.Lawful) (b : Bool) (htag : tag ∉ fields.map Field.tag) :
    readBool D (encodeFields (omitBool tag b :: fields)) tag = some b := by
  rw [readBool, omitBool, fieldOr_omitempty htag, hD.bool]
  cases b <;> rfl

theorem readUint64_omitUint64 (hD : D.Lawful) (n : Option UInt64)
    (htag : tag ∉ fields.map Field.tag) :
    readUint64 D (encodeFields (omitUint64 tag n :: fields)) tag = some n := by
  rw [readUint64, omitUint64, fieldOr_omitempty htag]
  cases n with
  | none => rfl
  | some n => exact congrArg (Option.map some) (hD.uint64 n)

theorem readMap_omitMap (hD : D.Lawful) {m : Fields} (h : GenericFields m)
    (htag : tag ∉ fields.map Field.tag) :
    readMap D (encodeFields (omitMap tag m :: fields)) tag = some m := by
  rw [readMap, omitMap, fieldOr_omitempty htag, hD.map h]
  cases m <;> rfl

/-- A value that is empty is read as `nil`. -/
theorem readAny_omitAny (hD : D.Lawful) {v : Value} (h : v.Generic)
    (htag : tag ∉ fields.map Field.tag) :
    readAny D (encodeFields (omitAny tag v :: fields)) tag =
      some (if v.isEmpty then .nil else v) := by
  rw [readAny, omitAny, fieldOr_omitempty htag, hD.interface h]
  cases v.isEmpty <;> rfl

theorem readSlice_omitSlice {α β : Type} {decode : Value → Option β} {encode : α → Value}
    {g : α → β} {items : List α} (h : ∀ a ∈ items, decode (encode a) = some (g a))
    (htag : tag ∉ fields.map Field.tag) :
    readSlice decode (encodeFields (omitSlice tag (items.map encode) :: fields)) tag =
      some (items.map g) := by
  rw [readSlice, omitSlice, fieldOr_omitempty htag, decodeSlice_map h]
  cases items <;> rfl

/-! A reader goes past a field of another tag. -/

@[simp] theorem readStr_cons_ne (h : f.tag ≠ tag) :
    readStr D (encodeFields (f :: fields)) tag = readStr D (encodeFields fields) tag :=
  fieldOr_cons_ne h

@[simp] theorem readBool_cons_ne (h : f.tag ≠ tag) :
    readBool D (encodeFields (f :: fields)) tag = readBool D (encodeFields fields) tag :=
  fieldOr_cons_ne h

@[simp] theorem readUint64_cons_ne (h : f.tag ≠ tag) :
    readUint64 D (encodeFields (f :: fields)) tag = readUint64 D (encodeFields fields) tag :=
  fieldOr_cons_ne h

@[simp] theorem readMap_cons_ne (h : f.tag ≠ tag) :
    readMap D (encodeFields (f :: fields)) tag = readMap D (encodeFields fields) tag :=
  fieldOr_cons_ne h

@[simp] theorem readAny_cons_ne (h : f.tag ≠ tag) :
    readAny D (encodeFields (f :: fields)) tag = readAny D (encodeFields fields) tag :=
  fieldOr_cons_ne h

@[simp] theorem readSlice_cons_ne {α : Type} {decode : Value → Option α} (h : f.tag ≠ tag) :
    readSlice decode (encodeFields (f :: fields)) tag =
      readSlice decode (encodeFields fields) tag :=
  fieldOr_cons_ne h

end

/-! ### Structs that are generic -/

/-- What is written of the field is generic. -/
def Field.Generic (f : Field) : Prop := f.omitted = false → f.value.Generic

@[simp] theorem generic_strField (tag : String) (s : Str) : (strField tag s).Generic :=
  fun _ => trivial

@[simp] theorem generic_omitStr (tag : String) (s : Str) : (omitStr tag s).Generic :=
  fun _ => trivial

@[simp] theorem generic_omitBool (tag : String) (b : Bool) : (omitBool tag b).Generic :=
  fun _ => trivial

@[simp] theorem generic_omitUint64 (tag : String) (n : Option UInt64) :
    (omitUint64 tag n).Generic := fun _ => trivial

theorem generic_omitMap {tag : String} {m : Fields} (h : GenericFields m) :
    (omitMap tag m).Generic := fun _ => (generic_ofFields m).mpr h

theorem generic_omitSlice {tag : String} {items : List Value} (h : ∀ v ∈ items, v.Generic) :
    (omitSlice tag items).Generic := fun _ => (genericItems_iff items).mpr h

theorem generic_omitAny {tag : String} {v : Value} (h : v.Generic) : (omitAny tag v).Generic :=
  fun _ => h

/-- A struct is generic when its tags are distinct and its fields generic. -/
theorem generic_encodeStruct {fields : List Field} (hnodup : (fields.map Field.tag).Nodup)
    (h : ∀ f ∈ fields, f.Generic) : (encodeStruct fields).Generic := by
  refine (generic_ofFields _).mpr ⟨nodup_encodeFields hnodup, fun e he => ?_⟩
  obtain ⟨f, hf, hpresent, rfl⟩ := mem_encodeFields he
  exact h f hf hpresent

end Cpex.Infra.Msgpack
