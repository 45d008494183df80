import Cpex.Bindings.Conversions
import Cpex.Infra.Except

/-!
# JSON values through Python

A JSON value that becomes a Python object comes back as it was, but for an integer that no `i64`
holds, which comes back as a float.

* `narrowed` — what comes back of a value
* `jsonValueToPyobj_spec` — the object, and what is read of it at each depth
* `Kept` — what is meant to hold of a value
* `kept_iff` — it holds exactly when no such integer is read
-/

namespace Cpex.Bindings

open Cpex.Infra

/-! ## What comes back -/

/-- An integer that fits an `i64`, or a float. -/
def narrowedNumber (n : Number) : Number :=
  match n with
  | .posInt k => if k.toNat < 0x8000000000000000 then n else .float (.ofNat (floatOfNat k.toNat))
  | .negInt _ | .float _ => n

mutual

def narrowed : Json → Json
  | .null => .null
  | .bool b => .bool b
  | .number n => .number (narrowedNumber n)
  | .string s => .string s
  | .array items => .array (narrowedItems items)
  | .object fields => .object (narrowedFields fields)

def narrowedItems : List Json → List Json
  | [] => []
  | v :: rest => narrowed v :: narrowedItems rest

def narrowedFields : List (String × Json) → List (String × Json)
  | [] => []
  | (k, v) :: rest => (k, narrowed v) :: narrowedFields rest

end

/-! ## Strings and numbers -/

theorem charOf_val (c : Char) : charOf c.val = some c := by
  unfold charOf
  rw [dif_pos c.valid]

theorem mapM_charOf : ∀ chars : List Char, (chars.map Char.val).mapM charOf = some chars
  | [] => rfl
  | c :: rest => by
    rw [List.map_cons, List.mapM_cons, charOf_val, mapM_charOf rest]
    rfl

theorem extractString_intoPyStr (s : String) : extractString (intoPyStr s) = .ok s := by
  rw [extractString, intoPyStr, mapM_charOf]
  exact congrArg Except.ok String.ofList_toList

theorem intoPyStr_injective : Function.Injective intoPyStr := by
  intro s t h
  have hextract := congrArg extractString h
  rw [extractString_intoPyStr, extractString_intoPyStr] at hextract
  exact Except.ok.inj hextract

theorem extractKey_intoPyStr (s : String) : extractKey (.str (intoPyStr s)) = .ok s := by
  rw [extractKey, extractString_intoPyStr]
  rfl

theorem extractI64_toInt (i : Int64) : extractI64 i.toInt = .ok i := by
  unfold extractI64
  rw [if_pos ⟨i.le_toInt, i.toInt_lt⟩, Int64.ofInt_toInt]

/-- The float of an integer that no `i64` holds is about as large. -/
theorem floatOfNat_bounds {k : Nat} (hle : 0x8000000000000000 ≤ k) (hlt : k < 0x10000000000000000) :
    0x43e0000000000000 ≤ floatOfNat k ∧ floatOfNat k ≤ 0x43f0000000000000 := by
  have hlog : k.log2 = 63 := (Nat.log2_eq_iff (by omega)).mpr ⟨hle, hlt⟩
  have hquotient : k >>> 11 = k / 2048 := Nat.shiftRight_eq_div_pow k 11
  unfold floatOfNat
  simp only [hlog, if_neg (show ¬ k = 0 by omega), Nat.reduceLeDiff, if_false, Nat.reduceSub,
    hquotient, Nat.shiftLeft_eq, Nat.reduceAdd, Nat.reducePow, Nat.reduceMul]
  split <;> omega

theorem isFinite_of_bounds {n : Nat} (hle : 0x43e0000000000000 ≤ n) (hlt : n ≤ 0x43f0000000000000) :
    isFinite (.ofNat n) = true := by
  have hbits : (UInt64.ofNat n >>> 52 &&& 0x7ff).toNat = n / 4503599627370496 % 2048 := by
    have hmod : n % 18446744073709551616 = n := Nat.mod_eq_of_lt (by omega)
    rw [UInt64.toNat_and, UInt64.toNat_shiftRight, UInt64.toNat_ofNat']
    simp only [UInt64.reduceToNat, Nat.reduceMod, Nat.reducePow, hmod, Nat.shiftRight_eq_div_pow]
    exact Nat.and_two_pow_sub_one_eq_mod _ 11
  unfold isFinite
  rw [bne_iff_ne]
  intro heq
  have hnat := congrArg UInt64.toNat heq
  rw [hbits] at hnat
  simp only [UInt64.reduceToNat] at hnat
  omega

theorem numberFromF64_floatOfNat {k : UInt64} (h : ¬ k.toNat < 0x8000000000000000) :
    numberFromF64 (.ofNat (floatOfNat k.toNat)) = some (.float (.ofNat (floatOfNat k.toNat))) := by
  obtain ⟨hle, hlt⟩ := floatOfNat_bounds (Nat.not_lt.mp h) k.toNat_lt
  rw [numberFromF64, if_pos (isFinite_of_bounds hle hlt)]

/-! ## What is read of an object -/

/-- Within the bound an object is read as `w`, whose depth is `n`. Beyond it, it is refused. -/
structure Reads (obj : PyObj) (w : Json) (n : Nat) : Prop where
  ok : ∀ depth, depth + n ≤ 128 → pyobjToJsonValue obj depth = .ok w
  deep : ∀ depth, 128 < depth + n → ∃ e, pyobjToJsonValue obj depth = .error e

structure ReadsItems (lst : List PyObj) (ws : List Json) (n : Nat) : Prop where
  ok : ∀ depth, depth + n ≤ 128 → pyItemsToJson lst (depth + 1) = .ok ws
  deep : ∀ depth ≤ 128, 128 < depth + n → ∃ e, pyItemsToJson lst (depth + 1) = .error e

/-- The entries are inserted after those that are there. -/
structure ReadsEntries (d : List (PyKey × PyObj)) (ws : List (String × Json)) (n : Nat) :
    Prop where
  ok : ∀ depth map, depth + n ≤ 128 → pyEntriesToJson d (depth + 1) map =
    .ok (ws.foldl (fun acc f => Assoc.putSorted Json.keyOrder f.1 f.2 acc) map)
  deep : ∀ depth map, depth ≤ 128 → 128 < depth + n →
    ∃ e, pyEntriesToJson d (depth + 1) map = .error e

theorem pyobjToJsonValue_of_deep {depth : Nat} (h : 128 < depth) (obj : PyObj) :
    pyobjToJsonValue obj depth = .error depthError := by
  rw [pyobjToJsonValue.eq_def, if_pos h]

/-- An object without parts. -/
theorem reads_of_flat {obj : PyObj} {w : Json}
    (h : ∀ depth ≤ 128, pyobjToJsonValue obj depth = .ok w) : Reads obj w 0 where
  ok depth hle := h depth hle
  deep _ hlt := ⟨_, pyobjToJsonValue_of_deep hlt obj⟩

theorem ReadsItems.nil : ReadsItems [] [] 0 where
  ok _ _ := rfl
  deep _ hle hlt := absurd hlt (by omega)

theorem ReadsItems.cons {obj : PyObj} {w : Json} {n : Nat} {lst : List PyObj} {ws : List Json}
    {m : Nat} (h : Reads obj w n) (hrest : ReadsItems lst ws m) :
    ReadsItems (obj :: lst) (w :: ws) (max (n + 1) m) where
  ok depth hle := by
    rw [pyItemsToJson, h.ok (depth + 1) (by omega), hrest.ok depth (by omega)]
    rfl
  deep depth hle hlt := by
    rw [pyItemsToJson]
    by_cases hn : 128 < depth + 1 + n
    · obtain ⟨e, he⟩ := h.deep (depth + 1) hn
      rw [he]
      exact ⟨e, rfl⟩
    · obtain ⟨e, he⟩ := hrest.deep depth hle (by omega)
      rw [h.ok (depth + 1) (by omega), he]
      exact ⟨e, rfl⟩

theorem ReadsItems.list {lst : List PyObj} {ws : List Json} {n : Nat} (h : ReadsItems lst ws n) :
    Reads (.list lst) (.array ws) n where
  ok depth hle := by
    rw [pyobjToJsonValue, if_neg (by omega), h.ok depth hle]
    rfl
  deep depth hlt := by
    by_cases hdepth : 128 < depth
    · exact ⟨_, pyobjToJsonValue_of_deep hdepth _⟩
    · obtain ⟨e, he⟩ := h.deep depth (by omega) hlt
      rw [pyobjToJsonValue, if_neg hdepth, he]
      exact ⟨e, rfl⟩

theorem ReadsEntries.nil : ReadsEntries [] [] 0 where
  ok _ _ _ := rfl
  deep _ _ hle hlt := absurd hlt (by omega)

theorem ReadsEntries.cons {k : String} {obj : PyObj} {w : Json} {n : Nat}
    {d : List (PyKey × PyObj)} {ws : List (String × Json)} {m : Nat} (h : Reads obj w n)
    (hrest : ReadsEntries d ws m) :
    ReadsEntries ((.str (intoPyStr k), obj) :: d) ((k, w) :: ws) (max (n + 1) m) where
  ok depth map hle := by
    rw [pyEntriesToJson, extractKey_intoPyStr, ok_bind, h.ok (depth + 1) (by omega), ok_bind,
      hrest.ok depth _ (by omega)]
    rfl
  deep depth map hle hlt := by
    rw [pyEntriesToJson, extractKey_intoPyStr, ok_bind]
    by_cases hn : 128 < depth + 1 + n
    · obtain ⟨e, he⟩ := h.deep (depth + 1) hn
      rw [he]
      exact ⟨e, rfl⟩
    · rw [h.ok (depth + 1) (by omega), ok_bind]
      exact hrest.deep depth _ hle (by omega)

theorem ReadsEntries.dict {d : List (PyKey × PyObj)} {ws : List (String × Json)} {n : Nat}
    (hordered : Json.Ordered ws) (h : ReadsEntries d ws n) :
    Reads (.dict d) (.object ws) n where
  ok depth hle := by
    rw [pyobjToJsonValue, if_neg (by omega), h.ok depth [] hle, Json.foldl_putSorted_fields hordered]
    rfl
  deep depth hlt := by
    by_cases hdepth : 128 < depth
    · exact ⟨_, pyobjToJsonValue_of_deep hdepth _⟩
    · obtain ⟨e, he⟩ := h.deep depth [] (by omega) hlt
      rw [pyobjToJsonValue, if_neg hdepth, he]
      exact ⟨e, rfl⟩

/-! ## There and back -/

theorem toInt_of_fits {k : UInt64} (h : k.toNat < 0x8000000000000000) :
    k.toInt64.toInt = k.toNat := by
  have hlt : 2 * k.toBitVec.toNat < 2 ^ 64 := by
    have heq : k.toBitVec.toNat = k.toNat := rfl
    omega
  exact BitVec.toInt_eq_toNat_of_lt hlt

theorem signed_toInt64 {k : UInt64} (h : k.toNat < 0x8000000000000000) :
    Serde.signed k.toInt64 = .number (.posInt k) := by
  have hnonneg : 0 ≤ k.toInt64.toInt := by
    rw [toInt_of_fits h]
    exact Int.natCast_nonneg _
  rw [Serde.signed, if_pos hnonneg, UInt64.toUInt64_toInt64]

theorem signed_of_neg {i : Int64} (h : i.toInt < 0) : Serde.signed i = .number (.negInt i) :=
  if_neg (Int.not_le.mpr h)

/-- A number becomes an `int` or a `float`, and comes back narrowed. -/
theorem jsonNumber_spec {n : Number} (h : n.Represented) :
    ∃ obj, jsonValueToPyobj (.number n) = .ok obj ∧
      Reads obj (.number (narrowedNumber n)) 0 := by
  have hint : ∀ i : Int64, Json.asI64 (.number n) = some i →
      Serde.signed i = .number (narrowedNumber n) →
      jsonValueToPyobj (.number n) = .ok (.int i.toInt) ∧
        Reads (.int i.toInt) (.number (narrowedNumber n)) 0 := by
    intro i hi hsigned
    refine ⟨by rw [jsonValueToPyobj, hi], reads_of_flat fun depth hle => ?_⟩
    rw [pyobjToJsonValue, if_neg (by omega), extractI64_toInt, ← hsigned]
    rfl
  have hfloat : ∀ bits, Json.asI64 (.number n) = none → asF64 n = some bits →
      numberFromF64 bits = some (narrowedNumber n) →
      jsonValueToPyobj (.number n) = .ok (.float bits) ∧
        Reads (.float bits) (.number (narrowedNumber n)) 0 := by
    intro bits hnone hbits hnumber
    refine ⟨by rw [jsonValueToPyobj, hnone, hbits], reads_of_flat fun depth hle => ?_⟩
    rw [pyobjToJsonValue, if_neg (by omega), hnumber]
  cases n with
  | posInt k =>
    by_cases hfits : k.toNat < 0x8000000000000000
    · refine ⟨_, hint k.toInt64 (if_pos hfits) ?_⟩
      rw [signed_toInt64 hfits, narrowedNumber, if_pos hfits]
    · refine ⟨_, hfloat _ (if_neg hfits) rfl ?_⟩
      rw [numberFromF64_floatOfNat hfits, narrowedNumber, if_neg hfits]
  | negInt i => exact ⟨_, hint i rfl (signed_of_neg h)⟩
  | float bits => exact ⟨_, hfloat bits rfl rfl (if_pos h)⟩

theorem keys_narrowedFields : ∀ fields : List (String × Json),
    (narrowedFields fields).map Prod.fst = fields.map Prod.fst
  | [] => rfl
  | (k, v) :: rest => by
    rw [narrowedFields, List.map_cons, List.map_cons, keys_narrowedFields rest]

mutual

/-- **What a value becomes, and what is read of it.** -/
theorem jsonValueToPyobj_spec : ∀ v : Json, v.Represented →
    ∃ obj, jsonValueToPyobj v = .ok obj ∧ Reads obj (narrowed v) v.depth
  | .null, _ => ⟨.none, rfl, reads_of_flat fun depth hle => if_neg (Nat.not_lt.mpr hle)⟩
  | .bool b, _ => ⟨.bool b, rfl, reads_of_flat fun depth hle => if_neg (Nat.not_lt.mpr hle)⟩
  | .number n, h => jsonNumber_spec h
  | .string s, _ => by
    refine ⟨.str (intoPyStr s), rfl, reads_of_flat fun depth hle => ?_⟩
    rw [pyobjToJsonValue, if_neg (by omega), extractString_intoPyStr]
    rfl
  | .array items, h => by
    obtain ⟨lst, hlst, hreads⟩ := jsonItemsToPy_spec items h
    refine ⟨.list lst, ?_, hreads.list⟩
    rw [jsonValueToPyobj, hlst]
    rfl
  | .object fields, h => by
    obtain ⟨d, hd, hreads⟩ := jsonFieldsToPy_spec fields (Assoc.nodup_of_sorted _ h.1) h.2
    refine ⟨.dict d, ?_, hreads.dict ?_⟩
    · rw [jsonValueToPyobj, hd [] fun _ _ => List.not_mem_nil]
      rfl
    · rw [Json.Ordered, keys_narrowedFields]
      exact h.1

theorem jsonItemsToPy_spec : ∀ items : List Json, Json.RepresentedItems items →
    ∃ lst, jsonItemsToPy items = .ok lst ∧
      ReadsItems lst (narrowedItems items) (Json.depthItems items)
  | [], _ => ⟨[], rfl, .nil⟩
  | v :: rest, h => by
    obtain ⟨obj, hobj, hread⟩ := jsonValueToPyobj_spec v h.1
    obtain ⟨lst, hlst, hreads⟩ := jsonItemsToPy_spec rest h.2
    refine ⟨obj :: lst, ?_, .cons hread hreads⟩
    rw [jsonItemsToPy, hobj, hlst]
    rfl

/-- The keys are distinct, so each one is appended. -/
theorem jsonFieldsToPy_spec : ∀ fields : List (String × Json), (fields.map Prod.fst).Nodup →
    Json.RepresentedFields fields →
    ∃ d, (∀ before : List (PyKey × PyObj),
        (∀ k ∈ fields.map Prod.fst, .str (intoPyStr k) ∉ before.map Prod.fst) →
          jsonFieldsToPy fields before = .ok (before ++ d)) ∧
      ReadsEntries d (narrowedFields fields) (Json.depthFields fields)
  | [], _, _ => ⟨[], fun before _ => by rw [List.append_nil]; rfl, .nil⟩
  | (k, v) :: rest, hnodup, h => by
    rw [List.map_cons, List.nodup_cons] at hnodup
    obtain ⟨obj, hobj, hread⟩ := jsonValueToPyobj_spec v h.1
    obtain ⟨d, hd, hreads⟩ := jsonFieldsToPy_spec rest hnodup.2 h.2
    refine ⟨(.str (intoPyStr k), obj) :: d, fun before hfresh => ?_, .cons hread hreads⟩
    rw [jsonFieldsToPy, hobj, ok_bind, Assoc.put_of_not_mem _ _ (hfresh k List.mem_cons_self),
      hd, List.append_assoc]
    · rfl
    · intro k' hk' hmem
      rw [List.map_append, List.mem_append] at hmem
      rcases hmem with hbefore | hnew
      · exact hfresh k' (List.mem_cons_of_mem _ hk') hbefore
      · have heq := PyKey.str.inj (List.mem_singleton.mp hnew)
        exact hnodup.1 (intoPyStr_injective heq ▸ hk')

end

/-! ## Values that come back as they were -/

/-- An integer that an `i64` holds, or a float. -/
def ExactNumber : Number → Prop
  | .posInt k => k.toNat < 0x8000000000000000
  | .negInt _ | .float _ => True

mutual

/-- No integer in a value is beyond an `i64`. -/
def Exact : Json → Prop
  | .null | .bool _ | .string _ => True
  | .number n => ExactNumber n
  | .array items => ExactItems items
  | .object fields => ExactFields fields

def ExactItems : List Json → Prop
  | [] => True
  | v :: rest => Exact v ∧ ExactItems rest

def ExactFields : List (String × Json) → Prop
  | [] => True
  | (_, v) :: rest => Exact v ∧ ExactFields rest

end

theorem narrowedNumber_eq_iff (n : Number) : narrowedNumber n = n ↔ ExactNumber n := by
  cases n with
  | posInt k =>
    by_cases hfits : k.toNat < 0x8000000000000000
    · exact iff_of_true (if_pos hfits) hfits
    · refine iff_of_false ?_ hfits
      rw [narrowedNumber, if_neg hfits]
      exact nofun
  | negInt i => exact iff_of_true rfl trivial
  | float bits => exact iff_of_true rfl trivial

mutual

theorem narrowed_eq_iff : ∀ v : Json, narrowed v = v ↔ Exact v
  | .null | .bool _ | .string _ => iff_of_true rfl trivial
  | .number n => by rw [narrowed, Exact, Json.number.injEq, narrowedNumber_eq_iff]
  | .array items => by rw [narrowed, Exact, Json.array.injEq, narrowedItems_eq_iff items]
  | .object fields => by rw [narrowed, Exact, Json.object.injEq, narrowedFields_eq_iff fields]

theorem narrowedItems_eq_iff : ∀ items : List Json, narrowedItems items = items ↔ ExactItems items
  | [] => iff_of_true rfl trivial
  | v :: rest => by
    rw [narrowedItems, ExactItems, List.cons.injEq, narrowed_eq_iff v, narrowedItems_eq_iff rest]

theorem narrowedFields_eq_iff : ∀ fields : List (String × Json),
    narrowedFields fields = fields ↔ ExactFields fields
  | [] => iff_of_true rfl trivial
  | (k, v) :: rest => by
    rw [narrowedFields, ExactFields, List.cons.injEq, Prod.mk.injEq, narrowed_eq_iff v,
      narrowedFields_eq_iff rest, and_iff_right rfl]

end

/-- What a Python host is handed and gives back is the value it stands for, or it is refused. -/
def Kept (v : Json) : Prop :=
  ∀ obj v', jsonValueToPyobj v = .ok obj → pyobjToJsonValue obj 0 = .ok v' → v' = v

/-- A value nested too deeply never comes back. -/
theorem kept_of_deep {v : Json} (h : v.Represented) (hdeep : 128 < v.depth) : Kept v := by
  intro obj v' hobj hv'
  obtain ⟨obj', hobj', hreads⟩ := jsonValueToPyobj_spec v h
  obtain rfl : obj' = obj := Except.ok.inj (hobj'.symm.trans hobj)
  obtain ⟨e, he⟩ := hreads.deep 0 (by omega)
  exact absurd (he.symm.trans hv') nofun

/-- **A value comes back as it was exactly when each integer in it fits an `i64`.** -/
theorem kept_iff {v : Json} (h : v.Represented) (hdepth : v.depth ≤ 128) : Kept v ↔ Exact v := by
  obtain ⟨obj, hobj, hreads⟩ := jsonValueToPyobj_spec v h
  have hread : pyobjToJsonValue obj 0 = .ok (narrowed v) := hreads.ok 0 (by omega)
  rw [← narrowed_eq_iff v]
  constructor
  · intro hkept
    exact hkept obj (narrowed v) hobj hread
  · intro heq obj' v' hobj' hv'
    obtain rfl : obj = obj' := Except.ok.inj (hobj.symm.trans hobj')
    exact (Except.ok.inj (hread.symm.trans hv')).symm.trans heq

/-- A negative integer, a boolean and a string. -/
def small : Json :=
  .object [("a", .number (.negInt (-1))), ("b", .bool true), ("c", .string "1")]

theorem kept_iff_small : small.depth ≤ 128 ∧ Kept small := by
  have hordered : Json.Ordered [("a", Json.number (.negInt (-1))), ("b", .bool true),
      ("c", .string "1")] := by
    unfold Json.Ordered
    decide
  have hnegative : (-1 : Int64).toInt < 0 := by decide
  have hrepresented : small.Represented := ⟨hordered, hnegative, trivial, trivial, trivial⟩
  exact ⟨by decide, (kept_iff hrepresented (by decide)).mpr ⟨trivial, trivial, trivial, trivial⟩⟩

/-- The first integer beyond an `i64`. -/
def firstVast : Json := .object [("n", .number (.posInt 0x8000000000000000))]

/-- It comes back as a float. -/
theorem firstVast_becomes_float : firstVast.Represented ∧ firstVast.depth ≤ 128 ∧
    (∃ obj, jsonValueToPyobj firstVast = .ok obj ∧
      pyobjToJsonValue obj 0 = .ok (.object [("n", .number (.float 0x43e0000000000000))])) ∧
    ¬ Kept firstVast := by
  have hread : pyobjToJsonValue (.dict [(.str (intoPyStr "n"), .float 0x43e0000000000000)]) 0 =
      .ok (.object [("n", .number (.float 0x43e0000000000000))]) := by
    decide +kernel
  refine ⟨⟨List.pairwise_singleton _ _, trivial, trivial⟩, by decide, ⟨_, rfl, hread⟩, ?_⟩
  intro hkept
  exact absurd (hkept _ _ rfl hread) (by decide)

end Cpex.Bindings
