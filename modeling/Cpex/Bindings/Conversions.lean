import Cpex.Infra.JsonShape
import Cpex.Infra.Serde

/-!
# Python objects and JSON values

`pyobj_to_json_value` and `json_value_to_pyobj` of `bindings/python/src/conversions.rs`.

* `PyObj` — the Python objects that are looked into
* `pyobjToJsonValue` — a Python object as a JSON value, to a bounded depth
* `jsonValueToPyobj` — and back

The texts of the exceptions that PyO3 raises by itself are left out.
-/

namespace Cpex.Bindings

open Cpex.Infra

/-! ## Python objects -/

/-- An exception. -/
inductive PyErr where
  | valueError (message : String)
  | runtimeError (message : String)
  /-- An `int` beyond an `i64`. -/
  | overflowError
  /-- A `str` with a lone surrogate. -/
  | unicodeEncodeError
  deriving DecidableEq, Repr

/-- The code points of a `str`, which may be surrogates. -/
abbrev PyStr : Type := List UInt32

/-- A key of a `dict`: a `str`, or another hashable object. -/
inductive PyKey where
  | str (s : PyStr)
  | other (id : Nat)
  deriving DecidableEq

inductive PyObj where
  | none
  | bool (b : Bool)
  | int (i : Int)
  | float (bits : UInt64)
  | str (s : PyStr)
  | list (items : List PyObj)
  | dict (entries : List (PyKey × PyObj))
  | other (qualname : String)

/-- `str` of a Rust string. -/
def intoPyStr (s : String) : PyStr := s.toList.map Char.val

/-- A code point that is no surrogate. -/
def charOf (c : UInt32) : Option Char :=
  if h : c.isValidChar then some ⟨c, h⟩ else none

/-- `extract::<String>` of a `str`. -/
def extractString (s : PyStr) : Except PyErr String :=
  match s.mapM charOf with
  | some chars => .ok (String.ofList chars)
  | none => .error .unicodeEncodeError

/-- `extract::<i64>` of an `int`. -/
def extractI64 (i : Int) : Except PyErr Int64 :=
  if -0x8000000000000000 ≤ i ∧ i < 0x8000000000000000 then .ok (Int64.ofInt i)
  else .error .overflowError

/-! ## Numbers -/

/-- The bits of the float nearest to `n`, ties to even. -/
def floatOfNat (n : Nat) : Nat :=
  let exponent := n.log2
  if n = 0 then 0
  else if exponent ≤ 52 then ((exponent + 1022) <<< 52) + (n <<< (52 - exponent))
  else
    let quotient := n >>> (exponent - 52)
    let rest := n - quotient <<< (exponent - 52)
    let half := 1 <<< (exponent - 53)
    let rounded :=
      if rest > half ∨ rest = half ∧ quotient % 2 = 1 then quotient + 1 else quotient
    ((exponent + 1022) <<< 52) + rounded

/-- `Number::as_f64` -/
def asF64 : Number → Option UInt64
  | .posInt n => some (.ofNat (floatOfNat n.toNat))
  | .negInt i => some (0x8000000000000000 ||| .ofNat (floatOfNat i.toInt.natAbs))
  | .float bits => some bits

/-- `Number::from_f64` -/
def numberFromF64 (bits : UInt64) : Option Number :=
  if isFinite bits then some (.float bits) else none

/-- How a float that is not finite is displayed. -/
def displayNonFinite (bits : UInt64) : String :=
  if bits &&& 0xfffffffffffff != 0 then "NaN"
  else if bits &&& 0x8000000000000000 != 0 then "-inf" else "inf"

/-- How an integer that no float holds is displayed. Every integer has a float. -/
def Number.display : Number → String
  | .posInt n => toString n
  | .negInt i => toString i
  | .float _ => ""

/-! ## From Python -/

def depthError : PyErr := .valueError "cpex: value nesting exceeds maximum depth of 128 levels"

def extractKey : PyKey → Except PyErr String
  | .str s => (extractString s).mapError fun _ => keyError
  | .other _ => .error keyError
where
  keyError : PyErr := .valueError "cpex: dict keys must be strings; got a non-string key"

mutual

/-- A `bool` is an `int` too, and is looked at first. -/
def pyobjToJsonValue (obj : PyObj) (depth : Nat) : Except PyErr Json :=
  if depth > 128 then .error depthError
  else match obj with
    | .none => .ok .null
    | .bool b => .ok (.bool b)
    | .int i => (extractI64 i).map Serde.signed
    | .float bits =>
      match numberFromF64 bits with
      | some n => .ok (.number n)
      | none => .error (.valueError
          s!"cpex: float value {displayNonFinite bits} is not a valid JSON number")
    | .str s => (extractString s).map .string
    | .list items => (pyItemsToJson items (depth + 1)).map .array
    | .dict entries => (pyEntriesToJson entries (depth + 1) []).map .object
    | .other typeName => .error (.valueError
        s!"cpex: cannot convert Python object of type '{typeName}' to a JSON value")

def pyItemsToJson : List PyObj → Nat → Except PyErr (List Json)
  | [], _ => .ok []
  | item :: rest, depth => do
    let v ← pyobjToJsonValue item depth
    let out ← pyItemsToJson rest depth
    return v :: out

/-- `map` is what was inserted so far. -/
def pyEntriesToJson : List (PyKey × PyObj) → Nat → List (String × Json) →
    Except PyErr (List (String × Json))
  | [], _, map => .ok map
  | (k, v) :: rest, depth, map => do
    let key ← extractKey k
    let value ← pyobjToJsonValue v depth
    pyEntriesToJson rest depth (Assoc.putSorted Json.keyOrder key value map)

end

/-! ## To Python -/

mutual

def jsonValueToPyobj : Json → Except PyErr PyObj
  | .null => .ok .none
  | .bool b => .ok (.bool b)
  | .number n =>
    match Json.asI64 (.number n) with
    | some i => .ok (.int i.toInt)
    | none =>
      match asF64 n with
      | some f => .ok (.float f)
      | none => .error (.valueError
          s!"cpex: JSON number {Number.display n} is out of range for Python")
  | .string s => .ok (.str (intoPyStr s))
  | .array items => (jsonItemsToPy items).map .list
  | .object fields => (jsonFieldsToPy fields []).map .dict

def jsonItemsToPy : List Json → Except PyErr (List PyObj)
  | [] => .ok []
  | item :: rest => do
    let obj ← jsonValueToPyobj item
    let lst ← jsonItemsToPy rest
    return obj :: lst

/-- `d` is what was set so far. -/
def jsonFieldsToPy : List (String × Json) → List (PyKey × PyObj) →
    Except PyErr (List (PyKey × PyObj))
  | [], d => .ok d
  | (k, v) :: rest, d => do
    let value ← jsonValueToPyobj v
    jsonFieldsToPy rest (Assoc.put (.str (intoPyStr k)) value d)

end

end Cpex.Bindings
