/-
Taking a JSON value as a record with typed fields. A record is written as an object, whose unknown fields
are ignored, or as an array of its fields in their order. Of several faults the first one counts: the
fields of an object are looked at in the order of their names, then missing ones in the order of the record.
-/
import Concordance.Json.Value
import Concordance.Json.RealText
import Concordance.Text.Literal

namespace Concordance.Json

open Text

/-- Why a value does not fit a record. -/
inductive Fault where
  | wrongType (found expected : String)
  | outOfRange (number : Int) (expected : String)
  | missingField (name : String)
  | tooShort (length : Nat) (record : String) (size : Nat)
  | tooLong (length : Nat)
deriving DecidableEq, Repr, Inhabited

def integerText (n : Int) : String :=
  if n < 0 then "-" ++ decimalText n.natAbs else decimalText n.natAbs

def Fault.message : Fault → String
  | wrongType found expected => "invalid type: " ++ found ++ ", expected " ++ expected
  | outOfRange n expected => "invalid value: integer `" ++ integerText n ++ "`, expected " ++ expected
  | missingField name => "missing field `" ++ name ++ "`"
  | tooShort length record size =>
    "invalid length " ++ decimalText length ++ ", expected struct " ++ record ++ " with " ++
      decimalText size ++ " elements"
  | tooLong length => "invalid length " ++ decimalText length ++ ", expected fewer elements in array"

/-- What kind of value it is, with the value if it is short. -/
def describe : Json → String
  | null => "null"
  | bool b => if b then "boolean `true`" else "boolean `false`"
  | integer n => "integer `" ++ integerText n ++ "`"
  | real x => "floating point `" ++ RealText.render x ++ "`"
  | text s => "string " ++ quoteLiteral s
  | array _ => "sequence"
  | object _ => "map"

def mismatch {α : Type} (value : Json) (expected : String) : Except Fault α :=
  .error (.wrongType value.describe expected)

/-! ## Values -/

/-- A natural number below `bound`, which `expected` names. A number with a point or an exponent is none. -/
def toNatural (bound : Nat) (expected : String) : Json → Except Fault Nat
  | integer n => if 0 ≤ n && n < bound then .ok n.toNat else .error (.outOfRange n expected)
  | value => value.mismatch expected

def toUInt32 (value : Json) : Except Fault UInt32 := (value.toNatural UInt32.size "u32").map UInt32.ofNat

def toText : Json → Except Fault String
  | text s => .ok s
  | value => value.mismatch "a string"

def toItems : Json → Except Fault (List Json)
  | array items => .ok items
  | value => value.mismatch "a sequence"

/-- A list of offsets, which are natural numbers of 64 bits. -/
def toOffsets (value : Json) : Except Fault (List Nat) := do
  (← value.toItems).mapM (toNatural UInt64.size "usize")

/-- The value, unless it is null. -/
def toOptional {α : Type} (decode : Json → Except Fault α) : Json → Except Fault (Option α)
  | null => .ok none
  | value => (decode value).map some

/-! ## Fields of an object -/

/-- The value of a field, if the object has the field. -/
def fieldIfPresent {α : Type} (fields : List (String × Json)) (name : String) (decode : Json → Except Fault α) :
    Except Fault (Option α) :=
  match lookup? name fields with
  | none => .ok none
  | some value => (decode value).map some

/-- The value of a field that has to be there. -/
def present {α : Type} (name : String) : Option α → Except Fault α
  | none => .error (.missingField name)
  | some a => .ok a

/-! ## Fields of an array -/

/-- Reads the fields of a record from an array, the rest of which is the state. -/
abbrev Positional (α : Type) := StateT (List Json) (Except Fault) α

/-- The next field, if the array goes on. -/
def nextIfPresent {α : Type} (decode : Json → Except Fault α) : Positional (Option α)
  | [] => .ok (none, [])
  | value :: rest => (decode value).map fun a => (some a, rest)

/-- The next field, which has to be there; `index` fields come before it in a record of `size`. -/
def next {α : Type} (record : String) (size index : Nat) (decode : Json → Except Fault α) : Positional α
  | [] => .error (.tooShort index record size)
  | value :: rest => (decode value).map fun a => (a, rest)

/-- Reads a record from an array, which has to end with the last field read. -/
def readPositional {α : Type} (items : List Json) (record : Positional α) : Except Fault α := do
  let (a, rest) ← record items
  if rest.isEmpty then .ok a else .error (.tooLong items.length)

end Concordance.Json
