/-
JSON values. A number without a point or an exponent that fits 64 bits is an integer, and every other
number is real. The fields of an object have distinct names.
-/
namespace Concordance

inductive Json where
  | null
  | bool (b : Bool)
  | integer (n : Int)
  | real (x : Float)
  | text (s : String)
  | array (items : List Json)
  | object (fields : List (String × Json))
deriving Inhabited

namespace Json

def lookup? (name : String) : List (String × Json) → Option Json
  | [] => none
  | (key, value) :: rest => if key = name then some value else lookup? name rest

/-- The field of an object. Other values have no fields. -/
def field? (name : String) : Json → Option Json
  | object fields => lookup? name fields
  | _ => none

def text? : Json → Option String
  | text s => some s
  | _ => none

/-- Sets a field: a field that is there gets the new value, and a new one comes last. -/
def putField (name : String) (value : Json) : List (String × Json) → List (String × Json)
  | [] => [(name, value)]
  | (key, old) :: rest => if key = name then (key, value) :: rest else (key, old) :: putField name value rest

end Json

end Concordance
