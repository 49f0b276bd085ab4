/-
Writing JSON over several lines: every item and field on a line of its own, indented by two spaces for each
bracket around it. Brackets without content stay together.
-/
import Concordance.Json.Schema

namespace Concordance.Json

open Text

/-- How a character is written in a string: control characters, quotes and backslashes are escaped. -/
def escape (c : Char) : List Char :=
  match c with
  | '"' => ['\\', '"']
  | '\\' => ['\\', '\\']
  | '\x08' => ['\\', 'b']
  | '\x0c' => ['\\', 'f']
  | '\n' => ['\\', 'n']
  | '\r' => ['\\', 'r']
  | '\t' => ['\\', 't']
  | c =>
    if c.toNat < 16 then ['\\', 'u', '0', '0', '0'] ++ hexadecimal c.toNat
    else if c.toNat < 32 then ['\\', 'u', '0', '0'] ++ hexadecimal c.toNat
    else [c]

def printString (s : String) : List Char := ['"'] ++ s.toList.flatMap escape ++ ['"']

/-- A line break and the indentation inside `depth` brackets. -/
def newLine (depth : Nat) : List Char := '\n' :: List.replicate (2 * depth) ' '

mutual

/-- The text of a value inside `depth` brackets. -/
def print (depth : Nat) : Json → List Char
  | null => ['n', 'u', 'l', 'l']
  | bool b => if b then ['t', 'r', 'u', 'e'] else ['f', 'a', 'l', 's', 'e']
  | integer n => (integerText n).toList
  | real x => (RealText.render x).toList
  | text s => printString s
  | array [] => ['[', ']']
  | array (item :: items) =>
    ['['] ++ newLine (depth + 1) ++ print (depth + 1) item ++ printItems (depth + 1) items ++
      newLine depth ++ [']']
  | object [] => ['\x7b', '\x7d']
  | object ((name, value) :: fields) =>
    ['\x7b'] ++ newLine (depth + 1) ++ printString name ++ [':', ' '] ++ print (depth + 1) value ++
      printFields (depth + 1) fields ++ newLine depth ++ ['\x7d']

/-- The items behind the first one. -/
def printItems (depth : Nat) : List Json → List Char
  | [] => []
  | item :: items => [','] ++ newLine depth ++ print depth item ++ printItems depth items

/-- The fields behind the first one. -/
def printFields (depth : Nat) : List (String × Json) → List Char
  | [] => []
  | (name, value) :: fields =>
    [','] ++ newLine depth ++ printString name ++ [':', ' '] ++ print depth value ++ printFields depth fields

end

/-- The text of a value. -/
def pretty (value : Json) : String := String.ofList (print 0 value)

end Concordance.Json
