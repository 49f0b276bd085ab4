/-
Reading JSON. A text holds one value and blanks around it: no byte order mark, no comma before a closing
bracket, no raw control character in a string, no escape of half a surrogate pair, no number beyond the
doubles, and at most 127 brackets open at once. Of two fields with one name the later one counts.
-/
import Concordance.Json.Value
import Concordance.Text.Decimal
import Concordance.Text.Hexadecimal

namespace Concordance.Json

open Text

def isSpace (c : Char) : Bool := c = ' ' || c = '\t' || c = '\n' || c = '\r'

def skipSpace (s : List Char) : List Char := s.dropWhile isSpace

/-! ## Strings -/

/-- Four hexadecimal digits and the text behind them. -/
def hexUnit? : List Char → Option (Nat × List Char)
  | a :: b :: c :: d :: rest => do
    let value := 4096 * (← hexValue? a) + 256 * (← hexValue? b) + 16 * (← hexValue? c) + (← hexValue? d)
    some (value, rest)
  | _ => none

/-- The character that a backslash and one letter stand for. -/
def shortEscape? : Char → Option Char
  | '"' => some '"'
  | '\\' => some '\\'
  | '/' => some '/'
  | 'b' => some '\x08'
  | 'f' => some '\x0c'
  | 'n' => some '\n'
  | 'r' => some '\r'
  | 't' => some '\t'
  | _ => none

/-- The character that the text after `\u` stands for: one unit, or a high and a low surrogate. -/
def unicodeEscape? (s : List Char) : Option (Char × List Char) := do
  let (unit, rest) ← hexUnit? s
  if 0xD800 ≤ unit && unit < 0xDC00 then
    match rest with
    | '\\' :: 'u' :: rest => do
      let (low, rest) ← hexUnit? rest
      if 0xDC00 ≤ low && low < 0xE000 then
        some (Char.ofNat (0x10000 + (unit - 0xD800) * 1024 + (low - 0xDC00)), rest)
      else none
    | _ => none
  else if 0xDC00 ≤ unit && unit < 0xE000 then none
  else some (Char.ofNat unit, rest)

/-- One character of a string, written itself or as an escape. A quote is none. -/
def stringChar? : List Char → Option (Char × List Char)
  | '\\' :: 'u' :: rest => unicodeEscape? rest
  | '\\' :: c :: rest => (shortEscape? c).map fun c => (c, rest)
  | c :: rest => if c = '"' || c = '\\' || c.toNat < 32 then none else some (c, rest)
  | [] => none

/-- The characters of a string up to its closing quote, and the text behind the quote. -/
def stringBody? : Nat → List Char → Option (List Char × List Char)
  | 0, _ => none
  | _, '"' :: rest => some ([], rest)
  | fuel + 1, s => do
    let (c, rest) ← stringChar? s
    let (body, rest) ← stringBody? fuel rest
    some (c :: body, rest)

/-! ## Numbers -/

/-- A number as written. The digits before the point are not empty, and neither are those behind one. -/
structure Numeral where
  negative : Bool
  whole : List Char
  fraction : List Char
  exponent : Option Int

/-- The digits in front of a text. -/
def takeDigits (s : List Char) : List Char × List Char := (s.takeWhile Char.isDigit, s.dropWhile Char.isDigit)

/-- The digits behind a point, if there is a point. -/
def fractionPart? : List Char → Option (List Char × List Char)
  | '.' :: s => let (digits, rest) := takeDigits s; if digits.isEmpty then none else some (digits, rest)
  | s => some ([], s)

/-- The exponent, if there is one. -/
def exponentPart? (s : List Char) : Option (Option Int × List Char) :=
  let signed (negative : Bool) (s : List Char) : Option (Option Int × List Char) :=
    let (digits, rest) := takeDigits s
    let size : Int := decimalValue digits
    if digits.isEmpty then none else some (some (if negative then -size else size), rest)
  match s with
  | c :: rest =>
    if c = 'e' || c = 'E' then
      match rest with
      | '-' :: rest => signed true rest
      | '+' :: rest => signed false rest
      | rest => signed false rest
    else some (none, s)
  | [] => some (none, [])

/-- The numeral that a text starts with. A zero in front of other digits is none. -/
def numeral? (s : List Char) : Option (Numeral × List Char) := do
  let (negative, s) := match s with | '-' :: s => (true, s) | s => (false, s)
  let (whole, s) := takeDigits s
  if whole.isEmpty || (whole.length > 1 && whole.head? = some '0') then none
  else
    let (fraction, s) ← fractionPart? s
    let (exponent, s) ← exponentPart? s
    some (⟨negative, whole, fraction, exponent⟩, s)

/-- The digits put behind a value as long as it fits 64 bits, and how many are put and how many left out. -/
def pushDigits (value : Nat) : List Char → Nat × Nat × Nat
  | [] => (value, 0, 0)
  | d :: rest =>
    let next := 10 * value + digitValue d
    if next < UInt64.size then
      let (value, put, left) := pushDigits next rest
      (value, put + 1, left)
    else (value, 0, rest.length + 1)

/--
The double nearest to a 64 bit number, times or divided by a power of ten in one step of double
arithmetic. A power beyond the doubles divides twice; a product beyond them is no number.
-/
def scaled? (significand : Nat) (exponent : Int) : Option Float :=
  let f := significand.toUInt64.toFloat
  let power (n : Nat) : Float := Float.ofScientific 1 false n
  if 0 ≤ exponent then
    if significand = 0 then some 0
    else if exponent > 308 then none
    else
      let product := f * power exponent.toNat
      if product.isInf then none else some product
  else
    let n := (-exponent).toNat
    if n ≤ 308 then some (f / power n)
    else if n ≤ 616 then some (f / power 308 / power (n - 308))
    else some 0

/--
The value of a numeral. One that is no 64 bit integer is a double: the digits before the point that fit
64 bits, then the digits behind it that still fit, each place left out before the point or put behind it
moving the exponent.
-/
def Numeral.value? (n : Numeral) : Option Json :=
  let integral := n.fraction.isEmpty && n.exponent.isNone
  let size := decimalValue n.whole
  let sign (x : Float) : Float := if n.negative then -x else x
  if integral && !n.negative && size < UInt64.size then some (.integer size)
  else if integral && n.negative && 0 < size && 2 * size ≤ UInt64.size then some (.integer (-size))
  else
    let (whole, _, left) := pushDigits 0 n.whole
    let (significand, put, _) := pushDigits whole n.fraction
    (scaled? significand (n.exponent.getD 0 + left - put)).map fun x => .real (sign x)

/-! ## Values -/

/-- The text behind a fixed word in front. -/
def literal? (word : List Char) (s : List Char) : Option (List Char) :=
  if word.isPrefixOf s then some (s.drop word.length) else none

mutual

/-- The value that a text starts with. `depth` brackets more may be open at once. -/
def value? (fuel depth : Nat) (s : List Char) : Option (Json × List Char) :=
  match fuel with
  | 0 => none
  | fuel + 1 =>
    match skipSpace s with
    | '[' :: rest => if depth = 0 then none else
      match skipSpace rest with
      | ']' :: rest => some (.array [], rest)
      | rest => (items? fuel (depth - 1) rest).map fun (items, rest) => (.array items, rest)
    | '\x7b' :: rest => if depth = 0 then none else
      match skipSpace rest with
      | '\x7d' :: rest => some (.object [], rest)
      | rest => (fields? fuel (depth - 1) [] rest).map fun (fields, rest) => (.object fields, rest)
    | '"' :: rest =>
      (stringBody? (rest.length + 1) rest).map fun (body, rest) => (.text (String.ofList body), rest)
    | 't' :: rest => (literal? ['r', 'u', 'e'] rest).map (.bool true, ·)
    | 'f' :: rest => (literal? ['a', 'l', 's', 'e'] rest).map (.bool false, ·)
    | 'n' :: rest => (literal? ['u', 'l', 'l'] rest).map (.null, ·)
    | s => do
      let (numeral, rest) ← numeral? s
      let value ← numeral.value?
      some (value, rest)

/-- The items of an array that is not empty, up to its closing bracket. -/
def items? (fuel depth : Nat) (s : List Char) : Option (List Json × List Char) :=
  match fuel with
  | 0 => none
  | fuel + 1 => do
    let (item, rest) ← value? fuel depth s
    match skipSpace rest with
    | ']' :: rest => some ([item], rest)
    | ',' :: rest => do
      let (items, rest) ← items? fuel depth rest
      some (item :: items, rest)
    | _ => none

/-- The fields of an object that is not empty, up to its closing brace, added to those read before. -/
def fields? (fuel depth : Nat) (read : List (String × Json)) (s : List Char) :
    Option (List (String × Json) × List Char) :=
  match fuel with
  | 0 => none
  | fuel + 1 =>
    match skipSpace s with
    | '"' :: rest => do
      let (name, rest) ← stringBody? (rest.length + 1) rest
      match skipSpace rest with
      | ':' :: rest => do
        let (value, rest) ← value? fuel depth rest
        let read := putField (String.ofList name) value read
        match skipSpace rest with
        | '\x7d' :: rest => some (read, rest)
        | ',' :: rest => fields? fuel depth read rest
        | _ => none
      | _ => none
    | _ => none

end

/-- The most brackets that may be open at once. -/
def maxDepth : Nat := 127

/-- Reads a text that holds one value. -/
def parse? (s : String) : Option Json := do
  let chars := s.toList
  let (value, rest) ← value? (2 * chars.length + 2) maxDepth chars
  if (skipSpace rest).isEmpty then some value else none

end Concordance.Json
