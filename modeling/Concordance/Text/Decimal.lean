/-
Natural numbers in decimal digits: the digits without leading zeros, and the value of a digit sequence.
-/
namespace Concordance.Text

def digitChar (d : Nat) : Char := Char.ofNat (48 + d)

def digitValue (c : Char) : Nat := c.toNat - 48

/-- The decimal digits of a number, without leading zeros. -/
def decimal (n : Nat) : List Char :=
  if n < 10 then [digitChar n] else decimal (n / 10) ++ [digitChar (n % 10)]
termination_by n
decreasing_by omega

/-- The number that a digit sequence writes. Leading zeros are allowed. -/
def decimalValue (digits : List Char) : Nat := digits.foldl (fun value c => 10 * value + digitValue c) 0

/-- Reads a number: one digit or more and nothing else. -/
def readDecimal? (s : List Char) : Option Nat :=
  if !s.isEmpty && s.all Char.isDigit then some (decimalValue s) else none

/-- Reads a number below `bound`. -/
def readBelow? (bound : Nat) (s : List Char) : Option Nat := (readDecimal? s).filter (· < bound)

def decimalText (n : Nat) : String := String.ofList (decimal n)

end Concordance.Text
