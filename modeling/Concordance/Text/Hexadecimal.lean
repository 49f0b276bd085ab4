/-
Numbers in hexadecimal digits: the digits of a number, in lower case, and the value of a digit in any case.
-/
namespace Concordance.Text

/-- The hexadecimal digits of a number, without leading zeros. -/
def hexadecimal (n : Nat) : List Char :=
  let digit (d : Nat) : Char := Char.ofNat (if d < 10 then 48 + d else 87 + d)
  if n < 16 then [digit n] else hexadecimal (n / 16) ++ [digit (n % 16)]
termination_by n
decreasing_by omega

/-- The value of a hexadecimal digit. -/
def hexValue? (c : Char) : Option Nat :=
  if c.isDigit then some (c.toNat - 48)
  else if 'a' ≤ c && c ≤ 'f' then some (c.toNat - 87)
  else if 'A' ≤ c && c ≤ 'F' then some (c.toNat - 55)
  else none

end Concordance.Text
