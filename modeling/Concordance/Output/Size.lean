/-
Sizes for people: bytes, or kilobytes or megabytes with one decimal. A size is first taken as the nearest
double; its decimal is the nearest one, and half way the even one.
-/
import Concordance.Text.Decimal

namespace Concordance.Output

open Text

/-- `n / d` rounded to the nearest number, half way to the even one. -/
def roundHalfEven (n d : Nat) : Nat :=
  let q := n / d
  let r := n % d
  if 2 * r < d || (2 * r = d && q % 2 = 0) then q else q + 1

/-- The double nearest to a natural number, which has 53 significant bits. -/
def nearestDouble (n : Nat) : Nat :=
  let unit := 1 <<< (n.log2 - 52)
  roundHalfEven n unit * unit

/-- A number of tenths with its decimal. -/
def tenthsText (tenths : Nat) : String := decimalText (tenths / 10) ++ "." ++ decimalText (tenths % 10)

def formatSize (bytes : Nat) : String :=
  if 1024 * 1024 ≤ bytes then tenthsText (roundHalfEven (10 * nearestDouble bytes) (1024 * 1024)) ++ " MB"
  else if 1024 ≤ bytes then tenthsText (roundHalfEven (10 * bytes) 1024) ++ " KB"
  else decimalText bytes ++ " B"

end Concordance.Output
