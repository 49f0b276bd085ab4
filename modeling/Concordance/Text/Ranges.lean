/-
Sets of characters given by their runs of code points, the form in which the Unicode Character
Database states its properties.
-/
namespace Concordance.Text

/-- Runs of code points, each with its first and last member, in rising order. -/
abbrev Ranges := List (Nat × Nat)

/-- Does some run hold the code point? The runs rise, so the search ends at the first run past it. -/
def Ranges.has : Ranges → Nat → Bool
  | [], _ => false
  | (first, last) :: rest, code => first.ble code && (code.ble last || Ranges.has rest code)

end Concordance.Text
