/-
The order of the rows that match: by the weight of the phrases in each row. A phrase weighs more the fewer
rows hold it, more the more often the row holds it, and less in a row longer than the average.
-/
import Concordance.Index.Match

namespace Concordance.Index

/-- What ranking knows of all rows: how many there are, and how many tokens they hold. -/
structure Totals where
  rows : Nat
  tokens : Nat
deriving DecidableEq, Repr, Inhabited

namespace Rank

/-- How fast more instances of a phrase stop adding to its weight. -/
def saturation : Float := 1.2

/-- How much the length of a row counts. -/
def lengthShare : Float := 0.75

/-- The weight of a phrase that `holding` of the rows hold. A phrase that most rows hold still has a little. -/
def rarity (rows holding : Nat) : Float :=
  let n := Float.ofNat rows
  let h := Float.ofNat holding
  let weight := Float.log ((n - h + 0.5) / (h + 0.5))
  if weight ≤ 0.0 then 1e-6 else weight

/-- The weight of a row of `length` tokens with these instances of phrases of these rarities. -/
def weight (totals : Totals) (rarities : List Float) (length : Nat) (found : List (List Nat)) : Float :=
  let average := Float.ofNat totals.tokens / Float.ofNat totals.rows
  let lengthFactor := saturation * (1.0 - lengthShare + lengthShare * Float.ofNat length / average)
  (List.zip rarities found).foldl
    (fun sum (rarity, places) =>
      let frequency := Float.ofNat places.length
      sum + rarity * (frequency * (saturation + 1.0) / (frequency + lengthFactor)))
    0.0

/-- Rows by falling weight; of equal weight, in the order in which they came. -/
def byWeight {α : Type} (weighted : List (Float × α)) : List α :=
  (weighted.mergeSort fun a b => -1.0 * a.1 ≤ -1.0 * b.1).map (·.2)

end Rank

end Concordance.Index
