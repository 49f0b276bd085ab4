/-
The text of a real number: the fewest decimal digits that read back as the same double, the nearest such
digits if there are several, and a point or an exponent so that the text is never taken for an integer.
-/
import Concordance.Text.Decimal

namespace Concordance.RealText

open Text

/-! ## The shortest digits -/

/-- A positive double as a fraction, with the ends of the interval of fractions that round to it. -/
structure Rounding where
  value : Nat
  low : Nat
  high : Nat
  denominator : Nat
  /-- Do the ends round to the double too? -/
  closed : Bool

/-- The interval that rounds to the double with these bits, the sign left out. -/
def Rounding.ofBits (bits : Nat) : Rounding :=
  let exponent := bits >>> 52
  let fraction := bits % (1 <<< 52)
  let m := if exponent = 0 then fraction else fraction + (1 <<< 52)
  let e := max exponent 1
  let scale := 1 <<< (e - 1075)
  let below := if fraction = 0 && exponent > 1 then 1 else 2
  { value := 4 * m * scale
    low := (4 * m - below) * scale
    high := (4 * m + 2) * scale
    denominator := 4 <<< (1075 - e)
    closed := m % 2 = 0 }

/-- `n / d` measured in units of `10 ^ k`, as a fraction. -/
def inUnits (n d : Nat) (k : Int) : Nat × Nat :=
  if 0 ≤ k then (n, d * Nat.pow 10 k.toNat) else (n * Nat.pow 10 (-k).toNat, d)

namespace Rounding

/-- Does `digits · 10 ^ k` round to the double? -/
def holds (r : Rounding) (digits : Nat) (k : Int) : Bool :=
  let (low, d) := inUnits r.low r.denominator k
  let (high, _) := inUnits r.high r.denominator k
  if r.closed then low ≤ digits * d && digits * d ≤ high else low < digits * d && digits * d < high

/-- The multiple of `10 ^ k` that rounds to the double, the nearer of two, of two equally near the even one. -/
def onGrid? (r : Rounding) (k : Int) : Option Nat :=
  let (n, d) := inUnits r.value r.denominator k
  let below := n / d
  let above := below + 1
  match r.holds below k && 0 < below, r.holds above k with
  | true, true =>
    if 2 * (n % d) < d || (2 * (n % d) = d && below % 2 = 0) then some below else some above
  | true, false => some below
  | false, true => some above
  | false, false => none

/-- The exponent of the first digit: the greatest `e` with `10 ^ e` at most the double. -/
def leading (r : Rounding) : Int :=
  let reaches (e : Int) : Bool :=
    let (n, d) := inUnits r.value r.denominator e
    d ≤ n
  (((List.range 640).map fun (i : Nat) => 310 - Int.ofNat i).find? reaches).getD (-330)

/-- The fewest digits that read back as the double, with the power of ten of the last one. -/
def shortest (r : Rounding) : Nat × Int :=
  let e := r.leading
  let grids := (List.range 18).map fun (i : Nat) => e - Int.ofNat i
  (grids.findSome? fun k => (r.onGrid? k).map fun digits => (digits, k)).getD (0, 0)

end Rounding

/-! ## The text -/

/-- Digits without trailing zeros, with the power of ten of the last one. -/
def dropZeros (digits : List Char) (k : Int) : List Char × Int :=
  let zeros := (digits.reverse.takeWhile (· = '0')).length
  (digits.take (digits.length - zeros), k + zeros)

/--
The text of digits whose last one counts `10 ^ k`: positional while the first digit counts at least
`10 ^ -5` and less than `10 ^ 16`, else with an exponent that has a sign and no leading zero.
-/
def layout (digits : List Char) (k : Int) : List Char :=
  let first : Int := k + digits.length - 1
  if -5 ≤ first && first < 16 then
    if 0 ≤ k then digits ++ List.replicate k.toNat '0' ++ ['.', '0']
    else if 0 ≤ first then
      digits.take (first.toNat + 1) ++ ['.'] ++ digits.drop (first.toNat + 1)
    else ['0', '.'] ++ List.replicate ((-first).toNat - 1) '0' ++ digits
  else
    let mantissa :=
      match digits with
      | [] => []
      | [d] => [d]
      | d :: rest => d :: '.' :: rest
    mantissa ++ ['e', if first < 0 then '-' else '+'] ++ decimal first.natAbs

/-- The text of a finite double. -/
def render (x : Float) : String :=
  let bits := x.toBits.toNat
  let size := bits % (1 <<< 63)
  let sign := if bits < (1 <<< 63) then [] else ['-']
  if size = 0 then String.ofList (sign ++ ['0', '.', '0'])
  else
    let (n, k) := (Rounding.ofBits size).shortest
    let (digits, k) := dropZeros (decimal n) k
    String.ofList (sign ++ layout digits k)

end Concordance.RealText
