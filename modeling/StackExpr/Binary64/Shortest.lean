import StackExpr.Binary64
import StackExpr.Decimal
/-!
# The shortest decimal text of a binary64 number

Many decimals round to the same number. The text of a number shows one with the fewest digits, and
of those the nearest to the number (`shortest`). Where the point goes and how an exponent is written
is decided by a `Layout`; `jsonLayout` and `yamlLayout` differ in the plus sign of an exponent only.

## How the digits are found

All comparisons are between integers. In units of a quarter of the last place, the number is `4 m`
and the reals that round to it lie between `4 m − 2` (`4 m − 1` just above a power of two, where the
gap below is half as wide) and `4 m + 2`, ends included if `m` is even. On the grid of the multiples
of `10^k` only the two neighbours of the number need to be tried; the coarsest grid with a hit wins.
-/

namespace StackExpr.Binary64

/-! ## Digits -/

/-- The reals that round to a number, as numerators over one denominator. -/
structure Interval where
  low : Nat
  value : Nat
  high : Nat
  den : Nat
  closed : Bool

/-- The reals that round to the magnitude of `x`. -/
def interval (x : Binary64) : Interval :=
  let low := if x.mantissa = Nat.pow 2 52 ∧ 0 < x.exponent then 1 else 2
  let scale := Nat.pow 2 x.exponent
  { low := (4 * x.mantissa - low) * scale
    value := 4 * x.mantissa * scale
    high := (4 * x.mantissa + 2) * scale
    den := Nat.pow 2 1076
    closed := x.mantissa % 2 = 0 }

/-- The interval in units of `10^k`. -/
def Interval.inUnits (i : Interval) (k : Int) : Interval :=
  let up := Nat.pow 10 (-k).toNat
  { i with low := i.low * up, value := i.value * up, high := i.high * up,
           den := i.den * Nat.pow 10 k.toNat }

/-- The natural `c` lies in the interval. -/
def Interval.holds (i : Interval) (c : Nat) : Bool :=
  let p := c * i.den
  if i.closed then i.low ≤ p && p ≤ i.high else i.low < p && p < i.high

/-- The natural in the interval that is nearest to its value, if there is one; of two equally near
ones the even one. -/
def Interval.nearest? (i : Interval) : Option Nat :=
  let c := i.value / i.den
  match i.holds c, i.holds (c + 1) with
  | true, true =>
    let r := i.value % i.den
    some (if 2 * r < i.den then c else if i.den < 2 * r then c + 1 else c + c % 2)
  | true, false => some c
  | false, true => some (c + 1)
  | false, false => none

/-- A power of ten not below the value of the interval. -/
def Interval.decade (i : Interval) : Int :=
  if i.den ≤ i.value then (Decimal.digits (i.value / i.den)).length
  else 1 - (Decimal.digits (i.den / i.value)).length

/-- Strips trailing zeros of a digit string onto the exponent. -/
def stripZeros (digits : List Char) (k : Int) : List Char × Int :=
  let kept := (digits.reverse.dropWhile (· == '0')).reverse
  (kept, k + (digits.length - kept.length : Nat))

/-- The digits and the exponent of the shortest decimal that rounds to `x`, for `x` not zero: the
value is `0.d₁d₂… · 10^point` with the returned `point`. -/
def shortest (x : Binary64) : List Char × Int :=
  let i := x.interval
  let top := i.decade
  let hit := (List.range 20).findSome? fun (step : Nat) =>
    let k := top - (step : Int)
    (i.inUnits k).nearest?.map fun c => stripZeros (Decimal.digits c) k
  let (digits, k) := hit.getD ([], 0)
  (digits, k + digits.length)

/-! ## Layout -/

/-- How a decimal is laid out: positionally while its point lies between `lowPoint` and `highPoint`
places from the first digit, else with an exponent, whose plus sign is written or not. -/
structure Layout where
  lowPoint : Int
  highPoint : Int
  plusSign : Bool

/-- Numbers in JSON text: positional from `1e-5` to below `1e16`, exponents with their sign. -/
def jsonLayout : Layout := ⟨-4, 16, true⟩

/-- Numbers in YAML text: as in JSON, but a positive exponent has no sign. -/
def yamlLayout : Layout := ⟨-4, 16, false⟩

/-- A run of zeros. -/
def zeros (n : Int) : List Char := List.replicate n.toNat '0'

/-- Digits with their point: positional notation has at least one digit on either side of the
point, scientific notation has one digit before it and no point if there is no digit to follow. -/
def Layout.place (l : Layout) (digits : List Char) (point : Int) : List Char :=
  if l.lowPoint ≤ point ∧ point ≤ l.highPoint then
    if point ≤ 0 then '0' :: '.' :: zeros (-point) ++ digits
    else
      let whole := digits.take point.toNat
      let fraction := digits.drop point.toNat
      whole ++ zeros (point - digits.length) ++ '.' :: (if fraction = [] then ['0'] else fraction)
  else
    let fraction := digits.drop 1
    let exponent := point - 1
    let sign := if 0 ≤ exponent ∧ l.plusSign then ['+'] else []
    digits.take 1 ++ (if fraction = [] then [] else '.' :: fraction) ++
      'e' :: sign ++ Decimal.ofInt exponent

/-- The text of a number in a layout. -/
def text (l : Layout) (x : Binary64) : List Char :=
  let sign := if x.negative then ['-'] else []
  if x.isZero then sign ++ ['0', '.', '0']
  else
    let (digits, point) := x.shortest
    sign ++ l.place digits point

end StackExpr.Binary64
