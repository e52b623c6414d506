/-!
# Finite binary64 numbers

A finite number of the binary64 format is a sign, a mantissa below `2^53` and an exponent: the value
is `mantissa · 2^(exponent − 1074)`. The exponent is as small as the mantissa allows, so every value
has one representation (but for the sign of zero).

* `ofQuotient` — the number nearest to a quotient of naturals, ties to the even mantissa
* `mul?`, `div?` — product and quotient, rounded the same way
* `ofNat?` — the number nearest to a natural

Results above the largest finite number are `none`: there is no infinity here.
-/

namespace StackExpr

/-- A finite binary64 number, `± mantissa · 2^(exponent − 1074)`. -/
structure Binary64 where
  negative : Bool
  mantissa : Nat
  exponent : Nat
  mantissa_lt : mantissa < Nat.pow 2 53
  normal : exponent = 0 ∨ Nat.pow 2 52 ≤ mantissa
  exponent_le : exponent ≤ 2045
  deriving DecidableEq

namespace Binary64

/-! ## Rounding -/

/-- The natural nearest to `num / den`; of two equally near ones the even one. -/
def nearestEven (num den : Nat) : Nat :=
  let q := num / den
  let r := num % den
  if 2 * r < den then q else if den < 2 * r then q + 1 else q + q % 2

/-- The number of these parts, if they are in range and in normal form. -/
def ofParts? (negative : Bool) (mantissa exponent : Nat) : Option Binary64 :=
  if h : mantissa < Nat.pow 2 53 ∧ (exponent = 0 ∨ Nat.pow 2 52 ≤ mantissa) ∧ exponent ≤ 2045 then
    some ⟨negative, mantissa, exponent, h.1, h.2.1, h.2.2⟩
  else none

/-- The number nearest to `num / den`: the quotient is counted in units of `2^-1074`, and all but
its leading 53 bits are rounded away. -/
def ofQuotient? (negative : Bool) (num den : Nat) : Option Binary64 :=
  let scaled := num * Nat.pow 2 1074
  let exponent := (scaled / den).log2 + 1 - 53
  let mantissa := nearestEven scaled (den * Nat.pow 2 exponent)
  if mantissa = Nat.pow 2 53 then ofParts? negative (Nat.pow 2 52) (exponent + 1)
  else ofParts? negative mantissa exponent

/-- The number nearest to a natural. -/
def ofNat? (n : Nat) : Option Binary64 := ofQuotient? false n 1

/-- Positive zero. -/
def zero : Binary64 := ⟨false, 0, 0, by decide, by decide, by decide⟩

/-! ## Arithmetic -/

/-- The value in units of `2^-1074`, without its sign. -/
def units (x : Binary64) : Nat := x.mantissa * Nat.pow 2 x.exponent

/-- The number is zero, of either sign. -/
def isZero (x : Binary64) : Bool := x.mantissa == 0

/-- The number with the other sign. -/
def neg (x : Binary64) : Binary64 := { x with negative := !x.negative }

/-- The product, rounded. -/
def mul? (x y : Binary64) : Option Binary64 :=
  ofQuotient? (x.negative != y.negative) (x.units * y.units) (Nat.pow 2 2148)

/-- The quotient by a number that is not zero, rounded. -/
def div? (x y : Binary64) : Option Binary64 :=
  ofQuotient? (x.negative != y.negative) x.units y.units

end Binary64

end StackExpr
