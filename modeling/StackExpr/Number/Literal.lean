import StackExpr.Number
/-!
# Number literals

A literal is a number as it is written: sign, whole digits, perhaps a fraction, perhaps an exponent.

* `Literal.scan` — reads a literal off the front of a text by the grammar of JSON
* `Literal.scaled?` — the number it denotes in JSON
* `Literal.nearest?` — the binary64 number nearest to it

## The two readings

A literal with neither fraction nor exponent that fits 64 bits is that integer, but `-0` is the
binary64 number. Any other literal is a binary64 number. JSON reading collects digits into a
significand of 64 bits, drops those that no longer fit, and then multiplies or divides once by a
power of ten, itself a binary64 number; each step rounds, so the result can be a neighbour of the
nearest number. `nearest?` rounds the exact value once.
-/

namespace StackExpr.Number

/-- A number as written. -/
structure Literal where
  negative : Bool
  whole : List Char
  fraction : Option (List Char)
  exponent : Option Int
  deriving DecidableEq

namespace Literal

open Decimal

/-! ## Scanning -/

/-- A sign, the whole digits (no leading zero unless it is the only digit) and what follows. -/
def scanWhole : List Char → Option (List Char × List Char)
  | '0' :: cs => some (['0'], cs)
  | cs =>
    let digits := cs.takeWhile isDigit
    if digits = [] then none else some (digits, cs.dropWhile isDigit)

/-- A point with at least one digit after it, if there is a point. -/
def scanFraction : List Char → Option (Option (List Char) × List Char)
  | '.' :: cs =>
    let digits := cs.takeWhile isDigit
    if digits = [] then none else some (some digits, cs.dropWhile isDigit)
  | cs => some (none, cs)

/-- The digits of an exponent as a signed integer. -/
def scanExponentDigits (negative : Bool) (cs : List Char) : Option (Option Int × List Char) :=
  (ofDigits? (cs.takeWhile isDigit)).map fun n =>
    (some (if negative then -(n : Int) else n), cs.dropWhile isDigit)

/-- An exponent mark with its digits, if there is a mark. -/
def scanExponent : List Char → Option (Option Int × List Char)
  | c :: cs =>
    if c = 'e' ∨ c = 'E' then
      match cs with
      | '+' :: ds => scanExponentDigits false ds
      | '-' :: ds => scanExponentDigits true ds
      | ds => scanExponentDigits false ds
    else some (none, c :: cs)
  | [] => some (none, [])

/-- Reads a literal off the front of a text. -/
def scan (cs : List Char) : Option (Literal × List Char) := do
  let (negative, cs) := match cs with
    | '-' :: ds => (true, ds)
    | ds => (false, ds)
  let (whole, cs) ← scanWhole cs
  let (fraction, cs) ← scanFraction cs
  let (exponent, cs) ← scanExponent cs
  return (⟨negative, whole, fraction, exponent⟩, cs)

/-! ## The number in JSON -/

/-- Appends digits to a significand while it fits 64 bits; the digits left over. -/
def absorb (significand : Nat) : List Char → Nat × List Char
  | [] => (significand, [])
  | c :: cs =>
    let next := 10 * significand + (digitValue? c).getD 0
    if next < UInt64.size then absorb next cs else (significand, c :: cs)

/-- The power of ten as a binary64 number. -/
def powerOfTen? (n : Nat) : Option Binary64 := Binary64.ofNat? (Nat.pow 10 n)

/-- A significand times `10^exponent` for an exponent of at most 308: one multiplication or
division. An exponent below `-308` is approached by divisions by `10^308` first. -/
def scale (x : Binary64) (exponent : Int) : Option Binary64 :=
  if x.isZero then some x
  else if exponent < -308 then do
    let y ← x.div? (← powerOfTen? 308)
    scale y (exponent + 308)
  else if exponent < 0 then do x.div? (← powerOfTen? exponent.natAbs)
  else if exponent ≤ 308 then do x.mul? (← powerOfTen? exponent.natAbs)
  else none
termination_by exponent.natAbs
decreasing_by omega

/-- Gives a binary64 number the sign of a literal. -/
def signed (negative : Bool) (x : Binary64) : Binary64 := if negative then x.neg else x

/-- The number a literal denotes in JSON; `none` if it is too large. -/
def scaled? (l : Literal) : Option Number :=
  let (significand, dropped) := absorb 0 l.whole
  match l.fraction, l.exponent, dropped with
  | none, none, [] =>
    if l.negative then
      if significand = 0 then some (.real Binary64.zero.neg)
      else (ofInt? (-significand)).orElse fun _ =>
        (Binary64.ofNat? significand).map fun x => .real x.neg
    else ofInt? significand
  | _, _, _ => do
    let digits := l.fraction.getD []
    let (significand, unread) := absorb significand digits
    let places : Int := (digits.length - unread.length : Nat)
    let x ← Binary64.ofNat? significand
    let y ← scale x (dropped.length - places + l.exponent.getD 0)
    return .real (signed l.negative y)

/-! ## The nearest number -/

/-- The binary64 number nearest to a literal; `none` if it is too large. -/
def nearest? (l : Literal) : Option Binary64 :=
  let digits := l.whole ++ l.fraction.getD []
  let significand := (foldDigits 0 digits).getD 0
  let exponent := l.exponent.getD 0 - (l.fraction.getD []).length
  let magnitude := (Decimal.digits significand).length + exponent
  if significand = 0 ∨ magnitude < -400 then some (signed l.negative .zero)
  else if 400 < magnitude then none
  else Binary64.ofQuotient? l.negative (significand * Nat.pow 10 exponent.toNat)
    (Nat.pow 10 (-exponent).toNat)

end Literal

end StackExpr.Number
