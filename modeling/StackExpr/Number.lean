import StackExpr.Binary64.Shortest
/-!
# Numbers

A number is an integer of at most 64 bits, signed or unsigned, or a finite binary64 number. The two
never meet: `1` is an integer, `1.0` is not, and each is written so that it reads back as its kind.
-/

namespace StackExpr

/-- A 64-bit integer (signed or unsigned: from `-2^63` to below `2^64`) or a finite binary64
number. -/
inductive Number where
  | integer (n : Int) (inRange : -9223372036854775808 ≤ n ∧ n < 18446744073709551616)
  | real (x : Binary64)
  deriving DecidableEq

namespace Number

/-- The number of an integer, if it has 64 bits. -/
def ofInt? (n : Int) : Option Number :=
  if h : -9223372036854775808 ≤ n ∧ n < 18446744073709551616 then some (.integer n h) else none

/-- The number of a natural that fits 64 bits; larger ones become the nearest binary64 number. -/
def ofNat (n : Nat) : Number :=
  ((ofInt? n).orElse fun _ => (Binary64.ofNat? n).map .real).getD (.real .zero)

/-- The natural a number denotes, if it is an integer and not negative. -/
def toNat? : Number → Option Nat
  | .integer n _ => if 0 ≤ n then some n.toNat else none
  | .real _ => none

/-- The text of a number; the layout concerns binary64 numbers only. -/
def text (l : Binary64.Layout) : Number → List Char
  | .integer n _ => Decimal.ofInt n
  | .real x => x.text l

end Number

end StackExpr
