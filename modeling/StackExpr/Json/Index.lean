import StackExpr.Json
import StackExpr.Text.Blank
/-!
# Positions

A position in a list is given as a non-negative integer or as text that shows one: digits with or
without a leading `+`, white space around them, at most 64 bits.
-/

namespace StackExpr.Json

/-- The position a value gives. -/
def index? : Json → Option Nat
  | .number n => n.toNat?
  | .string s => Decimal.word64? (Text.trim s.toList)
  | _ => none

end StackExpr.Json
