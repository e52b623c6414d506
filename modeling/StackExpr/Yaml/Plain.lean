import StackExpr.Number.Literal
/-!
# Unquoted YAML scalars

What an unquoted scalar is taken for, tried in this order:

1. nothing at all, `~` or a spelling of `null`: null
2. a spelling of `true` or `false`: a boolean
3. digits, perhaps signed, perhaps in base 16, 8 or 2 with the mark `0x`, `0o` or `0b`: an integer;
   a number with leading zeros is text
4. a decimal number with a point or an exponent: a binary64 number; `.inf` and `.nan` have no JSON
   value and become null
5. anything else: text
-/

namespace StackExpr.Yaml

open Decimal

/-- What an unquoted scalar is taken for. -/
inductive Resolved where
  | null
  | bool (b : Bool)
  | number (n : Number)
  | text (s : String)
  | outOfRange
  deriving DecidableEq

/-- A spelling of null. -/
def isNull (s : String) : Bool := s == "~" || s == "null" || s == "Null" || s == "NULL"

/-- A spelling of a boolean. -/
def bool? (s : String) : Option Bool :=
  if s == "true" || s == "True" || s == "TRUE" then some true
  else if s == "false" || s == "False" || s == "FALSE" then some false
  else none

/-! ## Integers -/

/-- The value of a digit in a base up to 16. -/
def digitIn? (base : Nat) (c : Char) : Option Nat :=
  let n := c.toNat
  let value := if 0x30 ≤ n ∧ n ≤ 0x39 then some (n - 0x30)
    else if 0x61 ≤ n ∧ n ≤ 0x66 then some (n - 0x57)
    else if 0x41 ≤ n ∧ n ≤ 0x46 then some (n - 0x37)
    else none
  value.filter (· < base)

/-- Reads digits of a base onto the number read so far. -/
def foldIn (base acc : Nat) : List Char → Option Nat
  | [] => some acc
  | c :: cs => (digitIn? base c).bind fun d => foldIn base (base * acc + d) cs

/-- The natural a non-empty run of digits of a base stands for. -/
def naturalIn? (base : Nat) : List Char → Option Nat
  | [] => none
  | cs => foldIn base 0 cs

/-- Splits off a sign. -/
def splitSign : List Char → Option Bool × List Char
  | '+' :: cs => (some false, cs)
  | '-' :: cs => (some true, cs)
  | cs => (none, cs)

/-- More than one digit, the first of them a zero, perhaps after a sign: text, not a number. -/
def hasLeadingZero (cs : List Char) : Bool :=
  match (splitSign cs).2 with
  | '0' :: c :: ds => (c :: ds).all isDigit
  | _ => false

/-- The magnitude of an integer scalar without its sign. -/
def magnitude? : List Char → Option Nat
  | '0' :: 'x' :: cs => naturalIn? 16 cs
  | '0' :: 'o' :: cs => naturalIn? 8 cs
  | '0' :: 'b' :: cs => naturalIn? 2 cs
  | cs => naturalIn? 10 cs

/-- The integer a scalar shows. -/
def integer? (cs : List Char) : Option Int :=
  if hasLeadingZero cs then none
  else
    let (sign, rest) := splitSign cs
    (magnitude? rest).map fun n => if sign = some true then -(n : Int) else n

/-! ## Binary64 numbers -/

/-- A decimal number: digits with an optional point among them, at least one digit, and an optional
exponent. -/
def decimal? (cs : List Char) : Option Number.Literal := do
  let (sign, rest) := splitSign cs
  let whole := rest.takeWhile isDigit
  let rest := rest.dropWhile isDigit
  let (fraction, rest) := match rest with
    | '.' :: ds => (some (ds.takeWhile isDigit), ds.dropWhile isDigit)
    | ds => (none, ds)
  if whole = [] ∧ fraction.getD [] = [] then none
  else
    let (exponent, rest) ← Number.Literal.scanExponent rest
    if rest = [] then some ⟨sign = some true, whole, fraction, exponent⟩ else none

/-- A spelling of an infinity or of "not a number". -/
def isNonFinite (s : String) : Bool :=
  [".inf", ".Inf", ".INF", "+.inf", "+.Inf", "+.INF", "-.inf", "-.Inf", "-.INF",
    ".nan", ".NaN", ".NAN"].contains s

/-! ## Resolution -/

/-- What an unquoted scalar is taken for. -/
def resolve (s : String) : Resolved :=
  let cs := s.toList
  if s == "" || isNull s then .null
  else if let some b := bool? s then .bool b
  else if let some n := integer? cs then
    match Number.ofInt? n with
    | some m => .number m
    | none => if -Int.ofNat (Nat.pow 2 127) ≤ n ∧ n < Int.ofNat (Nat.pow 2 128) then .outOfRange else real cs s
  else if hasLeadingZero cs then .text s
  else if isNonFinite s then .null
  else real cs s
where
  /-- A binary64 number if the scalar shows a finite one, else text. -/
  real (cs : List Char) (s : String) : Resolved :=
    match (decimal? cs).bind (·.nearest?) with
    | some x => .number (.real x)
    | none => .text s

/-- The unquoted scalar is taken for text. -/
def isText (s : String) : Bool :=
  match resolve s with
  | .text _ => true
  | _ => false

end StackExpr.Yaml
