/-!
# Natural numbers as decimal text

* `digits n` — the digits of `n`, most significant first, without leading zeros
* `ofDigits? s` — the number a non-empty run of ASCII digits stands for
* `word64? s` — an unsigned 64-bit number: digits, with or without a leading `+`

Only the ten ASCII digits count as digits.
-/

namespace StackExpr.Decimal

/-- The digit `d` as a character. -/
def digitChar (d : Nat) : Char := Char.ofNat (0x30 + d)

/-- The value of an ASCII digit. -/
def digitValue? (c : Char) : Option Nat :=
  if 0x30 ≤ c.toNat ∧ c.toNat ≤ 0x39 then some (c.toNat - 0x30) else none

/-- The character is an ASCII digit. -/
def isDigit (c : Char) : Bool := (digitValue? c).isSome

theorem digitValue?_digitChar {d : Nat} (h : d < 10) : digitValue? (digitChar d) = some d := by
  have hall : ∀ e ∈ List.range 10, digitValue? (digitChar e) = some e := by decide
  exact hall d (List.mem_range.mpr h)

/-- The decimal digits of `n`. -/
def digits (n : Nat) : List Char :=
  if n < 10 then [digitChar n] else digits (n / 10) ++ [digitChar (n % 10)]
termination_by n
decreasing_by omega

/-- Reads digits onto the number read so far. -/
def foldDigits (acc : Nat) : List Char → Option Nat
  | [] => some acc
  | c :: cs => (digitValue? c).bind fun d => foldDigits (10 * acc + d) cs

/-- The number a non-empty run of digits stands for. -/
def ofDigits? : List Char → Option Nat
  | [] => none
  | c :: cs => foldDigits 0 (c :: cs)

theorem foldDigits_append (acc : Nat) (s t : List Char) :
    foldDigits acc (s ++ t) = (foldDigits acc s).bind fun n => foldDigits n t := by
  induction s generalizing acc with
  | nil => rfl
  | cons c cs ih =>
    cases h : digitValue? c <;> simp [foldDigits, h, ih]

theorem foldDigits_digits (n : Nat) : foldDigits 0 (digits n) = some n := by
  induction n using Nat.strongRecOn with
  | ind n ih =>
    rw [digits]
    by_cases h : n < 10
    · simp [h, foldDigits, digitValue?_digitChar h]
    · simp only [h, if_false]
      rw [foldDigits_append, ih (n / 10) (by omega)]
      simp only [Option.bind_some, foldDigits, digitValue?_digitChar (Nat.mod_lt n (by decide))]
      congr 1
      omega

theorem digits_ne_nil (n : Nat) : digits n ≠ [] := by
  rw [digits]
  split <;> simp

/-- The digits of a number read back as it. -/
theorem ofDigits?_digits (n : Nat) : ofDigits? (digits n) = some n := by
  cases h : digits n with
  | nil => exact absurd h (digits_ne_nil n)
  | cons c cs => rw [ofDigits?, ← h, foldDigits_digits]

/-- An unsigned 64-bit number: digits, with or without a leading `+`. -/
def word64? (s : List Char) : Option Nat :=
  let unsigned := match s with
    | '+' :: cs => cs
    | cs => cs
  (ofDigits? unsigned).filter (· < UInt64.size)

/-- The digits of a number that fits are read back as it. -/
theorem word64?_digits {n : Nat} (h : n < UInt64.size) : word64? (digits n) = some n := by
  have hread : ofDigits? (digits n) = some n := ofDigits?_digits n
  unfold word64?
  split
  · next cs hcs =>
    rw [hcs] at hread
    simp [ofDigits?, foldDigits, digitValue?] at hread
  · show (ofDigits? (digits n)).filter (· < UInt64.size) = some n
    rw [hread]
    simpa [Option.filter] using h

/-- An integer as text: a minus sign for a negative one, then the digits. -/
def ofInt (n : Int) : List Char :=
  if n < 0 then '-' :: digits n.natAbs else digits n.natAbs

/-- A natural number as a string. -/
def toText (n : Nat) : String := String.ofList (digits n)

theorem toText_inj {m n : Nat} (h : toText m = toText n) : m = n := by
  have hread := congrArg (fun text => ofDigits? text.toList) h
  simpa [toText, ofDigits?_digits] using hread

end StackExpr.Decimal
