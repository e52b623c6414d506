import StackExpr.Text.Printable
/-!
# Quoted text

A text between quotes for display: the quote, the backslash, the null character, the tab and the
line breaks are written as escapes, and so is every other character that does not show on its own,
by its code point in braces.
-/

namespace StackExpr.Text

/-- The hexadecimal digits of a number in lower case. -/
def hexDigits (n : Nat) : List Char :=
  if n < 16 then [digit n] else hexDigits (n / 16) ++ [digit (n % 16)]
termination_by n
decreasing_by omega
where
  /-- One digit. -/
  digit (d : Nat) : Char := Char.ofNat (if d < 10 then 0x30 + d else 0x57 + d)

/-- A character inside quotes. -/
def displayChar (c : Char) : List Char :=
  if c = '"' then ['\\', '"']
  else if c = '\\' then ['\\', '\\']
  else if c = '\x00' then ['\\', '0']
  else if c = '\t' then ['\\', 't']
  else if c = '\n' then ['\\', 'n']
  else if c = '\r' then ['\\', 'r']
  else if isPrintable c then [c]
  else '\\' :: 'u' :: '\x7b' :: hexDigits c.toNat ++ ['\x7d']

/-- The text between quotes. -/
def display (s : String) : String :=
  String.ofList ('"' :: s.toList.flatMap displayChar ++ ['"'])

end StackExpr.Text
