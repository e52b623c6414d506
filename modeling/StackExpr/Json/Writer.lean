import StackExpr.Json
/-!
# JSON text

* `compact` — no white space at all
* `pretty` — one element or field per line, two spaces per level; empty lists and objects stay on
  one line

Strings escape the quote, the backslash and the control characters below `0x20`, five of them by
their letter; every other character stands for itself.
-/

namespace StackExpr.Json

/-! ## Strings -/

/-- A hexadecimal digit in lower case. -/
def hexDigit (n : Nat) : Char := Char.ofNat (if n < 10 then 0x30 + n else 0x57 + n)

/-- A character inside a string. -/
def escapeChar (c : Char) : List Char :=
  if c = '"' then ['\\', '"']
  else if c = '\\' then ['\\', '\\']
  else if c = '\x08' then ['\\', 'b']
  else if c = '\x0c' then ['\\', 'f']
  else if c = '\n' then ['\\', 'n']
  else if c = '\r' then ['\\', 'r']
  else if c = '\t' then ['\\', 't']
  else if c.toNat < 0x20 then
    ['\\', 'u', '0', '0', hexDigit (c.toNat / 16), hexDigit (c.toNat % 16)]
  else [c]

/-- A string with its quotes. -/
def quoted (s : String) : List Char := '"' :: s.toList.flatMap escapeChar ++ ['"']

/-- The text of a value that is neither a list nor an object. -/
def scalarText : Json → List Char
  | .null => ['n', 'u', 'l', 'l']
  | .bool true => ['t', 'r', 'u', 'e']
  | .bool false => ['f', 'a', 'l', 's', 'e']
  | .number n => n.text Binary64.jsonLayout
  | .string s => quoted s
  | _ => []

/-! ## Compact text -/

mutual

/-- A value without white space. -/
def compact : Json → List Char
  | .array elements => '[' :: compactElements elements ++ [']']
  | .object fields => '\x7b' :: compactFields fields ++ ['\x7d']
  | v => scalarText v

/-- Elements with a comma between them. -/
def compactElements : List Json → List Char
  | [] => []
  | [e] => compact e
  | e :: es => compact e ++ ',' :: compactElements es

/-- Fields with a comma between them. -/
def compactFields : List (String × Json) → List Char
  | [] => []
  | [(k, v)] => quoted k ++ ':' :: compact v
  | (k, v) :: fs => quoted k ++ ':' :: compact v ++ ',' :: compactFields fs

end

/-! ## Pretty text -/

/-- A line break and the indentation of a level. -/
def newLine (level : Nat) : List Char := '\n' :: List.replicate (2 * level) ' '

mutual

/-- A value at a level of indentation. -/
def prettyAt (level : Nat) : Json → List Char
  | .array [] => ['[', ']']
  | .array (e :: es) =>
    '[' :: newLine (level + 1) ++ prettyAt (level + 1) e ++ prettyElements (level + 1) es ++
      newLine level ++ [']']
  | .object [] => ['\x7b', '\x7d']
  | .object ((k, v) :: fs) =>
    '\x7b' :: newLine (level + 1) ++ quoted k ++ ':' :: ' ' :: prettyAt (level + 1) v ++
      prettyFields (level + 1) fs ++ newLine level ++ ['\x7d']
  | v => scalarText v

/-- Further elements, each after a comma on a line of its own. -/
def prettyElements (level : Nat) : List Json → List Char
  | [] => []
  | e :: es => ',' :: newLine level ++ prettyAt level e ++ prettyElements level es

/-- Further fields, each after a comma on a line of its own. -/
def prettyFields (level : Nat) : List (String × Json) → List Char
  | [] => []
  | (k, v) :: fs =>
    ',' :: newLine level ++ quoted k ++ ':' :: ' ' :: prettyAt level v ++ prettyFields level fs

end

/-- A value on one line. -/
def compactText (v : Json) : String := String.ofList v.compact

/-- A value on indented lines. -/
def prettyText (v : Json) : String := String.ofList (v.prettyAt 0)

end StackExpr.Json
