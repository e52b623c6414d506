import StackExpr.Doc
/-!
# Reading JSON text

A strict reader: no comments, no trailing commas, no byte order mark, no raw control characters in
strings, no escape for half a surrogate pair, and nothing but white space after the value. It
produces a `Doc`, in which a repeated key is still visible; `Json.parse?` takes the value of it.

## Why the recursion ends

`value` recurses on the number of levels that may still be opened: lists and objects nest at most
127 deep. The members of one list or object are read by `members`, which recurses on a bound on
their number, the length of the text.
-/

namespace StackExpr.Json.Reader

/-- The levels of lists and objects that a text may nest. -/
def maxDepth : Nat := 127

/-- White space between tokens. -/
def isSpace (c : Char) : Bool := c == ' ' || c == '\n' || c == '\t' || c == '\r'

/-- The text from the next token on. -/
def skipSpace (cs : List Char) : List Char := cs.dropWhile isSpace

/-! ## Strings -/

/-- The value of a hexadecimal digit of either case. -/
def hexValue? (c : Char) : Option Nat := Yaml.digitIn? 16 c

/-- The number that four hexadecimal digits show. -/
def hex4? (a b c d : Char) : Option Nat := do
  return (((← hexValue? a) * 16 + (← hexValue? b)) * 16 + (← hexValue? c)) * 16 + (← hexValue? d)

/-- The character a one-letter escape stands for. -/
def escaped? (c : Char) : Option Char :=
  if c = '"' ∨ c = '\\' ∨ c = '/' then some c
  else if c = 'b' then some '\x08'
  else if c = 'f' then some '\x0c'
  else if c = 'n' then some '\n'
  else if c = 'r' then some '\r'
  else if c = 't' then some '\t'
  else none

/-- The unit is the first half of a surrogate pair. -/
def isHigh (n : Nat) : Bool := 0xD800 ≤ n && n < 0xDC00

/-- The unit is the second half of a surrogate pair. -/
def isLow (n : Nat) : Bool := 0xDC00 ≤ n && n < 0xE000

/-- The character of a surrogate pair. -/
def pair (high low : Nat) : Char := Char.ofNat (0x10000 + (high - 0xD800) * 0x400 + (low - 0xDC00))

/-- Reads the rest of a string behind its opening quote: its characters and the text after it. -/
def string : List Char → Option (List Char × List Char)
  | '"' :: cs => some ([], cs)
  | '\\' :: 'u' :: a :: b :: c :: d :: '\\' :: 'u' :: e :: f :: g :: h :: cs => do
    let unit ← hex4? a b c d
    if isHigh unit then
      let low ← hex4? e f g h
      if isLow low then
        let (s, rest) ← string cs
        return (pair unit low :: s, rest)
      else none
    else if isLow unit then none
    else
      let (s, rest) ← string ('\\' :: 'u' :: e :: f :: g :: h :: cs)
      return (Char.ofNat unit :: s, rest)
  | '\\' :: 'u' :: a :: b :: c :: d :: cs => do
    let unit ← hex4? a b c d
    if isHigh unit || isLow unit then none
    else
      let (s, rest) ← string cs
      return (Char.ofNat unit :: s, rest)
  | '\\' :: c :: cs => do
    let c ← escaped? c
    let (s, rest) ← string cs
    return (c :: s, rest)
  | c :: cs =>
    if c.toNat < 0x20 then none
    else do
      let (s, rest) ← string cs
      return (c :: s, rest)
  | [] => none

/-! ## Values -/

/-- Reads the members of a list or object up to its closing mark: one, then each further one behind
a comma. `bound` is above their number. -/
def members {α : Type} (one : List Char → Option (α × List Char)) (close : Char) :
    Nat → List Char → Option (List α × List Char)
  | 0, _ => none
  | bound + 1, cs => do
    let (x, cs) ← one (skipSpace cs)
    match skipSpace cs with
    | c :: cs =>
      if c = close then return ([x], cs)
      else if c = ',' then
        let (xs, cs) ← members one close bound cs
        return (x :: xs, cs)
      else none
    | [] => none

/-- Reads the members behind an opening mark, which may be none. -/
def enclosed {α : Type} (one : List Char → Option (α × List Char)) (close : Char)
    (cs : List Char) : Option (List α × List Char) :=
  match skipSpace cs with
  | [] => none
  | c :: rest => if c = close then some ([], rest) else members one close (rest.length + 1) (c :: rest)

/-- Reads a field with `value` for its value. -/
def field (value : List Char → Option (Doc × List Char)) :
    List Char → Option ((Key × Doc) × List Char)
  | '"' :: cs => do
    let (key, cs) ← string cs
    match skipSpace cs with
    | ':' :: cs =>
      let (v, cs) ← value (skipSpace cs)
      return ((⟨String.ofList key, false⟩, v), cs)
    | _ => none
  | _ => none

/-- Reads a value that opens at most `levels` levels, from its first character on. -/
def value (levels : Nat) (cs : List Char) : Option (Doc × List Char) :=
  match cs with
  | 'n' :: 'u' :: 'l' :: 'l' :: cs => some (.null, cs)
  | 't' :: 'r' :: 'u' :: 'e' :: cs => some (.bool true, cs)
  | 'f' :: 'a' :: 'l' :: 's' :: 'e' :: cs => some (.bool false, cs)
  | '"' :: cs => (string cs).map fun (s, rest) => (.string (String.ofList s), rest)
  | '[' :: cs =>
    match levels with
    | 0 => none
    | levels + 1 => (enclosed (value levels) ']' cs).map fun (items, rest) => (.list items, rest)
  | '\x7b' :: cs =>
    match levels with
    | 0 => none
    | levels + 1 =>
      (enclosed (field (value levels)) '\x7d' cs).map fun (entries, rest) => (.map entries, rest)
  | cs => do
    let (literal, rest) ← Number.Literal.scan cs
    return (.number (← literal.scaled?), rest)

end Reader

/-- The document of a JSON text. -/
def document? (text : String) : Option Doc :=
  match Reader.value Reader.maxDepth (Reader.skipSpace text.toList) with
  | some (d, rest) => if Reader.skipSpace rest = [] then some d else none
  | none => none

/-- The value of a JSON text. -/
def parse? (text : String) : Option Json := (document? text).bind Doc.toJson?

end StackExpr.Json
