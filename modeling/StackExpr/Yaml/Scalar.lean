import StackExpr.Doc
/-!
# YAML scalars

Scalars written without quotes, in single quotes or in double quotes. Each may go on over several
lines: blanks around the end of a line are dropped, the end itself becomes a blank, and empty lines
between two lines become line breaks instead.

## Why the recursion ends

Within a line the functions walk along its characters, over several lines along the lines.
-/

namespace StackExpr.Yaml

/-- What is left to read: the rest of the current line and the lines below it. -/
structure Rest where
  line : List Char
  below : List (List Char)

/-! ## Lines -/

/-- A blank within a line. -/
def isBlank (c : Char) : Bool := c == ' ' || c == '\t'

/-- A line from its first character that is no blank. -/
def dropBlanks (line : List Char) : List Char := line.dropWhile isBlank

/-- A word may end here: the line does, or a blank follows. -/
def endsWord : List Char → Bool
  | [] => true
  | c :: _ => isBlank c

/-- Nothing is left on the line, or only a comment. -/
def isSpent (line : List Char) : Bool :=
  match dropBlanks line with
  | [] => true
  | c :: _ => c == '#'

/-- The line marks the beginning or the end of a document. -/
def isMarker : List Char → Bool
  | '-' :: '-' :: '-' :: cs => endsWord cs
  | '.' :: '.' :: '.' :: cs => endsWord cs
  | _ => false

/-- What stands for the end of a line and the empty lines after it. -/
def fold (emptyLines : Nat) : List Char :=
  if emptyLines = 0 then [' '] else List.replicate emptyLines '\n'

/-! ## Quotes -/

/-- How a line within quotes ends. -/
inductive LineEnd where
  /-- With the closing quote; the rest of the line follows. -/
  | closed (text rest : List Char)
  /-- With the line. -/
  | broken (text : List Char)
  /-- With a backslash: the end of the line stands for nothing. -/
  | continued (text : List Char)

/-- Puts text in front of a line. -/
def LineEnd.after (start : List Char) : LineEnd → LineEnd
  | closed text rest => closed (start ++ text) rest
  | broken text => broken (start ++ text)
  | continued text => continued (start ++ text)

/-- Reads a line within single quotes; `blanks` are the blanks read last, latest first. -/
def singleQuoted (blanks : List Char) : List Char → LineEnd
  | [] => .broken []
  | '\'' :: '\'' :: cs => (singleQuoted [] cs).after (blanks.reverse ++ ['\''])
  | '\'' :: cs => .closed blanks.reverse cs
  | c :: cs =>
    if isBlank c then singleQuoted (c :: blanks) cs
    else (singleQuoted [] cs).after (blanks.reverse ++ [c])

/-- The character a one-letter escape stands for. -/
def escaped? (c : Char) : Option Char :=
  if c = '0' then some '\x00' else if c = 'a' then some '\x07'
  else if c = 'b' then some '\x08' else if c = 't' ∨ c = '\t' then some '\t'
  else if c = 'n' then some '\n' else if c = 'v' then some '\x0b'
  else if c = 'f' then some '\x0c' else if c = 'r' then some '\r'
  else if c = 'e' then some '\x1b' else if c = 'N' then some '\u0085'
  else if c = '_' then some '\u00a0' else if c = 'L' then some '\u2028'
  else if c = 'P' then some '\u2029'
  else if c = ' ' ∨ c = '"' ∨ c = '/' ∨ c = '\\' then some c
  else none

/-- The character with the number that hexadecimal digits show. -/
def codePoint? (digits : List Char) : Option Char := do
  let n ← naturalIn? 16 digits
  if n < 0xD800 ∨ 0xDFFF < n ∧ n < 0x110000 then some (Char.ofNat n) else none

/-- Reads a line within double quotes; `blanks` are the blanks read last, latest first. -/
def doubleQuoted (blanks : List Char) : List Char → Option LineEnd
  | [] => some (.broken [])
  | ['\\'] => some (.continued blanks.reverse)
  | '\\' :: 'x' :: a :: b :: cs => escape (codePoint? [a, b]) (doubleQuoted [] cs)
  | '\\' :: 'u' :: a :: b :: c :: d :: cs =>
    escape (codePoint? [a, b, c, d]) (doubleQuoted [] cs)
  | '\\' :: 'U' :: a :: b :: c :: d :: e :: f :: g :: h :: cs =>
    escape (codePoint? [a, b, c, d, e, f, g, h]) (doubleQuoted [] cs)
  | '\\' :: c :: cs => escape (escaped? c) (doubleQuoted [] cs)
  | '"' :: cs => some (.closed blanks.reverse cs)
  | c :: cs =>
    if isBlank c then doubleQuoted (c :: blanks) cs
    else (doubleQuoted [] cs).map (·.after (blanks.reverse ++ [c]))
where
  /-- Puts an escaped character in front of a line. -/
  escape (c : Option Char) (l : Option LineEnd) : Option LineEnd := do
    return (← l).after (blanks.reverse ++ [← c])

/-- Goes on with a quoted scalar below the line just read. `broken` tells whether the end of that
line counts, `empty` how many empty lines there were since. -/
def quotedBelow (scan : List Char → Option LineEnd) (broken : Bool) (empty : Nat) :
    List (List Char) → Option (List Char × Rest)
  | [] => none
  | line :: below =>
    if isMarker line then none
    else if dropBlanks line = [] then quotedBelow scan broken (empty + 1) below
    else do
      let start := if broken then fold empty else List.replicate empty '\n'
      match ← scan (dropBlanks line) with
      | .closed text rest => return (start ++ text, ⟨rest, below⟩)
      | .broken text =>
        let (more, rest) ← quotedBelow scan true 0 below
        return (start ++ text ++ more, rest)
      | .continued text =>
        let (more, rest) ← quotedBelow scan false 0 below
        return (start ++ text ++ more, rest)

/-- Reads a quoted scalar behind its opening quote. -/
def quoted (scan : List Char → Option LineEnd) (r : Rest) : Option (List Char × Rest) := do
  match ← scan r.line with
  | .closed text rest => return (text, ⟨rest, r.below⟩)
  | .broken text =>
    let (more, rest) ← quotedBelow scan true 0 r.below
    return (text ++ more, rest)
  | .continued text =>
    let (more, rest) ← quotedBelow scan false 0 r.below
    return (text ++ more, rest)

/-! ## Scalars without quotes -/

/-- A mark of lists and maps in brackets. -/
def isBracketMark (c : Char) : Bool :=
  c == ',' || c == '[' || c == ']' || c == '\x7b' || c == '\x7d'

/-- The characters that no scalar without quotes begins with, unless something follows. -/
def indicators : List Char :=
  ['-', '?', ':', ',', '[', ']', '\x7b', '\x7d', '#', '&', '*', '!', '|', '>', '\'', '"', '%', '@',
    Char.ofNat 0x60]

/-- A scalar without quotes may begin here; `inner` says that it stands within brackets. -/
def startsPlain (inner : Bool) : List Char → Bool
  | [] => false
  | c :: cs =>
    if isBlank c then false
    else if !indicators.contains c then true
    else if c == '-' then !endsWord cs
    else !inner && (c == '?' || c == ':') && !endsWord cs

/-- Reads the part of a scalar without quotes that stands on one line, and gives what is left of the
line. It ends before a comment, before a colon that ends a word and, within brackets, before a
bracket or comma, which must not follow a colon. `blanks` are the blanks read last, latest first. -/
def plainLine (inner : Bool) (blanks : List Char) : List Char → Option (List Char × List Char)
  | [] => some ([], [])
  | c :: cs =>
    if isBlank c then plainLine inner (c :: blanks) cs
    else if c == '#' && !blanks.isEmpty || c == ':' && endsWord cs || inner && isBracketMark c then
      some ([], blanks.reverse ++ c :: cs)
    else if inner && c == ':' && (cs.head?.any fun d => d == '?' || isBracketMark d) then none
    else (plainLine inner [] cs).map fun (text, rest) => (blanks.reverse ++ c :: text, rest)

/-- Goes on with a scalar without quotes below the line just read, on lines that are indented by
`indent` or more. Empty lines and a comment below it are skipped in any case. -/
def plainBelow (inner : Bool) (indent empty : Nat) :
    List (List Char) → Option (List Char × Rest)
  | [] => some ([], ⟨[], []⟩)
  | line :: below =>
    let text := dropBlanks line
    if isMarker line then some ([], ⟨[], line :: below⟩)
    else if ((line.take indent).takeWhile isBlank).contains '\t' then none
    else if text = [] then plainBelow inner indent (empty + 1) below
    else if line.length - text.length < indent then some ([], ⟨[], line :: below⟩)
    else if text.head? = some '#' then some ([], ⟨[], below⟩)
    else do
      let (words, rest) ← plainLine inner [] text
      if words = [] then return ([], ⟨[], line :: below⟩)
      else if rest = [] then
        let (more, rest) ← plainBelow inner indent 0 below
        return (fold empty ++ words ++ more, rest)
      else return (fold empty ++ words, ⟨rest, below⟩)

/-- Reads a scalar without quotes. -/
def plain (inner : Bool) (indent : Nat) (r : Rest) : Option (List Char × Rest) := do
  let (words, rest) ← plainLine inner [] r.line
  if rest = [] then
    let (more, rest) ← plainBelow inner indent 0 r.below
    return (words ++ more, rest)
  else return (words, ⟨rest, r.below⟩)

/-- Reads a scalar of any kind that begins here. -/
def scalar (inner : Bool) (indent : Nat) (r : Rest) : Option (Doc × Rest) :=
  match r.line with
  | '"' :: cs =>
    (quoted (doubleQuoted []) ⟨cs, r.below⟩).map fun (s, r) => (.string (String.ofList s), r)
  | '\'' :: cs =>
    (quoted (fun cs => some (singleQuoted [] cs)) ⟨cs, r.below⟩).map fun (s, r) =>
      (.string (String.ofList s), r)
  | cs =>
    if startsPlain inner cs then
      (plain inner indent r).map fun (s, r) => (.plain (String.ofList s), r)
    else none

/-- The key that a scalar is. -/
def key? : Doc → Option Key
  | .string s => some ⟨s, false⟩
  | .plain s => some ⟨s, true⟩
  | _ => none

/-! ## Tags -/

/-- A character of a tag. -/
def isTagChar (c : Char) : Bool :=
  c.isAlphanum || ['-', '_', ';', '/', '?', ':', '@', '&', '=', '+', '$', '.', '%', '!', '~', '*',
    '\'', '(', ')'].contains c

/-- The rest of a line behind the tag it begins with. -/
def dropTag? (inner : Bool) (line : List Char) : Option (List Char) :=
  let rest := line.dropWhile isTagChar
  if endsWord rest || inner && rest.head? == some ',' then some rest else none

end StackExpr.Yaml
