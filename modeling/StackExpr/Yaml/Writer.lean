import StackExpr.Json.Writer
import StackExpr.Text.Split
import StackExpr.Yaml.Scalar
/-!
# YAML text

Values as YAML in lines: a list has a line with a dash per item, a map a line with a key per entry.
What belongs to an item or entry is indented by two; the items of a list that is the value of an
entry are not. Empty lists and maps are `[]` and `{}`.

A string is written in the first of these ways that is allowed:

* with line feeds in it, as a block: its lines below the mark `|`
* as it stands, if that reads back as the string
* in single quotes, if it can be printed
* in double quotes, with escapes
-/

namespace StackExpr.Yaml

/-- A line of text. -/
abbrev Line := List Char

/-- Indents a line by two, unless it is empty. -/
def indentLine (l : Line) : Line := if l = [] then [] else ' ' :: ' ' :: l

/-! ## Characters -/

/-- The end of a line. -/
def isBreak (c : Char) : Bool :=
  c == '\n' || c == '\r' || c == '\u0085' || c == '\u2028' || c == '\u2029'

/-- A blank or the end of a line. -/
def isGap (c : Char) : Bool := isBlank c || isBreak c

/-- A character that is written as it stands. -/
def isPrintable (c : Char) : Bool :=
  let n := c.toNat
  n == 0x0a || (0x20 ≤ n && n ≤ 0x7e) || (0xa0 ≤ n && n ≤ 0xfffd && n != 0xfeff)

/-- Two characters that meet these conditions stand side by side. -/
def hasPair (p q : Char → Bool) (cs : List Char) : Bool :=
  (cs.zip cs.tail).any fun (c, d) => p c && q d

/-- A blank and the end of a line stand side by side, in this order. -/
def hasTrailingBlanks (cs : List Char) : Bool := hasPair (· == ' ') isBreak cs

/-- The end of a line and a blank stand side by side, in this order. -/
def hasLeadingBlanks (cs : List Char) : Bool := hasPair isBreak (· == ' ') cs

/-- The text would be taken for something else than text at its beginning. -/
def startsWithMark (cs : List Char) : Bool :=
  ['-', '-', '-'].isPrefixOf cs || ['.', '.', '.'].isPrefixOf cs || match cs with
  | [] => false
  | c :: cs =>
    if c == '-' || c == '?' || c == ':' then (cs.head?.map isGap).getD true
    else indicators.contains c

/-- There is a colon that would end a key, or the beginning of a comment. -/
def hasMark (cs : List Char) : Bool :=
  hasPair (· == ':') isGap cs.tail || cs.tail.getLast? == some ':' || hasPair isGap (· == '#') cs

/-! ## Ways to write a string -/

/-- The string can stand as it is: where no gap is at its ends and it holds no mark. -/
def allowsPlain (cs : List Char) : Bool :=
  cs.all (fun c => isPrintable c && !isBreak c) && cs.head? != some ' ' &&
    cs.getLast? != some ' ' && !startsWithMark cs && !hasMark cs

/-- The string can stand in single quotes. -/
def allowsQuotes (cs : List Char) : Bool :=
  cs.all isPrintable && !hasTrailingBlanks cs && !hasLeadingBlanks cs

/-- The string can stand in a block. -/
def allowsBlock (cs : List Char) : Bool :=
  cs.all isPrintable && !hasTrailingBlanks cs && cs.getLast? != some ' '

/-- As it stands, the string would be read as something else than text. -/
def readsOtherwise (s : String) : Bool := !isText s || hasLeadingZero s.toList

/-! ## Strings -/

/-- A string in single quotes. -/
def inSingleQuotes (cs : List Char) : Line :=
  '\'' :: cs.flatMap (fun c => if c = '\'' then ['\'', '\''] else [c]) ++ ['\'']

/-- A number in hexadecimal digits, `width` of them. -/
def hexDigits (n : Nat) : (width : Nat) → List Char
  | 0 => []
  | width + 1 => hexDigits (n / 16) width ++ [(Json.hexDigit (n % 16)).toUpper]

/-- The letter of a character that has a short escape. -/
def escapeLetter? (c : Char) : Option Char :=
  ['0', 'a', 'b', 't', 'n', 'v', 'f', 'r', 'e', 'N', '_', 'L', 'P', '"', '\\'].find? fun letter =>
    escaped? letter == some c

/-- A character in double quotes. -/
def escapeChar (c : Char) : List Char :=
  if isPrintable c && !isBreak c && c != '"' && c != '\\' then [c]
  else
    match escapeLetter? c with
    | some letter => ['\\', letter]
    | none =>
      let n := c.toNat
      if n ≤ 0xff then '\\' :: 'x' :: hexDigits n 2
      else if n ≤ 0xffff then '\\' :: 'u' :: hexDigits n 4
      else '\\' :: 'U' :: hexDigits n 8

/-- A string in double quotes. -/
def inDoubleQuotes (cs : List Char) : Line := '"' :: cs.flatMap escapeChar ++ ['"']

/-- How a block says what it does with the ends of lines at its end: none is kept, one or all. -/
def chomping (cs : List Char) : List Char :=
  match cs.reverse with
  | [] => ['-']
  | c :: rest =>
    if !isBreak c then ['-']
    else if (rest.head?.map isBreak).getD true then ['+']
    else []

/-- A string as a block: the mark and the lines below it. A block that begins with a gap says by how
much it is indented. -/
def block (cs : List Char) : Line × List Line :=
  let hint := if cs.head?.any fun c => c == ' ' || isBreak c then ['2'] else []
  let pieces := Text.splitOn ['\n'] cs
  ('|' :: hint ++ chomping cs, if cs.getLast? = some '\n' then pieces.dropLast else pieces)

/-- A string on one line. -/
def stringLine (s : String) : Line :=
  let cs := s.toList
  if allowsPlain cs && !readsOtherwise s && !cs.contains '\n' then cs
  else if allowsQuotes cs && !cs.contains '\n' then inSingleQuotes cs
  else inDoubleQuotes cs

/-- A string: its line, and the lines below it. -/
def stringLines (s : String) : Line × List Line :=
  if s.toList.contains '\n' && allowsBlock s.toList then block s.toList else (stringLine s, [])

/-! ## Keys -/

/-- The greatest number of bytes of a key that stands on a line with its colon. -/
def maxKeySize : Nat := 128

/-- The key stands on a line with its colon. -/
def isShortKey (key : String) : Bool :=
  !key.toList.any isBreak && key.utf8ByteSize ≤ maxKeySize

/-! ## Values -/

/-- Puts a mark of two characters in front of lines. -/
def mark (c : Char) : List Line → List Line
  | [] => [[c]]
  | l :: ls => (c :: ' ' :: l) :: ls.map indentLine

mutual

/-- The lines of a value. -/
def valueLines : Json → List Line
  | .null => [['n', 'u', 'l', 'l']]
  | .bool true => [['t', 'r', 'u', 'e']]
  | .bool false => [['f', 'a', 'l', 's', 'e']]
  | .number n => [n.text Binary64.yamlLayout]
  | .string s => (stringLines s).1 :: (stringLines s).2
  | .array [] => [['[', ']']]
  | .array vs => itemLines vs
  | .object [] => [['\x7b', '\x7d']]
  | .object fs => entryLines fs

/-- The lines of the items of a list. -/
def itemLines : List Json → List Line
  | [] => []
  | v :: vs => mark '-' (valueLines v) ++ itemLines vs

/-- The lines of the entries of a map. -/
def entryLines : List (String × Json) → List Line
  | [] => []
  | (key, v) :: fs =>
    (if isShortKey key then
      let start := stringLine key ++ [':']
      match v, valueLines v with
      | .array (_ :: _), ls => start :: ls
      | .object (_ :: _), ls => start :: ls.map indentLine
      | _, l :: ls => (start ++ ' ' :: l) :: ls.map indentLine
      | _, [] => [start]
    else
      mark '?' ((stringLines key).1 :: (stringLines key).2) ++ mark ':' (valueLines v)) ++
    entryLines fs

end

/-- The text of a value. -/
def text (v : Json) : String :=
  let ls := match v, valueLines v with
    | .string _, l :: ls => l :: ls.map indentLine
    | _, ls => ls
  String.ofList (ls.flatMap fun l => l ++ ['\n'])

end StackExpr.Yaml
