import StackExpr.Yaml.Bracketed
/-!
# Reading YAML text

A YAML text is read line by line. The column in which a list or map begins tells how far it goes:
its members begin in that column, what belongs to a member is further to the right.

A text holds at most one document, perhaps between the markers `---` and `...`. Comments are
skipped. Anchors, aliases, directives, block scalars and keys that are no scalars are not read.

## Why the recursion ends

The functions for nodes recurse on a bound that is above twice the number of characters left.
-/

namespace StackExpr.Yaml

/-- A piece of text and the column in which it begins. -/
structure Place where
  column : Nat
  rest : Rest

/-! ## Lines -/

/-- The lines of a text. -/
def lines : List Char → List (List Char)
  | [] => [[]]
  | '\r' :: '\n' :: cs => [] :: lines cs
  | c :: cs =>
    if c = '\n' ∨ c = '\r' ∨ c = '\u0085' then [] :: lines cs
    else
      match lines cs with
      | [] => [[c]]
      | l :: ls => (c :: l) :: ls

/-- The first content on lines: its place, or the lines from the next marker on. There is none of
this where a tab is used to indent. -/
def content? : List (List Char) → Option (Place ⊕ List (List Char))
  | [] => some (.inr [])
  | line :: below =>
    let text := line.dropWhile (· == ' ')
    if isMarker line then some (.inr (line :: below))
    else
      match text with
      | [] => content? below
      | '#' :: _ => content? below
      | '\t' :: _ => none
      | _ => some (.inl ⟨line.length - text.length, ⟨text, below⟩⟩)

/-- The lines below, if nothing is left on the line. -/
def Rest.lineEnd? (r : Rest) : Option (List (List Char)) := if isSpent r.line then some r.below else none

/-! ## Marks -/

/-- The text behind the dash of a list item. -/
def dash? : List Char → Option (List Char)
  | '-' :: cs => if endsWord cs then some cs else none
  | _ => none

/-- The key that begins here and the text behind its colon, all on one line. -/
def keyColon? (r : Rest) : Option (Key × Rest) := do
  let (d, behind) ← scalar false 0 ⟨r.line, []⟩
  match dropBlanks behind.line with
  | ':' :: cs => if endsWord cs then return (← key? d, ⟨cs, r.below⟩) else none
  | _ => none

/-! ## Nodes -/

mutual

/-- Reads a node whose lines after the first are indented by `indent` or more, and gives the lines
below it. -/
def node : (bound indent : Nat) → Place → Option (Doc × List (List Char))
  | 0, _, _ => none
  | bound + 1, indent, p =>
    if (dash? p.rest.line).isSome then
      (items bound p.column p).map fun (ds, ls) => (.list ds, ls)
    else if (keyColon? p.rest).isSome then
      (entries bound p.column p).map fun (es, ls) => (.map es, ls)
    else closedNode bound indent indent p.rest

/-- Reads a node that is no list or map without brackets. Behind a tag there may be one on the lines
below, indented by `indent` or more or, a list, in the column `level`. -/
def closedNode : (bound indent level : Nat) → Rest → Option (Doc × List (List Char))
  | 0, _, _, _ => none
  | bound + 1, indent, level, r =>
    match r.line with
    | '!' :: cs => do
      let (d, ls) ← value bound indent level ⟨← dropTag? false cs, r.below⟩
      return (.tagged d, ls)
    | '[' :: _ => do
      let (d, r) ← innerNode bound r
      return (d, ← r.lineEnd?)
    | '\x7b' :: _ => do
      let (d, r) ← innerNode bound r
      return (d, ← r.lineEnd?)
    | _ => do
      let (d, r) ← scalar false indent r
      return (d, ← r.lineEnd?)

/-- Reads the node that follows a colon or a tag: on the same line or, indented by `indent` or more,
below it; a list below it may also begin in the column `level`. -/
def value : (bound indent level : Nat) → Rest → Option (Doc × List (List Char))
  | 0, _, _, _ => none
  | bound + 1, indent, level, r =>
    if isSpent r.line then do
      match ← content? r.below with
      | .inl p =>
        if indent ≤ p.column ∨ p.column = level ∧ (dash? p.rest.line).isSome then
          node bound indent p
        else return (.plain "", r.below)
      | .inr _ => return (.plain "", r.below)
    else closedNode bound indent level ⟨dropBlanks r.line, r.below⟩

/-- Reads the items of a list in a column. -/
def items : (bound column : Nat) → Place → Option (List Doc × List (List Char))
  | 0, _, _ => none
  | bound + 1, column, p => do
    let rest ← dash? p.rest.line
    let (d, ls) ← match ← content? [rest] with
      | .inl q =>
        node bound (column + 1) ⟨p.column + 1 + q.column, ⟨q.rest.line, p.rest.below⟩⟩
      | .inr _ => do
        match ← content? p.rest.below with
        | .inl q =>
          if column < q.column then node bound (column + 1) q
          else some (.plain "", p.rest.below)
        | .inr _ => some (.plain "", p.rest.below)
    match ← content? ls with
    | .inl q =>
      if q.column = column ∧ (dash? q.rest.line).isSome then
        let (ds, ls) ← items bound column q
        return (d :: ds, ls)
      else if q.column ≤ column then return ([d], ls)
      else none
    | .inr _ => return ([d], ls)

/-- Reads the entries of a map in a column. -/
def entries : (bound column : Nat) → Place → Option (List (Key × Doc) × List (List Char))
  | 0, _, _ => none
  | bound + 1, column, p => do
    let (key, r) ← keyColon? p.rest
    let (d, ls) ← value bound (column + 1) column r
    match ← content? ls with
    | .inl q =>
      if q.column = column then
        let (es, ls) ← entries bound column q
        return ((key, d) :: es, ls)
      else if q.column < column then return ([(key, d)], ls)
      else none
    | .inr _ => return ([(key, d)], ls)

end

/-! ## Documents -/

/-- The levels of lists and maps that a text may nest. -/
def maxDepth : Nat := 128

/-- A character that may stand in a text. -/
def isAllowed (c : Char) : Bool :=
  let n := c.toNat
  c == '\t' || c == '\n' || c == '\r' || (0x20 ≤ n && n ≤ 0x7e) || n == 0x85 ||
    (0xa0 ≤ n && n != 0xfeff && n != 0xfffe && n != 0xffff)

/-- A line below the document: blank, a comment or an end marker. -/
def isTrailer (line : List Char) : Bool :=
  isSpent line || line.head? == some '.' && isMarker line && isSpent (line.drop 3)

/-- Reads the document on lines, and gives the lines below it. -/
def documentLines (bound : Nat) (ls : List (List Char)) : Option (Doc × List (List Char)) := do
  match ← content? ls with
  | .inl p => node bound 0 p
  | .inr (('-' :: line) :: below) => value bound 0 0 ⟨line.drop 2, below⟩
  | .inr ls => return (.plain "", ls)

/-- The document of a YAML text. -/
def document? (text : String) : Option Doc := do
  let cs := match text.toList with
    | '\ufeff' :: cs => cs
    | cs => cs
  if !cs.all isAllowed then none
  let (d, below) ← documentLines (4 * (cs.length + 2)) (lines cs)
  if below.all isTrailer && d.height ≤ maxDepth then return d else none

end StackExpr.Yaml
