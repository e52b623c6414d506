import StackExpr.Yaml.Scalar
/-!
# YAML lists and maps in brackets

Lists `[a, b]` and maps `{a: b}`. White space, ends of lines and comments may stand between any two
marks; a comma may follow the last member. A map may lack values, and a list may hold a single pair
without brackets. A key stands on one line with its colon.

## Why the recursion ends

All functions recurse on a bound that is above the number of marks that are left.
-/

namespace StackExpr.Yaml

/-- The first token on the lines below. -/
def tokenBelow : List (List Char) → Option Rest
  | [] => none
  | line :: below =>
    if isMarker line then none
    else if isSpent line then tokenBelow below
    else some ⟨dropBlanks line, below⟩

/-- What is left from the next token on. -/
def Rest.token? (r : Rest) : Option Rest :=
  if isSpent r.line then tokenBelow r.below else some ⟨dropBlanks r.line, r.below⟩

/-- Behind a key that began at `start`: what is left behind the colon, if there is one on the same
line. -/
def colon? (start r : Rest) : Option Rest :=
  match dropBlanks r.line with
  | ':' :: cs => if r.below.length = start.below.length then some ⟨cs, r.below⟩ else none
  | _ => none

mutual

/-- Reads a node within brackets, which begins here. -/
def innerNode : (bound : Nat) → Rest → Option (Doc × Rest)
  | 0, _ => none
  | bound + 1, r =>
    match r.line with
    | '[' :: cs => (innerItems bound ⟨cs, r.below⟩).map fun (ds, r) => (.list ds, r)
    | '\x7b' :: cs => (innerEntries bound ⟨cs, r.below⟩).map fun (es, r) => (.map es, r)
    | '!' :: cs => do
      let r ← (⟨← dropTag? true cs, r.below⟩ : Rest).token?
      let (d, r) ← innerValue bound r
      return (.tagged d, r)
    | _ => scalar true 0 r

/-- Reads a node within brackets that may be missing. -/
def innerValue : (bound : Nat) → Rest → Option (Doc × Rest)
  | 0, _ => none
  | bound + 1, r =>
    match r.line with
    | ',' :: _ => some (.plain "", r)
    | ']' :: _ => some (.plain "", r)
    | '\x7d' :: _ => some (.plain "", r)
    | _ => innerNode bound r

/-- Reads the value of a pair without brackets, behind its key and the colon. -/
def innerPair : (bound : Nat) → Doc → Rest → Option (Doc × Rest)
  | 0, _, _ => none
  | bound + 1, key, r => do
    let (v, r) ← innerValue bound (← r.token?)
    return (.map [(← key? key, v)], r)

/-- Reads the items of a list up to its closing bracket. -/
def innerItems : (bound : Nat) → Rest → Option (List Doc × Rest)
  | 0, _ => none
  | bound + 1, r => do
    let start ← r.token?
    if start.line.head? = some ']' then return ([], ⟨start.line.tail, start.below⟩)
    let (d, r) ← innerNode bound start
    let (d, r) ← match colon? start r with
      | none => some (d, r)
      | some r => innerPair bound d r
    let r ← r.token?
    match r.line with
    | ',' :: cs =>
      let (ds, r) ← innerItems bound ⟨cs, r.below⟩
      return (d :: ds, r)
    | ']' :: cs => return ([d], ⟨cs, r.below⟩)
    | _ => none

/-- Reads the entries of a map up to its closing bracket. -/
def innerEntries : (bound : Nat) → Rest → Option (List (Key × Doc) × Rest)
  | 0, _ => none
  | bound + 1, r => do
    let start ← r.token?
    if start.line.head? = some '\x7d' then return ([], ⟨start.line.tail, start.below⟩)
    let (d, r) ← innerNode bound start
    let key ← key? d
    let (v, r) ← match colon? start r with
      | none => some (.plain "", r)
      | some r => innerValue bound (← r.token?)
    let r ← r.token?
    match r.line with
    | ',' :: cs =>
      let (es, r) ← innerEntries bound ⟨cs, r.below⟩
      return ((key, v) :: es, r)
    | '\x7d' :: cs => return ([(key, v)], ⟨cs, r.below⟩)
    | _ => none

end

end StackExpr.Yaml
