import StackExpr.Text.CaseTables
/-!
# Lower case

The full lower-case mapping of Unicode: each character on its own by the table, but for two.

* The capital sigma becomes the final form at the end of a word: when a cased character stands
  before it and none after it, ignorable characters in between not counting.
* The capital dotted I becomes two characters, `i` and the combining dot above.
-/

namespace StackExpr.Text

/-- The simple lower-case mapping of a character. -/
def lowerChar (c : Char) : Char :=
  let n := c.toNat
  match lowerRuns.find? fun (first, last, stride, _) =>
      first ≤ n && n ≤ last && (n - first) % stride == 0 with
  | some (_, _, _, offset) => Char.ofNat (n + offset).toNat
  | none => c

/-- The nearest character that is not ignorable is cased. -/
def nextIsCased (s : List Char) : Bool :=
  match s.find? fun c => !inRanges caseIgnorableRanges c.toNat with
  | some c => inRanges casedRanges c.toNat
  | none => false

/-- The small sigma, in its final form at the end of a word. `before` is the text before it, nearest
character first. -/
def sigma (before after : List Char) : Char :=
  if nextIsCased before && !nextIsCased after then 'ς' else 'σ'

/-- Lower case of a text that stands behind the reversed text `before`. -/
def lowerAfter (before : List Char) : List Char → List Char
  | [] => []
  | c :: cs =>
    if c = 'Σ' then sigma before cs :: lowerAfter (c :: before) cs
    else if c = 'İ' then 'i' :: '\u0307' :: lowerAfter (c :: before) cs
    else lowerChar c :: lowerAfter (c :: before) cs

/-- The text in lower case. -/
def lowerCase (s : String) : String := String.ofList (lowerAfter [] s.toList)

end StackExpr.Text
