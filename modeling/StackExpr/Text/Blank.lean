/-!
# White space

The characters of the Unicode property White_Space, and trimming a text of them. The set is wider
than `Char.isWhitespace`, which knows only the four ASCII characters.
-/

namespace StackExpr.Text

/-- The property White_Space: five control characters, the space, the next-line and no-break
characters, and the typographic spaces and separators. -/
def isBlank (c : Char) : Bool :=
  let n := c.toNat
  (0x09 ≤ n && n ≤ 0x0D) || n == 0x20 || n == 0x85 || n == 0xA0 || n == 0x1680 ||
    (0x2000 ≤ n && n ≤ 0x200A) || n == 0x2028 || n == 0x2029 || n == 0x202F || n == 0x205F ||
    n == 0x3000

/-- The text without white space at either end. -/
def trim (s : List Char) : List Char :=
  ((s.dropWhile isBlank).reverse.dropWhile isBlank).reverse

end StackExpr.Text
