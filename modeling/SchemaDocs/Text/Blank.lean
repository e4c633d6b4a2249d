import SchemaDocs.Text.Basic
/-!
# Blank space

The white space of Unicode together with the four ASCII information separators U+001C to U+001F.
Settings are trimmed of it at both ends.
-/

namespace SchemaDocs

/-- White space, and the information separators of ASCII. -/
def CodePoint.isBlank (c : CodePoint) : Bool :=
  let n := c.value
  (0x09 ≤ n && n ≤ 0x0D) || (0x1C ≤ n && n ≤ 0x20) || n == 0x85 || n == 0xA0 ||
    n == 0x1680 || (0x2000 ≤ n && n ≤ 0x200A) || n == 0x2028 || n == 0x2029 || n == 0x202F ||
    n == 0x205F || n == 0x3000

namespace Text

/-- A text without the blanks at its start. -/
def trimStart (t : Text) : Text :=
  t.dropWhile CodePoint.isBlank

/-- A text without the blanks at its start and at its end. -/
def trim (t : Text) : Text :=
  (trimStart (trimStart t).reverse).reverse

end Text

end SchemaDocs
