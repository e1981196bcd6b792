/-!
# Blank characters

Unicode white space together with the four information separators `U+001C` to `U+001F`.
-/

namespace GrammarLoader.Text

/-- White space, line ends included. -/
def isBlank (c : Char) : Bool :=
  let n := c.toNat
  (9 ≤ n && n ≤ 13) || (28 ≤ n && n ≤ 32) || n == 0x85 || n == 0xa0 || n == 0x1680 ||
    (0x2000 ≤ n && n ≤ 0x200a) || n == 0x2028 || n == 0x2029 || n == 0x202f || n == 0x205f ||
    n == 0x3000

/-- A line end: the two characters that no statement's inner blanks may be. -/
def isLineEnd (c : Char) : Bool := c == '\n' || c == '\r'

/-- A blank that does not end a line. -/
def isInnerBlank (c : Char) : Bool := isBlank c && !isLineEnd c

end GrammarLoader.Text
