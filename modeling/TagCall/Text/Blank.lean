/-!
White space: the characters that separate tokens, and stripping them from the ends of a text.
-/

namespace TagCall.Text

/-- White space, in the Unicode sense: separators of category Zs, Zl and Zp, the line ends, the
tabs and the four information separators U+001C to U+001F. -/
def isBlank (c : Char) : Bool :=
  let n := c.toNat
  (0x9 ≤ n && n ≤ 0xD) || (0x1C ≤ n && n ≤ 0x20) || n == 0x85 || n == 0xA0 || n == 0x1680 ||
    (0x2000 ≤ n && n ≤ 0x200A) || n == 0x2028 || n == 0x2029 || n == 0x202F || n == 0x205F ||
    n == 0x3000

def stripStart (cs : List Char) : List Char :=
  cs.dropWhile isBlank

def stripEnd (cs : List Char) : List Char :=
  (cs.reverse.dropWhile isBlank).reverse

def strip (cs : List Char) : List Char :=
  stripEnd (stripStart cs)

theorem isBlank_newline : isBlank '\n' = true := by decide

theorem isBlank_space : isBlank ' ' = true := by decide

/-- Lower case for the letters A to Z; every other character is kept. -/
def lower (cs : List Char) : List Char :=
  cs.map Char.toLower

end TagCall.Text
