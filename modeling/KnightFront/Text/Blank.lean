import KnightFront.Text.CodePoints

namespace KnightFront
namespace Text

/-!
# Blank characters

The characters with the Unicode property White_Space.  They separate tokens
and are removed at the right end of a line shown in a report.
-/

/-- The code points with the property White_Space. -/
def blankPoints : CodePoints where
  ranges := [(0x9, 0xD), (0x20, 0x20), (0x85, 0x85), (0xA0, 0xA0), (0x1680, 0x1680),
    (0x2000, 0x200A), (0x2028, 0x2029), (0x202F, 0x202F), (0x205F, 0x205F), (0x3000, 0x3000)]

/-- Whether a character separates tokens. -/
def isBlank (character : Char) : Bool :=
  blankPoints.contains character

/-- A text without its trailing blank characters. -/
def trimBlankEnd (text : List Char) : List Char :=
  (text.reverse.dropWhile isBlank).reverse

end Text
end KnightFront
