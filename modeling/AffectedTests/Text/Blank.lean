import AffectedTests.Text.Ranges
/-!
# Blank characters

Blanks separate words: the spaces of every script, the line and paragraph separators, and the controls
that move the position.
-/

namespace AffectedTests

/-- The blank characters. -/
def blankRanges : CodeRanges := [
  (0x9, 0xD), (0x1C, 0x20), (0x85, 0x85), (0xA0, 0xA0), (0x1680, 0x1680), (0x2000, 0x200A),
  (0x2028, 0x2029), (0x202F, 0x202F), (0x205F, 0x205F), (0x3000, 0x3000)]

/-- Whether a code point is blank. -/
def CodePoint.isBlank (c : CodePoint) : Bool :=
  blankRanges.has c

end AffectedTests
