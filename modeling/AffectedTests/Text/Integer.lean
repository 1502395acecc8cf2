import AffectedTests.Limit
import AffectedTests.Text.Blank
import AffectedTests.Text.Digit
/-!
# Reading integers

An integer has a sign or none and digits of any script, as many as the limit admits. An underscore may
stand between two digits, and blanks around the whole.
-/

namespace AffectedTests

namespace Text

/-- Blanks around an integer; the controls that separate records are none. -/
def isPadding (c : CodePoint) : Bool :=
  c.isBlank && !(0x1C ≤ c.val && c.val ≤ 0x1F)

/-- The text without blanks on either side. -/
def trimPadding (t : Text) : Text :=
  ((t.dropWhile isPadding).reverse.dropWhile isPadding).reverse

/-- The number that digits with underscores between them denote. -/
def natural? (t : Text) : Option Nat :=
  let pieces := t.splitOn '_'
  if pieces.all (fun piece => piece != [] && piece.all CodePoint.isDigit) &&
      pieces.flatten.length ≤ Limit.digits.size then
    some t.digitsValue
  else none

/-- The integer that a text denotes. -/
def integer? (t : Text) : Option Int :=
  match t.trimPadding with
  | [] => none
  | c :: rest =>
    if c = '-' then (natural? rest).map fun n => -(n : Int)
    else if c = '+' then (natural? rest).map Int.ofNat
    else (natural? (c :: rest)).map Int.ofNat

end Text

end AffectedTests
