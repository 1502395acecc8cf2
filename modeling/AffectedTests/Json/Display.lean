import AffectedTests.Decimal.Shortest
import AffectedTests.Json.Basic
import AffectedTests.Text.Shown
/-!
# Showing values in messages

A value that is refused is shown on one line: texts in quotes, lists in brackets, objects in braces, and
numbers with the fewest digits that identify them.
-/

namespace AffectedTests

namespace Json

/-- Numbers are written without an exponent from the fourth place behind the point up to sixteen digits
before it. -/
def shownNumbers : Decimal.Layout :=
  { firstPlain := -3, lastPlain := 16, exponentWidth := 2, infinity := "inf", notANumber := "nan" }

mutual

/-- A value on one line. -/
def shown : Json → Text
  | .null => "None"
  | .bool true => "True"
  | .bool false => "False"
  | .integer i => Text.ofInt i
  | .real x => Decimal.write shownNumbers x
  | .text t => Text.shown t
  | .array items => "[" ++ Text.join ", " (shownItems items) ++ "]"
  | .object entries => "\x7b" ++ Text.join ", " (shownEntries entries) ++ "\x7d"

def shownItems : List Json → List Text
  | [] => []
  | v :: rest => shown v :: shownItems rest

def shownEntries : List (Text × Json) → List Text
  | [] => []
  | (key, v) :: rest => (Text.shown key ++ ": " ++ shown v) :: shownEntries rest

end

end Json

end AffectedTests
