import AffectedTests.Text.Basic
/-!
# Lines

A carriage return directly before a line feed belongs to it; every other boundary character ends a
line by itself. Both views of a text, its lines and its copy with plain line feeds, are built on
`Text.dropReturns`, which removes the returns that belong to a line feed.
-/

namespace AffectedTests

namespace CodePoint

def lineFeed : CodePoint := '\n'

def carriageReturn : CodePoint := '\r'

/-- The characters that end a line. -/
def lineBoundaries : List CodePoint :=
  ['\n', '\x0b', '\x0c', '\r', '\x1c', '\x1d', '\x1e', '\u0085', '\u2028', '\u2029']

def isLineBoundary (c : CodePoint) : Bool :=
  lineBoundaries.contains c

end CodePoint

namespace Text

open CodePoint

/-- The text without the carriage returns that stand directly before a line feed. -/
def dropReturns : Text → Text
  | [] => []
  | c :: rest =>
    if c = carriageReturn ∧ rest.head? = some lineFeed then dropReturns rest
    else c :: dropReturns rest

/-- Cuts a text at every boundary character; a boundary at the very end opens no further line. -/
def cutLines : Text → List Text
  | [] => []
  | c :: rest =>
    if c.isLineBoundary then [] :: cutLines rest
    else match cutLines rest with
      | [] => [[c]]
      | line :: lines => (c :: line) :: lines

/-- The lines of a text, without their ends. -/
def lines (t : Text) : List Text :=
  cutLines (dropReturns t)

/-- The text with each line end that holds a carriage return written as one line feed. -/
def plainLineFeeds (t : Text) : Text :=
  (dropReturns t).map fun c => if c = carriageReturn then lineFeed else c

end Text

end AffectedTests
