import AffectedTests.Diff.Basic
import AffectedTests.Limit
import AffectedTests.Path.Quoted
import AffectedTests.Text.Digit
/-!
# Header lines of a diff

The lines that carry the structure of a diff: the line that opens a file, the lines that name its two
sides and its mode, and the line that opens a hunk. Each reader looks at one line and nothing else.
-/

namespace AffectedTests

namespace Diff

/-- The path that stands for the missing side of an added or deleted file. -/
def nullPath : Text := "/dev/null"

/-! ## The line that opens a file -/

/-- The text without a double quote at its front. -/
def dropQuote (t : Text) : Text :=
  t.dropLead "\""

/-- The text without one double quote at its end. -/
def dropClosingQuote (t : Text) : Text :=
  if t.getLast? = some ('"' : CodePoint) then t.dropLast else t

/-- The second path, if the text begins as the gap between the two paths does. -/
def secondPath? (t : Text) : Option Text :=
  let gap := dropQuote t
  if gap.startsWith " " then
    let side := dropQuote (gap.drop 1)
    if side.startsWith "b/" then some (dropClosingQuote (side.drop 2)) else none
  else none

/-- Cuts at the first place where a gap begins. -/
def cutPaths? : Text → Option (Text × Text)
  | [] => none
  | c :: rest =>
    match secondPath? (c :: rest) with
    | some second => some ([], second)
    | none => (cutPaths? rest).map fun (first, second) => (c :: first, second)

/-- The old and the new path of a line that opens a file. -/
def fileHeader? (line : Text) : Option (Text × Text) :=
  if line.startsWith "diff --git " then
    let side := dropQuote (line.drop 11)
    if side.startsWith "a/" then
      (cutPaths? (side.drop 2)).map fun (old, new) => (Path.Quoted.decode old, Path.Quoted.decode new)
    else none
  else none

/-! ## The line that opens a hunk -/

/-- The numbers of a line that opens a hunk, as they are written. -/
structure HunkHeader where
  oldStart : Text
  oldCount : Text
  newStart : Text
  newCount : Text

namespace HunkHeader

/-- Whether every number is short enough to be read. -/
def isReadable (h : HunkHeader) : Bool :=
  [h.oldStart, h.oldCount, h.newStart, h.newCount].all fun digits =>
    digits.length ≤ Limit.digits.size

/-- The hunk that the line opens. -/
def hunk (h : HunkHeader) : Hunk :=
  ⟨h.oldStart.digitsValue, h.oldCount.digitsValue, h.newStart.digitsValue, h.newCount.digitsValue⟩

end HunkHeader

/-- The digits at the front of a text, and what follows them. -/
def digits? (t : Text) : Option (Text × Text) :=
  let digits := t.takeWhile CodePoint.isDigit
  if digits.isEmpty then none else some (digits, t.dropWhile CodePoint.isDigit)

/-- The digits of a start and of a count; a count of one is left out. -/
def range? (t : Text) : Option ((Text × Text) × Text) := do
  let (start, rest) ← digits? t
  if rest.startsWith "," then
    let (count, rest) ← digits? (rest.drop 1)
    return ((start, count), rest)
  else
    return ((start, "1"), rest)

/-- Removes a mark that has to be there. -/
def expect? (mark t : Text) : Option Text :=
  if t.startsWith mark then some (t.drop mark.length) else none

/-- The numbers of the hunk that a line opens; what follows the closing marks is a heading. -/
def hunkHeader? (line : Text) : Option HunkHeader := do
  let rest ← expect? "@@ -" line
  let ((oldStart, oldCount), rest) ← range? rest
  let rest ← expect? " +" rest
  let ((newStart, newCount), rest) ← range? rest
  let _ ← expect? " @@" rest
  return ⟨oldStart, oldCount, newStart, newCount⟩

/-! ## The lines between -/

/-- What a line between the opening of a file and its first hunk says. -/
inductive Marker
  | mode (kind : ChangeKind)
  | oldMissing
  | newMissing
  | oldPath (path : Text)
  | newPath (path : Text)
  | other

/-- A line that consists of a title and a number. -/
def isNumbered (title line : Text) : Bool :=
  line.startsWith title && line.length > title.length &&
    (line.drop title.length).all CodePoint.isDigit

/-- The target of a path line, without the tabs after it. -/
def target (line : Text) : Text :=
  Text.trimEnd (line.drop 4) '\t'

/-- The path of one side without the letter of that side. -/
def sidePath (letter path : Text) : Text :=
  (Path.Quoted.decode path).dropLead letter

def readMarker (line : Text) : Marker :=
  if isNumbered "new file mode " line then .mode .added
  else if isNumbered "deleted file mode " line then .mode .deleted
  else if line.startsWith "--- " then
    if target line = nullPath then .oldMissing else .oldPath (sidePath "a/" (target line))
  else if line.startsWith "+++ " then
    if target line = nullPath then .newMissing else .newPath (sidePath "b/" (target line))
  else .other

end Diff

end AffectedTests
