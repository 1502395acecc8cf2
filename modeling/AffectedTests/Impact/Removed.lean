import AffectedTests.Diff.Basic
import AffectedTests.Distinct
import AffectedTests.Impact.Basic
import AffectedTests.Text.Blank
import AffectedTests.Text.Word
/-!
# Removed tests

The old file is gone, so removed tests are recognised in the text of the deleted lines: a keyword,
perhaps a chain of modifiers, an opening parenthesis and a quoted name, all on one line.
-/

namespace AffectedTests

/-- Modifiers of a keyword that make a call something else than a test or a suite. -/
def nonDeclaringModifiers : List Text :=
  ["step", "extend", "use", "info", "expect", "beforeAll", "beforeEach", "afterAll", "afterEach"]

namespace TestCall

/-! ## One call -/

/-- Whether a code point may stand in an identifier. -/
def isIdentifierPart (c : CodePoint) : Bool :=
  c.isWord || c == '$'

/-- Whether a code point may begin a modifier. -/
def isModifierStart (c : CodePoint) : Bool :=
  let n := c.val
  (0x41 ≤ n && n ≤ 0x5A) || (0x61 ≤ n && n ≤ 0x7A) || c == '_' || c == '$'

/-- The chain of modifiers at the front of a text, and what follows it. `current` is the modifier that
is being read, in reverse. -/
def modifiersFrom : (current : Option Text) → Text → List Text × Text
  | none, [] => ([], [])
  | some current, [] => ([current.reverse], [])
  | none, c :: rest =>
    if c = '.' ∧ rest.head?.any isModifierStart then modifiersFrom (some []) rest
    else ([], c :: rest)
  | some current, c :: rest =>
    if isIdentifierPart c then modifiersFrom (some (c :: current)) rest
    else if c = '.' ∧ rest.head?.any isModifierStart then
      let (more, rest) := modifiersFrom (some []) rest
      (current.reverse :: more, rest)
    else ([current.reverse], c :: rest)

/-- The quotes that may enclose a name. -/
def quotes : List CodePoint := ['\'', '"', '`']

/-- The text up to the next copy of a quote, on the same line, and what follows the quote. -/
def upToQuote (quote : CodePoint) : Text → Option (Text × Text)
  | [] => none
  | c :: rest =>
    if c = quote then some ([], rest)
    else if c = '\n' then none
    else (upToQuote quote rest).map fun (name, rest) => (c :: name, rest)

/-- The quoted first argument of a call, and what follows it. -/
def quotedArgument? (t : Text) : Option (Text × Text) :=
  match t.dropWhile CodePoint.isBlank with
  | paren :: rest =>
    if paren = '(' then
      match rest.dropWhile CodePoint.isBlank with
      | quote :: rest => if quotes.contains quote then upToQuote quote rest else none
      | [] => none
    else none
  | [] => none

/-- A call in a line of text. -/
structure Occurrence where
  modifiers : List Text
  name : Text
  deriving DecidableEq

/-- A call of one keyword at the front of a text, and what follows its name. -/
def callOf? (t keyword : Text) : Option (Occurrence × Text) :=
  if t.startsWith keyword then
    let (modifiers, rest) := modifiersFrom none (t.drop keyword.length)
    (quotedArgument? rest).map fun (name, rest) => (⟨modifiers, name⟩, rest)
  else none

/-- A call of the first keyword that makes one; without keywords the name of the callee is empty. -/
def callAt? (keywords : List Text) (t : Text) : Option (Occurrence × Text) :=
  (if keywords.isEmpty then [[]] else keywords).findSome? (callOf? t)

/-! ## All calls in a line -/

/-- Whether a keyword may begin after a code point. -/
def mayBeginAfter (before : Option CodePoint) : Bool :=
  match before with
  | none => true
  | some c => !(isIdentifierPart c || c == '.')

/-- The calls in a text, from left to right and without overlap: after a call has been found the
search goes on behind it. `skip` counts the code points that belong to the last call. -/
def occurrencesFrom (keywords : List Text) :
    (before : Option CodePoint) → (skip : Nat) → Text → List Occurrence
  | _, _, [] => []
  | _, skip + 1, c :: rest => occurrencesFrom keywords (some c) skip rest
  | before, 0, c :: rest =>
    if mayBeginAfter before then
      match callAt? keywords (c :: rest) with
      | some (call, after) =>
        call :: occurrencesFrom keywords (some c) (rest.length - after.length) rest
      | none => occurrencesFrom keywords (some c) 0 rest
    else occurrencesFrom keywords (some c) 0 rest

/-- The calls in a line. -/
def occurrences (keywords : List Text) (line : Text) : List Occurrence :=
  occurrencesFrom keywords none 0 line

/-- Whether a call declares a test or a suite. -/
def Occurrence.declares (o : Occurrence) : Bool :=
  !o.modifiers.any nonDeclaringModifiers.contains

end TestCall

/-! ## Deleted lines -/

/-- The names of the tests that a line declares. -/
def declaredNames (keywords : List Text) (line : Text) : List Text :=
  ((TestCall.occurrences keywords line).filter TestCall.Occurrence.declares).map (·.name)

/-- One impact for each distinct name that a deleted line declares. -/
def FileDiff.removedImpacts (keywords : List Text) (d : FileDiff) : List Impact :=
  (distinct (d.deletedLines.flatMap fun line => declaredNames keywords line.content)).map fun name =>
    ⟨name, d.path, .removed, none⟩

end AffectedTests
