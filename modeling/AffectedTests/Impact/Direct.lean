import AffectedTests.Diff.Basic
import AffectedTests.Impact.Basic
/-!
# Tests changed in their own file

A test whose lines meet a hunk is modified; one whose lines lie in what a hunk covers is added, which
outranks the other.
-/

namespace AffectedTests

/-- A test or suite as its file declares it: its name and its first and last line. -/
structure TestDeclaration where
  name : Text
  firstLine : Int
  lastLine : Int
  file : Text
  deriving DecidableEq

namespace TestDeclaration

/-- The impacts of a diff on one declaration. -/
def directImpacts (d : FileDiff) (t : TestDeclaration) : List Impact :=
  (if d.hunks.any fun h => h.Overlaps t.firstLine t.lastLine then
    [⟨t.name, d.path, .modified, none⟩] else []) ++
  (if d.hunks.any fun h => h.Contains t.firstLine t.lastLine then
    [⟨t.name, d.path, .added, none⟩] else [])

end TestDeclaration

/-- The direct impacts of a diff on the tests of its file. -/
def FileDiff.directImpacts (d : FileDiff) (tests : List TestDeclaration) : List Impact :=
  Impact.merge (tests.flatMap (TestDeclaration.directImpacts d))

end AffectedTests
