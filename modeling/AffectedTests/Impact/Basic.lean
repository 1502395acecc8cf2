import AffectedTests.Text.Basic
/-!
# Impacts

An impact says that a commit affects a test, and how. A test is known by its file and its name; of
several impacts on one test the one of the highest rank is kept, and of equals the first.
-/

namespace AffectedTests

/-- How a test is affected. -/
inductive ImpactKind
  | added
  | modified
  | removed
  | indirect
  deriving DecidableEq

namespace ImpactKind

/-- The name of a kind in reports. -/
def tag : ImpactKind → String
  | .added => "ADDED"
  | .modified => "MODIFIED"
  | .removed => "REMOVED"
  | .indirect => "IMPACTED_BY_DEPENDENCY"

def all : List ImpactKind :=
  [.added, .modified, .removed, .indirect]

/-- The kind with a given name. -/
def ofTag? (s : String) : Option ImpactKind :=
  all.find? fun kind => kind.tag == s

/-- A higher rank wins over a lower one. -/
def rank : ImpactKind → Nat
  | .added => 3
  | .modified => 2
  | .indirect => 1
  | .removed => 0

end ImpactKind

/-- A test that a commit affects. -/
structure Impact where
  testName : Text
  file : Text
  kind : ImpactKind
  /-- The changed file that an indirect impact comes from. -/
  related : Option Text
  deriving DecidableEq

namespace Impact

/-- The test, by file and name. -/
def key (i : Impact) : Text × Text :=
  (i.file, i.testName)

/-- Adds an impact to a list with one impact per test: in place of an impact of lower rank on the same
test, at the end when the test is new, and not at all otherwise. -/
def enter (new : Impact) : List Impact → List Impact
  | [] => [new]
  | old :: rest =>
    if old.key = new.key then
      (if old.kind.rank < new.kind.rank then new else old) :: rest
    else old :: enter new rest

/-- One impact per test, in the order in which the tests are first mentioned. -/
def merge (impacts : List Impact) : List Impact :=
  impacts.foldl (fun merged new => enter new merged) []

end Impact

end AffectedTests
