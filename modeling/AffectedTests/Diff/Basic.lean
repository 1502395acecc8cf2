import AffectedTests.Text.Basic
/-!
# Diffs

The change that a commit makes to one file: its kind, its hunks, and its added and deleted lines. An
added line is numbered by its place in the new file, a deleted line by its place in the old one. Line
numbers and counts are integers, so that ranges can be compared without special cases.
-/

namespace AffectedTests

/-- How a commit touches a file. -/
inductive ChangeKind
  | added
  | modified
  | deleted
  deriving DecidableEq

namespace ChangeKind

/-- The name of a kind of change in messages and reports. -/
def tag : ChangeKind → String
  | .added => "ADD"
  | .modified => "MOD"
  | .deleted => "DEL"

def all : List ChangeKind :=
  [.added, .modified, .deleted]

/-- The kind with a given name. -/
def ofTag? (s : String) : Option ChangeKind :=
  all.find? fun kind => kind.tag == s

end ChangeKind

/-- An added or deleted line. -/
structure ChangedLine where
  number : Int
  content : Text
  isDeleted : Bool
  deriving DecidableEq

/-- A region of change: where it begins in the old and the new file, and how many lines it has there. -/
structure Hunk where
  oldStart : Int
  oldCount : Int
  newStart : Int
  newCount : Int
  deriving DecidableEq

namespace Hunk

/-- The last line of the hunk in the new file; a hunk that adds nothing is the point where it begins. -/
def newEnd (h : Hunk) : Int :=
  h.newStart + max (h.newCount - 1) 0

/-- Whether the closed range of lines meets the hunk. -/
def Overlaps (h : Hunk) (first last : Int) : Prop :=
  h.newStart ≤ last ∧ first ≤ h.newEnd

/-- Whether the closed range of lines lies between the start of the hunk and the line after it. -/
def Contains (h : Hunk) (first last : Int) : Prop :=
  h.newStart ≤ first ∧ last ≤ h.newStart + h.newCount

instance (h : Hunk) (first last : Int) : Decidable (h.Overlaps first last) :=
  inferInstanceAs (Decidable (_ ∧ _))

instance (h : Hunk) (first last : Int) : Decidable (h.Contains first last) :=
  inferInstanceAs (Decidable (_ ∧ _))

end Hunk

/-- All changes of a commit to one file. -/
structure FileDiff where
  path : Text
  kind : ChangeKind
  lines : List ChangedLine
  hunks : List Hunk
  deriving DecidableEq

namespace FileDiff

def addedLines (d : FileDiff) : List ChangedLine :=
  d.lines.filter fun line => !line.isDeleted

def deletedLines (d : FileDiff) : List ChangedLine :=
  d.lines.filter fun line => line.isDeleted

end FileDiff

end AffectedTests
