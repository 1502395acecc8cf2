import AffectedTests.Diff.Reader
import AffectedTests.Proofs.Cutting
import AffectedTests.Proofs.Decimals
/-!
# Rendered diffs

How a diff is written: for each file a line that opens it, the lines of its head, and its hunks, each
with a header line and a body of marked lines. Contents of body lines are arbitrary, and a line of the
body becomes several lines if its content holds boundary characters. The lines that this adds are inert if
they mean nothing in a body.

- `Diff.Patch` is what is written for one file, `Diff.render` writes a list of them.
- `Diff.Patch.fileDiff` is what is meant.
-/

namespace AffectedTests

namespace Diff

open CodePoint

/-! ## What is written -/

/-- How a line of a body is marked. -/
inductive Mark
  | context
  | deleted
  | added
  deriving DecidableEq

namespace Mark

def sign : Mark → CodePoint
  | .context => ' '
  | .deleted => '-'
  | .added => '+'

/-- Whether the line is one of the old file. -/
def inOld : Mark → Bool
  | .added => false
  | _ => true

/-- Whether the line is one of the new file. -/
def inNew : Mark → Bool
  | .deleted => false
  | _ => true

end Mark

/-- A line of a body. The last line of a file may lack a line feed, which is noted behind it. -/
structure BodyLine where
  mark : Mark
  content : Text
  unended : Bool := false

/-- The note behind a line without a line feed. -/
def unendedNote : Text := "\\ No newline at end of file"

/-- A hunk with its heading and its body. -/
structure Region where
  oldStart : Nat
  newStart : Nat
  heading : Text
  body : List BodyLine

/-- What is written for one file. -/
structure Patch where
  opening : Text
  head : List Text
  regions : List Region

def BodyLine.rendered (l : BodyLine) : List Text :=
  (l.mark.sign :: l.content) :: if l.unended then [unendedNote] else []

namespace Region

def oldCount (r : Region) : Nat :=
  r.body.countP fun l => l.mark.inOld

def newCount (r : Region) : Nat :=
  r.body.countP fun l => l.mark.inNew

/-- A start and a count; a count of one is left out. -/
def range (start count : Nat) : Text :=
  Text.ofNat start ++ if count = 1 then [] else (',' : CodePoint) :: Text.ofNat count

def header (r : Region) : Text :=
  -- The heading comes with the space before it, if it has one.
  "@@ -" ++ range r.oldStart r.oldCount ++ (" +" : Text) ++ range r.newStart r.newCount ++
    (" @@" : Text) ++ r.heading

def rendered (r : Region) : List Text :=
  r.header :: r.body.flatMap BodyLine.rendered

end Region

def Patch.rendered (p : Patch) : List Text :=
  p.opening :: p.head ++ p.regions.flatMap Region.rendered

/-- The text of a diff. -/
def render (ps : List Patch) : Text :=
  (ps.flatMap Patch.rendered).flatMap fun l => l ++ [lineFeed]

/-! ## What is meant -/

/-- The change at a place of a body: a deleted line is numbered by its place in the old file, an added
line by its place in the new one. -/
def changeAt (oldStart newStart : Int) (body : List BodyLine) (i : Nat) : Option ChangedLine :=
  -- Each number counts the lines of its file before the place, so context lines count in both.
  body[i]?.bind fun l =>
    match l.mark with
    | .context => none
    | .deleted => some ⟨oldStart + (body.take i).countP fun l => l.mark.inOld, l.content, true⟩
    | .added => some ⟨newStart + (body.take i).countP fun l => l.mark.inNew, l.content, false⟩

/-- The changes of a body, in order. -/
def changes (oldStart newStart : Int) (body : List BodyLine) : List ChangedLine :=
  (List.range body.length).filterMap (changeAt oldStart newStart body)

namespace Region

def changes (r : Region) : List ChangedLine :=
  Diff.changes r.oldStart r.newStart r.body

def hunk (r : Region) : Hunk :=
  ⟨r.oldStart, r.oldCount, r.newStart, r.newCount⟩

/-- Whether the numbers in the header are short enough to be read. -/
def isReadable (r : Region) : Bool :=
  [r.oldStart, r.oldCount, r.newStart, r.newCount].all fun n => n < 10 ^ Limit.digits.size

end Region

namespace Patch

def isReadable (p : Patch) : Bool :=
  p.regions.all Region.isReadable

/-- What the lines before the first hunk say. -/
def readHead (p : Patch) : Head :=
  let paths := (fileHeader? p.opening).getD ([], [])
  p.head.foldl (fun h line => h.note (readMarker line)) ⟨paths.1, paths.2, none, none⟩

/-- The change that is meant. A deleted file has no added lines. -/
def fileDiff (p : Patch) : FileDiff where
  path := p.readHead.path
  kind := p.readHead.kind
  lines := (p.regions.flatMap Region.changes).filter fun line =>
    line.isDeleted || p.readHead.kind ≠ .deleted
  hunks := p.regions.map Region.hunk

end Patch

/-! ## Contents -/

/-- A line that means nothing in the body of a hunk. -/
def Inert (l : Text) : Prop :=
  (fileHeader? l).isNone = true ∧ (hunkHeader? l).isNone = true ∧ ∀ m : Mark, l.head? ≠ some m.sign

/-- A content that adds only inert lines. -/
def InertContent (content : Text) : Prop :=
  ∀ l ∈ (Text.written content).tail, Inert l

theorem inertContent_of_oneLine {content : Text} (h : Text.OneLine content) : InertContent content := by
  intro l hl
  rw [Text.written_of_oneLine h] at hl
  cases hl

/-- A body line with only the first line of its content. -/
def BodyLine.cut (l : BodyLine) : BodyLine :=
  { l with content := (Text.written l.content).headD [] }

def Region.cut (r : Region) : Region :=
  { r with body := r.body.map BodyLine.cut }

def Patch.cut (p : Patch) : Patch :=
  { p with regions := p.regions.map Region.cut }

namespace Patch

/-- The lines that are no body lines are single lines, and of these the first one opens a file and no
other one opens a file or, before the first hunk, a hunk. -/
structure WellFormed (p : Patch) : Prop where
  opening : Text.OneLine p.opening ∧ (fileHeader? p.opening).isSome = true
  head : ∀ l ∈ p.head, Text.OneLine l ∧ (fileHeader? l).isNone = true ∧
    (hunkHeader? l).isNone = true
  heading : ∀ r ∈ p.regions, Text.OneLine r.heading

/-- All contents add only inert lines. -/
def Inert (p : Patch) : Prop :=
  ∀ r ∈ p.regions, ∀ l ∈ r.body, InertContent l.content

end Patch

end Diff

end AffectedTests
