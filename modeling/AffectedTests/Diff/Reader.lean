import AffectedTests.Diff.Header
import AffectedTests.Text.Lines
import AffectedTests.Text.Utf8
/-!
# Reading diffs

A diff is cut into sections, one for each line that opens a file; what precedes the first of them is
dropped. A section has a head, up to its first hunk, and a body. The head decides the paths and the kind
of change, the body gives the hunks and the numbered lines, and no section depends on another one. A
diff with a hunk whose numbers are too long to be read is refused.

- `Diff.parse` reads a text, `Diff.parseBytes` the bytes of a saved patch.
- `Diff.conflicts` lists the sections whose head contradicts itself.
-/

namespace AffectedTests

namespace Diff

/-! ## Sections -/

/-- The paths on the line that opens a file, and the lines up to the next such line. -/
structure Section where
  oldPath : Text
  newPath : Text
  content : List Text

/-- The sections of a list of lines. -/
def sections : List Text → List Section
  | [] => []
  | line :: rest =>
    match fileHeader? line with
    | some (old, new) => ⟨old, new, rest.takeWhile fun l => (fileHeader? l).isNone⟩ :: sections rest
    | none => sections rest

namespace Section

/-- The lines before the first hunk. -/
def head (s : Section) : List Text :=
  s.content.takeWhile fun l => (hunkHeader? l).isNone

/-- The lines from the first hunk on. -/
def body (s : Section) : List Text :=
  s.content.dropWhile fun l => (hunkHeader? l).isNone

end Section

/-! ## Heads -/

/-- What the head of a section says about its file. -/
structure Head where
  oldPath : Text
  newPath : Text
  /-- The kind of change that a mode line names. -/
  mode : Option ChangeKind
  /-- The kind of change that follows from a missing side. -/
  missing : Option ChangeKind

namespace Head

/-- A later marker replaces an earlier one. -/
def note (h : Head) : Marker → Head
  | .mode kind => { h with mode := some kind }
  | .oldMissing => { h with missing := some .added }
  | .newMissing => { h with missing := some .deleted }
  | .oldPath path => { h with oldPath := path }
  | .newPath path => { h with newPath := path }
  | .other => h

/-- The kind of change: a mode line has the last word. -/
def kind (h : Head) : ChangeKind :=
  (h.mode <|> h.missing).getD .modified

/-- The path by which the file is known: a deleted file has only its old one. -/
def path (h : Head) : Text :=
  if h.kind = .deleted then h.oldPath else h.newPath

end Head

def Section.readHead (s : Section) : Head :=
  s.head.foldl (fun h line => h.note (readMarker line)) ⟨s.oldPath, s.newPath, none, none⟩

/-! ## Bodies -/

/-- The numbered changes of a body. A hunk resets both line numbers, an added line advances the new
one, a deleted line the old one and a context line both; other lines count for nothing. The added lines
of a deleted file are not kept. -/
def numberLines (kind : ChangeKind) : (oldLine newLine : Int) → List Text → List ChangedLine
  | _, _, [] => []
  | oldLine, newLine, line :: rest =>
    match hunkHeader? line with
    | some header => numberLines kind header.hunk.oldStart header.hunk.newStart rest
    | none =>
      match line with
      | [] => numberLines kind oldLine newLine rest
      | mark :: content =>
        if mark = '+' then
          if kind = .deleted then numberLines kind oldLine (newLine + 1) rest
          else ⟨newLine, content, false⟩ :: numberLines kind oldLine (newLine + 1) rest
        else if mark = '-' then
          ⟨oldLine, content, true⟩ :: numberLines kind (oldLine + 1) newLine rest
        else if mark = ' ' then numberLines kind (oldLine + 1) (newLine + 1) rest
        else numberLines kind oldLine newLine rest

namespace Section

/-- The lines of a section that open its hunks. -/
def hunkHeaders (s : Section) : List HunkHeader :=
  s.body.filterMap hunkHeader?

/-- Whether the numbers of every hunk can be read. -/
def isReadable (s : Section) : Bool :=
  s.hunkHeaders.all HunkHeader.isReadable

/-- The change that a section describes. -/
def toFileDiff (s : Section) : FileDiff :=
  let head := s.readHead
  { path := head.path
    kind := head.kind
    lines := numberLines head.kind 0 0 s.body
    hunks := s.hunkHeaders.map HunkHeader.hunk }

end Section

/-! ## Whole diffs -/

/-- The file changes in a diff, in the order in which the diff lists them. All of its numbers have to be
readable. -/
def parse (text : Text) : Except Limit (List FileDiff) :=
  let found := sections text.lines
  if found.all Section.isReadable then .ok (found.map Section.toFileDiff) else .error .digits

/-- The text of a saved patch: UTF-8 where it is well formed, otherwise one character per byte. -/
def decodePatch (bytes : Bytes) : Text :=
  ((Utf8.decode bytes).getD bytes.toTextBytewise).plainLineFeeds

/-- The file changes in a saved patch. -/
def parseBytes (bytes : Bytes) : Except Limit (List FileDiff) :=
  parse (decodePatch bytes)

/-! ## Contradictions -/

/-- A head whose mode line and whose missing side say different things. -/
structure Conflict where
  newPath : Text
  mode : ChangeKind
  missing : ChangeKind

def Head.conflict? (h : Head) : Option Conflict :=
  match h.mode, h.missing with
  | some mode, some missing => if mode = missing then none else some ⟨h.newPath, mode, missing⟩
  | _, _ => none

/-- The sections up to the first one that cannot be read; the head of that one is still looked at. -/
def reached : List Section → List Section
  | [] => []
  | s :: rest => if s.isReadable then s :: reached rest else [s]

/-- The contradictions in a diff, in order. -/
def conflicts (text : Text) : List Conflict :=
  (reached (sections text.lines)).filterMap fun s => s.readHead.conflict?

def Conflict.message (c : Conflict) : Text :=
  "Conflicting diff header markers for " ++ c.newPath ++ ": file mode says " ++ c.mode.tag ++
    ", /dev/null says " ++ c.missing.tag

end Diff

end AffectedTests
