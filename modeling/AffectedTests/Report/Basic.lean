import AffectedTests.Impact.Basic
import AffectedTests.Json.Writer
import AffectedTests.Report.Markup
/-!
# Reports

A report names the affected tests of a commit: as a JSON value for other programs, or as lines of markup
for people, in sections by kind.
-/

namespace AffectedTests

/-- What a run has found. -/
structure Report where
  commit : Text
  /-- The directory of the repository. -/
  repository : Text
  milliseconds : Nat
  impacts : List Impact

/-! ## For programs -/

/-- An impact as a value. -/
def Impact.toJson (i : Impact) : Json :=
  let related : List (Text × Json) :=
    match i.related with
    | some related => [("relatedFile", .text related)]
    | none => []
  .object
    (("testName", .text i.testName) :: ("filePath", .text i.file) :: ("impactType", .text i.kind.tag) ::
      related)

/-- A report as a value. -/
def Report.toJson (r : Report) : Json :=
  .object [
    ("commit", .text r.commit),
    ("repo", .text r.repository),
    ("durationMs", .integer r.milliseconds),
    ("impacted_tests", .array (r.impacts.map Impact.toJson))]

/-! ## For people -/

namespace ImpactKind

/-- The kinds in the order of the sections. -/
def sections : List ImpactKind :=
  [.added, .modified, .removed, .indirect]

/-- The title of a section. -/
def title : ImpactKind → Text
  | .added => "ADDED"
  | .modified => "MODIFIED"
  | .removed => "REMOVED"
  | .indirect => "INDIRECT IMPACT"

/-- The colour of a section. -/
def colour : ImpactKind → Text
  | .added => "green"
  | .modified => "yellow"
  | .removed => "red"
  | .indirect => "magenta"

end ImpactKind

namespace Report

/-- A text in a style. -/
def styled (style body : Text) : Text :=
  "[" ++ style ++ ("]" : Text) ++ body ++ ("[/" : Text) ++ style ++ ("]" : Text)

/-- What every report begins with. -/
def heading (r : Report) : List Text := [
  "\n🔍 " ++ styled "bold" "Test Impact Analysis",
  "Commit: " ++ styled "cyan" (Markup.escape r.commit),
  "Repository: " ++ Markup.escape r.repository,
  "Time: " ++ Text.ofNat r.milliseconds ++ ("ms" : Text)]

/-- The line above the impacts of one kind. -/
def sectionLine (kind : ImpactKind) (count : Nat) : Text :=
  "\n" ++ styled ("bold " ++ kind.colour) ("\\[" ++ kind.title ++ ("]" : Text)) ++ (" (" : Text) ++
    Text.ofNat count ++ (")" : Text)

/-- The line of one impact. -/
def impactLine (i : Impact) : Text :=
  "  - " ++ Markup.escape i.testName ++ (" " : Text) ++
    styled "dim" ("(" ++ Markup.escape i.file ++ (")" : Text)) ++
    match i.related.filter fun related => related ≠ [] with
    | some related => " via " ++ Markup.escape related
    | none => []

/-- The line of a chain. -/
def chainLine (chain : List Text) : Text :=
  "      " ++ styled "dim" (Markup.escape (Text.join " → " chain))

/-- The lines of one impact, the chain below it if there is one to show. -/
def impactLines {ε : Type} (chain : Impact → Except ε (List Text)) (i : Impact) :
    List (Except ε Text) :=
  .ok (impactLine i) ::
    match chain i with
    | .ok [] => []
    | .ok labels => [.ok (chainLine labels)]
    | .error e => [.error e]

/-- The lines of one kind of impact; none when there is no such impact. -/
def sectionLines {ε : Type} (chain : Impact → Except ε (List Text)) (impacts : List Impact)
    (kind : ImpactKind) : List (Except ε Text) :=
  match impacts.filter fun i => i.kind = kind with
  | [] => []
  | group => .ok (sectionLine kind group.length) :: group.flatMap (impactLines chain)

/-- A report as lines of markup. A chain that cannot be shown is an error in its place. -/
def lines {ε : Type} (r : Report) (chain : Impact → Except ε (List Text)) : List (Except ε Text) :=
  r.heading.map .ok ++
    if r.impacts = [] then [.ok ("\n" ++ styled "green" "No impacted tests found.")]
    else
      ImpactKind.sections.flatMap (sectionLines chain r.impacts) ++
        [.ok ("\n✅ " ++ Text.ofNat r.impacts.length ++ (" impacted tests" : Text))]

end Report

end AffectedTests
