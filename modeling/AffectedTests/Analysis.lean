import AffectedTests.Reach.Trace
/-!
# Analysing a change

The files that a change touches are analysed one by one, in one session and with one tracer: a deleted
file for the tests it held, a test file for its own tests, and any other source file for the tests that
its declarations reach. A change of a global file affects every test, and nothing else is looked at.

- `Workspace.analyze` gives the impacts of a change, each test once.
- `Analysis.chain` shows how a changed declaration reaches a test.
-/

namespace AffectedTests

/-! ## One file -/

/-- What the files of one change share. -/
structure Progress where
  session : Session := {}
  tracer : Tracer := {}

/-- The impacts of one changed file. -/
def Workspace.impactsOf (w : Workspace) (d : FileDiff) :
    ExceptT Failure (StateM Progress) (List Impact) :=
  let path := Path.join w.root d.path
  let removed := d.removedImpacts w.settings.testKeywords
  if d.kind = .deleted then return removed
  else if w.settings.isTestFile d.path then ExceptT.mk fun progress =>
    let (tests, session) := (Query.tests path).ask w progress.session
    (tests.map fun tests => d.directImpacts tests ++ removed, { progress with session := session })
  else if w.settings.isSourceFile d.path then ExceptT.mk fun progress =>
    let (impacts, session, tracer) := progress.tracer.trace d path w progress.session
    (impacts, ⟨session, tracer⟩)
  else return []

/-! ## All files -/

/-- What an analysis leaves behind. There is no tracer if a global file has changed. -/
structure Analysis where
  impacts : Except Failure (List Impact)
  warnings : List Warning := []
  tracer : Option Tracer := none

/-- The impact of a change that affects every test. -/
def Impact.everything : Impact :=
  ⟨"ALL TESTS", "ALL", .indirect, some "Global Config Change"⟩

/-- An impact with its file as the root's directory sees it. -/
def Impact.relativeTo (root : Text) (i : Impact) : Impact :=
  if Path.isAbsolute i.file then { i with file := Path.relativeTo root i.file } else i

/-- The impacts of a change of some files. -/
def Workspace.analyze (w : Workspace) (ds : List FileDiff) : Analysis :=
  if ds.any fun d => w.settings.isGlobalFile d.path then ⟨.ok [Impact.everything], [], none⟩
  else
    let (found, progress) := ((ds.mapM w.impactsOf).run).run {}
    { impacts := found.map fun found => Impact.merge (found.flatten.map (Impact.relativeTo w.root))
      warnings := progress.session.warnings
      tracer := some progress.tracer }

/-- The chain of declarations behind an indirect impact; empty for any other impact. -/
def Analysis.chain (a : Analysis) (root : Text) (i : Impact) : Except Failure (List Text) :=
  match a.tracer, i.kind with
  | some tracer, .indirect =>
    match Path.resolve (Path.join root i.file) with
    | .ok file => .ok (tracer.chain file i.testName)
    | .error fault => .error (.badName fault)
  | _, _ => .ok []

end AffectedTests
