import AffectedTests.Proofs.Listings
import AffectedTests.Proofs.Verdicts
/-!
# What is behind an impact

The impacts of a change come from parts of the analysis that name files in different ways and look for tests
in different places: among all calls of a file, around the uses of a declaration, in deleted lines. After
they are brought into one form and merged, there is still something behind each of them: a file of the
change, and a test that can be found where the impact says.

- `Reach.inside`: hops from a file of the project lead to files of the project.
- `Touches.name_mem_tests`: a test around a use is among the tests of its file.
- `Workspace.analyze_grounds`: what is behind the impacts of a change.
-/

namespace AffectedTests

/-! ## Hops stay below the root -/

section Below

variable {w : Workspace} {d : Declaration} (hroot : Path.resolve w.root = .ok w.root)
  (hnamed : w.disk.Named)

include hroot

/-- A changed declaration of a file of the change is in a file below the root. -/
theorem Tracing.inside_of_mem_seedsOf {diff : FileDiff} (htidy : Path.Tidy diff.path)
    (hd : d ∈ seedsOf w {} diff (Path.join w.root diff.path)) : Path.Inside w.root d.file := by
  have hfile := (declares_and_resolve_of_mem_seedsOf Session.coherent_empty hd).2
  exact Path.inside_of_resolve_join hroot htidy hfile

include hnamed

/-- A search that begins below the root ends there: it stays in its file, or it goes on to a listed one. -/
theorem Session.Nearby.inside {start file : Text} (hstart : Path.Inside w.root start)
    (h : Session.Nearby {} w start file) : Path.Inside w.root file := by
  rcases h with ⟨path, hpath, hkey⟩
  have hinside : Path.Inside w.root path := by
    rcases hpath with rfl | hlisted
    · exact hstart
    · rcases hlisted with ⟨files, hfiles, hmem⟩
      exact Workspace.inside_of_mem_sourceFiles hroot hnamed hfiles hmem
  rw [hinside.eq_of_resolve hroot hkey]
  exact hinside

theorem Use.inside (hd : Path.Inside w.root d.file) {r : Reference} (h : Use w {} d r) :
    Path.Inside w.root r.file := by
  rcases h with ⟨rs, hrs, hr⟩
  exact (Query.finds_of_uses Session.coherent_empty hrs r hr).nearby.inside hroot hnamed hd

/-- Hops from files below the root never leave it. The induction is on the hops. -/
theorem Reach.inside {seeds : List Declaration} (hseeds : ∀ d ∈ seeds, Path.Inside w.root d.file)
    {k : Nat} (h : Reach w {} seeds k d) : Path.Inside w.root d.file := by
  induction h with
  | seed hd => exact hseeds _ hd
  | hop _ hhop ih =>
    -- The hop ends in the file of the use, and uses of a declaration are found near its file.
    rcases hhop with ⟨r, huse, hinto⟩
    rw [hinto.file]
    exact huse.inside hroot hnamed ih

theorem Touches.inside (hd : Path.Inside w.root d.file) {t : TestDeclaration}
    (h : Touches w {} d t) : Path.Inside w.root t.file := by
  rcases h with ⟨r, huse, htest⟩
  rw [htest.file]
  exact huse.inside hroot hnamed hd

end Below

/-! ## Tests around uses are tests of the file -/

/-- The tests of a file in view are asked for by any path of the file. -/
theorem Query.answer_tests {w : Workspace} {s : Session} (hs : s.Coherent) {file : SourceFile}
    (hfile : s.Opens w file) {path : Text} (hpath : Path.resolve path = .ok file.path) :
    (tests path).answer w s = file.tests w.settings.testKeywords := by
  refine (answer_load_bind hs ?_ hfile hpath).trans (answer_testsOf hs file)
  intro found
  cases found with
  | none => exact steady_pure []
  | some file => exact steady_testsOf file

/-- The search for the tests of a file looks at every node, so it does not miss one around another node. -/
theorem SourceFile.mem_tests {file : SourceFile} {keywords : List Text} {c : Cursor}
    {t : TestDeclaration} (hc : Cursor.Within file.tree c)
    (ht : c.enclosingTest? keywords file.path = .ok (some t)) {found : List TestDeclaration}
    (h : file.tests keywords = .ok found) : t ∈ found := by
  rcases Fallible.findSomeM?_eq_ok_some ht with ⟨p, hp, hmade⟩
  rcases Fallible.map_eq_ok.1 h with ⟨looked, hlooked, rfl⟩
  have hmem : p ∈ file.top.preorder := Tree.mem_preorder_iff.2 (hc.of_mem_enclosing hp)
  rcases Fallible.exists_of_mapM_eq_ok hlooked hmem with ⟨o, ho, hlook⟩
  cases hlook.symm.trans hmade
  exact List.mem_filterMap.2 ⟨some t, ho, rfl⟩

namespace Touches

variable {w : Workspace} {d : Declaration} {t : TestDeclaration}

theorem isTestFile {s : Session} (h : Touches w s d t) : w.settings.isTestFile t.file = true := by
  rcases h with ⟨r, -, htest⟩
  rw [htest.file]
  exact htest.1

/-- A test around a use of a declaration is among the tests of its file, if these can be told. -/
theorem mem_tests {s : Session} (hs : s.Coherent) (h : Touches w s d t) {path : Text}
    (hpath : Path.resolve path = .ok t.file) {found : List TestDeclaration}
    (hfound : (Query.tests path).answer w s = .ok found) : t ∈ found := by
  rcases h with ⟨r, ⟨rs, hrs, hr⟩, htest⟩
  rcases Query.shows_of_uses hs hrs r hr with ⟨file, hfile, hsame, hwithin⟩
  rw [Query.answer_tests hs hfile (by rw [hpath, htest.file, hsame])] at hfound
  exact SourceFile.mem_tests hwithin (hsame ▸ htest.2) hfound

end Touches

/-! ## What is behind an impact -/

namespace Workspace

variable {w : Workspace} {d : FileDiff} {ds : List FileDiff} {i : Impact}

/-- What has to be behind an impact of a change, for each kind of impact:

- a test that is new or modified is one of the tests of a test file of the change that is not deleted;
- a removed test was declared by a deleted line of a file of the change that is deleted or a test file;
- for any other test, the impact names a file of the change that is traced; the test stands in a test file
  and is among the tests of that file, if these can be told. -/
def Grounds (w : Workspace) (ds : List FileDiff) (i : Impact) : Prop :=
  match i.kind with
  | .added | .modified => ∃ d ∈ ds, d.kind ≠ .deleted ∧ w.settings.isTestFile d.path = true ∧
      i.file = d.path ∧ i.related = none ∧
      ∃ tests, (Query.tests (Path.join w.root d.path)).answer w {} = .ok tests ∧
        ∃ t ∈ tests, t.name = i.testName
  | .removed => ∃ d ∈ ds, (d.kind = .deleted ∨ w.settings.isTestFile d.path = true) ∧
      i.file = d.path ∧
      ∃ line ∈ d.deletedLines, i.testName ∈ declaredNames w.settings.testKeywords line.content
  | .indirect => ∃ d ∈ ds, w.Traced d ∧ i.related = some d.path ∧
      w.settings.isTestFile (Path.join w.root i.file) = true ∧
      ∀ tests, (Query.tests (Path.join w.root i.file)).answer w {} = .ok tests →
        ∃ t ∈ tests, t.name = i.testName

theorem Produces.grounds (hroot : Path.resolve w.root = .ok w.root) (hnamed : w.disk.Named)
    (hd : d ∈ ds) (htidy : Path.Tidy d.path) (h : w.Produces d i) :
    w.Grounds ds (i.relativeTo w.root) := by
  cases h with
  | direct hkind htest htests hdirect =>
    rcases FileDiff.of_mem_directImpacts hdirect with ⟨t, ht, rfl | rfl⟩ <;>
      rw [Impact.relativeTo_of_tidy htidy] <;>
      exact ⟨d, hd, hkind, htest, rfl, rfl, _, htests, t, ht, rfl⟩
  | removed hrole hremoved =>
    rcases FileDiff.of_mem_removedImpacts hremoved with ⟨line, hline, name, hname, rfl⟩
    rw [Impact.relativeTo_of_tidy htidy]
    exact ⟨d, hd, hrole, rfl, line, hline, hname⟩
  | traced htraced himpacts hmem =>
    rcases justified_of_trace himpacts hmem with ⟨limit, k, x, t, -, hreach, htouches, rfl⟩
    have hfile := htouches.resolve_file Session.coherent_empty
    have hinside : Path.Inside w.root t.file :=
      htouches.inside hroot hnamed (hreach.inside hroot hnamed fun _ hseed =>
        Tracing.inside_of_mem_seedsOf hroot htidy hseed)
    -- Joined with the root, the path of the impact is the path of the test again.
    have hback := hinside.join_relativeTo hroot
    rw [Impact.relativeTo_of_isAbsolute _ _ (Path.isAbsolute_of_resolve hfile)]
    refine ⟨d, hd, htraced, rfl, ?_, ?_⟩
    · exact (congrArg w.settings.isTestFile hback).trans htouches.isTestFile
    · intro tests htests
      exact ⟨t, htouches.mem_tests Session.coherent_empty ((congrArg _ hback).trans hfile) htests, rfl⟩

end Workspace

/-! ## Deleted lines -/

/-- The diff of a file without its deleted lines. -/
def FileDiff.withoutDeleted (d : FileDiff) : FileDiff :=
  { d with lines := d.addedLines }

theorem FileDiff.addedLines_withoutDeleted (d : FileDiff) :
    d.withoutDeleted.addedLines = d.addedLines := by
  simp [withoutDeleted, addedLines]

/-- A trace looks at the added lines only. -/
theorem Tracer.trace_withoutDeleted (t : Tracer) (d : FileDiff) :
    t.trace d.withoutDeleted = t.trace d := by
  funext path w s
  unfold trace Tracing.walkAll Tracing.changed
  rw [d.addedLines_withoutDeleted]
  rfl

namespace Workspace

variable {w : Workspace} {d : FileDiff} {ds : List FileDiff} {is : List Impact}

/-- The diff of a file, without the deleted lines unless the file is deleted or a test file. -/
def relevant (w : Workspace) (d : FileDiff) : FileDiff :=
  if d.kind = .deleted ∨ w.settings.isTestFile d.path = true then d else d.withoutDeleted

theorem path_relevant (w : Workspace) (d : FileDiff) : (w.relevant d).path = d.path := by
  unfold relevant
  split <;> rfl

theorem impactsOf_relevant (w : Workspace) (d : FileDiff) :
    w.impactsOf (w.relevant d) = w.impactsOf d := by
  unfold relevant
  split
  · rfl
  · rename_i hother
    rw [not_or] at hother
    have hpath : d.withoutDeleted.path = d.path := rfl
    have hkind : d.withoutDeleted.kind = d.kind := rfl
    -- Neither the deleted lines of such a file nor its tests are looked at.
    unfold impactsOf
    rw [hpath, hkind]
    simp only [if_neg hother.1, if_neg hother.2, Tracer.trace_withoutDeleted]

/-- The deleted lines of a changed file make no difference if the file is no test file. -/
theorem analyze_map_relevant (w : Workspace) (ds : List FileDiff) :
    w.analyze (ds.map w.relevant) = w.analyze ds := by
  have hmap : (ds.map w.relevant).mapM w.impactsOf = ds.mapM w.impactsOf := by
    rw [List.mapM_map]
    exact congrArg (List.mapM · ds) (funext w.impactsOf_relevant)
  have hglobal : ((ds.map w.relevant).any fun d => w.settings.isGlobalFile d.path) =
      ds.any fun d => w.settings.isGlobalFile d.path := by
    rw [List.any_map]
    refine congrArg ds.any (funext fun d => ?_)
    exact congrArg w.settings.isGlobalFile (w.path_relevant d)
  unfold analyze
  rw [hglobal, hmap]

/-- Every impact of a change without a global file has its grounds, and the deleted lines of a file that is
neither deleted nor a test file are the grounds of none: the analysis is the same without them. -/
theorem analyze_grounds (hroot : Path.resolve w.root = .ok w.root) (hnamed : w.disk.Named)
    (htidy : ∀ d ∈ ds, Path.Tidy d.path)
    (hnone : ∀ d ∈ ds, w.settings.isGlobalFile d.path = false)
    (his : (w.analyze ds).impacts = .ok is) :
    (∀ i ∈ is, w.Grounds ds i) ∧ w.analyze (ds.map w.relevant) = w.analyze ds := by
  refine ⟨?_, analyze_map_relevant w ds⟩
  rcases exists_merge_of_analyze hnone his with ⟨found, rfl, hfound⟩
  intro i hi
  rcases (hfound i).1 (Impact.mem_of_mem_merge hi) with ⟨d, hd, j, hj, rfl⟩
  exact hj.grounds hroot hnamed hd (htidy d hd)

end Workspace

/-! ## An example -/

namespace Grounded

open Edited (workspace sourceFiles_workspace edit verdict)

/-- The function is changed, and a line that looks like a test is deleted beside it. -/
def diff : FileDiff :=
  ⟨"a.js", .modified, [⟨1, "test(\"z\",", true⟩, ⟨1, "export function f() {}", false⟩], []⟩

/-- A test file is deleted. -/
def deletion : FileDiff :=
  ⟨"t/y.test.js", .deleted, [⟨1, "test(\"y\",", true⟩], []⟩

/-- The test that the function reaches. -/
def reached : Impact :=
  ⟨"x", "t/x.test.js", .indirect, some "a.js"⟩

def removed : Impact :=
  ⟨"y", "t/y.test.js", .removed, none⟩

theorem named_workspace : workspace.disk.Named :=
  .of_all (by decide)

theorem alone_diff : workspace.alone diff = .ok [⟨"x", "/p/t/x.test.js", .indirect, some "a.js"⟩] :=
  Workspace.alone_eq_ok sourceFiles_workspace (by decide +kernel)

theorem alone_deletion : workspace.alone deletion = .ok [removed] :=
  Workspace.alone_eq_ok sourceFiles_workspace (by decide)

theorem isGlobalFile_eq_false :
    (∀ d ∈ [diff, deletion], workspace.settings.isGlobalFile d.path = false) ∧
      ∀ d ∈ [edit], workspace.settings.isGlobalFile d.path = false := by
  decide

theorem impacts_diff_and_deletion :
    (workspace.analyze [diff, deletion]).impacts = .ok [reached, removed] := by
  rw [Workspace.analyze_impacts isGlobalFile_eq_false.1, List.mapM_cons, alone_diff, List.mapM_cons,
    alone_deletion]
  exact Fallible.toOption_eq_some.1 (by decide)

theorem impacts_edit : (workspace.analyze [edit]).impacts = .ok [verdict] := by
  rw [Workspace.analyze_impacts isGlobalFile_eq_false.2, List.mapM_cons, Edited.alone_edit]
  exact Fallible.toOption_eq_some.1 (by decide)

/-- A test that is reached, one that is removed and one that is modified have their grounds, and the line
that was deleted beside the function is not among them. -/
theorem analyze_grounds_diff_and_deletion :
    (workspace.Grounds [diff, deletion] reached ∧ workspace.Grounds [diff, deletion] removed ∧
      workspace.Grounds [edit] verdict) ∧
    [diff, deletion].map workspace.relevant = [diff.withoutDeleted, deletion] ∧
    (workspace.analyze [diff.withoutDeleted, deletion]).impacts = .ok [reached, removed] := by
  have htidy : ∀ d ∈ [diff, deletion], Path.Tidy d.path := by
    intro d hd
    rcases List.mem_pair.1 hd with rfl | rfl
    · exact ⟨["a.js"], by decide, by decide, rfl⟩
    · exact ⟨["t", "y.test.js"], by decide, by decide, rfl⟩
  have htidyEdit : ∀ d ∈ [edit], Path.Tidy d.path := by
    intro d hd
    rcases List.mem_singleton.1 hd with rfl
    exact ⟨["t", "x.test.js"], by decide, by decide, rfl⟩
  have h := Workspace.analyze_grounds (w := workspace) (by rfl) named_workspace htidy
    isGlobalFile_eq_false.1 impacts_diff_and_deletion
  have hedit := Workspace.analyze_grounds (w := workspace) (by rfl) named_workspace htidyEdit
    isGlobalFile_eq_false.2 impacts_edit
  have hrelevant : [diff, deletion].map workspace.relevant = [diff.withoutDeleted, deletion] := by
    decide +kernel
  refine ⟨⟨h.1 _ (by simp), h.1 _ (by simp), hedit.1 _ (by simp)⟩, hrelevant, ?_⟩
  rw [← hrelevant, h.2]
  exact impacts_diff_and_deletion

end Grounded

end AffectedTests
