import AffectedTests.Proofs.Spans
import AffectedTests.Proofs.Verdicts
/-!
# Tests that are reported as removed

The old file is gone, so a removed test is known by the text of a deleted line alone, and nothing asks
whether a test of that name is still there. Only another report for the same name takes its place: a hunk
touches such a test, or a changed declaration reaches it. So a test that is reported as removed may still
be there, but then no hunk of the change touches it.

- `Workspace.Collects.exists_removed_iff`, `Workspace.Collects.exists_higher_iff`: what has been found
  under the name of a test.
- `Workspace.removed_mem_analyze_iff`: which tests are reported as removed.
-/

namespace AffectedTests

/-! ## Deleted lines -/

theorem FileDiff.mem_removedImpacts_iff {d : FileDiff} {keywords : List Text} {i : Impact} :
    i ∈ d.removedImpacts keywords ↔ ∃ line ∈ d.deletedLines,
      ∃ name ∈ declaredNames keywords line.content, i = ⟨name, d.path, .removed, none⟩ := by
  refine ⟨FileDiff.of_mem_removedImpacts, ?_⟩
  rintro ⟨line, hline, name, hname, rfl⟩
  exact List.mem_map.2 ⟨name, mem_distinct.2 (List.mem_flatMap.2 ⟨line, hline, hname⟩), rfl⟩

/-! ## What happens to the tests of one name -/

namespace Workspace

/-- How the path of a changed file is shown: an absolute path from the root. -/
def shownPath (w : Workspace) (path : Text) : Text :=
  if Path.isAbsolute path then Path.relativeTo w.root path else path

/-- A deleted line of a deleted file or of a test file declares a test of this name. -/
def DeletesTest (w : Workspace) (ds : List FileDiff) (file name : Text) : Prop :=
  ∃ d ∈ ds, (d.kind = .deleted ∨ w.settings.isTestFile d.path = true) ∧ w.shownPath d.path = file ∧
    ∃ line ∈ d.deletedLines, name ∈ declaredNames w.settings.testKeywords line.content

/-- The tests of a changed test file that is still there. -/
def KeepsTests (w : Workspace) (d : FileDiff) (tests : List TestDeclaration) : Prop :=
  d.kind ≠ .deleted ∧ w.settings.isTestFile d.path = true ∧
    (Query.tests (Path.join w.root d.path)).answer w {} = .ok tests

/-- A test of this name is still there, and a hunk touches it. -/
def TouchesTest (w : Workspace) (ds : List FileDiff) (file name : Text) : Prop :=
  ∃ d ∈ ds, w.shownPath d.path = file ∧ ∃ tests, w.KeepsTests d tests ∧
    ∃ t ∈ tests, t.name = name ∧ t.TouchedBy d

/-- A declaration that was changed in another file reaches a test of this name. -/
def ReachesTest (w : Workspace) (ds : List FileDiff) (file name : Text) : Prop :=
  ∃ d ∈ ds, w.Traced d ∧ ∃ impacts,
    (({} : Tracer).trace d (Path.join w.root d.path) w {}).1 = .ok impacts ∧
      ∃ i ∈ impacts, w.shownPath i.file = file ∧ i.testName = name

variable {w : Workspace} {ds : List FileDiff} {d : FileDiff} {found is : List Impact} {file name : Text}

theorem key_relativeTo (w : Workspace) (i : Impact) :
    (i.relativeTo w.root).key = (w.shownPath i.file, i.testName) := by
  unfold Impact.relativeTo shownPath Impact.key
  split <;> rfl

/-- What is found as removed has been declared by a deleted line. -/
theorem Produces.of_removed {i : Impact} (h : w.Produces d i) (hkind : i.kind = .removed) :
    (d.kind = .deleted ∨ w.settings.isTestFile d.path = true) ∧ ∃ line ∈ d.deletedLines,
      ∃ name ∈ declaredNames w.settings.testKeywords line.content, i = ⟨name, d.path, .removed, none⟩ := by
  rcases h with ⟨-, -, -, hdirect⟩ | ⟨hrole, hremoved⟩ | ⟨-, himpacts, hmem⟩
  · rcases FileDiff.of_mem_directImpacts hdirect with ⟨t, -, rfl | rfl⟩ <;> cases hkind
  · exact ⟨hrole, FileDiff.of_mem_removedImpacts hremoved⟩
  · rcases justified_of_trace himpacts hmem with ⟨limit, k, x, test, -, -, -, rfl⟩
    cases hkind

namespace Collects

variable (hfound : w.Collects ds found)

include hfound

theorem exists_removed_iff :
    (∃ i ∈ found, i.kind = .removed ∧ i.key = (file, name)) ↔ w.DeletesTest ds file name := by
  constructor
  · rintro ⟨i, hi, hkind, hkey⟩
    rcases (hfound i).1 hi with ⟨d, hd, j, hj, rfl⟩
    rw [Impact.kind_relativeTo] at hkind
    rw [key_relativeTo] at hkey
    rcases hj.of_removed hkind with ⟨hrole, line, hline, name', hname, rfl⟩
    cases hkey
    exact ⟨d, hd, hrole, rfl, line, hline, hname⟩
  · rintro ⟨d, hd, hrole, rfl, line, hline, hname⟩
    have hproduced : w.Produces d ⟨name, d.path, .removed, none⟩ :=
      .removed hrole (FileDiff.mem_removedImpacts_iff.2 ⟨line, hline, name, hname, rfl⟩)
    exact ⟨_, (hfound _).2 ⟨d, hd, _, hproduced, rfl⟩, Impact.kind_relativeTo _ _, key_relativeTo w _⟩

/-- What else is found under the name of a test is about one that is touched or reached. -/
theorem exists_higher_iff :
    (∃ i ∈ found, i.kind ≠ .removed ∧ i.key = (file, name)) ↔
      w.TouchesTest ds file name ∨ w.ReachesTest ds file name := by
  constructor
  · rintro ⟨i, hi, hkind, hkey⟩
    rcases (hfound i).1 hi with ⟨d, hd, j, hj, rfl⟩
    rw [Impact.kind_relativeTo] at hkind
    rw [key_relativeTo] at hkey
    rcases hj with ⟨hthere, htest, htests, hdirect⟩ | ⟨-, hremoved⟩ | ⟨htraced, himpacts, hmem⟩
    · rcases FileDiff.exists_mem_directImpacts_iff_touchedBy.1 ⟨j, hdirect, rfl⟩ with
        ⟨t, ht, htouched, hsame⟩
      cases hkey
      rcases Prod.mk.inj hsame with ⟨hfile, hname⟩
      exact .inl ⟨d, hd, by rw [hfile], _, ⟨hthere, htest, htests⟩, t, ht, hname, htouched⟩
    · rcases FileDiff.of_mem_removedImpacts hremoved with ⟨line, -, name', -, rfl⟩
      exact absurd rfl hkind
    · cases hkey
      exact .inr ⟨d, hd, htraced, _, himpacts, j, hmem, rfl, rfl⟩
  · rintro (⟨d, hd, rfl, tests, ⟨hthere, htest, htests⟩, t, ht, rfl, htouched⟩ |
      ⟨d, hd, htraced, impacts, himpacts, j, hmem, rfl, rfl⟩)
    · rcases FileDiff.exists_mem_directImpacts_iff_touchedBy.2 ⟨t, ht, htouched, rfl⟩ with ⟨j, hj, hkey⟩
      refine ⟨_, (hfound _).2 ⟨d, hd, j, .direct hthere htest htests hj, rfl⟩, ?_, ?_⟩
      · rw [Impact.kind_relativeTo]
        rcases FileDiff.of_mem_directImpacts hj with ⟨t', -, rfl | rfl⟩ <;> exact fun h => nomatch h
      · rcases Prod.mk.inj hkey with ⟨hfile, hname⟩
        rw [key_relativeTo, hfile, hname]
    · refine ⟨_, (hfound _).2 ⟨d, hd, j, .traced htraced himpacts hmem, rfl⟩, ?_, key_relativeTo w j⟩
      rw [Impact.kind_relativeTo]
      rcases justified_of_trace himpacts hmem with ⟨limit, k, x, test, -, -, -, rfl⟩
      exact fun h => nomatch h

/-- A test is reported as removed if it has been found as removed and nothing else has been found under
its name. -/
theorem removed_mem_merge_iff :
    (⟨name, file, .removed, none⟩ : Impact) ∈ Impact.merge found ↔
      w.DeletesTest ds file name ∧ ¬ w.TouchesTest ds file name ∧ ¬ w.ReachesTest ds file name := by
  have hrecord : (⟨name, file, .removed, none⟩ : Impact) ∈ Impact.merge found ↔
      ∃ i ∈ Impact.merge found, i.kind = .removed ∧ i.key = (file, name) := by
    refine ⟨fun h => ⟨_, h, rfl, rfl⟩, ?_⟩
    rintro ⟨i, hi, hkind, hkey⟩
    -- An impact that names no other file is known by its kind and its key.
    have hrelated : i.related = none := by
      rcases (hfound i).1 (Impact.mem_of_mem_merge hi) with ⟨d, -, j, hj, rfl⟩
      rw [Impact.kind_relativeTo] at hkind
      rcases hj.of_removed hkind with ⟨-, line, -, name', -, rfl⟩
      exact Impact.related_relativeTo _ _
    rcases i with ⟨name', file', kind, related⟩
    cases hkind
    cases hkey
    cases hrelated
    exact hi
  have hhighest : (∀ j ∈ found, j.key = (file, name) → j.kind.rank ≤ ImpactKind.removed.rank) ↔
      ¬ ∃ i ∈ found, i.kind ≠ .removed ∧ i.key = (file, name) := by
    constructor
    · rintro hall ⟨j, hj, hkind, hkey⟩
      exact hkind (ImpactKind.rank_inj (Nat.le_antisymm (hall j hj hkey) (Nat.zero_le _)))
    · intro hnot j hj hkey
      by_contra hlt
      refine hnot ⟨j, hj, fun hkind => hlt ?_, hkey⟩
      rw [hkind]
  rw [hrecord, Impact.exists_kind_mem_merge_iff, exists_removed_iff hfound, hhighest,
    exists_higher_iff hfound, not_or]

end Collects

/-- The tests of a changed test file that is still there were read. -/
theorem exists_keepsTests (hnone : ∀ d ∈ ds, w.settings.isGlobalFile d.path = false)
    (his : (w.analyze ds).impacts = .ok is) (hd : d ∈ ds) (hthere : d.kind ≠ .deleted)
    (htest : w.settings.isTestFile d.path = true) : ∃ tests, w.KeepsTests d tests := by
  rw [analyze_impacts hnone] at his
  rcases Fallible.map_eq_ok.1 his with ⟨found, hfound, -⟩
  rcases Fallible.exists_of_mapM_eq_ok hfound hd with ⟨js, -, halone⟩
  unfold alone at halone
  rcases run_impactsOf_cases w d with ⟨htraced, -⟩ | ⟨-, -, -, hrun⟩ | ⟨-, hother, -⟩
  · exact absurd htest (by simp [htraced.2.1])
  · rw [hrun] at halone
    rcases Fallible.map_eq_ok.1 halone with ⟨tests, htests, -⟩
    exact ⟨tests, hthere, htest, htests⟩
  · exact absurd ⟨hthere, htest⟩ hother

/-- The tests that are reported as removed when no global file changed. A test is reported as removed
exactly if a deleted line declares it, no hunk touches a test of its name that is still there, and no
changed declaration reaches one. So if it is reported for a test file that is still there, then of the
tests of this file none is both of that name and touched by a hunk. -/
theorem removed_mem_analyze_iff (hnone : ∀ d ∈ ds, w.settings.isGlobalFile d.path = false)
    (his : (w.analyze ds).impacts = .ok is) :
    (∀ i ∈ is, i.kind = .removed → ∀ d ∈ ds, d.kind ≠ .deleted → w.settings.isTestFile d.path = true →
      w.shownPath d.path = i.file → ∃ tests, w.KeepsTests d tests ∧
        ∀ t ∈ tests, t.name = i.testName → ¬ t.TouchedBy d) ∧
    ∀ file name, (⟨name, file, .removed, none⟩ : Impact) ∈ is ↔
      w.DeletesTest ds file name ∧ ¬ w.TouchesTest ds file name ∧ ¬ w.ReachesTest ds file name := by
  rcases exists_merge_of_analyze hnone his with ⟨found, rfl, hfound⟩
  refine ⟨?_, fun file name => hfound.removed_mem_merge_iff⟩
  rintro i hi hkind d hd hthere htest hfile
  rcases exists_keepsTests hnone his hd hthere htest with ⟨tests, htests⟩
  refine ⟨tests, htests, fun t ht hname htouched => ?_⟩
  have hkept : ∃ i' ∈ Impact.merge found, i'.kind = .removed ∧ i'.key = i.key := ⟨i, hi, hkind, rfl⟩
  have hhighest := (Impact.exists_kind_mem_merge_iff.1 hkept).2
  rcases hfound.exists_higher_iff.2 (.inl ⟨d, hd, hfile, tests, htests, t, ht, hname, htouched⟩) with
    ⟨j, hj, hother, hkey⟩
  exact hother (ImpactKind.rank_inj (Nat.le_antisymm (hhighest j hj hkey) (Nat.zero_le _)))

end Workspace

/-! ## A test and its namesake -/

namespace Namesake

open Linked (workspace sourceFiles_workspace)

/-- The first line of the test file, a test of this name, is deleted. The test `x` follows behind an
import. -/
def drop (name : Text) : FileDiff :=
  ⟨"t/x.test.js", .modified, [⟨1, ("test(\"" : Text) ++ name ++ ("\", g);" : Text), true⟩], [⟨1, 1, 0, 0⟩]⟩

def kept : TestDeclaration :=
  ⟨"x", 2, 2, "/p/t/x.test.js"⟩

def removed (name : Text) : Impact :=
  ⟨name, "t/x.test.js", .removed, none⟩

theorem isGlobalFile_drop (name : Text) :
    ∀ d ∈ [drop name], workspace.settings.isGlobalFile d.path = false := by
  intro d hd
  rcases List.mem_singleton.1 hd with rfl
  exact (by decide : workspace.settings.isGlobalFile "t/x.test.js" = false)

theorem keepsTests_drop (name : Text) : workspace.KeepsTests (drop name) [kept] := by
  have htest : workspace.settings.isTestFile "t/x.test.js" = true := by decide
  have htests : (Query.tests (Path.join workspace.root "t/x.test.js")).answer workspace {} = .ok [kept] :=
    Fallible.toOption_eq_some.1 (by decide)
  exact ⟨fun h => (nomatch h), htest, htests⟩

theorem impacts_drop {name : Text} (hname : name = "x" ∨ name = "z") :
    (workspace.analyze [drop name]).impacts = .ok [removed name] := by
  have halone : workspace.alone (drop name) = .ok [removed name] := by
    refine Workspace.alone_eq_ok sourceFiles_workspace ?_
    rcases hname with rfl | rfl <;> decide
  rw [Workspace.analyze_impacts (isGlobalFile_drop name), List.mapM_cons, halone]
  rfl

/-- A deleted test `z` is reported as removed; the test that is still there has another name. -/
theorem removed_mem_analyze_iff_z :
    (workspace.analyze [drop "z"]).impacts = .ok [removed "z"] ∧
    workspace.DeletesTest [drop "z"] "t/x.test.js" "z" ∧
    ¬ workspace.TouchesTest [drop "z"] "t/x.test.js" "z" ∧
    ¬ workspace.ReachesTest [drop "z"] "t/x.test.js" "z" :=
  ⟨impacts_drop (.inr rfl),
    ((Workspace.removed_mem_analyze_iff (isGlobalFile_drop "z") (impacts_drop (.inr rfl))).2 _ _).1
      (List.mem_singleton_self _)⟩

/-- A deleted test `x` is reported as removed, and a test `x` that no hunk touches is still there. -/
theorem not_removed_gone :
    (workspace.analyze [drop "x"]).impacts = .ok [removed "x"] ∧ workspace.KeepsTests (drop "x") [kept] ∧
    ¬ ∀ (w : Workspace) (ds : List FileDiff) (is : List Impact),
      (∀ d ∈ ds, w.settings.isGlobalFile d.path = false) → (w.analyze ds).impacts = .ok is →
        ∀ i ∈ is, i.kind = .removed → ∀ d ∈ ds, w.shownPath d.path = i.file →
          ∀ tests, w.KeepsTests d tests → ∀ t ∈ tests, t.name ≠ i.testName := by
  refine ⟨impacts_drop (.inl rfl), keepsTests_drop "x", fun hall => ?_⟩
  have hshown : workspace.shownPath (drop "x").path = (removed "x").file := rfl
  exact hall workspace [drop "x"] _ (isGlobalFile_drop "x") (impacts_drop (.inl rfl)) (removed "x")
    (List.mem_singleton_self _) rfl (drop "x") (List.mem_singleton_self _) hshown [kept]
    (keepsTests_drop "x") kept (List.mem_singleton_self _) rfl

end Namesake

end AffectedTests
