import AffectedTests.Proofs.Parts
/-!
# One verdict for each test

Three parts of an analysis look for affected tests: in the lines of a changed test file, in deleted lines,
and along the uses of changed declarations. They find the same test more than once, in several files of
a change, in different ways, and under different paths: as the change writes it, or as the disk knows
it. The result has one impact for each test that is found at all, of the highest rank that any part gives
it.

- `Impact.test` is a test by the place of its file, whatever path leads there.
- `Workspace.Produces.rooted`: seen from the root, the paths of all parts are written in one way.
- `Workspace.analyze_verdicts`: the verdict on each test.
-/

namespace AffectedTests

/-! ## Tests by place -/

namespace Impact

variable {root : Text} {i j : Impact}

/-- The test that an impact is about: the place of its file, read from the root, and its name. -/
def test (root : Text) (i : Impact) : Text × Text :=
  (Path.place (Path.join root i.file), i.testName)

/-- The file of an impact is written as the way from the root to its place. -/
def Rooted (root : Text) (i : Impact) : Prop :=
  Path.relativeTo root (Path.place (Path.join root i.file)) = i.file

/-- With files written in this way, tests at one place are one test for a merge. -/
theorem Rooted.key_eq (h : i.Rooted root) :
    i.key = (Path.relativeTo root (i.test root).1, (i.test root).2) :=
  Prod.ext h.symm rfl

theorem Rooted.key_eq_of_test_eq (hi : i.Rooted root) (hj : j.Rooted root)
    (h : i.test root = j.test root) : i.key = j.key := by
  rw [hi.key_eq, hj.key_eq, h]

theorem test_eq_of_key_eq (h : i.key = j.key) : i.test root = j.test root := by
  have hfile : i.file = j.file := congrArg Prod.fst h
  have hname : i.testName = j.testName := congrArg Prod.snd h
  unfold test
  rw [hfile, hname]

/-- A path below the root, as a change writes it, is written in this way. -/
theorem relativeTo_of_tidy (h : Path.Tidy i.file) : i.relativeTo root = i := by
  unfold relativeTo
  rw [if_neg (by simp [h.isAbsolute])]

theorem rooted_of_tidy (hroot : Path.resolve root = .ok root) (h : Path.Tidy i.file) :
    i.Rooted root :=
  Path.relativeTo_place_join hroot h

/-- The path of a file on the disk is brought into this form, and still leads to the same place. -/
theorem rooted_of_resolve (hroot : Path.resolve root = .ok root)
    (h : Path.resolve i.file = .ok i.file) :
    (i.relativeTo root).Rooted root ∧ (i.relativeTo root).test root = i.test root := by
  have habsolute := Path.isAbsolute_of_resolve h
  have hthere : Path.place (Path.join root (Path.relativeTo root i.file)) = i.file :=
    Path.place_of_resolve (Path.resolve_join_relativeTo hroot h).1
  have hhere : Path.place (Path.join root i.file) = i.file := by
    unfold Path.join
    rw [if_pos habsolute]
    exact Path.place_of_resolve h
  rw [relativeTo_of_isAbsolute root i habsolute]
  unfold Rooted test
  dsimp only
  rw [hthere, hhere]
  exact ⟨rfl, rfl⟩

end Impact

/-! ## What the parts find, seen from the root -/

namespace Workspace

variable {w : Workspace} {d : FileDiff} {i : Impact}

/-- The file of a direct impact and of a removed test is the changed one; a traced test stands in a file
of the disk. -/
theorem Produces.file (h : w.Produces d i) :
    i.file = d.path ∨ Path.resolve i.file = .ok i.file := by
  rcases h with ⟨-, -, -, hdirect⟩ | ⟨-, hremoved⟩ | ⟨-, himpacts, hmem⟩
  · rcases FileDiff.of_mem_directImpacts hdirect with ⟨t, -, rfl | rfl⟩ <;> exact .inl rfl
  · rcases FileDiff.of_mem_removedImpacts hremoved with ⟨line, -, name, -, rfl⟩
    exact .inl rfl
  · rcases justified_of_trace himpacts hmem with ⟨limit, k, x, test, -, -, htouches, rfl⟩
    exact .inr (htouches.resolve_file Session.coherent_empty)

/-- Seen from the root, whatever a part finds is written in one way and is about the same test. -/
theorem Produces.rooted (hroot : Path.resolve w.root = .ok w.root) (htidy : Path.Tidy d.path)
    (h : w.Produces d i) :
    (i.relativeTo w.root).Rooted w.root ∧ (i.relativeTo w.root).test w.root = i.test w.root := by
  rcases h.file with hfile | hfile
  · have hi : Path.Tidy i.file := hfile ▸ htidy
    rw [Impact.relativeTo_of_tidy hi]
    exact ⟨Impact.rooted_of_tidy hroot hi, rfl⟩
  · exact Impact.rooted_of_resolve hroot hfile

/-! ## All files -/

variable {ds : List FileDiff} {is : List Impact}

/-- All that the parts of the analysis find for the files of a change, seen from the root. -/
def Collects (w : Workspace) (ds : List FileDiff) (found : List Impact) : Prop :=
  ∀ i, i ∈ found ↔ ∃ d ∈ ds, ∃ j, w.Produces d j ∧ j.relativeTo w.root = i

/-- The impacts of a change are those that the parts find for its files, merged. -/
theorem exists_merge_of_analyze (hnone : ∀ d ∈ ds, w.settings.isGlobalFile d.path = false)
    (his : (w.analyze ds).impacts = .ok is) :
    ∃ found, is = Impact.merge found ∧ w.Collects ds found := by
  rw [analyze_impacts hnone] at his
  rcases Fallible.map_eq_ok.1 his with ⟨found, hfound, rfl⟩
  refine ⟨_, rfl, ?_⟩
  intro i
  rw [List.mem_map]
  constructor
  · rintro ⟨j, hj, rfl⟩
    rcases List.mem_flatten.1 hj with ⟨js, hjs, hj⟩
    rcases Fallible.mem_of_mapM_eq_ok hfound hjs with ⟨d, hd, halone⟩
    exact ⟨d, hd, j, (mem_alone_iff halone j).1 hj, rfl⟩
  · rintro ⟨d, hd, j, hj, rfl⟩
    rcases Fallible.exists_of_mapM_eq_ok hfound hd with ⟨js, hjs, halone⟩
    exact ⟨j, List.mem_flatten.2 ⟨js, hjs, (mem_alone_iff halone j).2 hj⟩, rfl⟩

/-- A test is known by its place, before and after merging. -/
theorem nodup_test_merge {root : Text} {found : List Impact} (h : ∀ i ∈ found, i.Rooted root) :
    ((Impact.merge found).map (Impact.test root)).Nodup := by
  -- The key of a rooted impact can be computed from its test, so tests are as different as keys.
  have hkeys : ((Impact.merge found).map (Impact.test root)).map
      (fun test => (Path.relativeTo root test.1, test.2)) = (Impact.merge found).map Impact.key := by
    rw [List.map_map]
    refine List.map_congr_left fun i hi => ?_
    exact (h i (Impact.mem_of_mem_merge hi)).key_eq.symm
  have hnodup := Impact.nodup_keys_merge found
  rw [← hkeys] at hnodup
  exact hnodup.of_map _

namespace Collects

variable {found : List Impact} {j : Impact} (hroot : Path.resolve w.root = .ok w.root)
  (htidy : ∀ d ∈ ds, Path.Tidy d.path) (h : w.Collects ds found)

include hroot htidy h

theorem rooted : ∀ i ∈ found, i.Rooted w.root := by
  intro i hi
  rcases (h i).1 hi with ⟨d, hd, j, hj, rfl⟩
  exact (hj.rooted hroot (htidy d hd)).1

/-- What is found for one test has one key, and something with this key is kept. -/
theorem exists_mem_merge (hd : d ∈ ds) (hj : w.Produces d j) :
    ∃ i ∈ Impact.merge found, i.test w.root = j.test w.root := by
  have hmem : (j.relativeTo w.root).key ∈ (Impact.merge found).map Impact.key :=
    Impact.mem_keys_merge.2 (List.mem_map.2 ⟨_, (h _).2 ⟨d, hd, j, hj, rfl⟩, rfl⟩)
  rcases List.mem_map.1 hmem with ⟨i, hi, hkey⟩
  exact ⟨i, hi, (Impact.test_eq_of_key_eq hkey).trans (hj.rooted hroot (htidy d hd)).2⟩

/-- What is kept was found, for the same test and of the same kind. -/
theorem exists_produces (hi : i ∈ Impact.merge found) :
    ∃ d ∈ ds, ∃ j, w.Produces d j ∧ j.test w.root = i.test w.root ∧ j.kind = i.kind := by
  rcases (h i).1 (Impact.mem_of_mem_merge hi) with ⟨d, hd, j, hj, rfl⟩
  exact ⟨d, hd, j, hj, (hj.rooted hroot (htidy d hd)).2.symm, (j.kind_relativeTo w.root).symm⟩

/-- Nothing that is found for a test ranks higher than what is kept for it. -/
theorem rank_le (hi : i ∈ Impact.merge found) (hd : d ∈ ds) (hj : w.Produces d j)
    (htest : j.test w.root = i.test w.root) : j.kind.rank ≤ i.kind.rank := by
  rcases hj.rooted hroot (htidy d hd) with ⟨hjrooted, hjtest⟩
  have hirooted := h.rooted hroot htidy i (Impact.mem_of_mem_merge hi)
  have hkey : (j.relativeTo w.root).key = i.key :=
    hjrooted.key_eq_of_test_eq hirooted (hjtest.trans htest)
  have hle := Impact.le_of_mem_merge hi ((h _).2 ⟨d, hd, j, hj, rfl⟩) hkey
  rwa [Impact.kind_relativeTo] at hle

end Collects

/-- The verdict on each test. Of a change without a global file:

- each test has at most one impact;
- it has one exactly if some part of the analysis finds it for some file of the change;
- the impact is of a kind that some part gives to the test, and no part gives it one of a higher rank;
- so a test that is found modified, and new by no part, has one impact, which says that it is modified,
  whatever else is found about it. -/
theorem analyze_verdicts (hroot : Path.resolve w.root = .ok w.root)
    (htidy : ∀ d ∈ ds, Path.Tidy d.path)
    (hnone : ∀ d ∈ ds, w.settings.isGlobalFile d.path = false)
    (his : (w.analyze ds).impacts = .ok is) :
    (is.map (Impact.test w.root)).Nodup ∧
    (∀ test, test ∈ is.map (Impact.test w.root) ↔
      ∃ d ∈ ds, ∃ j, w.Produces d j ∧ j.test w.root = test) ∧
    (∀ i ∈ is,
      (∃ d ∈ ds, ∃ j, w.Produces d j ∧ j.test w.root = i.test w.root ∧ j.kind = i.kind) ∧
      ∀ d ∈ ds, ∀ j, w.Produces d j → j.test w.root = i.test w.root →
        j.kind.rank ≤ i.kind.rank) ∧
    ∀ d ∈ ds, ∀ j, w.Produces d j → j.kind = .modified →
      (∀ d' ∈ ds, ∀ j', w.Produces d' j' → j'.test w.root = j.test w.root → j'.kind ≠ .added) →
      ∃ i ∈ is, i.test w.root = j.test w.root ∧ i.kind = .modified ∧
        ∀ i' ∈ is, i'.test w.root = j.test w.root → i' = i := by
  rcases exists_merge_of_analyze hnone his with ⟨found, rfl, hfound⟩
  have hnodup := nodup_test_merge (hfound.rooted hroot htidy)
  have horigin := fun i (hi : i ∈ Impact.merge found) => hfound.exists_produces hroot htidy hi
  have hhighest := fun i (hi : i ∈ Impact.merge found) d (hd : d ∈ ds) j (hj : w.Produces d j) =>
    hfound.rank_le hroot htidy hi hd hj
  refine ⟨hnodup, ?_, fun i hi => ⟨horigin i hi, hhighest i hi⟩, ?_⟩
  · intro test
    constructor
    · intro hmem
      rcases List.mem_map.1 hmem with ⟨i, hi, rfl⟩
      rcases horigin i hi with ⟨d, hd, j, hj, htest, -⟩
      exact ⟨d, hd, j, hj, htest⟩
    · rintro ⟨d, hd, j, hj, rfl⟩
      rcases hfound.exists_mem_merge hroot htidy hd hj with ⟨i, hi, htest⟩
      exact List.mem_map.2 ⟨i, hi, htest⟩
  · intro d hd j hj hmodified hnew
    rcases hfound.exists_mem_merge hroot htidy hd hj with ⟨i, hi, htest⟩
    refine ⟨i, hi, htest, ?_, ?_⟩
    · -- The impact ranks as high as the modification, and only a new test ranks higher.
      have hle := hhighest i hi d hd j hj htest.symm
      rcases horigin i hi with ⟨d', hd', j', hj', htest', hkind'⟩
      have hne : i.kind ≠ .added := hkind' ▸ hnew d' hd' j' hj' (htest'.trans htest)
      rw [hmodified] at hle
      cases hkind : i.kind with
      | added => exact absurd hkind hne
      | modified => rfl
      | removed => simp [hkind, ImpactKind.rank] at hle
      | indirect => simp [hkind, ImpactKind.rank] at hle
    · intro i' hi' htest'
      exact List.inj_on_of_nodup_map hnodup hi' hi (htest'.trans htest.symm)

end Workspace

/-! ## An example -/

namespace Edited

open Linked (statement moduleTree diff)
open Sample (leaf block)

def testSource : Bytes :=
  (Utf8.encode "import { f } from '../a';\ntest(\"x\",\n f\n);\n").getD []

/-- A test `x` of three lines that uses the function `f`. -/
def call : Tree :=
  block .callExpression none 26 40 1 3 [
    leaf .identifier (some .function) 26 30 1 [116, 101, 115, 116],
    block .arguments (some .arguments) 30 40 1 3 [
      leaf .string none 31 34 1 [34, 120, 34],
      leaf .identifier none 37 38 2 [102]]]

/-- The tree of a file that imports the function and has the test. -/
def testTree : Tree :=
  .node ⟨.program, true, none, 0, 42, 0, 4, []⟩
    [statement, block (.other "expression_statement") none 26 41 1 3 [call]]

/-- The project of the linked files, with the longer test. -/
def workspace : Workspace where
  root := "/p"
  settings := {}
  grammars _ source := if source = testSource then testTree else moduleTree
  disk := Linked.disk testSource

/-- The first line of the test is written anew. -/
def edit : FileDiff :=
  ⟨"t/x.test.js", .modified, [⟨2, "test('x',", true⟩, ⟨2, "test(\"x\",", false⟩], [⟨2, 1, 2, 1⟩]⟩

theorem sourceFiles_workspace :
    workspace.sourceFiles = .ok [("/p/a.js" : Text), ("/p/t/x.test.js" : Text)] := by
  rw [Workspace.sourceFiles_eq (by decide) rfl]
  simp only [Entry.filesBelow, Entry.subdirectories]
  exact Fallible.toOption_eq_some.1 (by decide +kernel)

/-- The test is reached through the function. -/
theorem alone_diff : workspace.alone diff = .ok [⟨"x", "/p/t/x.test.js", .indirect, some "a.js"⟩] :=
  Workspace.alone_eq_ok sourceFiles_workspace (by decide +kernel)

/-- It is modified, and its old declaration was deleted. -/
theorem alone_edit : workspace.alone edit =
    .ok [⟨"x", "t/x.test.js", .modified, none⟩, ⟨"x", "t/x.test.js", .removed, none⟩] :=
  Workspace.alone_eq_ok sourceFiles_workspace (by decide)

/-- The verdict on the test. -/
def verdict : Impact :=
  ⟨"x", "t/x.test.js", .modified, none⟩

theorem impacts_diff_and_edit : (workspace.analyze [diff, edit]).impacts = .ok [verdict] := by
  have hnone : ∀ d ∈ [diff, edit], workspace.settings.isGlobalFile d.path = false := by
    decide
  rw [Workspace.analyze_impacts hnone, List.mapM_cons, alone_diff, List.mapM_cons, alone_edit]
  exact Fallible.toOption_eq_some.1 (by decide)

/-- The test is found in three ways, and there is one verdict: it is modified. -/
theorem analyze_verdicts_diff_and_edit :
    (∀ kind ∈ [ImpactKind.modified, .removed, .indirect], ∃ d ∈ [diff, edit], ∃ j,
      workspace.Produces d j ∧ j.test workspace.root = verdict.test workspace.root ∧
        j.kind = kind) ∧
    ([verdict].map (Impact.test workspace.root)).Nodup ∧
    ∃ i ∈ [verdict], i.test workspace.root = verdict.test workspace.root ∧ i.kind = .modified ∧
      ∀ i' ∈ [verdict], i'.test workspace.root = verdict.test workspace.root → i' = i := by
  have htidy : ∀ d ∈ [diff, edit], Path.Tidy d.path := by
    intro d hd
    rcases List.mem_pair.1 hd with rfl | rfl
    · exact ⟨["a.js"], by decide, by decide, rfl⟩
    · exact ⟨["t", "x.test.js"], by decide, by decide, rfl⟩
  have hnone : ∀ d ∈ [diff, edit], workspace.settings.isGlobalFile d.path = false := by
    decide +kernel
  have hdiff := Workspace.mem_alone_iff alone_diff
  have hedit := Workspace.mem_alone_iff alone_edit
  have h := Workspace.analyze_verdicts (w := workspace) (by rfl) htidy hnone impacts_diff_and_edit
  refine ⟨?_, h.1, ?_⟩
  · intro kind hkind
    simp only [List.mem_cons, List.not_mem_nil, or_false] at hkind
    rcases hkind with rfl | rfl | rfl
    · exact ⟨edit, by simp, verdict, (hedit _).1 (by decide), rfl, rfl⟩
    · exact ⟨edit, by simp, ⟨"x", "t/x.test.js", .removed, none⟩, (hedit _).1 (by decide), rfl, rfl⟩
    · exact ⟨diff, by simp, ⟨"x", "/p/t/x.test.js", .indirect, some "a.js"⟩,
        (hdiff _).1 (by decide), by decide +kernel, rfl⟩
  · refine h.2.2.2 edit (by simp) verdict ((hedit _).1 (by decide)) rfl ?_
    -- Neither file finds a new test.
    intro d hd j hj _
    rcases List.mem_pair.1 hd with rfl | rfl
    · rw [List.mem_singleton.1 ((hdiff j).2 hj)]
      decide
    · rcases List.mem_pair.1 ((hedit j).2 hj) with rfl | rfl <;> decide

end Edited

end AffectedTests
