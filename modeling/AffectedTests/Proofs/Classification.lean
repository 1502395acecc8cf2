import AffectedTests.Proofs.Merging
import AffectedTests.Proofs.Spans
/-!
# Tests of a changed file, whatever the order

A test name may be declared several times, several hunks may touch one declaration, and one of them may
contain it while another one only meets it. There is one impact for the name in the end: the test is added
if a hunk contains one of its declarations, and modified if none is contained but some hunk meets one. So
the order of the hunks does not matter, and the order of the declarations shows in the order of the
impacts only.

- `FileDiff.Reports`: how a test of some name is affected.
- `FileDiff.mem_directImpacts_iff_reports`: these are the impacts, and no others.
- `FileDiff.map_testName_directImpacts`: the names in their order.
- `FileDiff.directImpacts_classification`: the impacts, their order, and what does not matter.
-/

namespace AffectedTests

/-! ## Known elements -/

section Known

variable {α β : Type} [BEq β]

theorem addNew_append (known xs ys : List β) : addNew known (xs ++ ys) = addNew (addNew known xs) ys :=
  List.foldl_append

theorem addNew_flatMap_congr {f g : α → List β} {xs : List α}
    (h : ∀ x ∈ xs, ∀ known, addNew known (f x) = addNew known (g x)) (known : List β) :
    addNew known (xs.flatMap f) = addNew known (xs.flatMap g) := by
  induction xs generalizing known with
  | nil => rfl
  | cons x xs ih =>
    rw [List.flatMap_cons, List.flatMap_cons, addNew_append, addNew_append, h x (by simp) known,
      ih fun x' hx' => h x' (by simp [hx'])]

variable [LawfulBEq β]

/-- What comes twice in a row counts once. -/
theorem addNew_twice (known : List β) (x : β) : addNew known [x, x] = addNew known [x] := by
  unfold addNew
  by_cases hx : known.contains x = true <;> simp_all

end Known

/-! ## One name -/

namespace FileDiff

variable {d : FileDiff} {tests : List TestDeclaration} {name : Text} {kind : ImpactKind} {i : Impact}

/-- A hunk of the diff contains a test of this name. -/
def ContainsTest (d : FileDiff) (tests : List TestDeclaration) (name : Text) : Prop :=
  ∃ t ∈ tests, t.name = name ∧ ∃ h ∈ d.hunks, h.Contains t.firstLine t.lastLine

/-- A hunk of the diff meets a test of this name. -/
def OverlapsTest (d : FileDiff) (tests : List TestDeclaration) (name : Text) : Prop :=
  ∃ t ∈ tests, t.name = name ∧ ∃ h ∈ d.hunks, h.Overlaps t.firstLine t.lastLine

/-- What is found about a name before the impacts are merged. -/
def Finds (d : FileDiff) (tests : List TestDeclaration) (name : Text) : ImpactKind → Prop
  | .added => d.ContainsTest tests name
  | .modified => d.OverlapsTest tests name
  | .removed => False
  | .indirect => False

/-- How the test of a name is affected by a diff of its own file. -/
def Reports (d : FileDiff) (tests : List TestDeclaration) (name : Text) : ImpactKind → Prop
  | .added => d.ContainsTest tests name
  | .modified => ¬ d.ContainsTest tests name ∧ d.OverlapsTest tests name
  | .removed => False
  | .indirect => False

/-- A test is affected in the highest way that is found. -/
theorem reports_iff_finds :
    d.Reports tests name kind ↔
      d.Finds tests name kind ∧ ∀ other, d.Finds tests name other → other.rank ≤ kind.rank := by
  cases kind with
  | added =>
    refine ⟨fun hcontains => ⟨hcontains, ?_⟩, And.left⟩
    intro other _
    cases other <;> decide
  | modified =>
    constructor
    · rintro ⟨hnot, hoverlaps⟩
      refine ⟨hoverlaps, ?_⟩
      intro other hother
      cases other with
      | added => exact absurd hother hnot
      | modified => exact Nat.le_refl _
      | removed => exact hother.elim
      | indirect => exact hother.elim
    · rintro ⟨hoverlaps, hhighest⟩
      exact ⟨fun hcontains => absurd (hhighest .added hcontains) (by decide), hoverlaps⟩
  | removed => exact ⟨False.elim, fun h => h.1.elim⟩
  | indirect => exact ⟨False.elim, fun h => h.1.elim⟩

/-- The impacts before they are merged. -/
theorem mem_flatMap_iff_finds :
    i ∈ tests.flatMap (TestDeclaration.directImpacts d) ↔
      i.file = d.path ∧ i.related = none ∧ d.Finds tests i.testName i.kind := by
  rw [List.mem_flatMap]
  simp only [TestDeclaration.mem_directImpacts_iff_hunks]
  constructor
  · rintro ⟨t, ht, ⟨hoverlaps, rfl⟩ | ⟨hcontains, rfl⟩⟩
    · exact ⟨rfl, rfl, t, ht, rfl, hoverlaps⟩
    · exact ⟨rfl, rfl, t, ht, rfl, hcontains⟩
  · rcases i with ⟨testName, file, kind, related⟩
    rintro ⟨rfl, rfl, hfinds⟩
    cases kind with
    | added =>
      rcases hfinds with ⟨t, ht, rfl, hcontains⟩
      exact ⟨t, ht, .inr ⟨hcontains, rfl⟩⟩
    | modified =>
      rcases hfinds with ⟨t, ht, rfl, hoverlaps⟩
      exact ⟨t, ht, .inl ⟨hoverlaps, rfl⟩⟩
    | removed => exact hfinds.elim
    | indirect => exact hfinds.elim

/-- The impacts of a diff on its own file say how the test of each name is affected, and nothing else. -/
theorem mem_directImpacts_iff_reports :
    i ∈ d.directImpacts tests ↔
      i.file = d.path ∧ i.related = none ∧ d.Reports tests i.testName i.kind := by
  rw [reports_iff_finds]
  constructor
  · intro h
    rcases mem_flatMap_iff_finds.1 (Impact.mem_of_mem_merge h) with ⟨hfile, hrelated, hfinds⟩
    refine ⟨hfile, hrelated, hfinds, fun other hother => ?_⟩
    exact Impact.le_of_mem_merge (j := ⟨i.testName, d.path, other, none⟩) h
      (mem_flatMap_iff_finds.2 ⟨rfl, rfl, hother⟩) (congrArg (·, i.testName) hfile.symm)
  · rintro ⟨hfile, hrelated, hfinds, hhighest⟩
    have hi := mem_flatMap_iff_finds.2 ⟨hfile, hrelated, hfinds⟩
    have hle : ∀ j ∈ tests.flatMap (TestDeclaration.directImpacts d), j.key = i.key →
        j.kind.rank ≤ i.kind.rank := by
      intro j hj hkey
      have hname : j.testName = i.testName := congrArg Prod.snd hkey
      exact hhighest j.kind (hname ▸ (mem_flatMap_iff_finds.1 hj).2.2)
    rcases Impact.exists_kind_mem_merge_iff.2 ⟨⟨i, hi, rfl, rfl⟩, hle⟩ with ⟨m, hm, hkind, hkey⟩
    -- The impact that is kept has the same key, the same kind and no file that it comes from.
    have hmrelated := (mem_flatMap_iff_finds.1 (Impact.mem_of_mem_merge hm)).2.1
    have heq : m = i := by
      rcases m with ⟨testName, file, kind, related⟩
      cases hkey
      cases hkind
      cases hmrelated.trans hrelated.symm
      rfl
    exact heq ▸ hm

/-! ## The order -/

/-- In another order the hunks and the tests leave each name affected in the same way. -/
theorem reports_of_perm {hunks' : List Hunk} {tests' : List TestDeclaration} (hhunks : hunks'.Perm d.hunks)
    (htests : tests'.Perm tests) :
    Reports { d with hunks := hunks' } tests' name kind ↔ d.Reports tests name kind := by
  have hcontains : ContainsTest { d with hunks := hunks' } tests' name ↔ d.ContainsTest tests name := by
    simp only [ContainsTest, hhunks.mem_iff, htests.mem_iff]
  have hoverlaps : OverlapsTest { d with hunks := hunks' } tests' name ↔ d.OverlapsTest tests name := by
    simp only [OverlapsTest, hhunks.mem_iff, htests.mem_iff]
  cases kind with
  | added => exact hcontains
  | modified => exact and_congr (not_congr hcontains) hoverlaps
  | removed => exact Iff.rfl
  | indirect => exact Iff.rfl

/-- A test that is touched is mentioned once or twice, which makes no difference, and any other one not at
all. -/
theorem addNew_keys_directImpacts (d : FileDiff) (t : TestDeclaration) (known : List (Text × Text)) :
    addNew known ((TestDeclaration.directImpacts d t).map Impact.key) =
      addNew known (if t.TouchedBy d then [(d.path, t.name)] else []) := by
  have htouched : t.TouchedBy d ↔
      (d.hunks.any fun h => h.Overlaps t.firstLine t.lastLine) = true ∨
        (d.hunks.any fun h => h.Contains t.firstLine t.lastLine) = true := by
    simp only [List.any_eq_true, decide_eq_true_eq, TestDeclaration.TouchedBy, ← exists_or, ← and_or_left]
  unfold TestDeclaration.directImpacts
  rw [List.map_append]
  by_cases hoverlaps : (d.hunks.any fun h => h.Overlaps t.firstLine t.lastLine) = true
  · rw [if_pos hoverlaps, if_pos (htouched.2 (.inl hoverlaps))]
    split
    · exact addNew_twice known (d.path, t.name)
    · rfl
  · rw [if_neg hoverlaps]
    by_cases hcontains : (d.hunks.any fun h => h.Contains t.firstLine t.lastLine) = true
    · rw [if_pos hcontains, if_pos (htouched.2 (.inr hcontains))]
      rfl
    · rw [if_neg hcontains, if_neg fun h => (htouched.1 h).elim hoverlaps hcontains]
      rfl

/-- The names of the tests that a diff touches, as often as they are declared. -/
def touchedNames (d : FileDiff) (tests : List TestDeclaration) : List Text :=
  (tests.filter fun t => t.TouchedBy d).map TestDeclaration.name

theorem keys_directImpacts (d : FileDiff) (tests : List TestDeclaration) :
    (d.directImpacts tests).map Impact.key = (distinct (d.touchedNames tests)).map (d.path, ·) := by
  have hfilter : (d.touchedNames tests).map (d.path, ·) =
      tests.flatMap fun t => if t.TouchedBy d then [(d.path, t.name)] else [] := by
    unfold touchedNames
    rw [List.map_map, ← List.filterMap_eq_map, List.filterMap_filter, List.filterMap_eq_flatMap_toList]
    refine congrArg (tests.flatMap ·) (funext fun t => ?_)
    by_cases h : t.TouchedBy d <;> simp [h]
  calc
    (d.directImpacts tests).map Impact.key
        = distinct ((tests.flatMap (TestDeclaration.directImpacts d)).map Impact.key) :=
      Impact.keys_merge _
    _ = addNew [] (tests.flatMap fun t => (TestDeclaration.directImpacts d t).map Impact.key) := by
      rw [List.map_flatMap]
      rfl
    _ = distinct ((d.touchedNames tests).map (d.path, ·)) := by
      rw [addNew_flatMap_congr fun t _ => addNew_keys_directImpacts d t, hfilter]
      rfl
    _ = (distinct (d.touchedNames tests)).map (d.path, ·) :=
      distinct_map_of_injective (fun _ _ h => (Prod.mk.inj h).2) _

/-- Each name that is touched is reported once, and the names stand in the order in which they are touched
first. -/
theorem map_testName_directImpacts (d : FileDiff) (tests : List TestDeclaration) :
    (d.directImpacts tests).map Impact.testName = distinct (d.touchedNames tests) := by
  have hkeys := congrArg (List.map Prod.snd) (keys_directImpacts d tests)
  rw [List.map_map, List.map_map] at hkeys
  exact hkeys.trans (List.map_id _)

/-- No name is reported twice. -/
theorem nodup_testName_directImpacts (d : FileDiff) (tests : List TestDeclaration) :
    ((d.directImpacts tests).map Impact.testName).Nodup := by
  rw [map_testName_directImpacts]
  exact nodup_distinct

/-- Other orders of the hunks and of the tests give the same impacts, perhaps in another order. -/
theorem directImpacts_perm {hunks' : List Hunk} {tests' : List TestDeclaration}
    (hhunks : hunks'.Perm d.hunks) (htests : tests'.Perm tests) :
    (directImpacts { d with hunks := hunks' } tests').Perm (d.directImpacts tests) := by
  refine (List.perm_ext_iff_of_nodup (nodup_testName_directImpacts _ _).of_map
    (nodup_testName_directImpacts _ _).of_map).2 fun i => ?_
  rw [mem_directImpacts_iff_reports, mem_directImpacts_iff_reports, reports_of_perm hhunks htests]

/-- The impacts of a diff on the tests of its own file:

- other orders of the hunks and of the tests give the same impacts, perhaps in another order;
- all impacts are on the file of the diff and come from no other file, and no name has two;
- a name is reported as added if a hunk contains a test of that name, as modified if none is contained but
  a hunk meets one, and in no other way;
- the names stand in the order in which they occur first among the tests that a hunk meets or contains. -/
theorem directImpacts_classification (d : FileDiff) (tests : List TestDeclaration) :
    (∀ hunks' tests', hunks'.Perm d.hunks → tests'.Perm tests →
      (directImpacts { d with hunks := hunks' } tests').Perm (d.directImpacts tests)) ∧
    (∀ i ∈ d.directImpacts tests, i.file = d.path ∧ i.related = none ∧
      (i.kind = .added ∨ i.kind = .modified)) ∧
    ((d.directImpacts tests).map Impact.testName).Nodup ∧
    (∀ name, (⟨name, d.path, .added, none⟩ ∈ d.directImpacts tests ↔ d.ContainsTest tests name) ∧
      (⟨name, d.path, .modified, none⟩ ∈ d.directImpacts tests ↔
        ¬ d.ContainsTest tests name ∧ d.OverlapsTest tests name)) ∧
    ((d.directImpacts tests).map Impact.testName).Pairwise fun a b =>
      (d.touchedNames tests).idxOf a < (d.touchedNames tests).idxOf b := by
  refine ⟨fun _ _ => directImpacts_perm, ?_, nodup_testName_directImpacts d tests, ?_, ?_⟩
  · intro i hi
    rcases mem_directImpacts_iff_reports.1 hi with ⟨hfile, hrelated, hreports⟩
    refine ⟨hfile, hrelated, ?_⟩
    cases hkind : i.kind with
    | added => exact .inl rfl
    | modified => exact .inr rfl
    | removed => exact (hkind ▸ hreports : d.Reports tests i.testName .removed).elim
    | indirect => exact (hkind ▸ hreports : d.Reports tests i.testName .indirect).elim
  · intro name
    constructor <;> rw [mem_directImpacts_iff_reports] <;> simp only [Reports, true_and]
  · rw [map_testName_directImpacts]
    exact pairwise_idxOf_distinct _

end FileDiff

/-! ## An example -/

namespace Overlapping

/-- Two hunks, one within the other. -/
def diff : FileDiff :=
  ⟨"a.test.js", .modified, [], [⟨0, 0, 4, 2⟩, ⟨0, 0, 2, 9⟩]⟩

/-- The test `x` is declared twice: one declaration is contained in a hunk, the other one is only met. -/
def tests : List TestDeclaration :=
  [⟨"y", 5, 20, "/p/a.test.js"⟩, ⟨"x", 1, 2, "/p/a.test.js"⟩, ⟨"x", 3, 6, "/p/a.test.js"⟩]

/-- Turned round, the hunks and the tests give the same impacts, in another order. -/
theorem directImpacts_classification_reverse :
    diff.hunks.reverse.Perm diff.hunks ∧ tests.reverse.Perm tests ∧
      diff.directImpacts tests =
        [⟨"y", "a.test.js", .modified, none⟩, ⟨"x", "a.test.js", .added, none⟩] ∧
      (FileDiff.directImpacts { diff with hunks := diff.hunks.reverse } tests.reverse).Perm
        [⟨"y", "a.test.js", .modified, none⟩, ⟨"x", "a.test.js", .added, none⟩] ∧
      diff.ContainsTest tests "x" ∧ ¬ diff.ContainsTest tests "y" := by
  have himpacts : diff.directImpacts tests =
      [⟨"y", "a.test.js", .modified, none⟩, ⟨"x", "a.test.js", .added, none⟩] := by
    decide
  rcases FileDiff.directImpacts_classification diff tests with ⟨hperm, -, -, hnames, -⟩
  refine ⟨List.reverse_perm _, List.reverse_perm _, himpacts,
    himpacts ▸ hperm _ _ (List.reverse_perm _) (List.reverse_perm _), ?_, ?_⟩
  · exact (hnames "x").1.1 (by rw [himpacts]; simp [diff])
  · exact ((hnames "y").2.1 (by rw [himpacts]; simp [diff])).1

end Overlapping

end AffectedTests
