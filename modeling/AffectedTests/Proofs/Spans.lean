import AffectedTests.Impact.Direct
import AffectedTests.Proofs.Impacts
/-!
# Tests and the spans of hunks

Whether a change touches a test is asked twice of every hunk, with two ends. The span of a hunk ends at
its last line; what the hunk contains ends one line later. A test that a span meets is reported, as added
if a hunk contains it. So is a test on the one line behind a hunk, which no span meets.

- `Hunk.overlaps_iff_exists`, `Hunk.contains_iff_forall`: the two questions, line by line.
- `Hunk.overlaps_or_contains_iff`: where they disagree.
- `FileDiff.directImpacts_verdicts`: which tests are reported, and how.
-/

namespace AffectedTests

/-! ## Lines -/

/-- A line of a test. -/
def TestDeclaration.Covers (t : TestDeclaration) (n : Int) : Prop :=
  t.firstLine ≤ n ∧ n ≤ t.lastLine

namespace Hunk

variable {h : Hunk} {n first last : Int}

/-- A line of the span of a hunk. -/
def Spans (h : Hunk) (n : Int) : Prop :=
  h.newStart ≤ n ∧ n ≤ h.newEnd

/-- A line that a hunk adds. -/
def Adds (h : Hunk) (n : Int) : Prop :=
  h.newStart ≤ n ∧ n < h.newStart + h.newCount

/-- The line behind the lines of a hunk; for a hunk that adds nothing the point where it begins. -/
def next (h : Hunk) : Int :=
  h.newStart + h.newCount

theorem newStart_le_newEnd (h : Hunk) : h.newStart ≤ h.newEnd := by
  unfold newEnd
  omega

/-- A range of lines meets a hunk in a line of its span. -/
theorem overlaps_iff_exists (hle : first ≤ last) :
    h.Overlaps first last ↔ ∃ n, (first ≤ n ∧ n ≤ last) ∧ h.Spans n := by
  have hspan := h.newStart_le_newEnd
  constructor
  · rintro ⟨hstart, hend⟩
    -- The later one of the two beginnings is common to both.
    refine ⟨max first h.newStart, ⟨?_, ?_⟩, ?_, ?_⟩ <;> omega
  · rintro ⟨n, ⟨hfirst, hlast⟩, hstart, hend⟩
    exact ⟨by omega, by omega⟩

/-- A hunk contains the ranges whose lines it adds, the line behind it included. -/
theorem contains_iff_forall (hle : first ≤ last) :
    h.Contains first last ↔ ∀ n, first ≤ n → n ≤ last → h.newStart ≤ n ∧ (h.Adds n ∨ n = h.next) := by
  unfold Adds next
  constructor
  · rintro ⟨hstart, hend⟩ n hfirst hlast
    omega
  · intro hall
    have hfirst := hall first (Int.le_refl _) hle
    have hlast := hall last hle (Int.le_refl _)
    exact ⟨hfirst.1, by omega⟩

/-- What a hunk contains without meeting it is the one line behind the lines that it adds. -/
theorem overlaps_or_contains_iff (hle : first ≤ last) :
    h.Overlaps first last ∨ h.Contains first last ↔
      h.Overlaps first last ∨ (0 < h.newCount ∧ first = h.next ∧ last = h.next) := by
  unfold Overlaps Contains next newEnd
  omega

end Hunk

/-! ## One test -/

namespace TestDeclaration

variable {d : FileDiff} {t : TestDeclaration} {i : Impact}

/-- The span of a hunk of the diff meets the test. -/
def MetBy (d : FileDiff) (t : TestDeclaration) : Prop :=
  ∃ h ∈ d.hunks, ∃ n, t.Covers n ∧ h.Spans n

/-- The test is on the one line behind the lines that a hunk of the diff adds. -/
def NextTo (d : FileDiff) (t : TestDeclaration) : Prop :=
  ∃ h ∈ d.hunks, 0 < h.newCount ∧ t.firstLine = h.next ∧ t.lastLine = h.next

/-- A hunk of the diff adds all lines of the test, but perhaps one that is the line behind the hunk. -/
def AddedBy (d : FileDiff) (t : TestDeclaration) : Prop :=
  ∃ h ∈ d.hunks, ∀ n, t.Covers n → h.newStart ≤ n ∧ (h.Adds n ∨ n = h.next)

/-- A hunk of the diff meets or contains the test. -/
def TouchedBy (d : FileDiff) (t : TestDeclaration) : Prop :=
  ∃ h ∈ d.hunks, h.Overlaps t.firstLine t.lastLine ∨ h.Contains t.firstLine t.lastLine

instance (d : FileDiff) (t : TestDeclaration) : Decidable (t.TouchedBy d) :=
  inferInstanceAs (Decidable (∃ h ∈ d.hunks, _))

theorem metBy_iff (hle : t.firstLine ≤ t.lastLine) :
    t.MetBy d ↔ ∃ h ∈ d.hunks, h.Overlaps t.firstLine t.lastLine := by
  simp only [MetBy, Covers, Hunk.overlaps_iff_exists hle]

theorem addedBy_iff (hle : t.firstLine ≤ t.lastLine) :
    t.AddedBy d ↔ ∃ h ∈ d.hunks, h.Contains t.firstLine t.lastLine := by
  simp only [AddedBy, Covers, Hunk.contains_iff_forall hle, and_imp]

theorem metBy_or_addedBy_iff (hle : t.firstLine ≤ t.lastLine) :
    t.MetBy d ∨ t.AddedBy d ↔ t.MetBy d ∨ t.NextTo d := by
  rw [addedBy_iff hle, metBy_iff hle]
  unfold NextTo
  simp only [← exists_or, ← and_or_left, Hunk.overlaps_or_contains_iff hle]

/-- The two questions that are asked of each hunk, and what is reported for each. -/
theorem mem_directImpacts_iff_hunks :
    i ∈ directImpacts d t ↔
      ((∃ h ∈ d.hunks, h.Overlaps t.firstLine t.lastLine) ∧ i = ⟨t.name, d.path, .modified, none⟩) ∨
      ((∃ h ∈ d.hunks, h.Contains t.firstLine t.lastLine) ∧ i = ⟨t.name, d.path, .added, none⟩) := by
  unfold directImpacts
  simp only [List.mem_append, List.mem_ite_nil_right, List.any_eq_true, decide_eq_true_eq,
    List.mem_singleton]

/-- A test that is touched has an impact. -/
theorem exists_mem_directImpacts_iff {key : Text × Text} :
    (∃ i ∈ directImpacts d t, i.key = key) ↔ t.TouchedBy d ∧ (d.path, t.name) = key := by
  simp only [mem_directImpacts_iff_hunks, TouchedBy]
  constructor
  · rintro ⟨i, ⟨⟨h, hh, hoverlaps⟩, rfl⟩ | ⟨⟨h, hh, hcontains⟩, rfl⟩, hkey⟩
    · exact ⟨⟨h, hh, .inl hoverlaps⟩, hkey⟩
    · exact ⟨⟨h, hh, .inr hcontains⟩, hkey⟩
  · rintro ⟨⟨h, hh, hoverlaps | hcontains⟩, hkey⟩
    · exact ⟨_, .inl ⟨⟨h, hh, hoverlaps⟩, rfl⟩, hkey⟩
    · exact ⟨_, .inr ⟨⟨h, hh, hcontains⟩, rfl⟩, hkey⟩

theorem mem_directImpacts_iff (hle : t.firstLine ≤ t.lastLine) :
    i ∈ directImpacts d t ↔ (t.MetBy d ∧ i = ⟨t.name, d.path, .modified, none⟩) ∨
      (t.AddedBy d ∧ i = ⟨t.name, d.path, .added, none⟩) := by
  rw [metBy_iff hle, addedBy_iff hle]
  exact mem_directImpacts_iff_hunks

end TestDeclaration

/-! ## All tests of a file -/

namespace FileDiff

variable {d : FileDiff} {tests : List TestDeclaration} {name : Text} {i : Impact}

/-- The tests of a file whose ranges are in order. -/
def Ordered (tests : List TestDeclaration) : Prop :=
  ∀ t ∈ tests, t.firstLine ≤ t.lastLine

instance (tests : List TestDeclaration) : Decidable (Ordered tests) :=
  inferInstanceAs (Decidable (∀ t ∈ tests, t.firstLine ≤ t.lastLine))

/-- A name is reported if a hunk touches a test of that name. -/
theorem exists_mem_directImpacts_iff_touchedBy {key : Text × Text} :
    (∃ i ∈ d.directImpacts tests, i.key = key) ↔
      ∃ t ∈ tests, t.TouchedBy d ∧ (d.path, t.name) = key := by
  have hmerged : (∃ i ∈ d.directImpacts tests, i.key = key) ↔
      ∃ i ∈ tests.flatMap (TestDeclaration.directImpacts d), i.key = key := by
    rw [← List.mem_map, ← List.mem_map]
    exact Impact.mem_keys_merge
  rw [hmerged]
  constructor
  · rintro ⟨i, hi, hkey⟩
    rcases List.mem_flatMap.1 hi with ⟨t, ht, hi⟩
    exact ⟨t, ht, TestDeclaration.exists_mem_directImpacts_iff.1 ⟨i, hi, hkey⟩⟩
  · rintro ⟨t, ht, htouched⟩
    rcases TestDeclaration.exists_mem_directImpacts_iff.2 htouched with ⟨i, hi, hkey⟩
    exact ⟨i, List.mem_flatMap.2 ⟨t, ht, hi⟩, hkey⟩

theorem mem_flatMap_directImpacts_iff (horder : Ordered tests) :
    i ∈ tests.flatMap (TestDeclaration.directImpacts d) ↔
      ∃ t ∈ tests, (t.MetBy d ∧ i = ⟨t.name, d.path, .modified, none⟩) ∨
        (t.AddedBy d ∧ i = ⟨t.name, d.path, .added, none⟩) := by
  rw [List.mem_flatMap]
  refine exists_congr fun t => and_congr_right fun ht => ?_
  exact TestDeclaration.mem_directImpacts_iff (horder t ht)

/-- What is reported of a file says which of its tests was added or modified, and nothing else. -/
theorem eq_of_mem_directImpacts (horder : Ordered tests) (h : i ∈ d.directImpacts tests) :
    i = ⟨i.testName, d.path, i.kind, none⟩ ∧ (i.kind = .modified ∨ i.kind = .added) := by
  rcases (mem_flatMap_directImpacts_iff horder).1 (Impact.mem_of_mem_merge h) with
    ⟨t, -, ⟨-, rfl⟩ | ⟨-, rfl⟩⟩
  · exact ⟨rfl, .inl rfl⟩
  · exact ⟨rfl, .inr rfl⟩

/-- A name is reported if a test of that name is met by a span or contained in a hunk. -/
theorem exists_mem_directImpacts_iff (horder : Ordered tests) :
    (∃ i ∈ d.directImpacts tests, i.testName = name) ↔
      ∃ t ∈ tests, t.name = name ∧ (t.MetBy d ∨ t.AddedBy d) := by
  constructor
  · rintro ⟨i, hi, rfl⟩
    rcases (mem_flatMap_directImpacts_iff horder).1 (Impact.mem_of_mem_merge hi) with
      ⟨t, ht, ⟨hmet, rfl⟩ | ⟨hadded, rfl⟩⟩
    · exact ⟨t, ht, rfl, .inl hmet⟩
    · exact ⟨t, ht, rfl, .inr hadded⟩
  · rintro ⟨t, ht, rfl, htouched⟩
    -- The test has an impact before the merge, and the merge keeps one for it.
    have hbefore : ∃ i ∈ tests.flatMap (TestDeclaration.directImpacts d), i.key = (d.path, t.name) := by
      rcases htouched with hmet | hadded
      · exact ⟨_, (mem_flatMap_directImpacts_iff horder).2 ⟨t, ht, .inl ⟨hmet, rfl⟩⟩, rfl⟩
      · exact ⟨_, (mem_flatMap_directImpacts_iff horder).2 ⟨t, ht, .inr ⟨hadded, rfl⟩⟩, rfl⟩
    have hkept : (d.path, t.name) ∈ (d.directImpacts tests).map Impact.key :=
      Impact.mem_keys_merge.2 (List.mem_map.2 hbefore)
    rcases List.mem_map.1 hkept with ⟨i, hi, hkey⟩
    exact ⟨i, hi, congrArg Prod.snd hkey⟩

/-- A name is reported as added if a test of that name is contained in a hunk. -/
theorem exists_added_mem_directImpacts_iff (horder : Ordered tests) :
    (∃ i ∈ d.directImpacts tests, i.testName = name ∧ i.kind = .added) ↔
      ∃ t ∈ tests, t.name = name ∧ t.AddedBy d := by
  constructor
  · rintro ⟨i, hi, rfl, hkind⟩
    rcases (mem_flatMap_directImpacts_iff horder).1 (Impact.mem_of_mem_merge hi) with
      ⟨t, ht, ⟨-, rfl⟩ | ⟨hadded, rfl⟩⟩
    · cases hkind
    · exact ⟨t, ht, rfl, hadded⟩
  · rintro ⟨t, ht, rfl, hadded⟩
    have hbefore := (mem_flatMap_directImpacts_iff horder).2 ⟨t, ht, .inr ⟨hadded, rfl⟩⟩
    rcases (exists_mem_directImpacts_iff horder).2 ⟨t, ht, rfl, .inr hadded⟩ with ⟨i, hi, hname⟩
    rcases eq_of_mem_directImpacts horder hi with ⟨heq, hkind⟩
    -- The impact that is kept is not lower than this one, so it is not one of a modified test.
    have hrank : ImpactKind.added.rank ≤ i.kind.rank :=
      Impact.le_of_mem_merge hi hbefore (by rw [heq, hname]; rfl)
    refine ⟨i, hi, hname, hkind.resolve_left fun hmodified => ?_⟩
    rw [hmodified] at hrank
    exact absurd hrank (by decide)

/-- The direct impacts of a diff on the tests of its file. A test is reported if the span of a hunk meets
it or if it is on the one line behind the lines that a hunk adds; it is reported as added if a hunk adds
all of its lines, where the line behind the hunk is counted in. -/
theorem directImpacts_verdicts (horder : Ordered tests) (name : Text) :
    ((∃ i ∈ d.directImpacts tests, i.testName = name) ↔
      ∃ t ∈ tests, t.name = name ∧ (t.MetBy d ∨ t.NextTo d)) ∧
    ((∃ i ∈ d.directImpacts tests, i.testName = name ∧ i.kind = .added) ↔
      ∃ t ∈ tests, t.name = name ∧ t.AddedBy d) := by
  refine ⟨?_, exists_added_mem_directImpacts_iff horder⟩
  rw [exists_mem_directImpacts_iff horder]
  refine exists_congr fun t => and_congr_right fun ht => and_congr_right fun _ => ?_
  exact TestDeclaration.metBy_or_addedBy_iff (horder t ht)

end FileDiff

/-! ## Tests at the end of a hunk -/

namespace Adjoining

/-- A change that adds the lines 1 to 3 and puts line 8 in place of another one. -/
def diff : FileDiff :=
  ⟨"a.test.js", .modified, [], [⟨0, 0, 1, 3⟩, ⟨5, 1, 8, 1⟩]⟩

/-- A suite, a test in the added lines, and one around the line that was replaced. -/
def tests : List TestDeclaration :=
  [⟨"suite", 1, 12, "/p/a.test.js"⟩, ⟨"new", 2, 3, "/p/a.test.js"⟩, ⟨"old", 7, 10, "/p/a.test.js"⟩]

/-- The test in the added lines is added, the other one is not. -/
theorem directImpacts_verdicts_replaced :
    FileDiff.Ordered tests ∧
    diff.directImpacts tests = [⟨"suite", "a.test.js", .modified, none⟩,
      ⟨"new", "a.test.js", .added, none⟩, ⟨"old", "a.test.js", .modified, none⟩] ∧
    (∃ t ∈ tests, t.name = "new" ∧ t.AddedBy diff) ∧ ¬ ∃ t ∈ tests, t.name = "old" ∧ t.AddedBy diff := by
  have horder : FileDiff.Ordered tests := by decide
  have hnew := (FileDiff.directImpacts_verdicts (d := diff) horder "new").2
  have hold := (FileDiff.directImpacts_verdicts (d := diff) horder "old").2
  exact ⟨horder, by decide, hnew.1 (by decide), fun h => absurd (hold.2 h) (by decide)⟩

/-- A test on the line behind the line that a hunk adds is reported, although nothing touched it. -/
theorem not_directImpacts_touched :
    (⟨"a.test.js", .modified, [], [⟨0, 0, 1, 1⟩]⟩ : FileDiff).directImpacts
      [⟨"t", 2, 2, "/p/a.test.js"⟩] = [⟨"t", "a.test.js", .added, none⟩] ∧
    ¬ ∀ (d : FileDiff) (tests : List TestDeclaration) (name : Text), FileDiff.Ordered tests →
      ((∃ i ∈ d.directImpacts tests, i.testName = name) ↔
        ∃ t ∈ tests, t.name = name ∧ ∃ h ∈ d.hunks, h.Overlaps t.firstLine t.lastLine) ∧
      ((∃ i ∈ d.directImpacts tests, i.testName = name ∧ i.kind = .added) →
        ∃ t ∈ tests, t.name = name ∧ ∃ h ∈ d.hunks, ∀ n, t.Covers n → h.Adds n) := by
  refine ⟨by decide, fun hall => ?_⟩
  have hreported := (hall ⟨"a.test.js", .modified, [], [⟨0, 0, 1, 1⟩]⟩ [⟨"t", 2, 2, "/p/a.test.js"⟩] "t"
    (by decide)).1.1 (by decide)
  revert hreported
  decide

end Adjoining

end AffectedTests
