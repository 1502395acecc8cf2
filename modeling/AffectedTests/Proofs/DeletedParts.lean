import AffectedTests.Proofs.CallPattern
import AffectedTests.Proofs.Merging
/-!
# Deleted lines in parts

The tests that the deleted lines of a file declare are reported once each, by a look at the names that are
known already. That is what merging makes of one impact for each call, because all these impacts are of one
rank and differ in the name only. So the deleted lines may be looked at in parts, and the parts be merged.

- `Impact.merge_map`: merging impacts that are told apart by one value keeps the distinct values.
- `FileDiff.removedImpacts_eq_merge`: the removed tests as a merge.
- `FileDiff.removedImpacts_laws`: parts, what does not matter, and the order of the names.
-/

namespace AffectedTests

/-- Of impacts that are told apart by one value, merging keeps one for each distinct value. -/
theorem Impact.merge_map {α : Type} [BEq α] [LawfulBEq α] {impact : α → Impact}
    (hinj : Function.Injective fun a => (impact a).key) (xs : List α) :
    merge (xs.map impact) = (distinct xs).map impact := by
  have hkeys : (merge (xs.map impact)).map Impact.key = ((distinct xs).map impact).map Impact.key := by
    rw [keys_merge, List.map_map, List.map_map]
    exact distinct_map_of_injective hinj xs
  refine eq_of_map_eq hkeys fun i hi j hj hkey => ?_
  rcases List.mem_map.1 (mem_of_mem_merge hi) with ⟨a, -, rfl⟩
  rcases List.mem_map.1 hj with ⟨b, -, rfl⟩
  exact congrArg impact (hinj hkey)

/-- A call declares a test or a suite unless one of its modifiers makes it something else. -/
theorem TestCall.declares_iff {call : TestCall.Occurrence} :
    call.declares = true ↔ ∀ m ∈ call.modifiers, m ∉ nonDeclaringModifiers := by
  simp [TestCall.Occurrence.declares]

namespace FileDiff

/-! ## The removed tests as a merge -/

/-- The names that the deleted lines of a diff declare, one for each call that declares a test: line by
line, and in a line from left to right. -/
def deletedNames (keywords : List Text) (d : FileDiff) : List Text :=
  d.deletedLines.flatMap fun line => declaredNames keywords line.content

/-- What is reported for a name that a deleted line declares. -/
def removal (d : FileDiff) (name : Text) : Impact :=
  ⟨name, d.path, .removed, none⟩

variable {keywords : List Text} {d d₁ d₂ : FileDiff}

theorem removedImpacts_eq_map (keywords : List Text) (d : FileDiff) :
    d.removedImpacts keywords = (distinct (d.deletedNames keywords)).map d.removal :=
  rfl

theorem removal_eq (h : d₁.path = d₂.path) : d₁.removal = d₂.removal := by
  funext name
  rw [removal, removal, h]

/-- To drop the names that are known already is to merge one impact for each call. -/
theorem removedImpacts_eq_merge (keywords : List Text) (d : FileDiff) :
    d.removedImpacts keywords = Impact.merge ((d.deletedNames keywords).map d.removal) := by
  have hinj : Function.Injective fun name => (d.removal name).key :=
    fun _ _ h => congrArg Prod.snd h
  rw [removedImpacts_eq_map, Impact.merge_map hinj]

theorem deletedNames_append (h : d.lines = d₁.lines ++ d₂.lines) :
    d.deletedNames keywords = d₁.deletedNames keywords ++ d₂.deletedNames keywords := by
  unfold deletedNames deletedLines
  rw [h, List.filter_append, List.flatMap_append]

/-- The deleted lines of a file may be looked at in parts. -/
theorem removedImpacts_append (h₁ : d₁.path = d.path) (h₂ : d₂.path = d.path)
    (hlines : d.lines = d₁.lines ++ d₂.lines) :
    d.removedImpacts keywords =
      Impact.merge (d₁.removedImpacts keywords ++ d₂.removedImpacts keywords) := by
  simp only [removedImpacts_eq_merge]
  rw [Impact.merge_merge_append, deletedNames_append hlines, List.map_append, removal_eq h₁, removal_eq h₂]

/-! ## What does not matter -/

/-- Nothing but the path and the deleted lines matters. -/
theorem removedImpacts_congr (hpath : d₁.path = d₂.path) (hdeleted : d₁.deletedLines = d₂.deletedLines) :
    d₁.removedImpacts keywords = d₂.removedImpacts keywords := by
  rw [removedImpacts_eq_map, removedImpacts_eq_map, removal_eq hpath, deletedNames, deletedNames, hdeleted]

/-- Lines that are not deleted may stand anywhere. -/
theorem deletedLines_insert {earlier inserted later : List ChangedLine}
    (h₁ : d₁.lines = earlier ++ inserted ++ later) (h₂ : d₂.lines = earlier ++ later)
    (hinserted : ∀ line ∈ inserted, line.isDeleted = false) : d₁.deletedLines = d₂.deletedLines := by
  have hnone : inserted.filter (fun line => line.isDeleted) = [] :=
    List.filter_eq_nil_iff.2 fun line hline hdeleted => absurd hdeleted (by simp [hinserted line hline])
  unfold deletedLines
  rw [h₁, h₂, List.filter_append, List.filter_append, hnone, List.append_nil, List.filter_append]

/-! ## The names -/

/-- The calls in the deleted lines, line by line. -/
def deletedCalls (keywords : List Text) (d : FileDiff) : List TestCall.Occurrence :=
  d.deletedLines.flatMap fun line => TestCall.occurrences keywords line.content

theorem deletedNames_eq (keywords : List Text) (d : FileDiff) :
    d.deletedNames keywords =
      ((d.deletedCalls keywords).filter TestCall.Occurrence.declares).map (·.name) := by
  unfold deletedNames deletedCalls declaredNames
  rw [List.filter_flatMap, List.map_flatMap]

/-- The calls in the deleted lines are those that reading each of these lines gives. -/
theorem exists_reads_deletedCalls (keywords : List Text) (d : FileDiff) :
    ∃ found : List (List TestCall.Occurrence), d.deletedCalls keywords = found.flatten ∧
      List.Forall₂ (fun line calls => TestCall.Reads keywords [] line.content calls)
        d.deletedLines found := by
  refine ⟨d.deletedLines.map fun line => TestCall.occurrences keywords line.content, rfl, ?_⟩
  rw [List.forall₂_map_right_iff, List.forall₂_same]
  exact fun line _ => TestCall.reads_iff.2 rfl

theorem mem_deletedNames_iff {name : Text} :
    name ∈ d.deletedNames keywords ↔ ∃ call ∈ d.deletedCalls keywords,
      (∀ m ∈ call.modifiers, m ∉ nonDeclaringModifiers) ∧ call.name = name := by
  simp only [deletedNames_eq, List.mem_map, List.mem_filter, TestCall.declares_iff, and_assoc]

/-- The removed tests of a diff. If its lines are those of two diffs of the same file, they are what the
removed tests of the two are merged to. Lines that are not deleted, the hunks and the kind of the change do
not matter. And they are one impact for each name of a call that declares a test, among the calls that
reading the deleted lines one after the other gives, in the order of the first such call. -/
theorem removedImpacts_laws (keywords : List Text) (d : FileDiff) :
    (∀ d₁ d₂ : FileDiff, d₁.path = d.path → d₂.path = d.path → d.lines = d₁.lines ++ d₂.lines →
      d.removedImpacts keywords =
        Impact.merge (d₁.removedImpacts keywords ++ d₂.removedImpacts keywords)) ∧
    (∀ d' : FileDiff, d'.path = d.path → d'.deletedLines = d.deletedLines →
      d'.removedImpacts keywords = d.removedImpacts keywords) ∧
    (∀ (d' : FileDiff) (earlier inserted later : List ChangedLine), d'.path = d.path →
      d'.lines = earlier ++ inserted ++ later → d.lines = earlier ++ later →
        (∀ line ∈ inserted, line.isDeleted = false) →
          d'.removedImpacts keywords = d.removedImpacts keywords) ∧
    ∃ (found : List (List TestCall.Occurrence)) (names : List Text),
      List.Forall₂ (fun line calls => TestCall.Reads keywords [] line.content calls) d.deletedLines found ∧
      d.removedImpacts keywords = names.map (fun name => ⟨name, d.path, .removed, none⟩) ∧ names.Nodup ∧
      (∀ name, name ∈ names ↔ ∃ call ∈ found.flatten,
        (∀ m ∈ call.modifiers, m ∉ nonDeclaringModifiers) ∧ call.name = name) ∧
      names.Pairwise fun a b =>
        let declared := (found.flatten.filter TestCall.Occurrence.declares).map (·.name)
        declared.idxOf a < declared.idxOf b := by
  rcases exists_reads_deletedCalls keywords d with ⟨found, hfound, hreads⟩
  refine ⟨fun _ _ h₁ h₂ hlines => removedImpacts_append h₁ h₂ hlines,
    fun _ hpath hdeleted => removedImpacts_congr hpath hdeleted,
    fun _ _ _ _ hpath h' h hinserted => removedImpacts_congr hpath (deletedLines_insert h' h hinserted),
    found, distinct (d.deletedNames keywords), hreads, removedImpacts_eq_map keywords d, nodup_distinct,
    fun name => ?_, ?_⟩
  · rw [mem_distinct, mem_deletedNames_iff, hfound]
  · rw [← hfound, ← deletedNames_eq]
    exact pairwise_idxOf_distinct _

end FileDiff

/-! ## A file in two parts -/

namespace Halved

def keywords : List Text := ["test", "it", "describe"]

/-- Two tests `a` and `b` are deleted on one line. -/
def deleted : ChangedLine :=
  ⟨1, "test('a', f); it('b', f);", true⟩

/-- A test `z` is added. -/
def added : ChangedLine :=
  ⟨1, "test('z', f);", false⟩

def first : FileDiff :=
  ⟨"a.test.js", .modified, [deleted, added], [⟨1, 1, 1, 1⟩]⟩

/-- The first part without the line that is added, as the end of the file. -/
def bare : FileDiff :=
  ⟨"a.test.js", .deleted, [deleted], []⟩

/-- The test `b` is deleted again, a step, and a suite `c`. -/
def second : FileDiff :=
  ⟨"a.test.js", .deleted,
    [⟨7, "it.only(\"b\", f);", true⟩, ⟨8, "test.step('d', f); describe('c', f);", true⟩], []⟩

/-- The two parts one after the other. -/
def whole : FileDiff :=
  ⟨"a.test.js", .modified, first.lines ++ second.lines, [⟨1, 1, 1, 1⟩, ⟨7, 2, 6, 0⟩]⟩

/-- The test `b` of both parts is reported once, at its first place, and the added line does not matter. -/
theorem removedImpacts_laws_whole :
    (first.path = whole.path ∧ second.path = whole.path ∧ whole.lines = first.lines ++ second.lines) ∧
    (first.path = bare.path ∧ first.lines = [deleted] ++ [added] ++ [] ∧ bare.lines = [deleted] ++ [] ∧
      ∀ line ∈ [added], line.isDeleted = false) ∧
    (first.removedImpacts keywords).map (·.testName) = ["a", "b"] ∧
    (second.removedImpacts keywords).map (·.testName) = ["b", "c"] ∧
    (whole.removedImpacts keywords).map (·.testName) = ["a", "b", "c"] ∧
    whole.removedImpacts keywords =
      Impact.merge (first.removedImpacts keywords ++ second.removedImpacts keywords) ∧
    first.removedImpacts keywords = bare.removedImpacts keywords := by
  have hadded : ∀ line ∈ [added], line.isDeleted = false := by decide
  refine ⟨⟨rfl, rfl, rfl⟩, ⟨rfl, rfl, rfl, hadded⟩, by decide, by decide, by decide, ?_, ?_⟩
  · exact (FileDiff.removedImpacts_laws keywords whole).1 first second rfl rfl rfl
  · exact (FileDiff.removedImpacts_laws keywords bare).2.2.1 first [deleted] [added] [] rfl rfl rfl hadded

end Halved

end AffectedTests
