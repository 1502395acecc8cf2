import AffectedTests.Proofs.Rereading
/-!
# Sections of a diff

A diff is read section by section, and what is read of a section does not depend on the others. So a
diff that begins with a line that opens a file can be put behind any text that leaves no line open. A
number that is too long ends the reading, and with it the warnings.

- `Diff.parse_eq_ok_iff`: which texts are read, and as what.
- `Diff.parse_append`: what is read of two texts one after the other.
-/

namespace AffectedTests

namespace Diff

variable {l : Text} {ls : List Text} {text : Text} {ds : List FileDiff}

/-! ## Which texts are read -/

/-- The numbers of all hunks are short enough to be read. What precedes the first line that opens a file
counts for nothing. -/
def Readable (ls : List Text) : Prop :=
  ∀ l ∈ ls.dropWhile fun l => (fileHeader? l).isNone,
    ∀ header, hunkHeader? l = some header → header.isReadable = true

theorem hunkHeader?_of_fileHeader? {paths : Text × Text} (h : fileHeader? l = some paths) :
    hunkHeader? l = none := by
  have hat : l.head? ≠ some ('@' : CodePoint) := by
    intro hat
    have hnone : (fileHeader? l).isNone = true := fileHeader?_of_head? (by simp [hat]; decide)
    simp [h] at hnone
  exact Option.isNone_iff_eq_none.1 (hunkHeader?_of_head? hat)

theorem Section.isReadable_iff (s : Section) : s.isReadable = true ↔
    ∀ l ∈ s.content, ∀ header, hunkHeader? l = some header → header.isReadable = true := by
  have hcontent : s.content = s.head ++ s.body := List.takeWhile_append_dropWhile.symm
  constructor
  · intro h l hl header hheader
    rw [hcontent] at hl
    rcases List.mem_append.1 hl with hl | hl
    · -- The head ends at the first hunk.
      have hnone := List.mem_takeWhile_imp hl
      simp [hheader] at hnone
    · exact List.all_eq_true.1 h header (List.mem_filterMap.2 ⟨l, hl, hheader⟩)
  · intro h
    apply List.all_eq_true.2
    intro header hheader
    rcases List.mem_filterMap.1 hheader with ⟨l, hl, hl'⟩
    exact h l ((List.dropWhile_sublist _).subset hl) header hl'

theorem all_isReadable_iff (ls : List Text) :
    (sections ls).all Section.isReadable = true ↔ Readable ls := by
  induction ls with
  | nil => simp [sections, Readable]
  | cons l ls ih =>
    cases h : fileHeader? l with
    | none => simpa [sections_cons_of_none h, Readable, h] using ih
    | some paths =>
      -- What follows is the content of this section, then the later sections.
      have hsplit : ls = (ls.takeWhile fun l => (fileHeader? l).isNone) ++
          ls.dropWhile fun l => (fileHeader? l).isNone := List.takeWhile_append_dropWhile.symm
      calc
        (sections (l :: ls)).all Section.isReadable = true
            ↔ (∀ l ∈ ls.takeWhile fun l => (fileHeader? l).isNone,
                ∀ header, hunkHeader? l = some header → header.isReadable = true) ∧ Readable ls := by
              rw [sections_cons_of_some h, List.all_cons, Bool.and_eq_true, Section.isReadable_iff, ih]
        _ ↔ ∀ l ∈ ls, ∀ header, hunkHeader? l = some header → header.isReadable = true := by
              conv => rhs; rw [hsplit]
              simp only [List.mem_append, or_imp, forall_and, Readable]
        _ ↔ Readable (l :: ls) := by
              simp [Readable, h, hunkHeader?_of_fileHeader? h]

/-- A text is read exactly if all of its numbers are, and then each section gives one change. -/
theorem parse_eq_ok_iff : parse text = .ok ds ↔
    Readable text.lines ∧ (sections text.lines).map Section.toFileDiff = ds := by
  rw [← all_isReadable_iff, parse]
  split
  · rename_i h
    simp [h]
  · rename_i h
    simp [h]

theorem exists_parse_iff (text : Text) : (∃ ds, parse text = .ok ds) ↔ Readable text.lines := by
  simp [parse_eq_ok_iff]

theorem parse_eq_error_iff {limit : Limit} :
    parse text = .error limit ↔ ¬ Readable text.lines ∧ limit = .digits := by
  rw [← all_isReadable_iff, parse]
  split
  · rename_i h
    simp [h]
  · rename_i h
    simp [h, eq_comm]

/-! ## One text after the other -/

theorem reached_of_readable {front : List Section} (h : front.all Section.isReadable = true)
    (back : List Section) : reached (front ++ back) = front ++ reached back := by
  induction front with
  | nil => rfl
  | cons s front ih =>
    rw [List.all_cons, Bool.and_eq_true] at h
    simp [reached, h.1, ih h.2]

/-- Nothing is reached behind a section that cannot be read. -/
theorem reached_of_unreadable {front : List Section} (h : front.all Section.isReadable = false)
    (back : List Section) : reached (front ++ back) = reached front := by
  induction front with
  | nil => cases h
  | cons s front ih =>
    cases hs : s.isReadable with
    | false => simp [reached, hs]
    | true =>
      rw [List.all_cons, hs, Bool.true_and] at h
      simp [reached, hs, ih h]

/-- A text that begins with a line that opens a file. -/
def BeginsFile (text : Text) : Prop :=
  ∃ l ∈ text.lines.head?, (fileHeader? l).isSome = true

theorem sections_lines_append {front back : Text} (hfront : front.Closed) (hback : BeginsFile back) :
    sections (front ++ back).lines = sections front.lines ++ sections back.lines := by
  rcases hback with ⟨l, hl, hopens⟩
  rcases List.head?_eq_some_iff.1 hl with ⟨rest, hlines⟩
  rw [Text.lines_append_of_closed hfront, hlines]
  exact sections_append_opening front.lines rest hopens

theorem read_append {front back : Text} (hfront : front.Closed) (hback : BeginsFile back) :
    parse (front ++ back) = do
      let ds ← parse front
      let es ← parse back
      return ds ++ es := by
  have hsections := sections_lines_append hfront hback
  -- The sections of both are read if those of each are.
  cases hall : (sections front.lines).all Section.isReadable with
  | false =>
    simp [parse, hsections, hall]
    rfl
  | true =>
    cases hall' : (sections back.lines).all Section.isReadable with
    | false =>
      simp [parse, hsections, hall, hall']
      rfl
    | true =>
      simp [parse, hsections, hall, hall']
      rfl

theorem conflicts_append {front back : Text} (hfront : front.Closed) (hback : BeginsFile back) :
    conflicts (front ++ back) = conflicts front ++
      match parse front with
      | .ok _ => conflicts back
      | .error _ => [] := by
  have hsections := sections_lines_append hfront hback
  cases hall : (sections front.lines).all Section.isReadable with
  | false =>
    have hrefused : parse front = .error .digits := by simp [parse, hall]
    simp [conflicts, hsections, reached_of_unreadable hall, hrefused]
  | true =>
    have hread : parse front = .ok ((sections front.lines).map Section.toFileDiff) := by
      simp [parse, hall]
    have hreached : reached (sections front.lines) = sections front.lines := by
      simpa [reached] using reached_of_readable hall []
    simp [conflicts, hsections, reached_of_readable hall, hreached, hread]

/-- Two texts one after the other are read one after the other, up to the first number that is too
long. -/
theorem parse_append {front back : Text} (hfront : front.Closed) (hback : BeginsFile back) :
    (parse (front ++ back) = do
      let ds ← parse front
      let es ← parse back
      return ds ++ es) ∧
    conflicts (front ++ back) = conflicts front ++
      match parse front with
      | .ok _ => conflicts back
      | .error _ => [] :=
  ⟨read_append hfront hback, conflicts_append hfront hback⟩

/-- A file whose last hunk is left open. -/
def openHunk : Text :=
  "diff --git a/a b/a\n@@ -1 +1 @@\n-x\n"

/-- A file whose marks contradict each other. -/
def contradictory : Text :=
  "diff --git a/b b/b\nnew file mode 1\n+++ /dev/null\n"

theorem beginsFile_contradictory : BeginsFile contradictory :=
  ⟨"diff --git a/b b/b", by decide, by decide⟩

/-- An open hunk does not reach into the next file. -/
theorem parse_append_openHunk : openHunk.Closed ∧ BeginsFile contradictory ∧
    parse (openHunk ++ contradictory) =
      .ok [⟨"a", .modified, [⟨1, "x", true⟩], [⟨1, 1, 1, 1⟩]⟩, ⟨"b", .added, [], []⟩] ∧
    (conflicts (openHunk ++ contradictory)).map Conflict.message =
      ["Conflicting diff header markers for b: file mode says ADD, /dev/null says DEL"] := by
  have hclosed : openHunk.Closed := .inr (by decide)
  rcases parse_append hclosed beginsFile_contradictory with ⟨hread, hconflicts⟩
  refine ⟨hclosed, beginsFile_contradictory, hread.trans (by decide), ?_⟩
  rw [hconflicts]
  decide

/-! ## A number that is too long -/

/-- The header of a hunk whose first number has one digit too many. -/
def overlongHeader : Text :=
  ("@@ -" : Text) ++
    (List.replicate (Limit.digits.size + 1) ('0' : CodePoint) ++ (" +1 @@" : Text))

/-- The lines of a diff with a hunk that cannot be read. -/
def overlongLines : List Text :=
  [("diff --git a/a b/a" : Text), overlongHeader]

def overlong : Text :=
  Text.unlines overlongLines

theorem isDigit_of_mem_zeros {n : Nat} {c : CodePoint}
    (h : c ∈ List.replicate n ('0' : CodePoint)) : c.isDigit = true := by
  rw [List.eq_of_mem_replicate h]
  decide

theorem hunkHeader?_overlongHeader : hunkHeader? overlongHeader =
    some ⟨List.replicate (Limit.digits.size + 1) ('0' : CodePoint), "1", "1", "1"⟩ := by
  have hold : range? (List.replicate (Limit.digits.size + 1) ('0' : CodePoint) ++ (" +1 @@" : Text)) =
      some ((_, ("1" : Text)), (" +1 @@" : Text)) :=
    range?_start (by simp) (fun _ hc => isDigit_of_mem_zeros hc) (by decide)
  have hplus : expect? " +" (" +1 @@" : Text) = some ("1 @@" : Text) := by decide
  have hnew : range? ("1 @@" : Text) = some ((("1" : Text), ("1" : Text)), (" @@" : Text)) := by decide
  have hclose : expect? " @@" (" @@" : Text) = some [] := by decide
  simp only [hunkHeader?, overlongHeader, expect?_append, Option.bind_eq_bind, Option.bind_some, hold,
    hplus, hnew, hclose]
  rfl

theorem oneLine_overlongHeader : Text.OneLine overlongHeader := by
  have hmark : Text.OneLine ("@@ -" : Text) := by decide
  have hrest : Text.OneLine (" +1 @@" : Text) := by decide
  have hzeros : Text.OneLine (List.replicate (Limit.digits.size + 1) ('0' : CodePoint)) :=
    oneLine_of_digits fun _ hc => isDigit_of_mem_zeros hc
  exact Text.oneLine_append hmark (Text.oneLine_append hzeros hrest)

theorem lines_overlong : overlong.lines = overlongLines := by
  have hopening : Text.OneLine ("diff --git a/a b/a" : Text) := by decide
  apply Text.lines_unlines
  intro l hl
  simp only [overlongLines, List.mem_cons, List.not_mem_nil, or_false] at hl
  rcases hl with rfl | rfl
  · exact hopening
  · exact oneLine_overlongHeader

theorem not_readable_overlong : ¬ Readable overlong.lines := by
  intro h
  have hopening : (fileHeader? ("diff --git a/a b/a" : Text)).isNone = false := by decide
  have hmem : overlongHeader ∈ overlong.lines.dropWhile fun l => (fileHeader? l).isNone := by
    simp [lines_overlong, overlongLines, hopening]
  have hreadable := h _ hmem _ hunkHeader?_overlongHeader
  have hlength := List.all_eq_true.1 hreadable _ (List.mem_cons_self ..)
  exact absurd (of_decide_eq_true hlength) (by simp)

theorem parse_overlong : parse overlong = .error .digits :=
  parse_eq_error_iff.2 ⟨not_readable_overlong, rfl⟩

/-- Warnings of the second text may be lost. -/
theorem not_conflicts_append : ¬ ∀ front back : Text, front.Closed → BeginsFile back →
    (parse (front ++ back) = do
      let ds ← parse front
      let es ← parse back
      return ds ++ es) ∧
    conflicts (front ++ back) = conflicts front ++ conflicts back := by
  intro h
  have hclosed : overlong.Closed :=
    .inr (by simp [overlong, overlongLines, Text.unlines, List.getLast?_cons])
  have hboth := (h overlong contradictory hclosed beginsFile_contradictory).2
  rw [conflicts_append hclosed beginsFile_contradictory, parse_overlong] at hboth
  -- Nothing is warned of behind the number that is too long.
  have hlost : (conflicts contradictory).length = 0 := by
    simpa using congrArg List.length hboth
  exact absurd hlost (by decide)

end Diff

end AffectedTests
