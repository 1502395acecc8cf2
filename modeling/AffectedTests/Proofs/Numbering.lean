import AffectedTests.Proofs.Sections
/-!
# Numbers of changed lines

Whatever a text holds, the changes that are read of it are well formed. Each line that opens a file gives
one change, and the changed lines of a file are those of its hunks, one hunk after the other. Within a
hunk the deleted lines are numbered upwards from its start in the old file, and the added lines from its
start in the new one.

- `Diff.exists_step`: what one line of a body does to the line numbers.
- `Diff.exists_blocks`: what a whole body does.
- `Diff.parse_numbered`: what is read of any text.
-/

namespace AffectedTests

/-! ## Numbered changes -/

/-- Numbers that increase, from some number on. -/
structure IncreasingFrom (start : Int) (numbers : List Int) : Prop where
  increasing : numbers.Pairwise (· < ·)
  start_le : ∀ n ∈ numbers, start ≤ n

namespace IncreasingFrom

variable {start next : Int} {numbers : List Int}

theorem nil (start : Int) : IncreasingFrom start [] :=
  ⟨.nil, by simp⟩

theorem mono (h : IncreasingFrom next numbers) (hle : start ≤ next) : IncreasingFrom start numbers :=
  ⟨h.increasing, fun n hn => Int.le_trans hle (h.start_le n hn)⟩

theorem cons (h : IncreasingFrom next numbers) (hlt : start < next) :
    IncreasingFrom start (start :: numbers) := by
  have hrest : ∀ n ∈ numbers, start < n := fun n hn => Int.lt_of_lt_of_le hlt (h.start_le n hn)
  refine ⟨List.pairwise_cons.2 ⟨hrest, h.increasing⟩, ?_⟩
  intro n hn
  rcases List.mem_cons.1 hn with rfl | hn
  · exact Int.le_refl n
  · exact Int.le_of_lt (hrest n hn)

end IncreasingFrom

/-- Changes whose deleted lines are numbered upwards from one number and whose added lines are numbered
upwards from another one. -/
structure Numbered (oldStart newStart : Int) (lines : List ChangedLine) : Prop where
  deleted : IncreasingFrom oldStart ((lines.filter fun l => l.isDeleted).map (·.number))
  added : IncreasingFrom newStart ((lines.filter fun l => !l.isDeleted).map (·.number))

/-- The changed lines of a hunk. -/
def Hunk.Numbers (h : Hunk) (block : List ChangedLine) : Prop :=
  Numbered h.oldStart h.newStart block

/-- A change whose lines are those of its hunks. A deleted file has no added line. -/
structure FileDiff.WellNumbered (d : FileDiff) : Prop where
  deleted : d.kind = .deleted → d.addedLines = []
  unhunked : d.hunks = [] → d.lines = []
  blocks : ∃ blocks, d.lines = blocks.flatten ∧ List.Forall₂ Hunk.Numbers d.hunks blocks

namespace Diff

variable {kind : ChangeKind} {oldLine newLine : Int} {l : Text} {text : Text} {ds : List FileDiff}

/-! ## One line -/

/-- What one line of a body does: it gives at most one change, which has the current number of its side,
and then that side goes on. -/
structure Step (kind : ChangeKind) (oldLine newLine : Int) (change : Option ChangedLine)
    (oldNext newNext : Int) : Prop where
  old_le : oldLine ≤ oldNext
  new_le : newLine ≤ newNext
  deleted : ∀ c ∈ change, c.isDeleted = true → c.number = oldLine ∧ oldLine < oldNext
  added : ∀ c ∈ change, c.isDeleted = false →
    c.number = newLine ∧ newLine < newNext ∧ kind ≠ .deleted

theorem step_none {oldNext newNext : Int} (hold : oldLine ≤ oldNext) (hnew : newLine ≤ newNext) :
    Step kind oldLine newLine none oldNext newNext :=
  ⟨hold, hnew, by simp, by simp⟩

theorem step_deleted (content : Text) :
    Step kind oldLine newLine (some ⟨oldLine, content, true⟩) (oldLine + 1) newLine where
  old_le := Int.le_of_lt (Int.lt_succ oldLine)
  new_le := Int.le_refl newLine
  deleted := by
    rintro c ⟨⟩ -
    exact ⟨rfl, Int.lt_succ oldLine⟩
  added := by simp

theorem step_added (hkind : kind ≠ .deleted) (content : Text) :
    Step kind oldLine newLine (some ⟨newLine, content, false⟩) oldLine (newLine + 1) where
  old_le := Int.le_refl oldLine
  new_le := Int.le_of_lt (Int.lt_succ newLine)
  deleted := by simp
  added := by
    rintro c ⟨⟩ -
    exact ⟨rfl, Int.lt_succ newLine, hkind⟩

/-- The step lemma: a line that opens no hunk makes a step, whatever follows it. -/
theorem exists_step (kind : ChangeKind) (oldLine newLine : Int) (h : hunkHeader? l = none) :
    ∃ change oldNext newNext, Step kind oldLine newLine change oldNext newNext ∧
      ∀ rest, numberLines kind oldLine newLine (l :: rest) =
        change.toList ++ numberLines kind oldNext newNext rest := by
  have hold : oldLine ≤ oldLine + 1 := Int.le_of_lt (Int.lt_succ oldLine)
  have hnew : newLine ≤ newLine + 1 := Int.le_of_lt (Int.lt_succ newLine)
  cases l with
  | nil =>
    refine ⟨none, oldLine, newLine, step_none (Int.le_refl _) (Int.le_refl _), ?_⟩
    intro rest
    simp [numberLines, h]
  | cons mark content =>
    by_cases hadded : mark = '+'
    · subst hadded
      -- The added lines of a deleted file are counted but not kept.
      by_cases hkind : kind = .deleted
      · refine ⟨none, oldLine, newLine + 1, step_none (Int.le_refl _) hnew, ?_⟩
        intro rest
        simp [numberLines, h, hkind]
      · refine ⟨_, oldLine, newLine + 1, step_added hkind content, ?_⟩
        intro rest
        simp [numberLines, h, hkind]
    · by_cases hdeleted : mark = '-'
      · subst hdeleted
        refine ⟨_, oldLine + 1, newLine, step_deleted content, ?_⟩
        intro rest
        simp [numberLines, h, hadded]
      · by_cases hcontext : mark = ' '
        · subst hcontext
          refine ⟨none, oldLine + 1, newLine + 1, step_none hold hnew, ?_⟩
          intro rest
          simp [numberLines, h, hadded, hdeleted]
        · refine ⟨none, oldLine, newLine, step_none (Int.le_refl _) (Int.le_refl _), ?_⟩
          intro rest
          simp [numberLines, h, hadded, hdeleted, hcontext]

/-- A step before numbered changes. -/
theorem Step.numbered {change : Option ChangedLine} {oldNext newNext : Int} {lines : List ChangedLine}
    (h : Step kind oldLine newLine change oldNext newNext) (hlines : Numbered oldNext newNext lines) :
    Numbered oldLine newLine (change.toList ++ lines) := by
  cases change with
  | none => exact ⟨hlines.deleted.mono h.old_le, hlines.added.mono h.new_le⟩
  | some c =>
    cases hc : c.isDeleted with
    | true =>
      rcases h.deleted c rfl hc with ⟨hnumber, hlt⟩
      have hdeleted := hlines.deleted.cons hlt
      exact ⟨by simpa [hc, hnumber] using hdeleted, by simpa [hc] using hlines.added.mono h.new_le⟩
    | false =>
      rcases h.added c rfl hc with ⟨hnumber, hlt, -⟩
      have hadded := hlines.added.cons hlt
      exact ⟨by simpa [hc] using hlines.deleted.mono h.old_le, by simpa [hc, hnumber] using hadded⟩

/-! ## Whole bodies -/

/-- The run lemma: the lines up to the next hunk go on from the current numbers, and each hunk begins
with its own ones. -/
theorem exists_blocks (kind : ChangeKind) (oldLine newLine : Int) (ls : List Text) :
    ∃ first blocks, numberLines kind oldLine newLine ls = first ++ blocks.flatten ∧
      Numbered oldLine newLine first ∧
      List.Forall₂ Hunk.Numbers ((ls.filterMap hunkHeader?).map HunkHeader.hunk) blocks := by
  -- Line by line; a line that opens a hunk closes the block of the lines before it.
  induction ls generalizing oldLine newLine with
  | nil => exact ⟨[], [], by simp [numberLines], ⟨.nil _, .nil _⟩, .nil⟩
  | cons l ls ih =>
    cases h : hunkHeader? l with
    | some header =>
      rcases ih header.hunk.oldStart header.hunk.newStart with ⟨first, blocks, hread, hfirst, hblocks⟩
      refine ⟨[], first :: blocks, ?_, ⟨.nil _, .nil _⟩, ?_⟩
      · simp [numberLines, h, hread]
      · have hhunk : header.hunk.Numbers first := hfirst
        simpa [h] using List.Forall₂.cons hhunk hblocks
    | none =>
      rcases exists_step kind oldLine newLine h with ⟨change, oldNext, newNext, hstep, hline⟩
      rcases ih oldNext newNext with ⟨first, blocks, hread, hfirst, hblocks⟩
      refine ⟨change.toList ++ first, blocks, ?_, hstep.numbered hfirst, ?_⟩
      · simp [hline, hread]
      · simpa [h] using hblocks

theorem isDeleted_of_mem_numberLines {ls : List Text} {c : ChangedLine}
    (h : c ∈ numberLines .deleted oldLine newLine ls) : c.isDeleted = true := by
  induction ls generalizing oldLine newLine with
  | nil => simp [numberLines] at h
  | cons l ls ih =>
    cases hl : hunkHeader? l with
    | some header =>
      simp only [numberLines, hl] at h
      exact ih h
    | none =>
      rcases exists_step .deleted oldLine newLine hl with ⟨change, oldNext, newNext, hstep, hline⟩
      rw [hline] at h
      rcases List.mem_append.1 h with h | h
      · cases hc : c.isDeleted with
        | true => rfl
        | false => exact absurd rfl (hstep.added c (Option.mem_toList.1 h) hc).2.2
      · exact ih h

namespace Section

/-- A body is empty or begins with a hunk. -/
theorem body_cases (s : Section) :
    s.body = [] ∨ ∃ l rest header, s.body = l :: rest ∧ hunkHeader? l = some header := by
  cases hbody : s.body with
  | nil => exact .inl rfl
  | cons l rest =>
    have hfirst := List.head?_dropWhile_not (fun l => (hunkHeader? l).isNone) s.content
    unfold body at hbody
    rw [hbody] at hfirst
    rcases Option.isSome_iff_exists.1 (by simpa using hfirst) with ⟨header, hheader⟩
    exact .inr ⟨l, rest, header, rfl, hheader⟩

theorem wellNumbered_toFileDiff (s : Section) : s.toFileDiff.WellNumbered where
  deleted := by
    intro hkind
    apply List.filter_eq_nil_iff.2
    intro c hc
    have hmem : c ∈ numberLines s.readHead.kind 0 0 s.body := hc
    have hdeleted : s.readHead.kind = .deleted := hkind
    rw [hdeleted] at hmem
    simp [isDeleted_of_mem_numberLines hmem]
  unhunked := by
    intro hhunks
    rcases s.body_cases with hbody | ⟨l, rest, header, hbody, hheader⟩
    · simp [toFileDiff, hbody, numberLines]
    · simp [toFileDiff, hunkHeaders, hbody, hheader] at hhunks
  blocks := by
    rcases s.body_cases with hbody | ⟨l, rest, header, hbody, hheader⟩
    · exact ⟨[], by simp [toFileDiff, hbody, numberLines], by simp [toFileDiff, hunkHeaders, hbody]⟩
    · -- No line precedes the first hunk, so no block has to be left out.
      rcases exists_blocks s.readHead.kind header.hunk.oldStart header.hunk.newStart rest with
        ⟨first, blocks, hread, hfirst, hblocks⟩
      refine ⟨first :: blocks, ?_, ?_⟩
      · simp [toFileDiff, hbody, numberLines, hheader, hread]
      · have hhunk : header.hunk.Numbers first := hfirst
        simpa [toFileDiff, hunkHeaders, hbody, hheader] using List.Forall₂.cons hhunk hblocks

end Section

/-! ## Any text -/

/-- The change that is read of a piece of a text. -/
theorem parse_piece {piece : List Text} {s : Section} (h : Piece piece s) (hread : s.isReadable = true)
    (hlines : ∀ l ∈ piece, Text.OneLine l) : parse (Text.unlines piece) = .ok [s.toFileDiff] := by
  have hsections := sections_piece h
  have hreadable : Readable piece := (all_isReadable_iff piece).1 (by simp [hsections, hread])
  apply parse_eq_ok_iff.2
  rw [Text.lines_unlines hlines, hsections]
  exact ⟨hreadable, rfl⟩

/-- The changes of a text are those of its pieces. -/
theorem forall₂_parse_piece {pieces : List (List Text)} {found : List Section}
    (h : List.Forall₂ Piece pieces found) (hread : ∀ s ∈ found, s.isReadable = true)
    (hlines : ∀ piece ∈ pieces, ∀ l ∈ piece, Text.OneLine l) :
    List.Forall₂ (fun piece d => (∃ l ∈ piece.head?, (fileHeader? l).isSome = true) ∧
      parse (Text.unlines piece) = .ok [d]) pieces (found.map Section.toFileDiff) := by
  induction h with
  | nil => exact .nil
  | cons hpiece _ ih =>
    have hhead := hpiece
    rcases hhead with ⟨l, rfl, hl, -⟩
    refine .cons ⟨⟨l, rfl, by simp [hl]⟩, ?_⟩ ?_
    · exact parse_piece hpiece (hread _ (by simp)) (hlines _ (by simp))
    · exact ih (fun s hs => hread s (by simp [hs])) fun piece hp => hlines piece (by simp [hp])

/-- A text is read exactly if all of its numbers are. Then each line that opens a file gives one change,
in order: the one that is read of this line and the lines up to the next such line. All changes are well
numbered. -/
theorem parse_numbered (text : Text) :
    ((∃ ds, parse text = .ok ds) ↔ Readable text.lines) ∧
    ∀ ds, parse text = .ok ds →
      ds.length = text.lines.countP (fun l => (fileHeader? l).isSome) ∧
      (∃ preamble pieces, text.lines = preamble ++ pieces.flatten ∧
        (∀ l ∈ preamble, (fileHeader? l).isNone = true) ∧
        List.Forall₂ (fun piece d => (∃ l ∈ piece.head?, (fileHeader? l).isSome = true) ∧
          parse (Text.unlines piece) = .ok [d]) pieces ds) ∧
      ∀ d ∈ ds, d.WellNumbered := by
  refine ⟨exists_parse_iff text, fun ds hread => ?_⟩
  rcases parse_eq_ok_iff.1 hread with ⟨hreadable, rfl⟩
  refine ⟨?_, ?_, ?_⟩
  · rw [List.length_map, length_sections]
  · -- The pieces are cut from the lines of the text, so they are lines when written again.
    rcases exists_pieces text.lines with ⟨preamble, pieces, hlines, hpreamble, hpieces⟩
    have hall := List.all_eq_true.1 ((all_isReadable_iff text.lines).2 hreadable)
    refine ⟨preamble, pieces, hlines, hpreamble, forall₂_parse_piece hpieces hall ?_⟩
    intro piece hpiece l hl
    have hmem : l ∈ text.lines := by
      rw [hlines]
      exact List.mem_append_right _ (List.mem_flatten.2 ⟨piece, hpiece, hl⟩)
    exact Text.oneLine_of_mem_lines hmem
  · intro d hd
    rcases List.mem_map.1 hd with ⟨s, -, rfl⟩
    exact s.wellNumbered_toFileDiff

/-- A deleted file whose hunk has more lines than it says, and one of them is added. -/
def disordered : Text :=
  "diff --git a/a b/a\n+++ /dev/null\n@@ -3 +1 @@\n+y\n-z\n-w\n"

def disorderedDiff : FileDiff where
  path := "a"
  kind := .deleted
  lines := [⟨3, "z", true⟩, ⟨4, "w", true⟩]
  hunks := [⟨3, 1, 1, 1⟩]

theorem parse_numbered_disordered : parse disordered = .ok [disorderedDiff] ∧
    Readable disordered.lines ∧
    [disorderedDiff].length = disordered.lines.countP (fun l => (fileHeader? l).isSome) ∧
    disorderedDiff.WellNumbered := by
  have hread : parse disordered = .ok [disorderedDiff] := by decide
  rcases parse_numbered disordered with ⟨hreadable, hchanges⟩
  rcases hchanges _ hread with ⟨hlength, -, hnumbered⟩
  exact ⟨hread, hreadable.1 ⟨_, hread⟩, hlength, hnumbered _ (List.mem_singleton_self _)⟩

/-- Not every text is read. -/
theorem not_parse_numbered : ¬ ∀ text, ∃ ds, parse text = .ok ds ∧
    ds.length = text.lines.countP (fun l => (fileHeader? l).isSome) ∧ ∀ d ∈ ds, d.WellNumbered := by
  intro h
  rcases h overlong with ⟨ds, hread, -⟩
  rw [parse_overlong] at hread
  cases hread

end Diff

end AffectedTests
