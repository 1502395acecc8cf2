import AffectedTests.Proofs.Encoding
import AffectedTests.Proofs.Numbering
/-!
# Saved patches

A saved patch is read as its text is. The line ends of a file are made plain before it is cut into
lines, but a text and its copy with plain line feeds have the same lines. Bytes that encode no text are
read one character per byte, so only a number that is too long keeps a file from being read.

- `Diff.parseBytes_eq`: plain line feeds do not change what is read.
- `Diff.parseBytes_saved`: what is read of a saved patch.
-/

namespace AffectedTests

namespace Diff

variable {t u : Text} {bytes : Bytes}

/-! ## The text of a file -/

/-- What is read of a text depends on its lines only. -/
theorem parse_congr (h : t.lines = u.lines) : parse t = parse u := by
  simp [parse, h]

theorem conflicts_congr (h : t.lines = u.lines) : conflicts t = conflicts u := by
  simp [conflicts, h]

/-- The text of a file before its line ends are made plain. -/
def savedText (bytes : Bytes) : Text :=
  (Utf8.decode bytes).getD bytes.toTextBytewise

theorem savedText_of_encode (h : Utf8.encode t = some bytes) : savedText bytes = t := by
  simp [savedText, Utf8.decode_of_encode h]

theorem savedText_of_stray (h : ∀ t, Utf8.encode t ≠ some bytes) :
    savedText bytes = bytes.toTextBytewise := by
  cases hdecode : Utf8.decode bytes with
  | none => simp [savedText, hdecode]
  | some t => exact absurd (Utf8.encode_of_decode hdecode) (h t)

theorem lines_decodePatch (bytes : Bytes) : (decodePatch bytes).lines = (savedText bytes).lines :=
  Text.lines_plainLineFeeds (savedText bytes)

theorem parseBytes_eq (bytes : Bytes) : parseBytes bytes = parse (savedText bytes) :=
  parse_congr (lines_decodePatch bytes)

/-! ## What is read -/

/-- A text that is saved is read as it is, with its warnings; bytes that encode no text are read as the
characters with their numbers. A file is not read exactly if a number in it is too long. -/
theorem parseBytes_saved :
    (∀ t : Text, t.Scalar → ∃ bytes, Utf8.encode t = some bytes ∧ parseBytes bytes = parse t ∧
      conflicts (decodePatch bytes) = conflicts t) ∧
    (∀ bytes : Bytes, (∀ t, Utf8.encode t ≠ some bytes) →
      parseBytes bytes = parse bytes.toTextBytewise ∧
        conflicts (decodePatch bytes) = conflicts bytes.toTextBytewise) ∧
    ∀ bytes : Bytes, (∃ ds, parseBytes bytes = .ok ds) ↔ Readable (savedText bytes).lines := by
  refine ⟨?_, ?_, ?_⟩
  · intro t ht
    rcases Utf8.exists_encode ht with ⟨bytes, hbytes⟩
    have htext := savedText_of_encode hbytes
    refine ⟨bytes, hbytes, ?_, ?_⟩
    · rw [parseBytes_eq, htext]
    · rw [conflicts_congr (lines_decodePatch bytes), htext]
  · intro bytes hstray
    have htext := savedText_of_stray hstray
    refine ⟨?_, ?_⟩
    · rw [parseBytes_eq, htext]
    · rw [conflicts_congr (lines_decodePatch bytes), htext]
  · intro bytes
    rw [parseBytes_eq]
    exact exists_parse_iff (savedText bytes)

/-- A patch with three kinds of line ends. -/
def mixedEnds : Text :=
  "diff --git a/é b/é\r\n@@ -1 +1 @@\r-x\n"

/-- The same path in a file that is no UTF-8. -/
def strayBytes : Bytes :=
  [0x64, 0x69, 0x66, 0x66, 0x20, 0x2D, 0x2D, 0x67, 0x69, 0x74, 0x20, 0x61, 0x2F, 0xE9, 0x20, 0x62, 0x2F,
    0xE9, 0x0D, 0x0A]

theorem parseBytes_saved_mixedEnds :
    (mixedEnds.Scalar ∧ ∃ bytes, Utf8.encode mixedEnds = some bytes ∧
      parseBytes bytes = .ok [⟨"é", .modified, [⟨1, "x", true⟩], [⟨1, 1, 1, 1⟩]⟩]) ∧
    (∀ t, Utf8.encode t ≠ some strayBytes) ∧ parseBytes strayBytes = .ok [⟨"é", .modified, [], []⟩] := by
  have hscalar : mixedEnds.Scalar := List.forall_mem_iff_forall_getElem.2 (by decide)
  have hdecode : Utf8.decode strayBytes = none := by decide
  have hstray : ∀ t, Utf8.encode t ≠ some strayBytes := by
    intro t ht
    simp [Utf8.decode_of_encode ht] at hdecode
  rcases parseBytes_saved with ⟨htexts, hbytes, -⟩
  rcases htexts mixedEnds hscalar with ⟨bytes, hencode, hread, -⟩
  refine ⟨⟨hscalar, bytes, hencode, hread.trans (by decide)⟩, hstray, ?_⟩
  exact (hbytes strayBytes hstray).1.trans (by decide)

theorem scalar_overlongHeader : overlongHeader.Scalar := by
  have hmark : Text.Scalar ("@@ -" : Text) := List.forall_mem_iff_forall_getElem.2 (by decide)
  have hrest : Text.Scalar (" +1 @@" : Text) := List.forall_mem_iff_forall_getElem.2 (by decide)
  have hzeros : Text.Scalar (List.replicate (Limit.digits.size + 1) ('0' : CodePoint)) := by
    intro c hc
    rw [List.eq_of_mem_replicate hc]
    decide
  exact Text.scalar_append hmark (Text.scalar_append hzeros hrest)

theorem scalar_overlong : overlong.Scalar := by
  have hopening : Text.Scalar ("diff --git a/a b/a" : Text) :=
    List.forall_mem_iff_forall_getElem.2 (by decide)
  have hlineFeed : Text.Scalar [CodePoint.lineFeed] := by
    intro c hc
    rw [List.mem_singleton.1 hc]
    decide
  intro c hc
  rcases List.mem_flatMap.1 hc with ⟨l, hl, hc⟩
  simp only [overlongLines, List.mem_cons, List.not_mem_nil, or_false] at hl
  rcases hl with rfl | rfl
  · exact Text.scalar_append hopening hlineFeed c hc
  · exact Text.scalar_append scalar_overlongHeader hlineFeed c hc

/-- A file can be kept from being read. -/
theorem not_parseBytes_saved : ¬ ∀ bytes, ∃ ds, parseBytes bytes = .ok ds := by
  intro h
  rcases Utf8.exists_encode scalar_overlong with ⟨bytes, hbytes⟩
  rcases h bytes with ⟨ds, hread⟩
  rw [parseBytes_eq, savedText_of_encode hbytes, parse_overlong] at hread
  cases hread

end Diff

end AffectedTests
