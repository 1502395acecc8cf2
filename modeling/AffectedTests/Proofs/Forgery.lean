import AffectedTests.Proofs.Rereading
/-!
# Contents and structure

Two diffs with the same structure differ in the contents of their body lines only. They are read with the
same structure if all contents are inert. A content with an inner line boundary need not be inert, and
one that is not inert changes what is read of some diff.

- `Diff.shapes`: what is read of a diff, without contents.
- `Diff.shapes_render`: the structure that is read depends on the structure that is written.
- `Diff.harmless_iff`: the contents that never change the structure are the inert ones.
-/

namespace AffectedTests

/-! ## Structure -/

def ChangedLine.blank (line : ChangedLine) : ChangedLine :=
  { line with content := [] }

/-- A change without the contents of its lines. -/
def FileDiff.shape (d : FileDiff) : FileDiff :=
  { d with lines := d.lines.map ChangedLine.blank }

namespace Diff

/-- What is read of a diff, without contents. -/
def shapes (text : Text) : Except Limit (List FileDiff) :=
  (parse text).map (List.map FileDiff.shape)

/-- A body line of which only the mark is left. -/
def BodyLine.blank (l : BodyLine) : BodyLine :=
  ⟨l.mark, [], false⟩

def Region.blank (r : Region) : Region :=
  { r with body := r.body.map BodyLine.blank }

def Patch.blank (p : Patch) : Patch :=
  { p with regions := p.regions.map Region.blank }

/-- All contents of a patch are of some kind. -/
def Patch.Holds (allowed : Text → Prop) (p : Patch) : Prop :=
  ∀ r ∈ p.regions, ∀ l ∈ r.body, allowed l.content

/-- Contents of a kind cannot forge structure: two diffs with such contents, the same headers and the
same marks are read with the same structure. -/
def Harmless (allowed : Text → Prop) : Prop :=
  ∀ ps qs : List Patch, (∀ p ∈ ps, p.WellFormed ∧ p.Holds allowed) →
    (∀ q ∈ qs, q.WellFormed ∧ q.Holds allowed) → ps.map Patch.blank = qs.map Patch.blank →
      shapes (render ps) = shapes (render qs)

/-! ## What is meant depends on the structure -/

theorem changeAt_blank (oldStart newStart : Int) (body : List BodyLine) (i : Nat) :
    changeAt oldStart newStart (body.map BodyLine.blank) i =
      (changeAt oldStart newStart body i).map ChangedLine.blank := by
  have hold : ((body.map BodyLine.blank).take i).countP (fun l => l.mark.inOld) =
      (body.take i).countP fun l => l.mark.inOld := by
    rw [← List.map_take, List.countP_map]
    rfl
  have hnew : ((body.map BodyLine.blank).take i).countP (fun l => l.mark.inNew) =
      (body.take i).countP fun l => l.mark.inNew := by
    rw [← List.map_take, List.countP_map]
    rfl
  unfold changeAt
  rw [List.getElem?_map, hold, hnew]
  cases body[i]? with
  | none => rfl
  | some l =>
    cases hmark : l.mark with
    | context => simp [BodyLine.blank, hmark]
    | deleted => simp [BodyLine.blank, hmark, ChangedLine.blank]
    | added => simp [BodyLine.blank, hmark, ChangedLine.blank]

namespace Region

variable (r : Region)

theorem changes_blank : r.blank.changes = r.changes.map ChangedLine.blank := by
  unfold changes Diff.changes
  rw [List.map_filterMap]
  have hlength : r.blank.body.length = r.body.length := List.length_map _
  rw [hlength]
  refine List.filterMap_congr fun i _ => ?_
  exact changeAt_blank r.oldStart r.newStart r.body i

theorem counts_blank : r.blank.oldCount = r.oldCount ∧ r.blank.newCount = r.newCount := by
  unfold oldCount newCount blank
  rw [List.countP_map, List.countP_map]
  exact ⟨rfl, rfl⟩

theorem hunk_blank : r.blank.hunk = r.hunk := by
  unfold hunk
  rw [r.counts_blank.1, r.counts_blank.2]
  rfl

theorem isReadable_blank : r.blank.isReadable = r.isReadable := by
  unfold isReadable
  rw [r.counts_blank.1, r.counts_blank.2]
  rfl

theorem blank_cut : r.cut.blank = r.blank := by
  unfold blank cut
  rw [List.map_map]
  rfl

end Region

namespace Patch

variable (p : Patch)

theorem fileDiff_blank : p.blank.fileDiff = p.fileDiff.shape := by
  have hhead : p.blank.readHead = p.readHead := rfl
  have hlines : p.blank.regions.flatMap Region.changes =
      (p.regions.flatMap Region.changes).map ChangedLine.blank := by
    unfold blank
    rw [List.flatMap_map, List.map_flatMap]
    exact List.flatMap_congr fun r _ => r.changes_blank
  have hhunks : p.blank.regions.map Region.hunk = p.regions.map Region.hunk := by
    unfold blank
    rw [List.map_map]
    exact List.map_congr_left fun r _ => r.hunk_blank
  unfold fileDiff FileDiff.shape
  rw [hhead, hlines, hhunks, List.filter_map]
  rfl

theorem isReadable_blank : p.blank.isReadable = p.isReadable := by
  have hregion : Region.isReadable ∘ Region.blank = Region.isReadable := by
    funext r
    rw [Function.comp_apply, r.isReadable_blank]
  unfold isReadable blank
  rw [List.all_map, hregion]

theorem blank_cut : p.cut.blank = p.blank := by
  unfold blank cut
  rw [List.map_map]
  exact congrArg (Patch.mk p.opening p.head) (List.map_congr_left fun r _ => r.blank_cut)

end Patch

/-- The structure that is read of a diff with inert contents depends on the structure that is written. -/
theorem shapes_render {ps : List Patch} (hwf : ∀ p ∈ ps, p.WellFormed) (hinert : ∀ p ∈ ps, p.Inert) :
    shapes (render ps) =
      if (ps.map Patch.blank).all Patch.isReadable then
        .ok ((ps.map Patch.blank).map Patch.fileDiff)
      else .error .digits := by
  have hreadable : (ps.map Patch.blank).all Patch.isReadable = ps.all Patch.isReadable := by
    rw [List.all_map]
    refine congrArg (List.all ps) (funext fun p => ?_)
    rw [Function.comp_apply, p.isReadable_blank]
  have hdiffs : (ps.map fun p => p.cut.fileDiff).map FileDiff.shape =
      (ps.map Patch.blank).map Patch.fileDiff := by
    rw [List.map_map, List.map_map]
    refine List.map_congr_left fun p _ => ?_
    rw [Function.comp_apply, Function.comp_apply, ← Patch.fileDiff_blank, Patch.blank_cut]
  unfold shapes
  rw [parse_render hwf hinert, hreadable, ← hdiffs]
  split <;> rfl

/-! ## What is read tells whether contents are inert -/

theorem sections_of_shapes {text : Text} {ds : List FileDiff} (h : shapes text = .ok ds) :
    (sections text.lines).map (fun s => s.toFileDiff.shape) = ds := by
  unfold shapes parse at h
  dsimp only at h
  split at h
  · have hds := Except.ok.inj h
    rw [List.map_map] at hds
    exact hds
  · cases h

/-- If a patch is read as one file, no other line of it opens a file. -/
theorem section_of_shapes {p : Patch} {d : FileDiff} (hwf : p.WellFormed)
    (h : shapes (render [p]) = .ok [d]) :
    (∀ l ∈ p.toSection.content, (fileHeader? l).isNone = true) ∧ p.toSection.toFileDiff.shape = d := by
  have hone : ∀ q ∈ [p], q.WellFormed := List.forall_mem_singleton.2 hwf
  have hlines : (render [p]).lines = p.opening :: p.toSection.content := by
    rw [lines_render hone, List.flatMap_singleton]
    rfl
  have hsections := sections_of_shapes h
  -- One file is read, so one line opens a file, and that is the opening of the patch.
  have hplain : ∀ l ∈ p.toSection.content, (fileHeader? l).isNone = true := by
    have hlength := congrArg List.length hsections
    rw [List.length_map, hlines, length_sections, List.countP_cons, if_pos hwf.opening.2] at hlength
    have hcount : p.toSection.content.countP (fun l => (fileHeader? l).isSome) = 0 :=
      Nat.succ.inj hlength
    intro l hl
    have hnot := List.countP_eq_zero.1 hcount l hl
    rw [Option.isNone_iff_eq_none]
    exact Option.not_isSome_iff_eq_none.1 hnot
  refine ⟨hplain, ?_⟩
  rw [lines_render hone, sections_lines hone (List.forall_mem_singleton.2 hplain)] at hsections
  exact List.head_eq_of_cons_eq hsections

theorem Section.shape_toFileDiff (s : Section) : s.toFileDiff.shape =
    ⟨s.readHead.path, s.readHead.kind, (numberLines s.readHead.kind 0 0 s.body).map ChangedLine.blank,
      (s.body.filterMap hunkHeader?).map HunkHeader.hunk⟩ :=
  rfl

/-- The empty line that is added last is numbered by the lines before it. -/
theorem numberLines_last {ls : List Text} (h : ∀ l ∈ ls, hunkHeader? l = none) (oldLine newLine : Int) :
    ∃ front number, newLine ≤ number ∧
      numberLines .modified oldLine newLine (ls ++ [[Mark.added.sign]]) =
        front ++ [⟨number, [], false⟩] := by
  induction ls generalizing oldLine newLine with
  | nil => exact ⟨[], newLine, Int.le_refl newLine, rfl⟩
  | cons l ls ih =>
    have hrest := fun o n => ih (fun l' hl' => h l' (by simp [hl'])) o n
    have hnone := h l (by simp)
    rw [List.cons_append, numberLines.eq_def]
    simp only [hnone]
    cases l with
    | nil => exact hrest oldLine newLine
    | cons mark content =>
      dsimp only
      split
      · rcases hrest oldLine (newLine + 1) with ⟨front, number, hle, heq⟩
        refine ⟨⟨newLine, content, false⟩ :: front, number, by omega, ?_⟩
        rw [if_neg (by decide), heq, List.cons_append]
      · split
        · rcases hrest (oldLine + 1) newLine with ⟨front, number, hle, heq⟩
          refine ⟨⟨oldLine, content, true⟩ :: front, number, hle, ?_⟩
          rw [heq, List.cons_append]
        · split
          · rcases hrest (oldLine + 1) (newLine + 1) with ⟨front, number, hle, heq⟩
            exact ⟨front, number, by omega, heq⟩
          · exact hrest oldLine newLine

/-- If only the empty line that is added last is read, and at its place, then no line before it is
marked. -/
theorem unmarked_of_numberLines {ls : List Text} (h : ∀ l ∈ ls, hunkHeader? l = none)
    (oldLine newLine : Int)
    (hread : (numberLines .modified oldLine newLine (ls ++ [[Mark.added.sign]])).map
      ChangedLine.blank = [⟨newLine, [], false⟩]) :
    ∀ l ∈ ls, ∀ m : Mark, l.head? ≠ some m.sign := by
  induction ls generalizing oldLine newLine with
  | nil =>
    intro l hl
    cases hl
  | cons l ls ih =>
    have hls : ∀ l' ∈ ls, hunkHeader? l' = none := fun l' hl' => h l' (by simp [hl'])
    have hnone := h l (by simp)
    -- A change before the last line makes the list too long.
    have hlong : ∀ (line : ChangedLine) (o n : Int),
        (line :: numberLines .modified o n (ls ++ [[Mark.added.sign]])).map ChangedLine.blank ≠
          [⟨newLine, [], false⟩] := by
      intro line o n heq
      rcases numberLines_last hls o n with ⟨front, number, -, hlast⟩
      rw [hlast] at heq
      have hlength := congrArg List.length heq
      simp at hlength
    rw [List.cons_append, numberLines.eq_def] at hread
    simp only [hnone] at hread
    cases l with
    | nil =>
      intro l' hl' m
      rcases List.mem_cons.1 hl' with rfl | hl'
      · intro heq
        cases heq
      · exact ih hls oldLine newLine hread l' hl' m
    | cons mark content =>
      dsimp only at hread
      split at hread
      · rw [if_neg (by decide)] at hread
        exact absurd hread (hlong _ _ _)
      · rename_i hadded
        split at hread
        · exact absurd hread (hlong _ _ _)
        · rename_i hdeleted
          split at hread
          · -- A context line moves the last line.
            rcases numberLines_last hls (oldLine + 1) (newLine + 1) with ⟨front, number, hle, hlast⟩
            rw [hlast, List.map_append, List.map_singleton] at hread
            cases front with
            | nil =>
              have hnumber := congrArg ChangedLine.number (List.head_eq_of_cons_eq hread)
              have hsame : number = newLine := hnumber
              omega
            | cons line front =>
              have hlength := congrArg List.length hread
              simp at hlength
          · rename_i hcontext
            intro l' hl' m
            rcases List.mem_cons.1 hl' with rfl | hl'
            · intro heq
              have hmark : mark = m.sign := Option.some.inj heq
              cases m with
              | context => exact hcontext hmark
              | deleted => exact hdeleted hmark
              | added => exact hadded hmark
            · exact ih hls oldLine newLine hread l' hl' m

/-! ## Probes -/

/-- A hunk with a context line of some content and an empty line that is added. -/
def probeRegion (content : Text) : Region :=
  ⟨1, 1, [], [⟨.context, content, false⟩, ⟨.added, [], false⟩]⟩

def probe (content : Text) : Patch where
  opening := "diff --git a/m b/m"
  head := ["index 1111111..2222222 100644", "--- a/m", "+++ b/m"]
  regions := [probeRegion content]

theorem wellFormed_probe (content : Text) : (probe content).WellFormed := by
  have hopening : Text.OneLine (probe []).opening ∧ (fileHeader? (probe []).opening).isSome = true := by
    decide
  have hhead : ∀ l ∈ (probe []).head, Text.OneLine l ∧ (fileHeader? l).isNone = true ∧
      (hunkHeader? l).isNone = true := by decide
  exact ⟨hopening, hhead, List.forall_mem_singleton.2 Text.oneLine_nil⟩

theorem holds_probe {allowed : Text → Prop} (hempty : allowed []) {content : Text}
    (h : allowed content) : (probe content).Holds allowed := by
  intro r hr l hl
  rw [List.mem_singleton.1 hr] at hl
  rcases List.mem_cons.1 hl with rfl | hl
  · exact h
  · rw [List.mem_singleton.1 hl]
    exact hempty

theorem shapes_probe_nil : shapes (render [probe []]) =
    .ok [⟨"m", .modified, [⟨2, [], false⟩], [⟨1, 1, 1, 2⟩]⟩] := by
  have hempty : InertContent [] := inertContent_of_oneLine Text.oneLine_nil
  have hreadable : ([probe []].map Patch.blank).all Patch.isReadable = true := by decide +kernel
  rw [shapes_render (List.forall_mem_singleton.2 (wellFormed_probe []))
    (List.forall_mem_singleton.2 (holds_probe hempty hempty)), hreadable, if_pos rfl]
  decide

theorem body_probe (content : Text) : (probe content).toSection.body =
    (probeRegion content).header :: (Mark.context.sign :: (Text.written content).headD []) ::
      ((Text.written content).tail ++ [[Mark.added.sign]]) := by
  have hnil : Text.written [] = [[]] := Text.written_of_oneLine Text.oneLine_nil
  rw [body_toSection (wellFormed_probe content)]
  simp [probe, probeRegion, Region.lines, BodyLine.lines, BodyLine.cut, hnil]

/-- If a probe is read as the empty probe is, then its content is inert. -/
theorem inertContent_of_probe {content : Text}
    (h : shapes (render [probe content]) = shapes (render [probe []])) : InertContent content := by
  rw [shapes_probe_nil] at h
  -- One file, one hunk, and the added line in its place: each excludes one kind of forged lines.
  rcases section_of_shapes (wellFormed_probe content) h with ⟨hfile, hshape⟩
  rw [Section.shape_toFileDiff, FileDiff.mk.injEq] at hshape
  rcases hshape with ⟨-, hkind, hread, hhunks⟩
  have hfile' : ∀ l ∈ (Text.written content).tail, (fileHeader? l).isNone = true := by
    intro l hl
    have hmem : l ∈ (probe content).toSection.body := by
      rw [body_probe]
      simp [hl]
    exact hfile l ((List.dropWhile_sublist _).subset hmem)
  have hhunk : ∀ l ∈ (Text.written content).tail, hunkHeader? l = none := by
    rw [body_probe, List.filterMap_cons, hunkHeader?_header, List.filterMap_cons,
      hunkHeader?_sign] at hhunks
    have hrest := List.map_eq_nil_iff.1 (List.tail_eq_of_cons_eq hhunks)
    intro l hl
    exact List.filterMap_eq_nil_iff.1 hrest l (List.mem_append_left _ hl)
  have hlines : (numberLines .modified 2 2 ((Text.written content).tail ++ [[Mark.added.sign]])).map
      ChangedLine.blank = [⟨2, [], false⟩] := by
    rw [hkind, body_probe, numberLines.eq_def] at hread
    simp only [hunkHeader?_header, hunk_numbers] at hread
    rw [numberLines.eq_def] at hread
    simp only [hunkHeader?_sign] at hread
    exact hread
  have hsign := unmarked_of_numberLines hhunk 2 2 hlines
  exact fun l hl => ⟨hfile' l hl, Option.isNone_iff_eq_none.2 (hhunk l hl), hsign l hl⟩

/-! ## Harmless contents -/

theorem harmless_of_inertContent {allowed : Text → Prop} (h : ∀ c, allowed c → InertContent c) :
    Harmless allowed := by
  intro ps qs hps hqs hblank
  have hinert : ∀ p : Patch, p.Holds allowed → p.Inert :=
    fun p hp r hr l hl => h l.content (hp r hr l hl)
  rw [shapes_render (fun p hp => (hps p hp).1) fun p hp => hinert p (hps p hp).2,
    shapes_render (fun q hq => (hqs q hq).1) fun q hq => hinert q (hqs q hq).2, hblank]

theorem inertContent_of_harmless {allowed : Text → Prop} (hempty : allowed [])
    (h : Harmless allowed) : ∀ c, allowed c → InertContent c := by
  intro c hc
  have hprobe : ∀ content, allowed content → ∀ p ∈ [probe content], p.WellFormed ∧ p.Holds allowed :=
    fun content hcontent =>
      List.forall_mem_singleton.2 ⟨wellFormed_probe content, holds_probe hempty hcontent⟩
  exact inertContent_of_probe (h [probe c] [probe []] (hprobe c hc) (hprobe [] hempty) rfl)

/-- Contents of a kind cannot forge structure exactly if they are all inert. -/
theorem harmless_iff (allowed : Text → Prop) (hempty : allowed []) :
    Harmless allowed ↔ ∀ c, allowed c → InertContent c :=
  ⟨inertContent_of_harmless hempty, harmless_of_inertContent⟩

/-- Contents without inner line boundaries cannot forge structure. -/
theorem harmless_oneLine : Text.OneLine [] ∧ Harmless Text.OneLine :=
  ⟨Text.oneLine_nil,
    (harmless_iff Text.OneLine Text.oneLine_nil).2 fun _ hc => inertContent_of_oneLine hc⟩

/-- A content with a form feed and a line that looks added. -/
def forged : Text := ['a', '\x0c', '+', 'b']

/-- Contents without line feeds can forge structure: the probe with this one is read with a line more
than the empty probe. -/
theorem not_harmless_withoutLineFeed : ¬ Harmless fun c => CodePoint.lineFeed ∉ c := by
  intro h
  have hinert := inertContent_of_harmless (by decide) h forged (by decide)
  have hline : ("+b" : Text) ∈ (Text.written forged).tail := by decide
  exact (hinert "+b" hline).2.2 .added rfl

end Diff

end AffectedTests
