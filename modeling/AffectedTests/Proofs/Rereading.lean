import AffectedTests.Proofs.Pieces
import AffectedTests.Proofs.Rendering
/-!
# Reading rendered diffs

Reading undoes rendering as long as contents add only inert lines: the sections of the diff are the
patches, the hunks are found at their headers, and the changes of a body are numbered by their places.

- `Diff.sections_lines`: the sections of a rendered diff.
- `Diff.numberLines_body`: the step lemma, what the lines of one body contribute to the changes.
- `Diff.parse_render`: what is read.
-/

namespace AffectedTests

namespace Diff

/-! ## The lines of a rendered diff -/

/-- What is left of a body line when the diff is cut into lines. -/
def BodyLine.lines (l : BodyLine) : List Text :=
  (l.mark.sign :: l.cut.content) :: (Text.written l.content).tail ++
    if l.unended then [unendedNote] else []

def Region.lines (r : Region) : List Text :=
  r.header :: r.body.flatMap BodyLine.lines

def Patch.lines (p : Patch) : List Text :=
  p.opening :: p.head ++ p.regions.flatMap Region.lines

theorem isLineBoundary_sign (m : Mark) : m.sign.isLineBoundary = false := by
  cases m <;> decide

theorem BodyLine.written_rendered (l : BodyLine) : l.rendered.flatMap Text.written = l.lines := by
  have hnote : Text.written unendedNote = [unendedNote] := Text.written_of_oneLine (by decide)
  -- The sign ends no line, so it stays before the first line of the content.
  unfold rendered lines
  rw [List.flatMap_cons, Text.written_cons (isLineBoundary_sign l.mark)]
  cases l.unended with
  | false => simp [cut]
  | true => simp [cut, hnote]

theorem oneLine_of_digits {t : Text} (h : ∀ c ∈ t, c.isDigit = true) : Text.OneLine t := by
  intro c hc
  have hall : CodePoint.lineBoundaries.all (fun c => !c.isDigit) = true := by decide
  cases hboundary : c.isLineBoundary with
  | false => rfl
  | true =>
    have hnone := List.all_eq_true.1 hall c (List.contains_iff_mem.1 hboundary)
    simp [h c hc] at hnone

theorem oneLine_ofNat (n : Nat) : Text.OneLine (Text.ofNat n) :=
  oneLine_of_digits fun _ hc => Text.isDigit_of_mem_ofNat hc

theorem oneLine_range (start count : Nat) : Text.OneLine (Region.range start count) := by
  have hcomma : Text.OneLine [(',' : CodePoint)] := by decide
  unfold Region.range
  refine Text.oneLine_append (oneLine_ofNat start) ?_
  split
  · exact Text.oneLine_nil
  · exact Text.oneLine_append hcomma (oneLine_ofNat count)

theorem oneLine_header {r : Region} (h : Text.OneLine r.heading) : Text.OneLine r.header := by
  unfold Region.header
  have hopen : Text.OneLine ("@@ -" : Text) := by decide
  have hplus : Text.OneLine (" +" : Text) := by decide
  have hclose : Text.OneLine (" @@" : Text) := by decide
  refine Text.oneLine_append (Text.oneLine_append ?_ hclose) h
  refine Text.oneLine_append ?_ (oneLine_range _ _)
  exact Text.oneLine_append (Text.oneLine_append hopen (oneLine_range _ _)) hplus

theorem Region.written_rendered {r : Region} (h : Text.OneLine r.heading) :
    r.rendered.flatMap Text.written = r.lines := by
  unfold rendered lines
  rw [List.flatMap_cons, Text.written_of_oneLine (oneLine_header h), List.flatMap_assoc]
  simp only [BodyLine.written_rendered]
  rfl

theorem Patch.written_rendered {p : Patch} (h : p.WellFormed) :
    p.rendered.flatMap Text.written = p.lines := by
  have hhead : p.head.flatMap Text.written = p.head := by
    have hone : ∀ l ∈ p.head, Text.written l = [l] := fun l hl => Text.written_of_oneLine (h.head l hl).1
    rw [List.flatMap_congr hone]
    simp
  have hregions : (p.regions.flatMap Region.rendered).flatMap Text.written =
      p.regions.flatMap Region.lines := by
    rw [List.flatMap_assoc]
    exact List.flatMap_congr fun r hr => Region.written_rendered (h.heading r hr)
  unfold rendered lines
  rw [List.flatMap_append, List.flatMap_cons, Text.written_of_oneLine h.opening.1, hhead, hregions]
  rfl

/-- The lines of a rendered diff. -/
theorem lines_render {ps : List Patch} (h : ∀ p ∈ ps, p.WellFormed) :
    (render ps).lines = ps.flatMap Patch.lines := by
  unfold render
  rw [Text.lines_flatMap, List.flatMap_assoc]
  exact List.flatMap_congr fun p hp => Patch.written_rendered (h p hp)

/-! ## Header lines -/

theorem startsWith_iff {t lead : Text} : t.startsWith lead = true ↔ lead <+: t :=
  List.isPrefixOf_iff_prefix

theorem head?_of_startsWith {t lead : Text} {c : CodePoint} (h : t.startsWith (c :: lead) = true) :
    t.head? = some c := by
  rcases startsWith_iff.1 h with ⟨rest, rfl⟩
  rfl

/-- A line that opens a file begins as the word for a difference does. -/
theorem fileHeader?_of_head? {l : Text} (h : l.head? ≠ some ('d' : CodePoint)) :
    (fileHeader? l).isNone = true := by
  unfold fileHeader?
  split
  · rename_i hlead
    exact absurd (head?_of_startsWith hlead) h
  · rfl

theorem hunkHeader?_of_head? {l : Text} (h : l.head? ≠ some ('@' : CodePoint)) :
    (hunkHeader? l).isNone = true := by
  have hnone : expect? "@@ -" l = none := by
    unfold expect?
    split
    · rename_i hlead
      exact absurd (head?_of_startsWith hlead) h
    · rfl
  unfold hunkHeader?
  rw [hnone]
  rfl

/-- A line with any other first letter opens neither a file nor a hunk. -/
theorem plain_cons {c : CodePoint} (hfile : c ≠ 'd') (hhunk : c ≠ '@') (t : Text) :
    (fileHeader? (c :: t)).isNone = true ∧ (hunkHeader? (c :: t)).isNone = true :=
  ⟨fileHeader?_of_head? fun heq => hfile (Option.some.inj heq),
    hunkHeader?_of_head? fun heq => hhunk (Option.some.inj heq)⟩

theorem expect?_append (mark t : Text) : expect? mark (mark ++ t) = some t := by
  unfold expect?
  rw [if_pos (startsWith_iff.2 (List.prefix_append mark t)), List.drop_left]

/-- Trimming takes away what was written last, if it does not occur before. -/
theorem trimEnd_append {c : CodePoint} {t tail : Text} (ht : c ∉ t) (htail : ∀ x ∈ tail, x = c) :
    Text.trimEnd (t ++ tail) c = t := by
  have htail' : ∀ x ∈ tail.reverse, (x == c) = true := by
    intro x hx
    simp [htail x (List.mem_reverse.1 hx)]
  have hkept : ∀ x, t.reverse.head? = some x → (x == c) = false := by
    intro x hx
    apply beq_eq_false_iff_ne.2
    rintro rfl
    exact ht (List.mem_reverse.1 (List.mem_of_head? hx))
  unfold Text.trimEnd
  rw [List.reverse_append, (takeWhile_and_dropWhile_append htail' hkept).2, List.reverse_reverse]

/-- Digits are read up to what is no digit. -/
theorem digits?_append {digits t : Text} (hne : digits ≠ []) (hdigits : ∀ c ∈ digits, c.isDigit = true)
    (h : ∀ c, t.head? = some c → c.isDigit = false) : digits? (digits ++ t) = some (digits, t) := by
  rcases takeWhile_and_dropWhile_append hdigits h with ⟨htake, hdrop⟩
  unfold digits?
  simp [htake, hdrop, hne]

theorem digits?_ofNat (n : Nat) {t : Text} (h : ∀ c, t.head? = some c → c.isDigit = false) :
    digits? (Text.ofNat n ++ t) = some (Text.ofNat n, t) :=
  digits?_append (Text.ofNat_ne_nil n) (fun _ hc => Text.isDigit_of_mem_ofNat hc) h

theorem isDigit_of_head?_eq_space {t : Text} (h : t.head? = some (' ' : CodePoint)) :
    ∀ c, t.head? = some c → c.isDigit = false := by
  intro c hc
  rw [h] at hc
  cases hc
  decide

/-- A count that is left out is read as one. -/
theorem range?_start {digits t : Text} (hne : digits ≠ []) (hdigits : ∀ c ∈ digits, c.isDigit = true)
    (h : t.head? = some (' ' : CodePoint)) : range? (digits ++ t) = some ((digits, ("1" : Text)), t) := by
  have hcomma : t.startsWith "," = false := by
    cases hstarts : t.startsWith "," with
    | false => rfl
    | true =>
      have hhead := head?_of_startsWith hstarts
      rw [h] at hhead
      exact absurd (Option.some.inj hhead) (by decide)
  unfold range?
  rw [digits?_append hne hdigits (isDigit_of_head?_eq_space h)]
  simp [hcomma]

/-- A start and a count are read as they are written. -/
theorem range?_range (start count : Nat) {t : Text} (h : t.head? = some (' ' : CodePoint)) :
    range? (Region.range start count ++ t) = some ((Text.ofNat start, Text.ofNat count), t) := by
  have hdigits : ∀ c ∈ Text.ofNat start, c.isDigit = true := fun _ hc => Text.isDigit_of_mem_ofNat hc
  unfold Region.range
  by_cases hone : count = 1
  · have hofNat : Text.ofNat 1 = "1" := by decide
    rw [if_pos hone, List.append_nil, hone, hofNat]
    exact range?_start (Text.ofNat_ne_nil start) hdigits h
  · have hcomma : ∀ u : Text, Text.startsWith ((',' : CodePoint) :: u) "," = true := fun u =>
      startsWith_iff.2 (List.prefix_append [(',' : CodePoint)] u)
    have hnext : ∀ c, (((',' : CodePoint) :: Text.ofNat count) ++ t).head? = some c →
        c.isDigit = false := by
      intro c hc
      cases hc
      decide
    unfold range?
    rw [if_neg hone, List.append_assoc, digits?_ofNat start hnext]
    simp [hcomma, digits?_ofNat count (isDigit_of_head?_eq_space h)]

/-- The numbers of a header as they are written, a count of one included. -/
def Region.numbers (r : Region) : HunkHeader :=
  ⟨Text.ofNat r.oldStart, Text.ofNat r.oldCount, Text.ofNat r.newStart, Text.ofNat r.newCount⟩

theorem hunkHeader?_header (r : Region) : hunkHeader? r.header = some r.numbers := by
  have hplus : ∀ t : Text, ((" +" : Text) ++ t).head? = some (' ' : CodePoint) := fun _ => rfl
  have hclose : ∀ t : Text, ((" @@" : Text) ++ t).head? = some (' ' : CodePoint) := fun _ => rfl
  -- Mark by mark: each range ends where the next mark begins, with a space.
  unfold hunkHeader? Region.header
  simp only [List.append_assoc]
  rw [expect?_append]
  simp only [Option.bind_eq_bind, Option.bind_some]
  rw [range?_range _ _ (hplus _)]
  simp only [Option.bind_some]
  rw [expect?_append]
  simp only [Option.bind_some]
  rw [range?_range _ _ (hclose _)]
  simp only [Option.bind_some]
  rw [expect?_append]
  rfl

theorem hunk_numbers (r : Region) : r.numbers.hunk = r.hunk := by
  simp [Region.numbers, HunkHeader.hunk, Region.hunk, Text.digitsValue_ofNat]

/-- Cutting contents changes no number. -/
theorem hunk_numbers_cut (r : Region) : r.numbers.hunk = r.cut.hunk := by
  have hold : r.cut.oldCount = r.oldCount := by
    unfold Region.oldCount Region.cut
    rw [List.countP_map]
    rfl
  have hnew : r.cut.newCount = r.newCount := by
    unfold Region.newCount Region.cut
    rw [List.countP_map]
    rfl
  rw [hunk_numbers]
  unfold Region.hunk
  rw [hold, hnew]
  rfl

theorem isReadable_numbers (r : Region) : r.numbers.isReadable = r.isReadable := by
  have hlength : ∀ n : Nat, decide ((Text.ofNat n).length ≤ Limit.digits.size) =
      decide (n < 10 ^ Limit.digits.size) := fun n =>
    decide_eq_decide.2 (Text.length_ofNat_le_iff (by decide))
  simp only [HunkHeader.isReadable, Region.numbers, Region.isReadable, List.all_cons, List.all_nil,
    hlength]

theorem fileHeader?_header (r : Region) : (fileHeader? r.header).isNone = true := by
  refine fileHeader?_of_head? ?_
  have hhead : r.header.head? = some ('@' : CodePoint) := rfl
  rw [hhead]
  exact fun heq => absurd (Option.some.inj heq) (by decide)

/-! ## Bodies -/

/-- Behind the first line of a body places count from the numbers after that line. -/
theorem changeAt_succ (oldStart newStart : Int) (l : BodyLine) (body : List BodyLine) (i : Nat) :
    changeAt oldStart newStart (l :: body) (i + 1) =
      changeAt (oldStart + if l.mark.inOld then 1 else 0) (newStart + if l.mark.inNew then 1 else 0)
        body i := by
  have hold : (((l :: body).take (i + 1)).countP fun l => l.mark.inOld : Int) =
      (if l.mark.inOld then 1 else 0) + ((body.take i).countP fun l => l.mark.inOld : Int) := by
    rw [List.take_succ_cons, List.countP_cons]
    split <;> omega
  have hnew : (((l :: body).take (i + 1)).countP fun l => l.mark.inNew : Int) =
      (if l.mark.inNew then 1 else 0) + ((body.take i).countP fun l => l.mark.inNew : Int) := by
    rw [List.take_succ_cons, List.countP_cons]
    split <;> omega
  unfold changeAt
  rw [List.getElem?_cons_succ]
  refine congrArg (Option.bind body[i]?) ?_
  funext x
  cases x.mark with
  | context => rfl
  | deleted => simp only [hold, Int.add_assoc]
  | added => simp only [hnew, Int.add_assoc]

/-- The changes of a body are that of its first line and those of the rest. -/
theorem changes_cons (oldStart newStart : Int) (l : BodyLine) (body : List BodyLine) :
    changes oldStart newStart (l :: body) =
      (changeAt oldStart newStart [l] 0).toList ++
        changes (oldStart + if l.mark.inOld then 1 else 0) (newStart + if l.mark.inNew then 1 else 0)
          body := by
  -- Place 0 is that of the first line, and the other places are those of the rest, one further.
  have hfirst : changeAt oldStart newStart (l :: body) 0 = changeAt oldStart newStart [l] 0 := rfl
  have hrest : (changeAt oldStart newStart (l :: body)) ∘ Nat.succ =
      changeAt (oldStart + if l.mark.inOld then 1 else 0)
        (newStart + if l.mark.inNew then 1 else 0) body :=
    funext fun i => changeAt_succ oldStart newStart l body i
  unfold changes
  rw [List.length_cons, List.range_succ_eq_map, List.filterMap_cons, List.filterMap_map, hfirst, hrest]
  cases changeAt oldStart newStart [l] 0 <;> rfl

/-- Whether a change is kept in a file of some kind: a deleted file has no added lines. -/
def kept (kind : ChangeKind) (line : ChangedLine) : Bool :=
  line.isDeleted || kind ≠ .deleted

theorem inert_unendedNote : Inert unendedNote :=
  ⟨by decide, by decide, by intro m; cases m <;> decide⟩

theorem numberLines_inert (kind : ChangeKind) (oldLine newLine : Int) {ls rest : List Text}
    (h : ∀ l ∈ ls, Inert l) :
    numberLines kind oldLine newLine (ls ++ rest) = numberLines kind oldLine newLine rest := by
  induction ls with
  | nil => rfl
  | cons l ls ih =>
    rcases h l (by simp) with ⟨-, hhunk, hsign⟩
    have hnone := Option.isNone_iff_eq_none.1 hhunk
    rw [List.cons_append, numberLines.eq_def]
    simp only [hnone]
    -- An inert line is empty or begins with none of the three marks.
    cases l with
    | nil => exact ih fun l' hl' => h l' (by simp [hl'])
    | cons mark content =>
      have hadded : ¬ mark = '+' := fun heq => hsign .added (congrArg some heq)
      have hdeleted : ¬ mark = '-' := fun heq => hsign .deleted (congrArg some heq)
      have hcontext : ¬ mark = ' ' := fun heq => hsign .context (congrArg some heq)
      simp only [hadded, hdeleted, hcontext, if_false]
      exact ih fun l' hl' => h l' (by simp [hl'])

theorem hunkHeader?_sign (m : Mark) (t : Text) : hunkHeader? (m.sign :: t) = none := by
  refine Option.isNone_iff_eq_none.1 (hunkHeader?_of_head? ?_)
  cases m <;> exact fun heq => absurd (Option.some.inj heq) (by decide)

theorem fileHeader?_sign (m : Mark) (t : Text) : (fileHeader? (m.sign :: t)).isNone = true := by
  refine fileHeader?_of_head? ?_
  cases m <;> exact fun heq => absurd (Option.some.inj heq) (by decide)

theorem changeAt_context (oldStart newStart : Int) {l : BodyLine} (h : l.mark = .context) :
    changeAt oldStart newStart [l] 0 = none := by
  simp [changeAt, h]

theorem changeAt_deleted (oldStart newStart : Int) {l : BodyLine} (h : l.mark = .deleted) :
    changeAt oldStart newStart [l] 0 = some ⟨oldStart, l.content, true⟩ := by
  simp [changeAt, h]

theorem changeAt_added (oldStart newStart : Int) {l : BodyLine} (h : l.mark = .added) :
    changeAt oldStart newStart [l] 0 = some ⟨newStart, l.content, false⟩ := by
  simp [changeAt, h]

/-- The step lemma: one line of a body gives its change and advances the line numbers. -/
theorem numberLines_bodyLine (kind : ChangeKind) (oldLine newLine : Int) {l : BodyLine}
    (h : InertContent l.content) (rest : List Text) :
    numberLines kind oldLine newLine (l.lines ++ rest) =
      (changeAt oldLine newLine [l.cut] 0).toList.filter (kept kind) ++
        numberLines kind (oldLine + if l.mark.inOld then 1 else 0)
          (newLine + if l.mark.inNew then 1 else 0) rest := by
  have hinert : ∀ x ∈ (Text.written l.content).tail ++ (if l.unended then [unendedNote] else []),
      Inert x := by
    intro x hx
    rcases List.mem_append.1 hx with hx | hx
    · exact h x hx
    · split at hx
      · rw [List.mem_singleton.1 hx]
        exact inert_unendedNote
      · cases hx
  have hrest : ∀ o n : Int, numberLines kind o n (((Text.written l.content).tail ++
      if l.unended then [unendedNote] else []) ++ rest) = numberLines kind o n rest :=
    fun o n => numberLines_inert kind o n hinert
  have hdeletedAdded : ¬ ('-' : CodePoint) = '+' := by decide
  have hcontextAdded : ¬ (' ' : CodePoint) = '+' := by decide
  have hcontextDeleted : ¬ (' ' : CodePoint) = '-' := by decide
  -- The marked line is judged by its mark, and what its content adds is passed over.
  unfold BodyLine.lines
  rw [List.cons_append, List.cons_append, numberLines.eq_def]
  simp only [hunkHeader?_sign, hrest]
  cases hmark : l.mark with
  | context =>
    rw [changeAt_context oldLine newLine (l := l.cut) hmark]
    simp [Mark.sign, Mark.inOld, Mark.inNew, hcontextAdded, hcontextDeleted]
  | deleted =>
    rw [changeAt_deleted oldLine newLine (l := l.cut) hmark]
    simp [Mark.sign, Mark.inOld, Mark.inNew, hdeletedAdded, kept]
  | added =>
    rw [changeAt_added oldLine newLine (l := l.cut) hmark]
    by_cases hkind : kind = .deleted
    · simp [Mark.sign, Mark.inOld, Mark.inNew, kept, hkind]
    · simp [Mark.sign, Mark.inOld, Mark.inNew, kept, hkind]

/-- The lines of a body are numbered by their places. -/
theorem numberLines_body (kind : ChangeKind) (oldLine newLine : Int) {body : List BodyLine}
    (h : ∀ l ∈ body, InertContent l.content) (rest : List Text) :
    ∃ oldLine' newLine', numberLines kind oldLine newLine (body.flatMap BodyLine.lines ++ rest) =
      (changes oldLine newLine (body.map BodyLine.cut)).filter (kept kind) ++
        numberLines kind oldLine' newLine' rest := by
  -- By the step lemma, for every pair of numbers that the body may start with.
  induction body generalizing oldLine newLine with
  | nil => exact ⟨oldLine, newLine, rfl⟩
  | cons l body ih =>
    rcases ih (oldLine + if l.mark.inOld then 1 else 0) (newLine + if l.mark.inNew then 1 else 0)
      (fun l' hl' => h l' (by simp [hl'])) with ⟨oldLine', newLine', hbody⟩
    refine ⟨oldLine', newLine', ?_⟩
    have hmark : l.cut.mark = l.mark := rfl
    rw [List.flatMap_cons, List.append_assoc, numberLines_bodyLine kind oldLine newLine (h l (by simp)),
      hbody, List.map_cons, changes_cons, hmark, List.filter_append, List.append_assoc]

/-- The run lemma: the hunks of a file are numbered one after the other, each from its own start. -/
theorem numberLines_regions (kind : ChangeKind) (oldLine newLine : Int) {regions : List Region}
    (h : ∀ r ∈ regions, ∀ l ∈ r.body, InertContent l.content) :
    numberLines kind oldLine newLine (regions.flatMap Region.lines) =
      ((regions.map Region.cut).flatMap Region.changes).filter (kept kind) := by
  induction regions generalizing oldLine newLine with
  | nil => rfl
  | cons r regions ih =>
    -- The header resets both numbers, so nothing is left of the hunks before.
    rcases numberLines_body kind r.oldStart r.newStart (h r (by simp))
      (regions.flatMap Region.lines) with ⟨oldLine', newLine', hbody⟩
    have hstart : r.numbers.hunk.oldStart = r.oldStart ∧ r.numbers.hunk.newStart = r.newStart := by
      rw [hunk_numbers]
      exact ⟨rfl, rfl⟩
    rw [List.flatMap_cons, Region.lines, List.cons_append, numberLines.eq_def]
    simp only [hunkHeader?_header]
    rw [hstart.1, hstart.2, hbody, ih oldLine' newLine' fun r' hr' => h r' (by simp [hr']),
      List.map_cons, List.flatMap_cons, List.filter_append]
    rfl

/-! ## Sections -/

/-- The section of the diff that is written for one file. -/
def Patch.toSection (p : Patch) : Section :=
  let paths := (fileHeader? p.opening).getD ([], [])
  ⟨paths.1, paths.2, p.head ++ p.regions.flatMap Region.lines⟩

/-- The lines of a body open neither a file nor a hunk. -/
theorem plain_of_mem_lines {l : BodyLine} (h : InertContent l.content) {x : Text}
    (hx : x ∈ l.lines) : (fileHeader? x).isNone = true ∧ hunkHeader? x = none := by
  unfold BodyLine.lines at hx
  rcases List.mem_append.1 hx with hx | hx
  · rcases List.mem_cons.1 hx with rfl | hx
    · exact ⟨fileHeader?_sign _ _, hunkHeader?_sign _ _⟩
    · rcases h x hx with ⟨hfile, hhunk, -⟩
      exact ⟨hfile, Option.isNone_iff_eq_none.1 hhunk⟩
  · split at hx
    · rw [List.mem_singleton.1 hx]
      exact ⟨inert_unendedNote.1, Option.isNone_iff_eq_none.1 inert_unendedNote.2.1⟩
    · cases hx

theorem fileHeader?_of_mem_content {p : Patch} (hwf : p.WellFormed) (hinert : p.Inert) {x : Text}
    (hx : x ∈ p.toSection.content) : (fileHeader? x).isNone = true := by
  rcases List.mem_append.1 hx with hx | hx
  · exact (hwf.head x hx).2.1
  · rcases List.mem_flatMap.1 hx with ⟨r, hr, hx⟩
    rcases List.mem_cons.1 hx with rfl | hx
    · exact fileHeader?_header r
    · rcases List.mem_flatMap.1 hx with ⟨l, hl, hx⟩
      exact (plain_of_mem_lines (hinert r hr l hl) hx).1

/-- The lines of a patch are a piece, if only the first one opens a file. -/
theorem piece_lines {p : Patch} (hwf : p.WellFormed)
    (hplain : ∀ l ∈ p.toSection.content, (fileHeader? l).isNone = true) : Piece p.lines p.toSection := by
  rcases Option.isSome_iff_exists.1 hwf.opening.2 with ⟨paths, hopening⟩
  exact ⟨p.opening, rfl, by simp [Patch.toSection, hopening], hplain⟩

/-- The sections of a rendered diff are its patches, if none of their other lines opens a file. -/
theorem sections_lines {ps : List Patch} (hwf : ∀ p ∈ ps, p.WellFormed)
    (hplain : ∀ p ∈ ps, ∀ l ∈ p.toSection.content, (fileHeader? l).isNone = true) :
    sections (ps.flatMap Patch.lines) = ps.map Patch.toSection := by
  have hpieces : List.Forall₂ Piece (ps.map Patch.lines) (ps.map Patch.toSection) := by
    rw [List.forall₂_map_left_iff, List.forall₂_map_right_iff, List.forall₂_same]
    exact fun p hp => piece_lines (hwf p hp) (hplain p hp)
  rw [List.flatMap_def]
  exact sections_flatten hpieces

/-! ## The parts of a section -/

variable {p : Patch}

theorem body_starts (p : Patch) : ∀ l, (p.regions.flatMap Region.lines).head? = some l →
    (hunkHeader? l).isNone = false := by
  intro l hl
  cases hregions : p.regions with
  | nil =>
    rw [hregions] at hl
    cases hl
  | cons r regions =>
    rw [hregions] at hl
    cases hl
    rw [hunkHeader?_header]
    rfl

theorem head_and_body_toSection (hwf : p.WellFormed) :
    p.toSection.head = p.head ∧ p.toSection.body = p.regions.flatMap Region.lines :=
  Section.head_and_body rfl (fun l hl => (hwf.head l hl).2.2) (body_starts p)

theorem head_toSection (hwf : p.WellFormed) : p.toSection.head = p.head :=
  (head_and_body_toSection hwf).1

theorem body_toSection (hwf : p.WellFormed) :
    p.toSection.body = p.regions.flatMap Region.lines :=
  (head_and_body_toSection hwf).2

theorem readHead_toSection (hwf : p.WellFormed) : p.toSection.readHead = p.readHead := by
  unfold Section.readHead
  rw [head_toSection hwf]
  rfl

/-- The hunks of a section are at the headers that were written. -/
theorem hunkHeaders_toSection (hwf : p.WellFormed) (hinert : p.Inert) :
    p.toSection.hunkHeaders = p.regions.map Region.numbers := by
  have hregion : ∀ r ∈ p.regions, r.lines.filterMap hunkHeader? = [r.numbers] := by
    intro r hr
    have hbody : (r.body.flatMap BodyLine.lines).filterMap hunkHeader? = [] := by
      refine List.filterMap_eq_nil_iff.2 ?_
      intro x hx
      rcases List.mem_flatMap.1 hx with ⟨l, hl, hx⟩
      exact (plain_of_mem_lines (hinert r hr l hl) hx).2
    rw [Region.lines, List.filterMap_cons, hunkHeader?_header, hbody]
  unfold Section.hunkHeaders
  rw [body_toSection hwf, List.filterMap_flatMap, List.flatMap_congr hregion, List.map_eq_flatMap]

theorem isReadable_toSection (hwf : p.WellFormed) (hinert : p.Inert) :
    p.toSection.isReadable = p.isReadable := by
  unfold Section.isReadable
  rw [hunkHeaders_toSection hwf hinert, List.all_map]
  exact congrArg (List.all p.regions) (funext isReadable_numbers)

theorem toFileDiff_toSection (hwf : p.WellFormed) (hinert : p.Inert) :
    p.toSection.toFileDiff = p.cut.fileDiff := by
  have hhead : p.cut.readHead = p.readHead := rfl
  have hhunks : (p.regions.map Region.numbers).map HunkHeader.hunk =
      (p.regions.map Region.cut).map Region.hunk := by
    rw [List.map_map, List.map_map]
    exact List.map_congr_left fun r _ => hunk_numbers_cut r
  unfold Section.toFileDiff Patch.fileDiff
  dsimp only
  rw [readHead_toSection hwf, hunkHeaders_toSection hwf hinert, body_toSection hwf,
    numberLines_regions _ _ _ hinert, hhead, hhunks]
  rfl

/-- Reading undoes rendering: if all numbers are short enough to be read, the changes that are meant are
read, with the first line of each content. -/
theorem parse_render {ps : List Patch} (hwf : ∀ p ∈ ps, p.WellFormed) (hinert : ∀ p ∈ ps, p.Inert) :
    parse (render ps) =
      if ps.all Patch.isReadable then
        .ok (ps.map fun p => p.cut.fileDiff)
      else .error .digits := by
  have hreadable : (ps.map Patch.toSection).all Section.isReadable = ps.all Patch.isReadable := by
    rw [List.all_map, Bool.eq_iff_iff, List.all_eq_true, List.all_eq_true]
    refine forall_congr' fun p => forall_congr' fun hp => ?_
    rw [Function.comp_apply, isReadable_toSection (hwf p hp) (hinert p hp)]
  have hdiffs : (ps.map Patch.toSection).map Section.toFileDiff = ps.map fun p => p.cut.fileDiff := by
    rw [List.map_map]
    exact List.map_congr_left fun p hp => toFileDiff_toSection (hwf p hp) (hinert p hp)
  unfold parse
  dsimp only
  rw [lines_render hwf, sections_lines hwf fun p hp l hl =>
    fileHeader?_of_mem_content (hwf p hp) (hinert p hp) hl, hreadable, hdiffs]

end Diff

end AffectedTests
