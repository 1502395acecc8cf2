import AffectedTests.Proofs.Quoting
import AffectedTests.Proofs.Sections
/-!
# Paths of a rendered file

A file is written with the line that opens it, some notes on how it was changed, the paths of both sides
and its hunks. The paths are quoted, and they may be any two texts without surrogates: the path that is
read is the new one, or the old one if the file is deleted. Hunks hold the lines of a file as they are, so
a line with an inner boundary can open another file; then more than one file is read.

- `Diff.Entry.patch`: what is written for a file.
- `Diff.unforged_of_parse`, `Diff.exists_parse_of_unforged`: when a patch is read as one file.
- `Diff.Entry.path_read_iff`: when an entry is read under its path.
-/

namespace AffectedTests

namespace Diff

/-! ## Patches with any hunks -/

/-- Numbers of ordinary size are short enough to be read. -/
theorem Region.isReadable_of_le {r : Region}
    (h : ∀ n ∈ [r.oldStart, r.oldCount, r.newStart, r.newCount], n ≤ Limit.digits.size) :
    r.isReadable = true := by
  apply List.all_eq_true.2
  intro n hn
  apply decide_eq_true
  calc
    n ≤ Limit.digits.size := h n hn
    _ < 10 ^ Limit.digits.size := Nat.lt_pow_self (by decide)

namespace Patch

/-- The lines that the hunks of a patch become. -/
def bodyLines (p : Patch) : List Text :=
  (p.regions.flatMap Region.rendered).flatMap Text.written

/-- No line of a hunk opens another file, and the numbers of all hunks that can be found are short enough
to be read. -/
def Unforged (p : Patch) : Prop :=
  ∀ l ∈ p.bodyLines, (fileHeader? l).isNone = true ∧
    ∀ header, hunkHeader? l = some header → header.isReadable = true

/-- The lines before the first hunk are single lines; of these the first one opens a file and no other
one opens a file or a hunk. -/
structure Headed (p : Patch) : Prop where
  opening : Text.OneLine p.opening ∧ (fileHeader? p.opening).isSome = true
  head : ∀ l ∈ p.head, Text.OneLine l ∧ (fileHeader? l).isNone = true ∧
    (hunkHeader? l).isNone = true

/-- Headings and contents are single lines, and the numbers of all hunks are short enough to be read. -/
def Simple (p : Patch) : Prop :=
  ∀ r ∈ p.regions, Text.OneLine r.heading ∧ r.isReadable = true ∧
    ∀ l ∈ r.body, Text.OneLine l.content

variable {p : Patch}

/-- A simple patch opens nothing but its own hunks. -/
theorem unforged_of_simple (h : p.Simple) : p.Unforged := by
  have hlines : p.bodyLines = p.regions.flatMap Region.lines := by
    unfold bodyLines
    rw [List.flatMap_assoc]
    exact List.flatMap_congr fun r hr => Region.written_rendered (h r hr).1
  intro l hl
  rw [hlines] at hl
  rcases List.mem_flatMap.1 hl with ⟨r, hr, hl⟩
  rcases h r hr with ⟨-, hreadable, hcontents⟩
  rcases List.mem_cons.1 hl with rfl | hl
  · refine ⟨fileHeader?_header r, fun header hheader => ?_⟩
    cases (hunkHeader?_header r).symm.trans hheader
    exact (isReadable_numbers r).trans hreadable
  · rcases List.mem_flatMap.1 hl with ⟨x, hx, hl⟩
    rcases plain_of_mem_lines (inertContent_of_oneLine (hcontents x hx)) hl with ⟨hfile, hhunk⟩
    exact ⟨hfile, by simp [hhunk]⟩

end Patch

variable {p : Patch}

theorem lines_render_patch (h : p.Headed) :
    (render [p]).lines = p.opening :: (p.head ++ p.bodyLines) := by
  have hhead : p.head.flatMap Text.written = p.head := by
    have hone : ∀ l ∈ p.head, Text.written l = [l] := fun l hl => Text.written_of_oneLine (h.head l hl).1
    rw [List.flatMap_congr hone]
    simp
  calc
    (render [p]).lines = p.rendered.flatMap Text.written := by
      unfold render
      rw [Text.lines_flatMap, List.flatMap_singleton]
    _ = p.opening :: (p.head ++ p.bodyLines) := by
      simp [Patch.rendered, Patch.bodyLines, Text.written_of_oneLine h.opening.1, hhead]

/-- The first line of a hunk opens it, also if its heading holds boundary characters. -/
theorem hunkHeader?_written (r : Region) : ∃ first rest, Text.written r.header = first :: rest ∧
    hunkHeader? first = some r.numbers := by
  -- Only the heading can be cut, and it stands behind the numbers.
  have hsplit : r.header = ({ r with heading := [] } : Region).header ++ r.heading := by
    simp [Region.header, Region.oldCount, Region.newCount]
  have hcut : ∀ heading : Text, hunkHeader? (({ r with heading := [] } : Region).header ++ heading) =
      some r.numbers := by
    intro heading
    have hheader : ({ r with heading := [] } : Region).header ++ heading =
        ({ r with heading := heading } : Region).header := by
      simp [Region.header, Region.oldCount, Region.newCount]
    rw [hheader]
    exact hunkHeader?_header _
  have hone : Text.OneLine ({ r with heading := [] } : Region).header := oneLine_header Text.oneLine_nil
  refine ⟨_, (Text.written r.heading).tail, ?_, hcut ((Text.written r.heading).headD [])⟩
  rw [hsplit]
  exact Text.written_append hone r.heading

/-- The lines of the hunks begin with a hunk, unless there are none. -/
theorem bodyLines_start (p : Patch) : ∀ l, p.bodyLines.head? = some l →
    (hunkHeader? l).isNone = false := by
  intro l hl
  unfold Patch.bodyLines at hl
  cases hregions : p.regions with
  | nil =>
    rw [hregions] at hl
    cases hl
  | cons r regions =>
    rcases hunkHeader?_written r with ⟨first, rest, hwritten, hfirst⟩
    simp only [hregions, Region.rendered, List.flatMap_cons, List.cons_append, hwritten,
      List.head?_cons, Option.some.injEq] at hl
    simp [← hl, hfirst]

/-- The section of a patch, if no line of its hunks opens a file. -/
theorem piece_patch (h : p.Headed) (hplain : ∀ l ∈ p.bodyLines, (fileHeader? l).isNone = true) :
    ∃ s, Piece (p.opening :: (p.head ++ p.bodyLines)) s ∧ s.readHead = p.readHead := by
  rcases Option.isSome_iff_exists.1 h.opening.2 with ⟨paths, hpaths⟩
  have hcontent : ∀ l ∈ p.head ++ p.bodyLines, (fileHeader? l).isNone = true := by
    intro l hl
    rcases List.mem_append.1 hl with hl | hl
    · exact (h.head l hl).2.1
    · exact hplain l hl
  have hhead : (⟨paths.1, paths.2, p.head ++ p.bodyLines⟩ : Section).head = p.head :=
    (Section.head_and_body rfl (fun l hl => (h.head l hl).2.2) (bodyLines_start p)).1
  refine ⟨⟨paths.1, paths.2, p.head ++ p.bodyLines⟩, ⟨_, rfl, hpaths, hcontent⟩, ?_⟩
  simp [Section.readHead, Patch.readHead, hhead, hpaths]

/-- If a patch is read as one file, its hunks forge nothing. -/
theorem unforged_of_parse {d : FileDiff} (h : p.Headed) (hread : parse (render [p]) = .ok [d]) :
    p.Unforged := by
  rcases Option.isSome_iff_exists.1 h.opening.2 with ⟨paths, hpaths⟩
  rcases parse_eq_ok_iff.1 hread with ⟨hreadable, hone⟩
  rw [lines_render_patch h] at hreadable hone
  -- The opening is the only line that opens a file, because one file is read.
  have hcount : (p.head ++ p.bodyLines).countP (fun l => (fileHeader? l).isSome) = 0 := by
    have hlength := congrArg List.length hone
    rw [List.length_map, length_sections, List.countP_cons, if_pos h.opening.2] at hlength
    exact Nat.succ.inj hlength
  intro l hl
  have hnot := List.countP_eq_zero.1 hcount l (List.mem_append_right _ hl)
  refine ⟨Option.isNone_iff_eq_none.2 (Option.not_isSome_iff_eq_none.1 hnot), ?_⟩
  exact hreadable l (by simp [hpaths, hl])

/-- If the hunks of a patch forge nothing, one file is read, with the path and the kind that the head
says. -/
theorem exists_parse_of_unforged (h : p.Headed) (hunforged : p.Unforged) :
    ∃ d, parse (render [p]) = .ok [d] ∧ d.path = p.readHead.path ∧ d.kind = p.readHead.kind := by
  have hlines := lines_render_patch h
  rcases Option.isSome_iff_exists.1 h.opening.2 with ⟨paths, hpaths⟩
  rcases piece_patch h fun l hl => (hunforged l hl).1 with ⟨s, hpiece, hhead⟩
  refine ⟨s.toFileDiff, parse_eq_ok_iff.2 ⟨?_, ?_⟩, congrArg Head.path hhead, congrArg Head.kind hhead⟩
  · intro l hl header hheader
    rw [hlines] at hl
    rcases List.mem_cons.1 ((List.dropWhile_sublist _).subset hl) with rfl | hl
    · simp [hunkHeader?_of_fileHeader? hpaths] at hheader
    · rcases List.mem_append.1 hl with hl | hl
      · have hnone := (h.head l hl).2.2
        simp [hheader] at hnone
      · exact (hunforged l hl).2 header hheader
  · rw [hlines, sections_piece hpiece]
    rfl

/-! ## Entries -/

/-- What a line between the opening of a file and its paths is about. -/
inductive Title
  | created
  | removed
  | oldMode
  | newMode
  | similarity
  | dissimilarity
  | renamedFrom
  | renamedTo
  | copiedFrom
  | copiedTo
  | index

namespace Title

def wording : Title → Text
  | .created => "new file mode "
  | .removed => "deleted file mode "
  | .oldMode => "old mode "
  | .newMode => "new mode "
  | .similarity => "similarity index "
  | .dissimilarity => "dissimilarity index "
  | .renamedFrom => "rename from "
  | .renamedTo => "rename to "
  | .copiedFrom => "copy from "
  | .copiedTo => "copy to "
  | .index => "index "

/-- The kind of change that a title implies. -/
def kind? : Title → Option ChangeKind
  | .created => some .added
  | .removed => some .deleted
  | _ => none

end Title

/-- A line between the opening of a file and its paths. -/
structure Note where
  title : Title
  value : Text

def Note.rendered (n : Note) : Text :=
  n.title.wording ++ n.value

/-- A file with the paths of its two sides. -/
structure Entry where
  kind : ChangeKind
  oldPath : Text
  newPath : Text
  notes : List Note
  regions : List Region

/-- The quoted path of one side. After a path that holds a space a tab is written. -/
def quotedSide (letter path : Text) : Text :=
  Path.Quoted.encode (letter ++ path) ++
    if path.contains (' ' : CodePoint) then [('\t' : CodePoint)] else []

namespace Entry

def opening (e : Entry) : Text :=
  "diff --git " ++ (Path.Quoted.encode (("a/" : Text) ++ e.oldPath) ++
    ((" " : Text) ++ Path.Quoted.encode (("b/" : Text) ++ e.newPath)))

def oldSide (e : Entry) : Text :=
  "--- " ++ if e.kind = .added then nullPath else quotedSide "a/" e.oldPath

def newSide (e : Entry) : Text :=
  "+++ " ++ if e.kind = .deleted then nullPath else quotedSide "b/" e.newPath

/-- What is written for an entry. -/
def patch (e : Entry) : Patch where
  opening := e.opening
  head := e.notes.map Note.rendered ++ [e.oldSide, e.newSide]
  regions := e.regions

/-- The path by which the file is known. -/
def path (e : Entry) : Text :=
  if e.kind = .deleted then e.oldPath else e.newPath

/-- Paths without surrogates, and notes that are single lines and fit the kind of change. -/
structure Valid (e : Entry) : Prop where
  oldPath : e.oldPath.Scalar
  newPath : e.newPath.Scalar
  value : ∀ n ∈ e.notes, Text.OneLine n.value
  title : ∀ n ∈ e.notes, ∀ kind, n.title.kind? = some kind → kind = e.kind

end Entry

/-! ## Quoted sides -/

variable {letter path : Text}

theorem scalar_oldLetter : Text.Scalar ("a/" : Text) :=
  List.forall_mem_iff_forall_getElem.2 (by decide)

theorem scalar_newLetter : Text.Scalar ("b/" : Text) :=
  List.forall_mem_iff_forall_getElem.2 (by decide)

theorem oneLine_encode (t : Text) : Text.OneLine (Path.Quoted.encode t) := by
  -- No character that ends a line is printable.
  have hall : CodePoint.lineBoundaries.all (fun c => c.val < 0x20 || 0x7E < c.val) = true := by decide
  intro c hc
  cases hboundary : c.isLineBoundary with
  | false => rfl
  | true =>
    have hprintable := Path.Quoted.printable_of_mem_encode hc
    have hrange := List.all_eq_true.1 hall c (List.contains_iff_mem.1 hboundary)
    simp only [Bool.or_eq_true, decide_eq_true_eq] at hrange
    omega

theorem oneLine_quotedSide (letter path : Text) : Text.OneLine (quotedSide letter path) := by
  have htab : Text.OneLine [('\t' : CodePoint)] := by decide
  unfold quotedSide
  apply Text.oneLine_append (oneLine_encode _)
  split
  · exact htab
  · exact Text.oneLine_nil

theorem target_quotedSide {sign : Text} (hsign : sign.length = 4) (letter path : Text) :
    target (sign ++ quotedSide letter path) = Path.Quoted.encode (letter ++ path) := by
  unfold target quotedSide
  rw [← hsign, List.drop_left]
  apply trimEnd_append
  · intro htab
    exact absurd (Path.Quoted.printable_of_mem_encode htab).1 (by decide)
  · intro x hx
    split at hx
    · exact List.mem_singleton.1 hx
    · cases hx

theorem sidePath_encode (hletter : letter.Scalar) (hpath : path.Scalar) :
    sidePath letter (Path.Quoted.encode (letter ++ path)) = path := by
  unfold sidePath Text.dropLead
  rw [Path.Quoted.decode_encode (Text.scalar_append hletter hpath),
    if_pos (startsWith_iff.2 (List.prefix_append letter path)), List.drop_left]

/-- A quoted path is not taken for a missing side. -/
theorem encode_ne_nullPath (hletter : letter.Scalar) (hpath : path.Scalar)
    (hhead : (letter ++ path).head? ≠ nullPath.head?) :
    Path.Quoted.encode (letter ++ path) ≠ nullPath := by
  intro heq
  have hnull : Path.Quoted.decode nullPath = nullPath := by decide
  have hback := Path.Quoted.decode_encode (Text.scalar_append hletter hpath)
  rw [heq, hnull] at hback
  exact hhead (congrArg List.head? hback.symm)

/-! ## The head of an entry -/

namespace Entry

variable {e : Entry}

theorem fileHeader?_opening (h : e.Valid) : (fileHeader? e.opening).isSome = true := by
  rcases Path.Quoted.encode_append "a/" ⟨[0x61, 0x2F], by decide, by decide⟩ h.oldPath with
    ⟨old, hold⟩
  rcases Path.Quoted.encode_append "b/" ⟨[0x62, 0x2F], by decide, by decide⟩ h.newPath with
    ⟨new, hnew⟩
  -- The gap before the second path is found, whether that path is quoted or not.
  have hgap : (cutPaths? ((" " : Text) ++ Path.Quoted.encode (("b/" : Text) ++ e.newPath))).isSome =
      true := by
    rcases hnew with hnew | hnew
    · rw [hnew]
      rfl
    · rw [hnew]
      rfl
  have hcut := Change.cutPaths?_append (u := old) hgap
  -- The same holds for the first path.
  unfold opening
  rcases hold with hold | hold
  · have hheader : ∀ t : Text, fileHeader? (("diff --git " : Text) ++ (("a/" : Text) ++ t)) =
        (cutPaths? t).map fun paths =>
          (Path.Quoted.decode paths.1, Path.Quoted.decode paths.2) := fun _ => rfl
    rw [hold, List.append_assoc, hheader, Option.isSome_map]
    exact hcut
  · have hheader : ∀ t : Text,
        fileHeader? (("diff --git " : Text) ++ (('"' : CodePoint) :: (("a/" : Text) ++ t))) =
          (cutPaths? t).map fun paths =>
            (Path.Quoted.decode paths.1, Path.Quoted.decode paths.2) := fun _ => rfl
    rw [hold, List.cons_append, List.append_assoc, hheader, Option.isSome_map]
    exact hcut

theorem oneLine_opening (e : Entry) : Text.OneLine e.opening := by
  have hword : Text.OneLine ("diff --git " : Text) := by decide
  have hspace : Text.OneLine (" " : Text) := by decide
  apply Text.oneLine_append hword
  apply Text.oneLine_append (oneLine_encode _)
  exact Text.oneLine_append hspace (oneLine_encode _)

theorem oneLine_wording (title : Title) : Text.OneLine title.wording := by
  cases title <;> decide

/-- Which title a note has shows that it opens neither a file nor a hunk. -/
theorem plain_note (n : Note) :
    (fileHeader? n.rendered).isNone = true ∧ (hunkHeader? n.rendered).isNone = true := by
  rcases n with ⟨title, value⟩
  cases title <;> exact ⟨rfl, rfl⟩

theorem headed_patch (h : e.Valid) : e.patch.Headed where
  opening := ⟨oneLine_opening e, fileHeader?_opening h⟩
  head := by
    have hold : Text.OneLine ("--- " : Text) := by decide
    have hnew : Text.OneLine ("+++ " : Text) := by decide
    have hnull : Text.OneLine nullPath := by decide
    intro l hl
    rcases List.mem_append.1 hl with hl | hl
    · rcases List.mem_map.1 hl with ⟨n, hn, rfl⟩
      exact ⟨Text.oneLine_append (oneLine_wording n.title) (h.value n hn), plain_note n⟩
    · simp only [List.mem_cons, List.not_mem_nil, or_false] at hl
      rcases hl with rfl | rfl
      · refine ⟨Text.oneLine_append hold ?_, plain_cons (by decide) (by decide) _⟩
        split
        · exact hnull
        · exact oneLine_quotedSide _ _
      · refine ⟨Text.oneLine_append hnew ?_, plain_cons (by decide) (by decide) _⟩
        split
        · exact hnull
        · exact oneLine_quotedSide _ _

/-- A note says at most of which kind the change is. -/
theorem note_rendered (head : Head) (n : Note) : head.note (readMarker n.rendered) = head ∨
    ∃ kind, n.title.kind? = some kind ∧
      head.note (readMarker n.rendered) = { head with mode := some kind } := by
  rcases n with ⟨title, value⟩
  -- Two titles tell the kind, if a number follows; the head does not change with the others.
  cases title with
  | created =>
    have hread : readMarker (("new file mode " : Text) ++ value) =
        if isNumbered "new file mode " (("new file mode " : Text) ++ value) then .mode .added
        else .other := rfl
    unfold Note.rendered Title.wording
    rw [hread]
    split
    · exact .inr ⟨.added, rfl, rfl⟩
    · exact .inl rfl
  | removed =>
    have hread : readMarker (("deleted file mode " : Text) ++ value) =
        if isNumbered "deleted file mode " (("deleted file mode " : Text) ++ value) then .mode .deleted
        else .other := rfl
    unfold Note.rendered Title.wording
    rw [hread]
    split
    · exact .inr ⟨.deleted, rfl, rfl⟩
    · exact .inl rfl
  | _ => exact .inl rfl

/-- The notes of an entry change at most the kind, and only to the right one. -/
theorem foldl_notes {kind : ChangeKind} {notes : List Note}
    (h : ∀ n ∈ notes, ∀ k, n.title.kind? = some k → k = kind) (head : Head)
    (hmode : ∀ k ∈ head.mode, k = kind) : ∃ mode : Option ChangeKind, (∀ k ∈ mode, k = kind) ∧
      (notes.map Note.rendered).foldl (fun head line => head.note (readMarker line)) head =
        { head with mode := mode } := by
  -- Note by note; what is carried along is that the mode is missing or the right one.
  induction notes generalizing head with
  | nil => exact ⟨head.mode, hmode, rfl⟩
  | cons n notes ih =>
    have hrest := ih fun n' hn' => h n' (List.mem_cons_of_mem n hn')
    rw [List.map_cons, List.foldl_cons]
    rcases note_rendered head n with hsame | ⟨k, hk, hnoted⟩
    · rw [hsame]
      exact hrest head hmode
    · rw [hnoted]
      exact hrest _ (by simpa using h n (by simp) k hk)

theorem readMarker_oldSide (h : e.Valid) :
    readMarker e.oldSide = if e.kind = .added then .oldMissing else .oldPath e.oldPath := by
  unfold oldSide
  by_cases hkind : e.kind = .added
  · rw [if_pos hkind, if_pos hkind]
    rfl
  · have hread : ∀ t : Text, readMarker (("--- " : Text) ++ t) =
        if target (("--- " : Text) ++ t) = nullPath then .oldMissing
        else .oldPath (sidePath "a/" (target (("--- " : Text) ++ t))) := fun _ => rfl
    have hnull : Path.Quoted.encode (("a/" : Text) ++ e.oldPath) ≠ nullPath :=
      encode_ne_nullPath scalar_oldLetter h.oldPath fun hhead =>
        absurd (Option.some.inj hhead) (by decide)
    rw [if_neg hkind, if_neg hkind, hread, target_quotedSide rfl, if_neg hnull,
      sidePath_encode scalar_oldLetter h.oldPath]

theorem readMarker_newSide (h : e.Valid) :
    readMarker e.newSide = if e.kind = .deleted then .newMissing else .newPath e.newPath := by
  unfold newSide
  by_cases hkind : e.kind = .deleted
  · rw [if_pos hkind, if_pos hkind]
    rfl
  · have hread : ∀ t : Text, readMarker (("+++ " : Text) ++ t) =
        if target (("+++ " : Text) ++ t) = nullPath then .newMissing
        else .newPath (sidePath "b/" (target (("+++ " : Text) ++ t))) := fun _ => rfl
    have hnull : Path.Quoted.encode (("b/" : Text) ++ e.newPath) ≠ nullPath :=
      encode_ne_nullPath scalar_newLetter h.newPath fun hhead =>
        absurd (Option.some.inj hhead) (by decide)
    rw [if_neg hkind, if_neg hkind, hread, target_quotedSide rfl, if_neg hnull,
      sidePath_encode scalar_newLetter h.newPath]

/-- What the head of an entry says. -/
theorem readHead_patch (h : e.Valid) :
    e.patch.readHead.path = e.path ∧ e.patch.readHead.kind = e.kind := by
  have hold := readMarker_oldSide h
  have hnew := readMarker_newSide h
  -- The paths in the opening are overwritten by the sides that are not missing.
  rcases foldl_notes h.title ⟨((fileHeader? e.opening).getD ([], [])).1,
    ((fileHeader? e.opening).getD ([], [])).2, none, none⟩ (by simp) with ⟨mode, hmode, hfold⟩
  have hread : e.patch.readHead = (({ (⟨((fileHeader? e.opening).getD ([], [])).1,
      ((fileHeader? e.opening).getD ([], [])).2, none, none⟩ : Head) with mode := mode }.note
        (readMarker e.oldSide)).note (readMarker e.newSide)) := by
    unfold Patch.readHead patch
    dsimp only
    rw [List.foldl_append, hfold]
    rfl
  have hcases : mode = none ∨ mode = some e.kind := by
    cases mode with
    | none => exact .inl rfl
    | some k => exact .inr (congrArg some (hmode k rfl))
  rw [hread, hold, hnew]
  -- What the notes say agrees with the missing side.
  rcases hcases with rfl | rfl <;> cases hkind : e.kind <;>
    simp [Head.note, Head.kind, Head.path, path, hkind]

/-- An entry is read as one file with its path and its kind exactly if its hunks forge nothing. Hunks of
single lines forge nothing. -/
theorem path_read_iff (h : e.Valid) :
    ((∃ d, parse (render [e.patch]) = .ok [d] ∧ d.path = e.path ∧ d.kind = e.kind) ↔
      e.patch.Unforged) ∧
    (e.patch.Simple → e.patch.Unforged) := by
  have hheaded := headed_patch h
  rcases readHead_patch h with ⟨hpath, hkind⟩
  refine ⟨⟨?_, ?_⟩, Patch.unforged_of_simple⟩
  · rintro ⟨d, hread, -⟩
    exact unforged_of_parse hheaded hread
  · intro hunforged
    rcases exists_parse_of_unforged hheaded hunforged with ⟨d, hread, hpath', hkind'⟩
    exact ⟨d, hread, hpath'.trans hpath, hkind'.trans hkind⟩

/-- A file that is renamed, from a path with what looks like a second path to one that has to be quoted. -/
def renamed : Entry where
  kind := .modified
  oldPath := "x b/y"
  newPath := "é\t\"\\1"
  notes := [⟨.similarity, "90%"⟩, ⟨.renamedFrom, "x b/y"⟩, ⟨.index, "1111111..2222222 100644"⟩]
  regions := [⟨1, 1, [], [⟨.deleted, "diff --git a/x b/x", false⟩]⟩]

theorem valid_renamed : renamed.Valid where
  oldPath := List.forall_mem_iff_forall_getElem.2 (by decide)
  newPath := List.forall_mem_iff_forall_getElem.2 (by decide)
  value := by
    intro n hn
    simp only [renamed, List.mem_cons, List.not_mem_nil, or_false] at hn
    rcases hn with rfl | rfl | rfl <;> decide
  title := by
    intro n hn kind hkind
    simp only [renamed, List.mem_cons, List.not_mem_nil, or_false] at hn
    rcases hn with rfl | rfl | rfl <;> cases hkind

theorem simple_renamed : renamed.patch.Simple := by
  intro r hr
  rw [List.mem_singleton.1 hr]
  refine ⟨by decide, Region.isReadable_of_le (by decide), ?_⟩
  intro l hl
  rw [List.mem_singleton.1 hl]
  decide

theorem path_read_renamed : renamed.Valid ∧ renamed.patch.Simple ∧
    ∃ d, parse (render [renamed.patch]) = .ok [d] ∧ d.path = "é\t\"\\1" ∧ d.kind = .modified := by
  rcases path_read_iff valid_renamed with ⟨hread, hsimple⟩
  exact ⟨valid_renamed, simple_renamed, hread.2 (hsimple simple_renamed)⟩

/-- A file with a carriage return in an added line, and behind it what looks like an opening. -/
def returning : Entry where
  kind := .modified
  oldPath := "m"
  newPath := "m"
  notes := [⟨.index, "1111111..2222222 100644"⟩]
  regions := [⟨1, 1, [], [⟨.deleted, "a", false⟩, ⟨.added, "a\rdiff --git a/x b/x", false⟩]⟩]

theorem valid_returning : returning.Valid where
  oldPath := List.forall_mem_iff_forall_getElem.2 (by decide)
  newPath := List.forall_mem_iff_forall_getElem.2 (by decide)
  value := by
    intro n hn
    rw [List.mem_singleton.1 hn]
    decide
  title := by
    intro n hn kind hkind
    rw [List.mem_singleton.1 hn] at hkind
    cases hkind

/-- A content can open another file. -/
theorem not_path_read : ¬ ∀ e : Entry, e.Valid → e.regions ≠ [] →
    ∃ d, parse (render [e.patch]) = .ok [d] ∧ d.path = e.path := by
  intro h
  rcases h returning valid_returning (by decide) with ⟨d, hread, -⟩
  have hline : ("diff --git a/x b/x" : Text) ∈ returning.patch.bodyLines := by decide
  have hunforged := unforged_of_parse (headed_patch valid_returning) hread _ hline
  exact absurd hunforged.1 (by decide)

end Entry

end Diff

end AffectedTests
