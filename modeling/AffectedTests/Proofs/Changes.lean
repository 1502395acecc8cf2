import AffectedTests.Proofs.Rereading
/-!
# Changes as git writes them

A change adds, modifies or deletes a file. It is written with the line that opens the file, a mode line
if the file is added or deleted, an index line, the paths of both sides and the hunks. Reading what is
written for a list of changes gives these changes back.

- `Diff.Change.patch`: what is written for a change.
- `Diff.readHead_patch`: what its head says.
- `Diff.parse_changes`: what is read.
-/

namespace AffectedTests

namespace Diff

/-- A change of one file. -/
structure Change where
  kind : ChangeKind
  path : Text
  /-- The mode of a file that is added or deleted. -/
  mode : Text
  /-- What the index line says. -/
  index : Text
  regions : List Region

namespace Change

/-! ## What is written -/

/-- The path on one side. After a path that holds a space a tab is written. -/
def side (letter : Text) (c : Change) : Text :=
  letter ++ c.path ++ if c.path.contains (' ' : CodePoint) then [('\t' : CodePoint)] else []

def opening (c : Change) : Text :=
  "diff --git " ++ (("a/" : Text) ++ (c.path ++ ((" b/" : Text) ++ c.path)))

def modeLines (c : Change) : List Text :=
  match c.kind with
  | .added => ["new file mode " ++ c.mode]
  | .deleted => ["deleted file mode " ++ c.mode]
  | .modified => []

def oldSide (c : Change) : Text :=
  "--- " ++ if c.kind = .added then nullPath else c.side "a/"

def newSide (c : Change) : Text :=
  "+++ " ++ if c.kind = .deleted then nullPath else c.side "b/"

/-- What is written for a change. -/
def patch (c : Change) : Patch where
  opening := c.opening
  head := c.modeLines ++ ["index " ++ c.index, c.oldSide, c.newSide]
  regions := c.regions

/-- The change that is meant. -/
def fileDiff (c : Change) : FileDiff where
  path := c.path
  kind := c.kind
  lines := c.regions.flatMap Region.changes
  hunks := c.regions.map Region.hunk

/-- Whether the numbers of all hunks are short enough to be read. -/
def isReadable (c : Change) : Bool :=
  c.regions.all Region.isReadable

/-- A character that is written in a path as it is. -/
def PathPoint (x : CodePoint) : Prop :=
  0x20 ≤ x.val ∧ x.val ≤ 0x7E ∧ x ≠ ('"' : CodePoint) ∧ x ≠ ('\\' : CodePoint)

instance (x : CodePoint) : Decidable (PathPoint x) :=
  inferInstanceAs (Decidable (_ ∧ _))

/-- What git can write: a path of printable characters, a mode of digits, and an index line, headings
and contents without boundary characters. A deleted file gets no line. -/
structure Valid (c : Change) : Prop where
  path_ne : c.path ≠ []
  path : ∀ x ∈ c.path, PathPoint x
  mode : c.kind ≠ .modified → c.mode ≠ [] ∧ ∀ x ∈ c.mode, x.isDigit = true
  index : Text.OneLine c.index
  heading : ∀ r ∈ c.regions, Text.OneLine r.heading
  content : ∀ r ∈ c.regions, ∀ l ∈ r.body, Text.OneLine l.content
  deleted : c.kind = .deleted → ∀ r ∈ c.regions, ∀ l ∈ r.body, l.mark ≠ .added

variable {c : Change}

/-! ## The opening line -/

theorem oneLine_path (h : c.Valid) : Text.OneLine c.path := by
  have hall : CodePoint.lineBoundaries.all (fun x => x.val < 0x20 || 0x7E < x.val) = true := by decide
  intro x hx
  cases hboundary : x.isLineBoundary with
  | false => rfl
  | true =>
    have hrange := List.all_eq_true.1 hall x (List.contains_iff_mem.1 hboundary)
    have hpoint := h.path x hx
    simp only [Bool.or_eq_true, decide_eq_true_eq] at hrange
    have hlow := hpoint.1
    have hhigh := hpoint.2.1
    omega

theorem oneLine_opening (h : c.Valid) : Text.OneLine c.opening := by
  have hword : Text.OneLine ("diff --git " : Text) := by decide
  have hold : Text.OneLine ("a/" : Text) := by decide
  have hnew : Text.OneLine (" b/" : Text) := by decide
  have hpaths : Text.OneLine (c.path ++ ((" b/" : Text) ++ c.path)) :=
    Text.oneLine_append (oneLine_path h) (Text.oneLine_append hnew (oneLine_path h))
  exact Text.oneLine_append hword (Text.oneLine_append hold hpaths)

theorem cutPaths?_append {t u : Text} (h : (cutPaths? t).isSome = true) :
    (cutPaths? (u ++ t)).isSome = true := by
  -- A gap further back is found unless one is found before it.
  induction u with
  | nil => exact h
  | cons x u ih =>
    rw [List.cons_append, cutPaths?]
    split
    · rfl
    · rw [Option.isSome_map]
      exact ih

theorem secondPath?_gap (t : Text) : (secondPath? ((" b/" : Text) ++ t)).isSome = true := rfl

theorem fileHeader?_opening (c : Change) : (fileHeader? c.opening).isSome = true := by
  have hgap : (cutPaths? ((" b/" : Text) ++ c.path)).isSome = true := by
    have hcut : cutPaths? ((" b/" : Text) ++ c.path) =
        (secondPath? ((" b/" : Text) ++ c.path)).map fun second => ([], second) := rfl
    rw [hcut, Option.isSome_map]
    exact secondPath?_gap c.path
  have hheader : fileHeader? c.opening =
      (cutPaths? (c.path ++ ((" b/" : Text) ++ c.path))).map fun paths =>
        (Path.Quoted.decode paths.1, Path.Quoted.decode paths.2) := rfl
  rw [hheader, Option.isSome_map]
  exact cutPaths?_append hgap

/-! ## The head -/

theorem readMarker_index (t : Text) : readMarker ("index " ++ t) = .other := rfl

theorem isNumbered_append {title t : Text} (hne : t ≠ []) (hdigits : ∀ x ∈ t, x.isDigit = true) :
    isNumbered title (title ++ t) = true := by
  have hlength : 0 < t.length := List.length_pos_of_ne_nil hne
  unfold isNumbered
  rw [startsWith_iff.2 (List.prefix_append title t), List.drop_left]
  simpa [hlength] using hdigits

theorem readMarker_added (h : c.Valid) (hkind : c.kind = .added) :
    readMarker ("new file mode " ++ c.mode) = .mode .added := by
  have hmode := h.mode (by rw [hkind]; decide)
  unfold readMarker
  rw [if_pos (isNumbered_append hmode.1 hmode.2)]

theorem readMarker_deleted (h : c.Valid) (hkind : c.kind = .deleted) :
    readMarker ("deleted file mode " ++ c.mode) = .mode .deleted := by
  have hmode := h.mode (by rw [hkind]; decide)
  have hnew : isNumbered "new file mode " ("deleted file mode " ++ c.mode) = false := rfl
  unfold readMarker
  rw [hnew, if_neg (by decide), if_pos (isNumbered_append hmode.1 hmode.2)]

/-- A path line without the tab after it. -/
theorem trimEnd_side (h : c.Valid) {letter : Text} (hletter : ∀ x ∈ letter, PathPoint x) :
    Text.trimEnd (c.side letter) '\t' = letter ++ c.path := by
  -- A tab is no character of a path, so exactly the one that was written after it is trimmed.
  apply trimEnd_append
  · intro htab
    have hpoint : PathPoint '\t' := by
      rcases List.mem_append.1 htab with htab | htab
      · exact hletter _ htab
      · exact h.path _ htab
    exact absurd hpoint (by decide)
  · intro x hx
    split at hx
    · exact List.mem_singleton.1 hx
    · cases hx

theorem target_append (h : c.Valid) {sign letter : Text} (hsign : sign.length = 4)
    (hletter : ∀ x ∈ letter, PathPoint x) : target (sign ++ c.side letter) = letter ++ c.path := by
  unfold target
  rw [← hsign, List.drop_left]
  exact trimEnd_side h hletter

/-- A path without special characters is written as it is. -/
theorem decode_of_points {t : Text} (h : ∀ x ∈ t, PathPoint x) : Path.Quoted.decode t = t := by
  have hhead : t.head? ≠ some ('"' : CodePoint) :=
    fun hquote => (h _ (List.mem_of_head? hquote)).2.2.1 rfl
  have hslash : ('\\' : CodePoint) ∉ t := fun hmem => (h _ hmem).2.2.2 rfl
  simp [Path.Quoted.decode, Path.Quoted.unwrap, hhead, hslash]

theorem sidePath_append (h : c.Valid) {letter : Text} (hletter : ∀ x ∈ letter, PathPoint x) :
    sidePath letter (letter ++ c.path) = c.path := by
  have hpoints : ∀ x ∈ letter ++ c.path, PathPoint x := by
    intro x hx
    rcases List.mem_append.1 hx with hx | hx
    · exact hletter x hx
    · exact h.path x hx
  unfold sidePath Text.dropLead
  rw [decode_of_points hpoints, if_pos (startsWith_iff.2 (List.prefix_append letter c.path)),
    List.drop_left]

theorem oldLetter_points : ∀ x ∈ ("a/" : Text), PathPoint x :=
  List.forall_mem_iff_forall_getElem.2 (by decide)

theorem newLetter_points : ∀ x ∈ ("b/" : Text), PathPoint x :=
  List.forall_mem_iff_forall_getElem.2 (by decide)

theorem readMarker_oldSide (h : c.Valid) :
    readMarker c.oldSide = if c.kind = .added then .oldMissing else .oldPath c.path := by
  unfold oldSide
  by_cases hkind : c.kind = .added
  · rw [if_pos hkind, if_pos hkind]
    rfl
  · have htarget : target ("--- " ++ c.side "a/") = "a/" ++ c.path :=
      target_append h rfl oldLetter_points
    have hpath : ("a/" : Text) ++ c.path ≠ nullPath := by
      intro heq
      have hhead : some ('a' : CodePoint) = some ('/' : CodePoint) := congrArg List.head? heq
      exact absurd (Option.some.inj hhead) (by decide)
    have hread : readMarker ("--- " ++ c.side "a/") =
        if target ("--- " ++ c.side "a/") = nullPath then .oldMissing
        else .oldPath (sidePath "a/" (target ("--- " ++ c.side "a/"))) := rfl
    rw [if_neg hkind, if_neg hkind, hread, htarget, if_neg hpath,
      sidePath_append h oldLetter_points]

theorem readMarker_newSide (h : c.Valid) :
    readMarker c.newSide = if c.kind = .deleted then .newMissing else .newPath c.path := by
  unfold newSide
  by_cases hkind : c.kind = .deleted
  · rw [if_pos hkind, if_pos hkind]
    rfl
  · have htarget : target ("+++ " ++ c.side "b/") = "b/" ++ c.path :=
      target_append h rfl newLetter_points
    have hpath : ("b/" : Text) ++ c.path ≠ nullPath := by
      intro heq
      have hhead : some ('b' : CodePoint) = some ('/' : CodePoint) := congrArg List.head? heq
      exact absurd (Option.some.inj hhead) (by decide)
    have hread : readMarker ("+++ " ++ c.side "b/") =
        if target ("+++ " ++ c.side "b/") = nullPath then .newMissing
        else .newPath (sidePath "b/" (target ("+++ " ++ c.side "b/"))) := rfl
    rw [if_neg hkind, if_neg hkind, hread, htarget, if_neg hpath,
      sidePath_append h newLetter_points]

/-- What the head of a change says. -/
theorem readHead_patch (h : c.Valid) :
    c.patch.readHead.kind = c.kind ∧ c.patch.readHead.path = c.path := by
  -- What the opening says about the paths is overwritten by the lines of the two sides.
  have hold := readMarker_oldSide h
  have hnew := readMarker_newSide h
  unfold Patch.readHead patch modeLines
  cases hkind : c.kind with
  | added =>
    simp only [hkind, List.foldl_append, List.foldl_cons, List.foldl_nil, readMarker_added h hkind,
      readMarker_index, hold, hnew]
    exact ⟨rfl, rfl⟩
  | deleted =>
    simp only [hkind, List.foldl_append, List.foldl_cons, List.foldl_nil, readMarker_deleted h hkind,
      readMarker_index, hold, hnew]
    exact ⟨rfl, rfl⟩
  | modified =>
    simp only [hkind, List.foldl_append, List.foldl_cons, List.foldl_nil, readMarker_index, hold, hnew]
    exact ⟨rfl, rfl⟩

/-! ## The patch of a change -/

theorem oneLine_mode (h : c.Valid) : ∀ l ∈ c.modeLines, Text.OneLine l := by
  have hadded : Text.OneLine ("new file mode " : Text) := by decide
  have hdeleted : Text.OneLine ("deleted file mode " : Text) := by decide
  unfold modeLines
  intro l hl
  cases hkind : c.kind with
  | added =>
    have hmode := h.mode (by rw [hkind]; decide)
    rw [hkind] at hl
    rw [List.mem_singleton.1 hl]
    exact Text.oneLine_append hadded (oneLine_of_digits hmode.2)
  | deleted =>
    have hmode := h.mode (by rw [hkind]; decide)
    rw [hkind] at hl
    rw [List.mem_singleton.1 hl]
    exact Text.oneLine_append hdeleted (oneLine_of_digits hmode.2)
  | modified =>
    rw [hkind] at hl
    cases hl

theorem oneLine_side (h : c.Valid) {letter : Text} (hletter : Text.OneLine letter) :
    Text.OneLine (c.side letter) := by
  have htab : Text.OneLine [('\t' : CodePoint)] := by decide
  unfold side
  refine Text.oneLine_append (Text.oneLine_append hletter (oneLine_path h)) ?_
  split
  · exact htab
  · exact Text.oneLine_nil

theorem oneLine_oldSide (h : c.Valid) : Text.OneLine c.oldSide := by
  have hsign : Text.OneLine ("--- " : Text) := by decide
  have hnull : Text.OneLine nullPath := by decide
  unfold oldSide
  refine Text.oneLine_append hsign ?_
  split
  · exact hnull
  · exact oneLine_side h (by decide)

theorem oneLine_newSide (h : c.Valid) : Text.OneLine c.newSide := by
  have hsign : Text.OneLine ("+++ " : Text) := by decide
  have hnull : Text.OneLine nullPath := by decide
  unfold newSide
  refine Text.oneLine_append hsign ?_
  split
  · exact hnull
  · exact oneLine_side h (by decide)

theorem oneLine_head (h : c.Valid) {l : Text} (hl : l ∈ c.patch.head) : Text.OneLine l := by
  have hindex : Text.OneLine ("index " : Text) := by decide
  rcases List.mem_append.1 hl with hl | hl
  · exact oneLine_mode h l hl
  · simp only [List.mem_cons, List.not_mem_nil, or_false] at hl
    rcases hl with rfl | rfl | rfl
    · exact Text.oneLine_append hindex h.index
    · exact oneLine_oldSide h
    · exact oneLine_newSide h

/-- No line of the head opens a file or a hunk. -/
theorem plain_head {l : Text} (hl : l ∈ c.patch.head) :
    (fileHeader? l).isNone = true ∧ (hunkHeader? l).isNone = true := by
  rcases List.mem_append.1 hl with hl | hl
  · unfold modeLines at hl
    cases hkind : c.kind with
    | added =>
      rw [hkind] at hl
      rw [List.mem_singleton.1 hl]
      exact plain_cons (by decide) (by decide) _
    | deleted =>
      -- This line begins as the one that opens a file does, and differs in the second letter.
      rw [hkind] at hl
      rw [List.mem_singleton.1 hl]
      exact ⟨rfl, rfl⟩
    | modified =>
      rw [hkind] at hl
      cases hl
  · simp only [List.mem_cons, List.not_mem_nil, or_false] at hl
    rcases hl with rfl | rfl | rfl
    · exact plain_cons (by decide) (by decide) _
    · exact plain_cons (by decide) (by decide) _
    · exact plain_cons (by decide) (by decide) _

theorem wellFormed_patch (h : c.Valid) : c.patch.WellFormed where
  opening := ⟨oneLine_opening h, fileHeader?_opening c⟩
  head := fun _ hl => ⟨oneLine_head h hl, plain_head hl⟩
  heading := h.heading

theorem inert_patch (h : c.Valid) : c.patch.Inert :=
  fun r hr l hl => inertContent_of_oneLine (h.content r hr l hl)

/-- Contents that are single lines are read in full. -/
theorem cut_patch (h : c.Valid) : c.patch.cut = c.patch := by
  have hline : ∀ r ∈ c.regions, ∀ l ∈ r.body, l.cut = l := by
    intro r hr l hl
    unfold BodyLine.cut
    rw [Text.written_of_oneLine (h.content r hr l hl)]
    rfl
  have hregion : ∀ r ∈ c.regions, r.cut = r := by
    intro r hr
    have hbody : r.body.map BodyLine.cut = r.body := by
      rw [List.map_congr_left (hline r hr), List.map_id']
    unfold Region.cut
    rw [hbody]
  have hregions : c.regions.map Region.cut = c.regions := by
    rw [List.map_congr_left hregion, List.map_id']
  unfold Patch.cut patch
  dsimp only
  rw [hregions]

/-! ## Reading changes -/

/-- A change that is no deletion comes from an added line. -/
theorem mark_of_mem_changes {oldStart newStart : Int} {body : List BodyLine} {line : ChangedLine}
    (h : line ∈ changes oldStart newStart body) (hadded : line.isDeleted = false) :
    ∃ l ∈ body, l.mark = .added := by
  rcases List.mem_filterMap.1 h with ⟨i, -, hline⟩
  rcases Option.bind_eq_some_iff.1 hline with ⟨l, hl, hchange⟩
  refine ⟨l, List.mem_of_getElem? hl, ?_⟩
  cases hmark : l.mark with
  | context =>
    rw [hmark] at hchange
    cases hchange
  | deleted =>
    rw [hmark] at hchange
    cases hchange
    cases hadded
  | added => rfl

theorem fileDiff_patch (h : c.Valid) : c.patch.fileDiff = c.fileDiff := by
  rcases readHead_patch h with ⟨hkind, hpath⟩
  -- The filter for deleted files finds nothing to remove.
  have hkept : ∀ line ∈ c.regions.flatMap Region.changes,
      (line.isDeleted || decide (c.kind ≠ .deleted)) = true := by
    intro line hline
    rcases List.mem_flatMap.1 hline with ⟨r, hr, hline⟩
    cases hdeleted : line.isDeleted with
    | true => rfl
    | false =>
      rcases mark_of_mem_changes hline hdeleted with ⟨l, hl, hmark⟩
      have hne : c.kind ≠ .deleted := fun hkind => h.deleted hkind r hr l hl hmark
      rw [decide_eq_true hne]
      rfl
  unfold Patch.fileDiff fileDiff
  rw [hkind, hpath]
  have hlines : (c.patch.regions.flatMap Region.changes).filter
      (fun line => line.isDeleted || decide (c.kind ≠ .deleted)) =
        c.regions.flatMap Region.changes := List.filter_eq_self.2 hkept
  rw [hlines]
  rfl

end Change

/-- Reading gives back the changes that were written, in order, unless a start or a count is too long to
be read. -/
theorem parse_changes {cs : List Change} (h : ∀ c ∈ cs, c.Valid) :
    parse (render (cs.map Change.patch)) =
      if cs.all Change.isReadable then .ok (cs.map Change.fileDiff) else .error .digits := by
  have hwf : ∀ p ∈ cs.map Change.patch, p.WellFormed :=
    List.forall_mem_map.2 fun c hc => Change.wellFormed_patch (h c hc)
  have hinert : ∀ p ∈ cs.map Change.patch, p.Inert :=
    List.forall_mem_map.2 fun c hc => Change.inert_patch (h c hc)
  have hdiffs : (cs.map Change.patch).map (fun p => p.cut.fileDiff) = cs.map Change.fileDiff := by
    rw [List.map_map]
    refine List.map_congr_left fun c hc => ?_
    rw [Function.comp_apply, Change.cut_patch (h c hc), Change.fileDiff_patch (h c hc)]
  rw [parse_render hwf hinert, hdiffs, List.all_map]
  rfl

namespace Change

/-- A hunk that begins too far behind the start of its file. -/
def distantRegion : Region where
  oldStart := 10 ^ Limit.digits.size
  newStart := 1
  heading := []
  body := [⟨.deleted, "x", false⟩]

def distant : Change where
  kind := .modified
  path := "a.md"
  mode := []
  index := "1111111..2222222 100644"
  regions := [distantRegion]

theorem valid_distant : distant.Valid where
  path_ne := by decide
  path := List.forall_mem_iff_forall_getElem.2 (by decide)
  mode := fun h => absurd rfl h
  index := by decide
  heading := by
    intro r hr
    rw [List.mem_singleton.1 hr]
    decide
  content := by
    intro r hr l hl
    rw [List.mem_singleton.1 hr] at hl
    rw [List.mem_singleton.1 hl]
    decide
  deleted := by
    intro h
    cases h

theorem not_isReadable_distantRegion : distantRegion.isReadable = false := by
  have hstart : decide (distantRegion.oldStart < 10 ^ Limit.digits.size) = false :=
    decide_eq_false (Nat.lt_irrefl _)
  unfold Region.isReadable
  rw [List.all_cons, hstart]
  rfl

/-- Not every change is read back. -/
theorem not_parse_changes : ¬ ∀ cs : List Change, (∀ c ∈ cs, c.Valid ∧ c.regions ≠ []) →
    parse (render (cs.map patch)) = .ok (cs.map fileDiff) := by
  intro hall
  have hread := hall [distant] (List.forall_mem_singleton.2 ⟨valid_distant, by decide⟩)
  have hrefused : parse (render [distant.patch]) = .error .digits := by
    rw [parse_render (List.forall_mem_singleton.2 (wellFormed_patch valid_distant))
      (List.forall_mem_singleton.2 (inert_patch valid_distant))]
    refine if_neg fun hreadable => ?_
    have hregion := List.all_eq_true.1 (List.all_eq_true.1 hreadable _ (List.mem_singleton_self _))
      distantRegion (List.mem_singleton_self _)
    rw [not_isReadable_distantRegion] at hregion
    cases hregion
  rw [List.map_singleton, hrefused] at hread
  cases hread

/-- A change whose lines look like path lines, in a file with a space in its path. -/
def lookalike : Change where
  kind := .modified
  path := "docs/a b.md"
  mode := []
  index := "1111111..2222222 100644"
  regions := [⟨3, 3, " @@ -1 +1 @@", [⟨.context, "diff --git a/x b/x", false⟩,
    ⟨.deleted, "-- a/x", false⟩, ⟨.added, "++ b/x", true⟩]⟩]

theorem valid_lookalike : lookalike.Valid where
  path_ne := by decide
  path := List.forall_mem_iff_forall_getElem.2 (by decide)
  mode := fun h => absurd rfl h
  index := by decide
  heading := by
    intro r hr
    rw [List.mem_singleton.1 hr]
    decide
  content := by
    intro r hr l hl
    rw [List.mem_singleton.1 hr] at hl
    simp only [List.mem_cons, List.not_mem_nil, or_false] at hl
    rcases hl with rfl | rfl | rfl <;> decide
  deleted := by
    intro h
    cases h

/-- Lines that look like path lines are read as lines. -/
theorem parse_lookalike : parse (render [lookalike.patch]) = .ok [⟨"docs/a b.md", .modified,
    [⟨4, "-- a/x", true⟩, ⟨4, "++ b/x", false⟩], [⟨3, 2, 3, 2⟩]⟩] := by
  have hreadable : [lookalike].all isReadable = true := by decide +kernel
  have hread := parse_changes (List.forall_mem_singleton.2 valid_lookalike)
  rw [hreadable, if_pos rfl] at hread
  exact hread.trans (by decide)

end Change

end Diff

end AffectedTests
