import AffectedTests.Proofs.Bindings
import AffectedTests.Proofs.Rendering
/-!
# Seeds of a change

A trace starts at the declarations that the added lines of a diff belong to. In a diff without context
the added lines are the lines of the hunks in the new file, so a hunk that adds lines gives all
declarations within its span. A hunk that only deletes lines has a point for its span but no line in the
new file, and it gives none.

- `FileDiff.IsZeroContext`: a diff without context whose lines are as its hunks say.
- `Diff.isZeroContext_toFileDiff`: what is read of such a diff.
- `Tracing.changed_iff_of_isZeroContext`: the seeds.
-/

namespace AffectedTests

/-! ## Diffs without context -/

/-- Consecutive numbers. -/
def numbersFrom (start count : Int) : List Int :=
  (List.range count.toNat).map fun i : Nat => start + (i : Int)

theorem mem_numbersFrom_iff {start count n : Int} :
    n ∈ numbersFrom start count ↔ start ≤ n ∧ n < start + count := by
  unfold numbersFrom
  rw [List.mem_map]
  constructor
  · rintro ⟨i, hi, rfl⟩
    have hi := List.mem_range.1 hi
    omega
  · rintro ⟨hlow, hhigh⟩
    exact ⟨(n - start).toNat, List.mem_range.2 (by omega), by omega⟩

theorem numbersFrom_succ (start : Int) (count : Nat) :
    numbersFrom start (count + 1 : Nat) = start :: numbersFrom (start + 1) count := by
  unfold numbersFrom
  rw [Int.toNat_natCast, Int.toNat_natCast, List.range_succ_eq_map, List.map_cons, List.map_map]
  refine congrArg₂ _ (by simp) (List.map_congr_left fun i _ => ?_)
  simp only [Function.comp_apply, Nat.succ_eq_add_one]
  omega

/-- The lines of a hunk without context: its deleted lines are numbered from its start in the old file,
its added lines from its start in the new one, and there are as many as it says. -/
structure Hunk.Heads (h : Hunk) (block : List ChangedLine) : Prop where
  deleted : (block.filter fun l => l.isDeleted).map (·.number) = numbersFrom h.oldStart h.oldCount
  added : (block.filter fun l => !l.isDeleted).map (·.number) = numbersFrom h.newStart h.newCount

/-- A diff without context whose lines are, hunk after hunk, as the hunks say. -/
def FileDiff.IsZeroContext (d : FileDiff) : Prop :=
  ∃ blocks, List.Forall₂ Hunk.Heads d.hunks blocks ∧ d.lines = blocks.flatten

/-- The span of a hunk that adds lines. -/
theorem Hunk.mem_numbersFrom_iff {h : Hunk} {n : Int} : n ∈ numbersFrom h.newStart h.newCount ↔
    0 < h.newCount ∧ h.newStart ≤ n ∧ n ≤ h.newEnd := by
  unfold newEnd
  rw [AffectedTests.mem_numbersFrom_iff]
  omega

theorem Hunk.mem_added_iff {hunks : List Hunk} {blocks : List (List ChangedLine)}
    (h : List.Forall₂ Hunk.Heads hunks blocks) {n : Int} :
    (∃ line ∈ blocks.flatten.filter fun l => !l.isDeleted, line.number = n) ↔
      ∃ h ∈ hunks, 0 < h.newCount ∧ h.newStart ≤ n ∧ n ≤ h.newEnd := by
  induction h with
  | nil => simp
  | @cons h block hunks blocks hheads _ ih =>
    have hhere : (∃ line ∈ block.filter fun l => !l.isDeleted, line.number = n) ↔
        0 < h.newCount ∧ h.newStart ≤ n ∧ n ≤ h.newEnd := by
      rw [← Hunk.mem_numbersFrom_iff, ← hheads.added, List.mem_map]
    rw [List.flatten_cons, List.filter_append, List.exists_mem_cons_iff, ← hhere, ← ih]
    simp only [List.mem_append, or_and_right, exists_or]

/-- The added lines of a diff without context are the spans of the hunks that add lines. -/
theorem FileDiff.IsZeroContext.mem_addedLines_iff {d : FileDiff} (h : d.IsZeroContext) {n : Int} :
    (∃ line ∈ d.addedLines, line.number = n) ↔
      ∃ h ∈ d.hunks, 0 < h.newCount ∧ h.newStart ≤ n ∧ n ≤ h.newEnd := by
  rcases h with ⟨blocks, hblocks, hlines⟩
  unfold addedLines
  rw [hlines]
  exact Hunk.mem_added_iff hblocks

/-! ## Reading them -/

namespace Diff

/-- A body without context: hunk after hunk, each with as many deleted and added lines as its header
says, in any order. -/
inductive ZeroContext : List Text → Prop
  | done : ZeroContext []
  | hunk {line : Text} {header : HunkHeader} {block rest : List Text}
      (hheader : hunkHeader? line = some header)
      (hblock : ∀ l ∈ block, hunkHeader? l = none ∧ l.head? ≠ some Mark.context.sign)
      (hdeleted : (block.countP fun l => l.head? = some Mark.deleted.sign : Int) = header.hunk.oldCount)
      (hadded : (block.countP fun l => l.head? = some Mark.added.sign : Int) = header.hunk.newCount)
      (hrest : ZeroContext rest) : ZeroContext (line :: (block ++ rest))

variable {kind : ChangeKind} {block : List Text} {l : Text}

theorem numberLines_added (rest : List Text) (oldLine newLine : Int) (hkind : kind ≠ .deleted)
    (hheader : hunkHeader? l = none)
    (h : l.head? = some Mark.added.sign) : ∃ content, numberLines kind oldLine newLine (l :: rest) =
      ⟨newLine, content, false⟩ :: numberLines kind oldLine (newLine + 1) rest := by
  rcases List.head?_eq_some_iff.1 h with ⟨content, rfl⟩
  refine ⟨content, ?_⟩
  rw [numberLines.eq_def]
  simp only [hheader]
  simp [Mark.sign, hkind]

theorem numberLines_deleted (kind : ChangeKind) (rest : List Text) (oldLine newLine : Int)
    (hheader : hunkHeader? l = none)
    (h : l.head? = some Mark.deleted.sign) : ∃ content, numberLines kind oldLine newLine (l :: rest) =
      ⟨oldLine, content, true⟩ :: numberLines kind (oldLine + 1) newLine rest := by
  have hadded : ¬ Mark.deleted.sign = '+' := by decide
  rcases List.head?_eq_some_iff.1 h with ⟨content, rfl⟩
  refine ⟨content, ?_⟩
  rw [numberLines.eq_def]
  simp only [hheader, hadded, if_false]
  simp [Mark.sign]

/-- A line with none of the three marks counts for nothing. -/
theorem numberLines_unmarked {rest : List Text} {oldLine newLine : Int}
    (hheader : hunkHeader? l = none)
    (h : ∀ m : Mark, l.head? ≠ some m.sign) :
    numberLines kind oldLine newLine (l :: rest) = numberLines kind oldLine newLine rest := by
  rw [numberLines.eq_def]
  simp only [hheader]
  cases l with
  | nil => rfl
  | cons mark content =>
    have hadded : ¬ mark = '+' := fun heq => h .added (congrArg some heq)
    have hdeleted : ¬ mark = '-' := fun heq => h .deleted (congrArg some heq)
    have hcontext : ¬ mark = ' ' := fun heq => h .context (congrArg some heq)
    simp only [hadded, hdeleted, hcontext, if_false]

/-- The numbers that the lines of a hunk without context are given, from any two numbers on. -/
theorem exists_numberLines_block (rest : List Text) (hkind : kind ≠ .deleted)
    (hblock : ∀ l ∈ block, hunkHeader? l = none ∧ l.head? ≠ some Mark.context.sign)
    (oldLine newLine : Int) : ∃ changes oldLine' newLine',
      numberLines kind oldLine newLine (block ++ rest) =
        changes ++ numberLines kind oldLine' newLine' rest ∧
      (changes.filter fun l => l.isDeleted).map (·.number) =
        numbersFrom oldLine (block.countP fun l => l.head? = some Mark.deleted.sign) ∧
      (changes.filter fun l => !l.isDeleted).map (·.number) =
        numbersFrom newLine (block.countP fun l => l.head? = some Mark.added.sign) := by
  induction block generalizing oldLine newLine with
  | nil => exact ⟨[], oldLine, newLine, rfl, rfl, rfl⟩
  | cons l block ih =>
    rcases hblock l (by simp) with ⟨hheader, hcontext⟩
    have ih := ih fun l' hl' => hblock l' (by simp [hl'])
    have hapart : Mark.added.sign ≠ Mark.deleted.sign := by decide
    rw [List.cons_append]
    -- A marked line takes the next number of its side; any other line is passed over.
    by_cases hadded : l.head? = some Mark.added.sign
    · rcases ih oldLine (newLine + 1) with ⟨changes, o, n, hlines, hdeleted', hadded'⟩
      rcases numberLines_added (block ++ rest) oldLine newLine hkind hheader hadded with ⟨content, hfirst⟩
      refine ⟨⟨newLine, content, false⟩ :: changes, o, n, by rw [hfirst, hlines]; rfl, ?_, ?_⟩
      · rw [List.countP_cons_of_neg (by simp [hadded, hapart])]
        exact hdeleted'
      · rw [List.countP_cons_of_pos (by simp [hadded]), numbersFrom_succ, ← hadded']
        rfl
    · by_cases hdeleted : l.head? = some Mark.deleted.sign
      · rcases ih (oldLine + 1) newLine with ⟨changes, o, n, hlines, hdeleted', hadded'⟩
        rcases numberLines_deleted kind (block ++ rest) oldLine newLine hheader hdeleted with
          ⟨content, hfirst⟩
        refine ⟨⟨oldLine, content, true⟩ :: changes, o, n, by rw [hfirst, hlines]; rfl, ?_, ?_⟩
        · rw [List.countP_cons_of_pos (by simp [hdeleted]), numbersFrom_succ, ← hdeleted']
          rfl
        · rw [List.countP_cons_of_neg (by simp [hadded])]
          exact hadded'
      · have hsilent : ∀ m : Mark, l.head? ≠ some m.sign := by
          intro m
          cases m with
          | context => exact hcontext
          | deleted => exact hdeleted
          | added => exact hadded
        rw [numberLines_unmarked hheader hsilent, List.countP_cons_of_neg (by simp [hdeleted]),
          List.countP_cons_of_neg (by simp [hadded])]
        exact ih oldLine newLine

/-- The changes of a body without context, hunk by hunk. -/
theorem ZeroContext.exists_blocks {body : List Text} (h : ZeroContext body) (hkind : kind ≠ .deleted)
    (oldLine newLine : Int) : ∃ blocks,
      List.Forall₂ Hunk.Heads ((body.filterMap hunkHeader?).map HunkHeader.hunk) blocks ∧
        numberLines kind oldLine newLine body = blocks.flatten := by
  induction h generalizing oldLine newLine with
  | done => exact ⟨[], .nil, by rw [numberLines.eq_def]; rfl⟩
  | @hunk line header block rest hheader hblock hdeleted hadded _ ih =>
    rcases exists_numberLines_block rest hkind hblock header.hunk.oldStart header.hunk.newStart with
      ⟨changes, o, n, hlines, hdeleted', hadded'⟩
    rcases ih o n with ⟨blocks, hblocks, hrest⟩
    have hnone : block.filterMap hunkHeader? = [] :=
      List.filterMap_eq_nil_iff.2 fun l hl => (hblock l hl).1
    rw [hdeleted] at hdeleted'
    rw [hadded] at hadded'
    refine ⟨changes :: blocks, ?_, ?_⟩
    · rw [List.filterMap_cons, hheader, List.filterMap_append, hnone, List.nil_append, List.map_cons]
      exact .cons ⟨hdeleted', hadded'⟩ hblocks
    · rw [numberLines.eq_def]
      simp only [hheader]
      rw [hlines, hrest, List.flatten_cons]

/-- What is read of a diff of a file that is not deleted, if its body is without context and as its
headers say. -/
theorem isZeroContext_toFileDiff {sec : Section} (h : ZeroContext sec.body)
    (hkind : sec.readHead.kind ≠ .deleted) : sec.toFileDiff.IsZeroContext :=
  h.exists_blocks hkind 0 0

end Diff

/-! ## The seeds -/

namespace Tracing

variable {w : Workspace} {s : Session} {diff : FileDiff} {path : Text} {seeds : List Declaration}
  {d : Declaration}

/-- Keeping one declaration for each key keeps one for the key of each. -/
theorem exists_mem_foldl_known {ds known : List Declaration}
    (h : (∃ k ∈ known, k.key = d.key) ∨ d ∈ ds) :
    ∃ k ∈ ds.foldl (fun known d =>
      if known.any fun k => k.key = d.key then known else known ++ [d]) known, k.key = d.key := by
  induction ds generalizing known with
  | nil =>
    rcases h with h | h
    · exact h
    · cases h
  | cons x ds ih =>
    refine ih ?_
    rcases h with ⟨k, hk, hkey⟩ | h
    · refine .inl ⟨k, ?_, hkey⟩
      dsimp only
      split
      · exact hk
      · exact List.mem_append_left _ hk
    · rcases List.mem_cons.1 h with rfl | h
      · -- Either the key is known already, or the declaration is added.
        dsimp only
        split
        · rename_i hany
          rcases List.any_eq_true.1 hany with ⟨k, hk, hkey⟩
          exact .inl ⟨k, hk, of_decide_eq_true hkey⟩
        · exact .inl ⟨d, by simp, rfl⟩
      · exact .inr h

/-- An added line belongs to a declaration. -/
def Added (w : Workspace) (s : Session) (diff : FileDiff) (path : Text) (d : Declaration) : Prop :=
  ∃ line ∈ diff.addedLines, (Query.changedAt? path line.number).answer w s = .ok (some d)

/-- A line in the span of a hunk that adds lines belongs to a declaration. -/
def Spanned (w : Workspace) (s : Session) (diff : FileDiff) (path : Text) (d : Declaration) : Prop :=
  ∃ h ∈ diff.hunks, 0 < h.newCount ∧ ∃ n, h.newStart ≤ n ∧ n ≤ h.newEnd ∧
    (Query.changedAt? path n).answer w s = .ok (some d)

theorem mem_filterMap_found_iff {found : List (Option Declaration)}
    (h : (diff.addedLines.mapM fun line => (Query.changedAt? path line.number).answer w s) =
      .ok found) : d ∈ found.filterMap id ↔ Added w s diff path d := by
  rw [List.mem_filterMap]
  constructor
  · rintro ⟨o, ho, rfl⟩
    exact Fallible.mem_of_mapM_eq_ok h ho
  · rintro ⟨line, hline, hd⟩
    rcases Fallible.exists_of_mapM_eq_ok h hline with ⟨o, ho, ho'⟩
    cases hd.symm.trans ho'
    exact ⟨some d, ho, rfl⟩

/-- Only declarations that added lines belong to are seeds. -/
theorem added_of_mem_changed (hs : s.Coherent) (h : (changed diff path).answer w s = .ok seeds)
    (hd : d ∈ seeds) : Added w s diff path d := by
  rcases (answer_changed_eq_ok hs).1 h with ⟨found, hfound, hseeds⟩
  rw [hseeds] at hd
  rcases mem_of_mem_foldl_known hd with hd | hd
  · cases hd
  · exact (mem_filterMap_found_iff hfound).1 hd

/-- Every declaration that an added line belongs to is a seed, up to the key that tells declarations
apart. -/
theorem exists_mem_changed (hs : s.Coherent) (h : (changed diff path).answer w s = .ok seeds)
    (hd : Added w s diff path d) : ∃ k ∈ seeds, k.key = d.key := by
  rcases (answer_changed_eq_ok hs).1 h with ⟨found, hfound, hseeds⟩
  rw [hseeds]
  exact exists_mem_foldl_known (.inr ((mem_filterMap_found_iff hfound).2 hd))

/-- If no two declarations of a file start at one byte, the key tells those in view apart. -/
theorem mem_changed_iff (hs : s.Coherent)
    (happart : ∀ path f, s.fileOf w path = .ok f → f.StartsApart)
    (h : (changed diff path).answer w s = .ok seeds) : d ∈ seeds ↔ Added w s diff path d := by
  refine ⟨added_of_mem_changed hs h, fun hd => ?_⟩
  rcases exists_mem_changed hs h hd with ⟨k, hk, hkey⟩
  rcases hd with ⟨line, -, hd⟩
  have hsame : k = d := Session.eq_of_key_eq happart (declares_of_changed hs h k hk)
    (Query.declares_of_changedAt? hs hd).1 hkey
  exact hsame ▸ hk

theorem added_iff_spanned (hdiff : diff.IsZeroContext) :
    Added w s diff path d ↔ Spanned w s diff path d := by
  constructor
  · rintro ⟨line, hline, hd⟩
    rcases hdiff.mem_addedLines_iff.1 ⟨line, hline, rfl⟩ with ⟨h, hh, hcount, hlow, hhigh⟩
    exact ⟨h, hh, hcount, line.number, hlow, hhigh, hd⟩
  · rintro ⟨h, hh, hcount, n, hlow, hhigh, hd⟩
    rcases hdiff.mem_addedLines_iff.2 ⟨h, hh, hcount, hlow, hhigh⟩ with ⟨line, hline, rfl⟩
    exact ⟨line, hline, hd⟩

/-- The seeds of a diff without context. They are found if the lookup answers at every line in the span of
a hunk that adds lines. Only the declarations that these lines belong to are seeds, and each of them has
its key among those of the seeds; so it is a seed itself, if no two declarations of a file start at one
byte. -/
theorem changed_iff_of_isZeroContext (hs : s.Coherent) (hdiff : diff.IsZeroContext) (path : Text) :
    ((∃ seeds, (changed diff path).answer w s = .ok seeds) ↔
      ∀ h ∈ diff.hunks, 0 < h.newCount → ∀ n, h.newStart ≤ n → n ≤ h.newEnd →
        ∃ found, (Query.changedAt? path n).answer w s = .ok found) ∧
    ∀ seeds, (changed diff path).answer w s = .ok seeds →
      (∀ d ∈ seeds, Spanned w s diff path d) ∧
      (∀ d, Spanned w s diff path d → ∃ k ∈ seeds, k.key = d.key) ∧
      ((∀ path f, s.fileOf w path = .ok f → f.StartsApart) →
        ∀ d, d ∈ seeds ↔ Spanned w s diff path d) := by
  refine ⟨?_, fun seeds h => ⟨?_, ?_, ?_⟩⟩
  · rw [exists_changed_iff hs]
    constructor
    · intro hall h hh hcount n hlow hhigh
      rcases hdiff.mem_addedLines_iff.2 ⟨h, hh, hcount, hlow, hhigh⟩ with ⟨line, hline, rfl⟩
      exact hall line hline
    · intro hall line hline
      rcases hdiff.mem_addedLines_iff.1 ⟨line, hline, rfl⟩ with ⟨h, hh, hcount, hlow, hhigh⟩
      exact hall h hh hcount line.number hlow hhigh
  · intro d hd
    exact (added_iff_spanned hdiff).1 (added_of_mem_changed hs h hd)
  · intro d hd
    exact exists_mem_changed hs h ((added_iff_spanned hdiff).2 hd)
  · intro happart d
    exact (mem_changed_iff hs happart h).trans (added_iff_spanned hdiff)

end Tracing

/-! ## A hunk that only deletes -/

namespace Imported

theorem startsApart {p : Text} {f : SourceFile} (h : session.fileOf workspace p = .ok f) :
    f.StartsApart := by
  refine SourceFile.startsApart_of_nodup ?_
  unfold SourceFile.top
  rcases tree_of_fileOf h with ⟨-, htree⟩ | ⟨-, htree⟩ | htree <;> rw [htree] <;> decide

/-- A change of the first line of `a`. -/
def replacement : FileDiff :=
  ⟨"a.js", .modified, [⟨1, "function f() {}", true⟩, ⟨1, "export function f() {}", false⟩],
    [⟨1, 1, 1, 1⟩]⟩

/-- A deletion behind the first line of `a`. -/
def deletion : FileDiff :=
  ⟨"a.js", .modified, [⟨2, "f();", true⟩], [⟨2, 1, 1, 0⟩]⟩

theorem isZeroContext_replacement : replacement.IsZeroContext :=
  ⟨[replacement.lines], .cons ⟨rfl, rfl⟩ .nil, rfl⟩

theorem isZeroContext_deletion : deletion.IsZeroContext :=
  ⟨[deletion.lines], .cons ⟨rfl, rfl⟩ .nil, rfl⟩

/-- The function on the changed line is the seed. -/
theorem changed_iff_of_isZeroContext_replacement :
    (Tracing.changed replacement "/p/a.js").answer workspace session = .ok [declared] ∧
    (Query.changedAt? "/p/a.js" 1).answer workspace session = .ok (some declared) ∧
    ∀ d, d ∈ [declared] ↔ Tracing.Spanned workspace session replacement "/p/a.js" d := by
  have hseeds : (Tracing.changed replacement "/p/a.js").answer workspace session = .ok [declared] := by
    rfl
  rcases (Tracing.changed_iff_of_isZeroContext coherent isZeroContext_replacement "/p/a.js").2 _ hseeds
    with ⟨-, -, hall⟩
  exact ⟨hseeds, rfl, hall fun _ _ => startsApart⟩

/-- The function that spans the point of a deletion is no seed. -/
theorem not_changed_iff_of_deletion :
    (Tracing.changed deletion "/p/a.js").answer workspace session = .ok [] ∧
    (Query.changedAt? "/p/a.js" 1).answer workspace session = .ok (some declared) ∧
    ¬ ∀ (w : Workspace) (s : Session) (diff : FileDiff) (path : Text), s.Coherent →
      (∀ path f, s.fileOf w path = .ok f → f.StartsApart) → diff.IsZeroContext →
      ∀ h ∈ diff.hunks, ∀ n, h.newStart ≤ n → n ≤ h.newEnd → ∀ d,
        (Query.changedAt? path n).answer w s = .ok (some d) →
          ∀ seeds, (Tracing.changed diff path).answer w s = .ok seeds → d ∈ seeds := by
  have hseeds : (Tracing.changed deletion "/p/a.js").answer workspace session = .ok [] := by rfl
  have hpoint : (Query.changedAt? "/p/a.js" 1).answer workspace session = .ok (some declared) := by
    rfl
  refine ⟨hseeds, hpoint, fun hall => ?_⟩
  have hmem := hall workspace session deletion "/p/a.js" coherent (fun _ _ => startsApart)
    isZeroContext_deletion ⟨2, 1, 1, 0⟩ (by simp [deletion]) 1 (by decide) (by decide) declared hpoint
    [] hseeds
  cases hmem

end Imported

end AffectedTests
