import AffectedTests.Proofs.Encoding
import AffectedTests.Proofs.Parts
import AffectedTests.Proofs.Routes
/-!
# When an analysis gives an answer

A text that cannot be decoded makes the look-up fail that comes across it. What fails in the search for
the references to a declaration is passed over, but for an escape with a number of more than 31 bits; what
fails in any other look-up ends the whole analysis, whichever file it belongs to. An analysis gives an
answer exactly if none of its files makes a look-up of the second sort fail.

- `Query.exists_answer_uses_iff`: what is passed over in the search for references.
- `Legible`: no look-up around a declaration fails for good.
- `Workspace.analyze_answers`: the analyses that give an answer.
-/

namespace AffectedTests

/-! ## Lookups in one file -/

/-- What is looked for in the file at a path is found or known to be missing. In a file that cannot be
loaded there is nothing to look for. -/
def Session.Answers {α : Type} (s : Session) (w : Workspace) (path : Text)
    (look : SourceFile → Except Failure α) : Prop :=
  ∃ key, Path.resolve path = .ok key ∧ ∀ f, s.fileOf w key = .ok f → ∃ a, look f = .ok a

namespace Query

variable {α : Type} {w : Workspace} {s : Session} {path : Text}

/-- A query that loads a file and looks something up there. -/
theorem exists_answer_load_iff (hs : s.Coherent) {k : Option SourceFile → Query α}
    (hk : ∀ found, Steady (k found)) {look : SourceFile → Except Failure α}
    (hnone : ∃ a, (k none).answer w s = .ok a)
    (hsome : ∀ f, (k (some f)).answer w s = look f) :
    (∃ a, (load path >>= k).answer w s = .ok a) ↔ s.Answers w path look := by
  rw [(steady_load path).answer_bind hk hs, answer_load]
  unfold Session.Answers
  cases Path.resolve path with
  | error fault => simp [Except.bind]
  | ok key =>
    cases hf : s.fileOf w key with
    | error fault => simpa [Except.bind, Except.toOption, hf] using hnone
    | ok f => simp [Except.bind, Except.toOption, hsome, hf]

theorem exists_answer_tests_iff (hs : s.Coherent) :
    (∃ ts, (tests path).answer w s = .ok ts) ↔
      s.Answers w path (SourceFile.tests w.settings.testKeywords) := by
  refine exists_answer_load_iff hs ?_ ⟨[], rfl⟩ (answer_testsOf hs)
  intro found
  cases found with
  | none => exact steady_pure []
  | some f => exact steady_testsOf f

theorem exists_answer_changedAt?_iff (hs : s.Coherent) {line : Int} :
    (∃ o, (changedAt? path line).answer w s = .ok o) ↔
      s.Answers w path fun f => f.changedAt? line := by
  refine exists_answer_load_iff hs ?_ ⟨none, rfl⟩ fun f => answer_ofExcept _ w s
  intro found
  cases found with
  | none => exact steady_pure none
  | some f => exact steady_ofExcept _

/-- The changed declarations can be told if the one at each added line can. -/
theorem exists_answer_changed_iff (hs : s.Coherent) {diff : FileDiff} :
    (∃ ds, (Tracing.changed diff path).answer w s = .ok ds) ↔
      ∀ line ∈ diff.addedLines, s.Answers w path fun f => f.changedAt? line.number := by
  simp only [← exists_answer_changedAt?_iff hs]
  exact Tracing.exists_changed_iff hs

/-! ## The search for references -/

/-- The name that an import binds can be searched for in the file of the import. -/
theorem exists_answer_usesOf (hs : s.Coherent) {start : Text} {r : Reference}
    (hr : s.Finds w start r) :
    ∃ rs, (usesOf r).answer w s = .ok rs := by
  unfold usesOf
  cases hbinding : r.binding with
  | none => exact ⟨[r], rfl⟩
  | some name =>
    rcases hr.shows with ⟨f, ⟨⟨path, hpath⟩, hf⟩, hfile, -⟩
    rcases hr.spelled name hbinding with ⟨c, hc⟩
    have hname : ∃ bytes, SourceFile.nameBytes name = .ok bytes := by
      unfold Cursor.text Tree.text at hc
      split at hc
      · rename_i text hdecode
        cases hc
        refine ⟨c.tree.info.text, ?_⟩
        unfold SourceFile.nameBytes
        rw [Utf8.encode_of_decode hdecode]
      · cases hc
    rcases hname with ⟨bytes, hbytes⟩
    dsimp only
    rw [localReferences_eq, answer_visitAt (steady_usesAt _) hs, ← hfile,
      Path.resolve_resolve hpath]
    dsimp only
    rw [hf]
    refine ⟨_, ((steady_ofExcept _).answer_bind_eq_ok (fun _ => steady_pure _) hs).2
      ⟨if bytes.occursIn f.source then f.tree.usesOf bytes [] else [], ?_, rfl⟩⟩
    rw [answer_ofExcept]
    exact Fallible.map_eq_ok.2 ⟨bytes, hbytes, rfl⟩

/-- Only an escape with too long a number is no matter of one look-up. -/
theorem answer_found (hs : s.Coherent) (d : Declaration) :
    (found d).answer w s =
      match (search d).answer w s with
      | .ok rs => .ok rs
      | .error e => if e.isOfLookup then .ok [] else .error e := by
  unfold found
  rw [(steady_references d).answer_tryCatch (fun failure => steady_passOver failure) hs,
    references_eq]
  unfold guarded
  rw [(steady_search d).answer_tryCatch (fun _ => steady_throw _) hs]
  cases (search d).answer w s with
  | ok rs => rfl
  | error e =>
    -- One handler wraps the failures of a look-up and the other one drops those; the rest passes both.
    by_cases hlookup : e.isOfLookup
    · simp only [hlookup, if_true]
      rfl
    · simp only [hlookup, Bool.false_eq_true, if_false]
      cases e with
      | noSuchCodePoint number => rfl
      | _ => exact absurd rfl hlookup

/-- The uses of a declaration are found, or there are none because the search for them fails, unless it
fails for good. -/
theorem exists_answer_uses_iff (hs : s.Coherent) (d : Declaration) :
    (∃ rs, (uses d).answer w s = .ok rs) ↔
      ∀ e, (search d).answer w s = .error e → e.isOfLookup = true := by
  have huses : ∀ rs : List Reference, Steady (rs.mapM usesOf) := fun rs => Steady.mapM steady_usesOf rs
  rw [uses_eq, (steady_found d).answer_bind (fun rs => (huses rs).bind fun _ => steady_pure _) hs]
  constructor
  · rintro ⟨rs, h⟩ e he
    rcases Fallible.bind_eq_ok.1 h with ⟨found, hfound, -⟩
    rw [answer_found hs, he] at hfound
    dsimp only at hfound
    split at hfound
    · assumption
    · cases hfound
  · intro hpassed
    have hfound : ∃ rs, (found d).answer w s = .ok rs := by
      rw [answer_found hs]
      cases he : (search d).answer w s with
      | ok rs => exact ⟨rs, rfl⟩
      | error e => exact ⟨[], if_pos (hpassed e he)⟩
    rcases hfound with ⟨rs, hrs⟩
    rcases Fallible.mapM_eq_ok_of_forall (f := fun r => (usesOf r).answer w s) fun r hr =>
      exists_answer_usesOf hs (finds_of_found hs hrs r hr) with ⟨rss, hrss⟩
    refine ⟨rss.flatten, Fallible.bind_eq_ok.2 ⟨rs, hrs, ?_⟩⟩
    refine ((huses rs).answer_bind_eq_ok (fun _ => steady_pure _) hs).2 ⟨rss, ?_, rfl⟩
    rw [answer_mapM steady_usesOf hs]
    exact hrss

end Query

/-- No look-up around a declaration fails for good: the search for the references to it fails in ways
that are passed over at most, and what stands around each of its uses can be told. -/
structure Legible (w : Workspace) (s : Session) (d : Declaration) : Prop where
  search : ∀ e, (Query.search d).answer w s = .error e → e.isOfLookup = true
  around : ∀ r, Use w s d r → ∃ a, r.arrival w.settings = .ok a

theorem resolves_iff_legible {w : Workspace} {s : Session} (hs : s.Coherent) {d : Declaration} :
    Resolves w s d ↔ Legible w s d := by
  constructor
  · rintro ⟨rs, hrs, harrive⟩
    refine ⟨(Query.exists_answer_uses_iff hs d).1 ⟨rs, hrs⟩, ?_⟩
    rintro r ⟨rs', hrs', hr⟩
    rw [hrs] at hrs'
    cases hrs'
    exact harrive r hr
  · intro h
    rcases (Query.exists_answer_uses_iff hs d).2 h.search with ⟨rs, hrs⟩
    exact ⟨rs, hrs, fun r hr => h.around r ⟨rs, hrs, hr⟩⟩

/-! ## Walks that come to an end -/

namespace Tracing

variable {w : Workspace} {s : Session} {seeds : List Declaration} {limit : Nat} {related origin : Text}

/-- A step that does not fail. -/
def Succeeds (w : Workspace) (s : Session) (m : Tracing Unit) : Prop :=
  ∀ walk : Walk, walk.InSession w s →
    ∃ walk', m.exec w walk = (.ok (), walk') ∧ walk'.InSession w s

theorem succeeds_forM {m : Declaration → Tracing Unit} {ds : List Declaration}
    (h : ∀ d ∈ ds, Succeeds w s (m d)) : Succeeds w s (ds.forM m) := by
  induction ds with
  | nil => exact fun walk hin => ⟨walk, rfl, hin⟩
  | cons d ds ih =>
    intro walk hin
    rcases h d (by simp) walk hin with ⟨next, hfirst, hnext⟩
    rcases ih (fun d' hd' => h d' (by simp [hd'])) next hnext with ⟨last, hrest, hlast⟩
    exact ⟨last, (exec_bind_ok hfirst).trans hrest, hlast⟩

/-- Expanding a declaration that resolves does not fail, if what comes after it does not. -/
theorem succeeds_expand (hs : s.Coherent) {d : Declaration} (hd : Resolves w s d) {depth : Nat}
    {mayDescend : Bool} {k : List (List Declaration) → Tracing Unit}
    (hk : ∀ next, (∀ d' ∈ next.flatten, Hop w s d d') → Succeeds w s (k next)) :
    Succeeds w s (do
      modify fun walk => { walk with depths := walk.depths.put d.key depth }
      let uses ← ofQuery (Query.uses d)
      let next ← uses.mapM (follow related origin d depth mayDescend)
      k next : Tracing Unit) := by
  intro start hin
  rcases hd with ⟨rs, hrs, harrive⟩
  rcases exec_expand hin hs hrs harrive k with ⟨session, hcoherent, halike, hexec⟩
  have hnext : ∀ d' ∈ (rs.map (Reference.descends w.settings (start.depths.put d.key depth) depth
      mayDescend)).flatten, Hop w s d d' := by
    intro d' hd'
    rcases List.mem_flatten.1 hd' with ⟨ds, hds, hmem⟩
    rcases List.mem_map.1 hds with ⟨r, hr, rfl⟩
    exact hop_of_mem_descends ⟨rs, hrs, hr⟩ hmem
  rcases hk _ hnext (start.expanded w related origin depth mayDescend d rs session)
    ⟨hcoherent, halike⟩ with ⟨walk', hrest, hin'⟩
  exact ⟨walk', hexec.trans hrest, hin'⟩

/-- The run lemma: a walk fails nowhere, if all that is within the limit resolves. The induction is on
the hops that are left. -/
theorem succeeds_walk (hs : s.Coherent)
    (hok : ∀ k d, k ≤ limit → Reach w s seeds k d → Resolves w s d) :
    ∀ (remaining depth : Nat) (d : Declaration), depth + remaining = limit →
      Reach w s seeds depth d → Succeeds w s (walk related origin remaining depth d) := by
  intro remaining
  induction remaining with
  | zero =>
    intro depth d hlimit hreach start hin
    rw [walk, exec_bind_ok (exec_get w start)]
    split
    · exact ⟨start, rfl, hin⟩
    · exact succeeds_expand hs (hok depth d (by omega) hreach)
        (fun _ _ => fun walk hin => ⟨walk, rfl, hin⟩) start hin
  | succ remaining ih =>
    intro depth d hlimit hreach start hin
    rw [walk, exec_bind_ok (exec_get w start)]
    split
    · exact ⟨start, rfl, hin⟩
    · refine succeeds_expand hs (hok depth d (by omega) hreach) ?_ start hin
      -- Every declaration that comes next is one hop further, so the hypothesis applies to it.
      intro next hnext
      refine succeeds_forM fun d' hd' => ih (depth + 1) d' (by omega) ?_
      exact .hop hreach (hnext d' (List.mem_reverse.1 hd'))

theorem succeeds_walkAll (hs : s.Coherent) {diff : FileDiff} {path : Text}
    (hseeds : (changed diff path).answer w s = .ok seeds)
    (hok : ∀ k d, k ≤ w.settings.maxDepth.toNat → Reach w s seeds k d → Resolves w s d) :
    Succeeds w s (walkAll diff path) := by
  intro start hin
  have hsteady := Query.steady_changed diff path
  have hquery : (ofQuery (changed diff path)).exec w start =
      (.ok seeds, { start with session := ((changed diff path).ask w start.session).2 }) := by
    rw [exec_ofQuery]
    refine congrArg (·, _) ?_
    exact (hsteady.answer_eq hs hin.1 hin.2).trans hseeds
  have hseed : ∀ d ∈ seeds, Succeeds w s (do
      modify fun walk : Walk => { walk with tracer := walk.tracer.addDeclaration w.root d }
      walk diff.path d.nodeId w.settings.maxDepth.toNat 0 d : Tracing Unit) := by
    intro d hd start hin
    rcases succeeds_walk hs hok w.settings.maxDepth.toNat 0 d (Nat.zero_add _) (.seed hd)
      { start with tracer := start.tracer.addDeclaration w.root d } hin with ⟨walk', hexec, hin'⟩
    exact ⟨walk', (exec_bind_ok (exec_modify _ w start)).trans hexec, hin'⟩
  have hasked : Walk.InSession w s
      { start with session := ((changed diff path).ask w start.session).2 } :=
    ⟨hsteady.coherent hin.1, hin.2.trans (hsteady.alike hin.1)⟩
  rcases succeeds_forM hseed _ hasked with ⟨walk', hexec, hin'⟩
  refine ⟨walk', ?_, hin'⟩
  rw [walkAll, exec_bind_ok (exec_read w _), exec_bind_ok hquery, hexec]

end Tracing

/-- A trace gives an answer, if all that is within reach of the changed declarations resolves. -/
theorem Tracer.exists_trace_eq_ok {w : Workspace} {s s' : Session} {seeds : List Declaration}
    {diff : FileDiff} {path : Text} (hs : s.Coherent) (hs' : s'.Coherent) (halike : s.Alike w s')
    (hseeds : (Tracing.changed diff path).answer w s = .ok seeds)
    (hok : ∀ k d, k ≤ w.settings.maxDepth.toNat → Reach w s seeds k d → Resolves w s d)
    (t : Tracer) : ∃ is, (t.trace diff path w s').1 = .ok is := by
  rcases Tracing.succeeds_walkAll hs hseeds hok ⟨s', t, [], []⟩ ⟨hs', halike⟩ with
    ⟨walk', hexec, -⟩
  have htrace : (t.trace diff path w s').1 =
      ((Tracing.walkAll diff path).exec w ⟨s', t, [], []⟩).1.map fun _ =>
        Impact.merge ((Tracing.walkAll diff path).exec w ⟨s', t, [], []⟩).2.impacts := rfl
  exact ⟨_, htrace.trans (by rw [hexec]; rfl)⟩

/-! ## Analyses that give an answer -/

namespace Workspace

variable {w : Workspace} {d : FileDiff}

/-- No look-up that the analysis of a changed file depends on fails for good. -/
structure Reads (w : Workspace) (d : FileDiff) : Prop where
  /-- The calls of a test file that declare tests have names. -/
  tests : d.kind ≠ .deleted → w.settings.isTestFile d.path = true →
    Session.Answers {} w (Path.join w.root d.path) (SourceFile.tests w.settings.testKeywords)
  /-- The declarations at the added lines of a file that is traced can be told. -/
  changed : w.Traced d → ∀ line ∈ d.addedLines,
    Session.Answers {} w (Path.join w.root d.path) fun f => f.changedAt? line.number
  /-- So can what is within reach of them. -/
  reached : w.Traced d → ∀ k x, k ≤ w.settings.maxDepth.toNat →
    Reach w {} (Tracing.seedsOf w {} d (Path.join w.root d.path)) k x → Legible w {} x

theorem exists_alone_of_reads (h : w.Reads d) : ∃ is, w.alone d = .ok is := by
  have hs := Session.coherent_empty
  by_cases htraced : w.Traced d
  · rw [alone_of_traced htraced]
    rcases (Query.exists_answer_changed_iff hs).2 (h.changed htraced) with ⟨seeds, hseeds⟩
    have hreached := h.reached htraced
    rw [Tracing.seedsOf_eq hseeds] at hreached
    exact Tracer.exists_trace_eq_ok hs hs (.refl w {}) hseeds
      (fun k x hk hx => (resolves_iff_legible hs).2 (hreached k x hk hx)) {}
  · unfold alone
    rcases run_impactsOf_cases w d with ⟨h', -⟩ | ⟨-, hkind, htest, hrun⟩ | ⟨-, -, is, -, hrun⟩
    · exact absurd h' htraced
    · rw [hrun]
      rcases (Query.exists_answer_tests_iff hs).2 (h.tests hkind htest) with ⟨ts, hts⟩
      exact ⟨_, Fallible.map_eq_ok.2 ⟨ts, hts, rfl⟩⟩
    · rw [hrun]
      exact ⟨is, rfl⟩

theorem reads_of_alone
    (happart : ∀ path f, Session.fileOf {} w path = .ok f → f.StartsApart)
    {is : List Impact} (h : w.alone d = .ok is) : w.Reads d := by
  have hs := Session.coherent_empty
  refine ⟨?_, ?_, ?_⟩
  · intro hkind htest
    unfold alone at h
    rcases run_impactsOf_cases w d with ⟨h', -⟩ | ⟨-, -, -, hrun⟩ | ⟨-, hnot, -⟩
    · rw [h'.2.1] at htest
      cases htest
    · rw [hrun] at h
      rcases Fallible.map_eq_ok.1 h with ⟨ts, hts, -⟩
      exact (Query.exists_answer_tests_iff hs).1 ⟨ts, hts⟩
    · exact absurd ⟨hkind, htest⟩ hnot
  · intro htraced
    rw [alone_of_traced htraced] at h
    rcases Tracer.of_trace_eq_ok hs happart hs (.refl w {}) h with ⟨seeds, hseeds, -⟩
    exact (Query.exists_answer_changed_iff hs).1 ⟨seeds, hseeds⟩
  · intro htraced k x hk hx
    rw [alone_of_traced htraced] at h
    rcases Tracer.of_trace_eq_ok hs happart hs (.refl w {}) h with ⟨seeds, hseeds, hok, -⟩
    rw [Tracing.seedsOf_eq hseeds] at hx
    exact (resolves_iff_legible hs).1 (hok k x hk hx)

/-- An analysis gives an answer if a global file has changed, or if no look-up for any of the files fails
for good; and only then, if no two declarations of a file begin at one place. -/
theorem analyze_answers (w : Workspace) (ds : List FileDiff) :
    ((∃ d ∈ ds, w.settings.isGlobalFile d.path = true) ∨ (∀ d ∈ ds, w.Reads d) →
      ∃ is, (w.analyze ds).impacts = .ok is) ∧
    ((∀ path f, Session.fileOf {} w path = .ok f → f.StartsApart) →
      (∃ is, (w.analyze ds).impacts = .ok is) →
        (∃ d ∈ ds, w.settings.isGlobalFile d.path = true) ∨ ∀ d ∈ ds, w.Reads d) := by
  by_cases hglobal : ∃ d ∈ ds, w.settings.isGlobalFile d.path = true
  · have hany : (ds.any fun d => w.settings.isGlobalFile d.path) = true := List.any_eq_true.2 hglobal
    refine ⟨fun _ => ⟨[Impact.everything], ?_⟩, fun _ _ => .inl hglobal⟩
    unfold analyze
    rw [if_pos hany]
  · have hnone : ∀ d ∈ ds, w.settings.isGlobalFile d.path = false := by
      intro d hd
      rw [← Bool.not_eq_true]
      exact fun h => hglobal ⟨d, hd, h⟩
    -- The files are analysed apart, so an answer for all of them is an answer for each.
    have hiff : (∃ is, (w.analyze ds).impacts = .ok is) ↔ ∀ d ∈ ds, ∃ is, w.alone d = .ok is := by
      rw [← Fallible.exists_mapM_eq_ok_iff, analyze_impacts hnone]
      simp [Fallible.map_eq_ok]
    rw [hiff]
    refine ⟨fun h d hd => exists_alone_of_reads ((h.resolve_left hglobal) d hd), ?_⟩
    intro happart h
    refine .inr fun d hd => ?_
    rcases h d hd with ⟨is, his⟩
    exact reads_of_alone happart his

end Workspace

/-! ## Examples -/

namespace Linked

open Sample (leaf branch expression)

theorem startsApart {p : Text} {f : SourceFile} (h : Session.fileOf {} workspace p = .ok f) :
    f.StartsApart := by
  have htree : f.tree = testTree ∨ f.tree = moduleTree := by
    rw [Session.tree_of_fileOf rfl h]
    exact ite_eq_or_eq _ _ _
  refine SourceFile.startsApart_of_nodup ?_
  unfold SourceFile.top
  rcases htree with htree | htree <;> rw [htree] <;> decide

/-- Everything that the change of the function and of the test file leads to can be told. -/
theorem analyze_answers_diff_and_edit :
    (∃ is, (workspace.analyze [diff, edit]).impacts = .ok is) ∧
    ((∃ d ∈ [diff, edit], workspace.settings.isGlobalFile d.path = true) ∨
      ∀ d ∈ [diff, edit], workspace.Reads d) := by
  have hnone : ∀ d ∈ [diff, edit], workspace.settings.isGlobalFile d.path = false := by
    decide +kernel
  have hanswer : ∃ is, (workspace.analyze [diff, edit]).impacts = .ok is := by
    rw [Workspace.analyze_impacts hnone, List.mapM_cons, List.mapM_cons, alone_diff, alone_edit]
    exact ⟨_, rfl⟩
  exact ⟨hanswer, (Workspace.analyze_answers workspace [diff, edit]).2 (fun _ _ => startsApart) hanswer⟩

/-- A test file whose test has a name with an escape that denotes no code point. -/
def unnamedSource : Bytes :=
  (Utf8.encode "test(\"\\u\x7b110000\x7d\", pass);\n").getD []

def unnamedTree : Tree :=
  .node ⟨.program, true, none, 0, 26, 0, 1, []⟩ [expression 0 25 0 [
    branch .callExpression none 0 24 0 [
      leaf .identifier (some .function) 0 4 0 [116, 101, 115, 116],
      branch .arguments (some .arguments) 4 24 0 [
        leaf .string none 5 17 0 [34, 92, 117, 123, 49, 49, 48, 48, 48, 48, 125, 34],
        leaf .identifier none 19 23 0 [112, 97, 115, 115]]]]]

/-- The project with one more test file, `u.test.js`. -/
def broken : Workspace where
  root := "/p"
  settings := {}
  grammars language source :=
    if source = unnamedSource then unnamedTree else workspace.grammars language source
  disk := [.directory [112] [.file [97, 46, 106, 115] moduleSource,
    .directory [116] [.file [120, 46, 116, 101, 115, 116, 46, 106, 115] testSource],
    .file [117, 46, 116, 101, 115, 116, 46, 106, 115] unnamedSource]]

/-- A change of the test without a name. -/
def unnamedEdit : FileDiff :=
  ⟨"u.test.js", .modified, [⟨1, "test(\"\\u\x7b110000\x7d\", pass);", false⟩], [⟨1, 1, 1, 1⟩]⟩

/-- One test whose name cannot be decoded ends the analysis of the whole change: the new test in the
other file, which is found alone, is not found. -/
theorem not_analyze_answers_unnamed :
    (broken.analyze [edit]).impacts = .ok [⟨"x", "t/x.test.js", .added, none⟩] ∧
    (broken.analyze [edit, unnamedEdit]).impacts = .error (.noSuchCodePoint 0x110000) ∧
    ¬ ∀ (w : Workspace) (ds : List FileDiff), ∃ is, (w.analyze ds).impacts = .ok is := by
  have herror : (broken.analyze [edit, unnamedEdit]).impacts = .error (.noSuchCodePoint 0x110000) := by
    rfl
  refine ⟨Fallible.toOption_eq_some.1 (by decide +kernel), herror, fun hall => ?_⟩
  rcases hall broken [edit, unnamedEdit] with ⟨is, his⟩
  rw [herror] at his
  cases his

end Linked

end AffectedTests
