import AffectedTests.Proofs.Explanations
import AffectedTests.Proofs.Parts
import AffectedTests.Proofs.Routes
/-!
# The chain behind an impact of a change

An indirect impact names the first file of the change that the test was reached from, and its chain is a
shortest one from any file of the change. So the chain always begins with a declaration that the change
touches, and it begins in the file that the impact names unless another file of the change is nearer to the
test.

- `Tracer.exists_chain_of_first`: chains, told from the first call that reported the test.
- `Workspace.traces_mapM`: the calls that the analysis of a change makes.
- `Workspace.analyze_chain`: the chain of an indirect impact.
-/

namespace AffectedTests

/-! ## The first call that reports a test -/

section First

variable {w : Workspace} {s : Session} {t t' : Tracer} {earlier later calls calls' : List Call}
  {c₀ : Call} {file name : Text}

theorem Traces.exists_of_append (h : Traces w s t (calls ++ calls') t') :
    ∃ mid, Traces w s t calls mid ∧ Traces w s mid calls' t' := by
  generalize hall : calls ++ calls' = all at h
  induction h generalizing calls with
  | none =>
    rcases List.append_eq_nil_iff.1 hall with ⟨rfl, rfl⟩
    exact ⟨_, .none, .none⟩
  | @call t t' rest s' diff path hs' halike hrest ih =>
    cases calls with
    | nil =>
      rw [List.nil_append] at hall
      subst hall
      exact ⟨t, .none, .call diff path hs' halike hrest⟩
    | cons c calls =>
      rcases List.cons.inj hall with ⟨rfl, htail⟩
      rcases ih htail with ⟨mid, hfirst, hsecond⟩
      exact ⟨mid, .call diff path hs' halike hfirst, hsecond⟩

section Chosen

variable (hs : s.Coherent) (happart : ∀ path f, s.fileOf w path = .ok f → f.StartsApart)
  (hunmarked : ∀ path f, s.fileOf w path = .ok f → f.Unmarked)
  (h : Traces w s {} (earlier ++ c₀ :: later) t) (hfile : ¬ ("::" : Text) <:+: file)
  (hreturned : ∀ c ∈ earlier ++ c₀ :: later, c.Returned)

include hs happart hunmarked h hfile

include hreturned in
/-- The changed declarations of the first call that reported a test are the first that are noted for it,
and they have paths to the test that are no longer than the hops tell. -/
theorem Traces.exists_originsOf_eq_append (hearlier : ∀ c ∈ earlier, ¬ c.Reports file name) :
    ∃ first rest, t.originsOf (TestDeclaration.nodeIdOf file name) = first ++ rest ∧
      (∀ origin ∈ first, ∃ seed ∈ c₀.seeds w s, origin = seed.nodeId) ∧
      ∀ k d test, k ≤ w.settings.maxDepth.toNat → Reach w s (c₀.seeds w s) k d →
        Touches w s d test → test.file = file → test.name = name →
          ∃ p ∈ first.filterMap fun origin =>
            t.graph.shortestPath? origin (TestDeclaration.nodeIdOf file name), p.length ≤ k + 2 := by
  have hreturned₀ : c₀.Returned := hreturned c₀ (by simp)
  rcases h.grows hs with ⟨_, hgrows, -⟩
  have hclosed := (hgrows.sound Tracer.sound_empty).closed
  rcases h.exists_of_append with ⟨before, hbefore, hrest⟩
  have hrest : Traces w s before ([c₀] ++ later) t := hrest
  rcases hrest.exists_of_append with ⟨mid, hfirst, hlater⟩
  rcases hfirst.grows hs with ⟨_, hgrowsFirst, -⟩
  rcases hlater.grows hs with ⟨_, hgrowsLater, -⟩
  rcases hgrowsFirst.origins (TestDeclaration.nodeIdOf file name) with ⟨first, hnoted, hseeds⟩
  rcases hgrowsLater.origins (TestDeclaration.nodeIdOf file name) with ⟨rest, hrest, -⟩
  -- Nothing was noted for the test before the call, so what it notes comes first.
  rw [hbefore.originsOf_eq_nil hs happart hunmarked hfile
    (fun c hc => hreturned c (by simp [hc])) hearlier, List.nil_append] at hnoted
  refine ⟨first, rest, by rw [hrest, hnoted], ?_, ?_⟩
  · intro origin horigin
    simpa using (hseeds origin horigin).1
  · rintro k d test hk hreach htouches rfl rfl
    have hrecords := (hfirst.records hs happart (List.mem_singleton_self c₀) hreturned₀).1
    have hexists := hrecords.exists_path_of_grows hgrowsLater hclosed hk hreach htouches
    have horigins : mid.originsOf test.nodeId = first := hnoted
    rwa [horigins] at hexists

/-- The path that is chosen explains the test: from a changed declaration of the first call, or else it is
shorter than all paths from there. -/
theorem Tracer.exists_explanation_of_chosen {first rest p : List Text}
    (horigins : t.originsOf (TestDeclaration.nodeIdOf file name) = first ++ rest)
    (hseeds : ∀ origin ∈ first, ∃ seed ∈ c₀.seeds w s, origin = seed.nodeId)
    (hchosen : shortest? (t.pathsTo (TestDeclaration.nodeIdOf file name)) = some p) :
    ∃ c ∈ earlier ++ c₀ :: later, ∃ ds test, test.file = file ∧ test.name = name ∧
      Explains w s (c.seeds w s) test ds ∧
      p.map t.graph.label = ds.map (Declaration.label w.root) ++ [test.label w.root] ∧
      (c = c₀ ∨ ∀ q ∈ first.filterMap fun origin =>
        t.graph.shortestPath? origin (TestDeclaration.nodeIdOf file name), p.length < q.length) := by
  rcases h.grows hs with ⟨_, hgrows, -⟩
  have hp := (shortest?_le hchosen).1
  rw [pathsTo, horigins, List.filterMap_append] at hchosen
  rcases mem_or_lt_of_shortest?_append hchosen with hfirst | hlonger
  · rcases List.mem_filterMap.1 hfirst with ⟨origin, horigin, hfound⟩
    rcases hseeds origin horigin with ⟨seed, hseed, rfl⟩
    rcases exists_explanation hs happart hunmarked (hgrows.sound sound_empty) hfile
      (Traces.declares_of_mem_seeds hs hseed) hseed (Graph.isPath_of_shortestPath? hfound).1 with
      ⟨ds, test, htest, hname, hexplains, hlabels⟩
    exact ⟨c₀, by simp, seed :: ds, test, htest, hname, hexplains, hlabels, .inl rfl⟩
  · rcases exists_explanation_of_mem_pathsTo hs happart hunmarked h hfile hp with
      ⟨c, hc, ds, test, htest, hname, hexplains, hlabels⟩
    exact ⟨c, hc, ds, test, htest, hname, hexplains, hlabels, .inr hlonger⟩

include hreturned in
/-- The chain of a test is a shortest explanation from a changed declaration of any call. It is one of the
first call that reported the test, unless all of that call are longer. -/
theorem Tracer.exists_chain_of_first (hearlier : ∀ c ∈ earlier, ¬ c.Reports file name)
    (hreports : c₀.Reports file name) :
    ∃ c ∈ earlier ++ c₀ :: later, ∃ ds test, test.file = file ∧ test.name = name ∧
      Explains w s (c.seeds w s) test ds ∧
      t.chain file name = ds.map (Declaration.label w.root) ++ [test.label w.root] ∧
      (∀ c' ∈ earlier ++ c₀ :: later, ∀ ds' test', test'.file = file → test'.name = name →
        Explains w s (c'.seeds w s) test' ds' → ds.length ≤ ds'.length) ∧
      (c = c₀ ∨ ∀ ds' test', test'.file = file → test'.name = name →
        Explains w s (c₀.seeds w s) test' ds' → ds.length < ds'.length) := by
  rcases h.grows hs with ⟨_, hgrows, -⟩
  have hclosed := (hgrows.sound sound_empty).closed
  rcases h.exists_originsOf_eq_append hs happart hunmarked hfile hreturned hearlier with
    ⟨first, rest, horigins, hseeds, hwithin⟩
  -- The test was reported, so there is a path within the limit, and one is chosen.
  have hlimitFirst : ∃ p ∈ first.filterMap fun origin =>
      t.graph.shortestPath? origin (TestDeclaration.nodeIdOf file name),
        p.length ≤ w.settings.maxDepth.toNat + 2 := by
    rcases ((h.records hs happart (by simp) (hreturned c₀ (by simp))).2 file name).1 hreports with
      ⟨k, d, test, hk, hreach, htouches, htest, hname⟩
    rcases hwithin k d test hk hreach htouches htest hname with ⟨p, hp, hle⟩
    exact ⟨p, hp, by omega⟩
  have hlimit : ∃ p ∈ t.pathsTo (TestDeclaration.nodeIdOf file name),
      p.length ≤ w.settings.maxDepth.toNat + 2 := by
    rcases hlimitFirst with ⟨p, hp, hle⟩
    exact ⟨p, by rw [pathsTo, horigins, List.filterMap_append]; simp [hp], hle⟩
  rcases hchosen : shortest? (t.pathsTo (TestDeclaration.nodeIdOf file name)) with _ | p
  · rcases hlimit with ⟨p, hp, -⟩
    rw [shortest?_eq_none.1 hchosen] at hp
    cases hp
  · have hleast := (shortest?_le hchosen).2
    rcases Tracer.exists_explanation_of_chosen hs happart hunmarked h hfile horigins hseeds hchosen
      with ⟨c, hc, ds, test, htest, hname, hexplains, hlabels, hfirst⟩
    have hlength : p.length = ds.length + 1 := by
      have hmap := congrArg List.length hlabels
      simpa using hmap
    refine ⟨c, hc, ds, test, htest, hname, hexplains, by rw [chain_eq, hchosen]; exact hlabels, ?_, ?_⟩
    · rintro c' hc' ds' test' rfl rfl hexplains'
      have hrecords := (h.records hs happart hc' (hreturned c' hc')).1
      rcases exists_path_of_explains (fun k d hk hreach htouches =>
        hrecords.exists_path hclosed hk hreach htouches) hlimit hexplains' with ⟨q, hq, hle⟩
      have hpq := hleast q hq
      omega
    · refine hfirst.imp_right fun hlonger => ?_
      rintro ds' test' rfl rfl hexplains'
      rcases exists_path_of_explains (fun k d hk hreach htouches =>
        hwithin k d test' hk hreach htouches rfl rfl) hlimitFirst hexplains' with ⟨q, hq, hle⟩
      have hpq := hlonger q hq
      omega

end Chosen

end First

/-! ## The calls of an analysis -/

namespace Workspace

variable {w : Workspace}

/-- The call of the tracer for a changed file. -/
def callOf (w : Workspace) (d : FileDiff) : Call :=
  ⟨d, Path.join w.root d.path, w.alone d⟩

/-- The calls of the tracer for the files of a change. -/
def callsOf (w : Workspace) (ds : List FileDiff) : List Call :=
  (ds.filter fun d => w.Traced d).map w.callOf

theorem mem_callsOf {ds : List FileDiff} {c : Call} :
    c ∈ w.callsOf ds ↔ ∃ d ∈ ds, w.Traced d ∧ w.callOf d = c := by
  simp [callsOf, and_assoc]

/-- An analysis that gives an answer calls the tracer for the files that are traced, one by one. -/
theorem traces_mapM (ds : List FileDiff) {p : Progress} (hp : p.Shows w) {found : List (List Impact)}
    (h : ((ds.mapM w.impactsOf).run.run p).1 = .ok found) :
    Traces w {} p.tracer (w.callsOf ds) ((ds.mapM w.impactsOf).run.run p).2.tracer := by
  induction ds generalizing p found with
  | nil => exact .none
  | cons d ds ih =>
    rcases impactsOf_eq_alone d hp with ⟨halone, hnext⟩
    rw [run_mapM_cons] at h ⊢
    rcases hrun : (w.impactsOf d).run.run p with ⟨e | is, next⟩
    · rw [hrun] at h
      cases h
    · rw [hrun] at h halone hnext
      rcases Fallible.map_eq_ok.1 h with ⟨others, hothers, -⟩
      have hrest := ih hnext hothers
      dsimp only at halone hrest ⊢
      -- A file that is traced is the next call; any other one leaves the tracer as it is.
      rcases run_impactsOf_cases w d with ⟨htraced, hdone⟩ | ⟨hnot, -, -, hdone⟩ | ⟨hnot, -, _, -, hdone⟩
      · have hcalls : w.callsOf (d :: ds) = w.callOf d :: w.callsOf ds := by simp [callsOf, htraced]
        rcases Prod.mk.inj ((hdone p).symm.trans hrun) with ⟨houtcome, hprogress⟩
        have htracer : next.tracer = (p.tracer.trace d (Path.join w.root d.path) w p.session).2.2 :=
          congrArg Progress.tracer hprogress.symm
        rw [htracer] at hrest
        rw [hcalls, callOf, ← halone, ← houtcome]
        exact .call d _ hp.1 hp.2 hrest
      all_goals
        have hcalls : w.callsOf (d :: ds) = w.callsOf ds := by simp [callsOf, hnot]
        have htracer : next.tracer = p.tracer := by
          rw [← (Prod.mk.inj ((hdone p).symm.trans hrun)).2]
        rw [hcalls, ← htracer]
        exact hrest

/-- What the tracer of an analysis that gives an answer has gone through. -/
theorem exists_traces_of_analyze {ds : List FileDiff}
    (hnone : ∀ d ∈ ds, w.settings.isGlobalFile d.path = false) {found : List (List Impact)}
    (h : ds.mapM w.alone = .ok found) :
    ∃ t, (w.analyze ds).tracer = some t ∧ Traces w {} {} (w.callsOf ds) t ∧
      ∀ c ∈ w.callsOf ds, c.Returned := by
  refine ⟨((ds.mapM w.impactsOf).run.run {}).2.tracer, (analyze_eq hnone).2, ?_, ?_⟩
  · exact traces_mapM ds shows_start ((mapM_impactsOf_eq ds shows_start).trans h)
  · intro c hc
    rcases mem_callsOf.1 hc with ⟨d, hd, -, rfl⟩
    rcases Fallible.exists_of_mapM_eq_ok h hd with ⟨is, -, his⟩
    exact ⟨is, his⟩

/-! ## The chain of an impact -/

/-- A chain of hops into a test from a declaration that a file of a change touches. -/
def ExplainedBy (w : Workspace) (d : FileDiff) (test : TestDeclaration) (xs : List Declaration) :
    Prop :=
  w.Traced d ∧ Explains w {} ((w.callOf d).seeds w {}) test xs

/-- A declaration that a file of a change touches is shown with the path of that file. -/
theorem relativeTo_file_of_mem_seeds (hroot : Path.resolve w.root = .ok w.root) {d : FileDiff}
    (htidy : Path.Tidy d.path) {x : Declaration} (hx : x ∈ (w.callOf d).seeds w {}) :
    Path.relativeTo w.root x.file = d.path := by
  have hfile := (Tracing.declares_and_resolve_of_mem_seedsOf Session.coherent_empty hx).2
  exact Path.relativeTo_of_resolve_join hroot htidy hfile

/-- An indirect impact of a change comes from the first file of the change that reports the test. -/
theorem exists_first_of_mem_analyze {ds : List FileDiff} {found : List (List Impact)}
    (h : ds.mapM w.alone = .ok found) {r : Impact}
    (hr : r ∈ Impact.merge (found.flatten.map (Impact.relativeTo w.root))) (hkind : r.kind = .indirect) :
    ∃ earlier d later, ∃ i : Impact, ds = earlier ++ d :: later ∧ w.Traced d ∧
      i.relativeTo w.root = r ∧ (w.callOf d).Reports i.file i.testName ∧ r.related = some d.path ∧
      ∀ c ∈ w.callsOf earlier, ¬ c.Reports i.file i.testName := by
  rcases Impact.exists_append_of_mem_merge hr with ⟨before, after, hsplit, hbefore, -⟩
  rcases Fallible.exists_of_mapM_of_map_flatten h hsplit with
    ⟨earlier, d, later, is, i, rfl, his, hi, rfl, hearlier⟩
  rw [Impact.kind_relativeTo] at hkind hbefore
  have hd := (of_mem_alone his hi).resolve_right fun h => h.2.1 hkind
  refine ⟨earlier, d, later, i, rfl, hd.1, rfl, ⟨is, his, List.mem_map.2 ⟨i, hi, rfl⟩⟩,
    (i.related_relativeTo w.root).trans hd.2.2, ?_⟩
  rintro c hc ⟨js, hjs, hmem⟩
  rcases mem_callsOf.1 hc with ⟨d', hd', htraced', rfl⟩
  rcases List.mem_map.1 hmem with ⟨j, hj, hjkey⟩
  -- The earlier report would have been kept instead.
  have hjkind := ((of_mem_alone hjs hj).resolve_right fun h => h.1 htraced').2.1
  have hkey : (j.relativeTo w.root).key = (i.relativeTo w.root).key := by
    have hfile : j.file = i.file := congrArg Prod.fst hjkey
    have hname : j.testName = i.testName := congrArg Prod.snd hjkey
    unfold Impact.relativeTo Impact.key
    rw [hfile]
    split <;> simp [hname, hfile]
  have hlt := hbefore _ (hearlier d' hd' js hjs j hj) hkey
  rw [Impact.kind_relativeTo, hjkind, hkind] at hlt
  exact absurd hlt (Nat.lt_irrefl _)

/-- The chain of an indirect impact begins with a declaration that a file of the change touches, and ends
with the test. No explanation of the test from a file of the change is shorter. The file that the impact
names explains the test as well, and the chain begins there unless all explanations from there are
longer. -/
theorem analyze_chain {ds : List FileDiff} {is : List Impact} {r : Impact}
    (hroot : Path.resolve w.root = .ok w.root) (htidy : ∀ d ∈ ds, Path.Tidy d.path)
    (happart : ∀ path f, Session.fileOf {} w path = .ok f → f.StartsApart)
    (hunmarked : ∀ path f, Session.fileOf {} w path = .ok f → f.Unmarked)
    (hnone : ∀ d ∈ ds, w.settings.isGlobalFile d.path = false)
    (h : (w.analyze ds).impacts = .ok is) (hr : r ∈ is) (hkind : r.kind = .indirect) :
    ∃ d ∈ ds, ∃ x xs test, w.ExplainedBy d test (x :: xs) ∧
      Path.relativeTo w.root x.file = d.path ∧
      Path.relativeTo w.root test.file = r.file ∧ test.name = r.testName ∧
      (w.analyze ds).chain w.root r =
        .ok ((x :: xs).map (Declaration.label w.root) ++ [test.label w.root]) ∧
      (∀ d' ∈ ds, ∀ test' xs', test'.file = test.file → test'.name = test.name →
        w.ExplainedBy d' test' xs' → (x :: xs).length ≤ xs'.length) ∧
      ∃ d₀ ∈ ds, r.related = some d₀.path ∧
        (∃ test₀ xs₀, test₀.file = test.file ∧ test₀.name = test.name ∧ w.ExplainedBy d₀ test₀ xs₀) ∧
        (d = d₀ ∨ ∀ test₀ xs₀, test₀.file = test.file → test₀.name = test.name →
          w.ExplainedBy d₀ test₀ xs₀ → (x :: xs).length < xs₀.length) := by
  have hs := Session.coherent_empty
  rw [analyze_impacts hnone] at h
  rcases Fallible.map_eq_ok.1 h with ⟨found, hfound, rfl⟩
  rcases exists_traces_of_analyze hnone hfound with ⟨t, htracer, htraces, hreturned⟩
  rcases exists_first_of_mem_analyze hfound hr hkind with
    ⟨earlier, d₀, later, i, rfl, htraced, rfl, hreports, hrelated, hearlier⟩
  have hcalls : w.callsOf (earlier ++ d₀ :: later) =
      w.callsOf earlier ++ w.callOf d₀ :: w.callsOf later := by
    simp [callsOf, htraced]
  rw [hcalls] at htraces hreturned
  -- The test stands in a file in view, so its path is resolved.
  rcases ((htraces.records hs happart (by simp) (hreturned (w.callOf d₀) (by simp))).2 _ _).1 hreports
    with ⟨k, y, test₀, -, hreach, htouches, htest₀, hname₀⟩
  have hfile : Path.resolve i.file = .ok i.file := htest₀ ▸ htouches.resolve_file hs
  have hmarks : ¬ ("::" : Text) <:+: i.file := htest₀ ▸ htouches.unmarked hs hunmarked
  have hrelative := Impact.relativeTo_of_isAbsolute w.root i (Path.isAbsolute_of_resolve hfile)
  rcases Tracer.exists_chain_of_first hs happart hunmarked htraces hmarks hreturned hearlier hreports
    with ⟨c, hc, ds', test, htest, hname, hexplains, hchain, hleast, hfirst⟩
  rw [← hcalls] at hc hleast
  rcases mem_callsOf.1 hc with ⟨d, hd, htraced', rfl⟩
  rcases hexplains.first with ⟨x, hx, hhead⟩
  rcases List.head?_eq_some_iff.1 hhead with ⟨xs, rfl⟩
  refine ⟨d, hd, x, xs, test, ⟨htraced', hexplains⟩,
    relativeTo_file_of_mem_seeds hroot (htidy d hd) hx, by rw [hrelative, htest],
    by rw [hrelative, hname], ?_, ?_, d₀, by simp, hrelated, ?_, ?_⟩
  · -- The chain is asked for by the path as it is shown, which leads back to the file.
    unfold Analysis.chain
    rw [htracer, hrelative]
    have hindirect : i.kind = .indirect := by rwa [hrelative] at hkind
    dsimp only
    rw [hindirect, (Path.resolve_join_relativeTo hroot hfile).1]
    exact congrArg Except.ok hchain
  · intro d' hd' test' xs' hfile' hname' h'
    exact hleast _ (mem_callsOf.2 ⟨d', hd', h'.1, rfl⟩) xs' test' (hfile'.trans htest)
      (hname'.trans hname) h'.2
  · rcases hreach.exists_explains htouches with ⟨xs₀, hxs₀⟩
    exact ⟨test₀, xs₀, htest₀.trans htest.symm, hname₀.trans hname.symm, htraced, hxs₀⟩
  · refine hfirst.imp (fun h => congrArg Call.diff h) fun hlonger test' xs' hfile' hname' h' => ?_
    exact hlonger xs' test' (hfile'.trans htest) (hname'.trans hname) h'.2

end Workspace

/-! ## An example -/

namespace Nearer

open Sample (leaf branch call declaration expression)

/-- A module that exports one function. -/
def moduleSource (name : CodePoint) : Bytes :=
  (Utf8.encode (("export function " : Text) ++ [name] ++ ("() {}\n" : Text))).getD []

def moduleTree (name : UInt8) : Tree :=
  .node ⟨.program, true, none, 0, 23, 0, 1, []⟩ [branch .exportStatement none 0 22 0 [
    declaration (some (.other "declaration")) 7 22 0 name []]]

def testSource : Bytes :=
  (Utf8.encode ("import { a } from '../../a';\nimport { b } from '../b';\n" ++
    "function h() \x7b a(); \x7d\ntest(\"x\", () => \x7b h(); b(); \x7d);\n")).getD []

/-- An import of a function, at the beginning of a line. -/
def statement (first row : Nat) (name : UInt8) (specifier : Bytes) : Tree :=
  branch .importStatement none first (first + 19 + specifier.length) row [
    branch .importClause none (first + 7) (first + 12) row [
      branch .namedImports none (first + 7) (first + 12) row [
        branch .importSpecifier none (first + 9) (first + 10) row [
          leaf .identifier (some .name) (first + 9) (first + 10) row [name]]]],
    leaf .string (some .source) (first + 18) (first + 18 + specifier.length) row specifier]

def test : Tree :=
  branch .callExpression none 77 107 3 [
    leaf .identifier (some .function) 77 81 3 [116, 101, 115, 116],
    branch .arguments (some .arguments) 81 107 3 [
      leaf .string none 82 85 3 [34, 120, 34],
      branch .arrowFunction none 87 106 3 [
        branch .formalParameters (some (.other "parameters")) 87 89 3 [],
        branch (.other "statement_block") (some (.other "body")) 93 106 3 [
          expression 95 99 3 [call 95 98 3 104 []], expression 100 104 3 [call 100 103 3 98 []]]]]]

/-- The tree of a file with a test `x` that calls the function `b` itself and the function `a` through a
helper. -/
def testTree : Tree :=
  .node ⟨.program, true, none, 0, 109, 0, 4, []⟩ [
    statement 0 0 97 [39, 46, 46, 47, 46, 46, 47, 97, 39], statement 29 1 98 [39, 46, 46, 47, 98, 39],
    Sample.caller none 55 2 104 97, expression 77 108 3 [test]]

/-- A project in which the test is nearer to `b/b.js` than to `a.js`. -/
def workspace : Workspace where
  root := "/p"
  settings := {}
  grammars _ source :=
    if source = testSource then testTree
    else if source = moduleSource 'b' then moduleTree 98
    else moduleTree 97
  disk := [.directory [112] [.file [97, 46, 106, 115] (moduleSource 'a'),
    .directory [98] [.file [98, 46, 106, 115] (moduleSource 'b'),
      .directory [116] [.file [120, 46, 116, 101, 115, 116, 46, 106, 115] testSource]]]]

/-- A change of the function in a file. -/
def change (path name : Text) : FileDiff :=
  ⟨path, .modified, [⟨1, ("export function " : Text) ++ name ++ ("() {}" : Text), false⟩], []⟩

def changes : List FileDiff :=
  [change "a.js" "a", change "b/b.js" "b"]

/-- The impact of the changes: the test, named with the first file that leads to it. -/
def impact : Impact :=
  ⟨"x", "b/t/x.test.js", .indirect, some "a.js"⟩

theorem sourceFiles_workspace : workspace.sourceFiles =
    .ok [("/p/a.js" : Text), ("/p/b/b.js" : Text), ("/p/b/t/x.test.js" : Text)] := by
  rw [Workspace.sourceFiles_eq (by decide) rfl]
  simp only [Entry.filesBelow, Entry.subdirectories]
  exact Fallible.toOption_eq_some.1 (by decide +kernel)

theorem changes_not_global : ∀ d ∈ changes, workspace.settings.isGlobalFile d.path = false := by
  decide

theorem impacts_changes : (workspace.analyze changes).impacts = .ok [impact] := by
  rw [(Workspace.analyze_of_shows changes_not_global
    (Progress.shows_listed sourceFiles_workspace) rfl).1]
  exact Fallible.toOption_eq_some.1 (by decide +kernel)

theorem chain_impact : (workspace.analyze changes).chain workspace.root impact =
    .ok [("b (b/b.js)" : Text), ("x (b/t/x.test.js)" : Text)] := by
  unfold Analysis.chain
  rw [(Workspace.analyze_of_shows changes_not_global
    (Progress.shows_listed sourceFiles_workspace) rfl).2]
  exact Fallible.toOption_eq_some.1 (by decide +kernel)

theorem tree_of_fileOf {p : Text} {f : SourceFile} (h : Session.fileOf {} workspace p = .ok f) :
    f.tree ∈ [testTree, moduleTree 98, moduleTree 97] := by
  rw [Session.tree_of_fileOf rfl h]
  dsimp only [workspace]
  split
  · simp
  · split <;> simp

theorem startsApart {p : Text} {f : SourceFile} (h : Session.fileOf {} workspace p = .ok f) :
    f.StartsApart := by
  have hall : ∀ t ∈ [testTree, moduleTree 98, moduleTree 97],
      (((Cursor.ofRoot t).preorder.filter fun c => (DeclarationKind.ofKind? c.kind).isSome).map
        fun c => c.info.startByte).Nodup := by
    decide
  exact SourceFile.startsApart_of_nodup (hall f.tree (tree_of_fileOf h))

theorem unmarked {p : Text} {f : SourceFile} (h : Session.fileOf {} workspace p = .ok f) :
    f.Unmarked := by
  have hnames : Disk.allNamedIn (fun name => !name.contains 58) workspace.disk = true := by decide
  have hall : ∀ t ∈ [testTree, moduleTree 98, moduleTree 97],
      ∀ text ∈ (Cursor.ofRoot t).preorder.filterMap fun c =>
        (Declaration.nameNode? c.tree).bind fun name => name.text.toOption,
          (':' : CodePoint) ∉ text ∧ ('@' : CodePoint) ∉ text := by
    decide
  rcases Session.coherent_empty.fileOf_eq_ok h with ⟨rfl, hbytes⟩
  exact SourceFile.unmarked_of_names (Disk.not_infix_of_read hbytes hnames)
    (hall f.tree (tree_of_fileOf h))

theorem tidy_changes : ∀ d ∈ changes, Path.Tidy d.path := by
  intro d hd
  rcases List.mem_pair.1 hd with rfl | rfl
  · exact ⟨["a.js"], by decide, by decide, rfl⟩
  · exact ⟨["b", "b.js"], by decide, by decide, rfl⟩

/-- The test is found from `a.js` first, but `b/b.js` is nearer, and the chain begins there. -/
theorem analyze_chain_changes :
    (workspace.analyze changes).impacts = .ok [impact] ∧
    ∃ d ∈ changes, ∃ x xs test, workspace.ExplainedBy d test (x :: xs) ∧
      Path.relativeTo workspace.root x.file = d.path ∧
      Path.relativeTo workspace.root test.file = impact.file ∧ test.name = impact.testName ∧
      (workspace.analyze changes).chain workspace.root impact =
        .ok ((x :: xs).map (Declaration.label workspace.root) ++ [test.label workspace.root]) ∧
      (∀ d' ∈ changes, ∀ test' xs', test'.file = test.file → test'.name = test.name →
        workspace.ExplainedBy d' test' xs' → (x :: xs).length ≤ xs'.length) ∧
      ∃ d₀ ∈ changes, impact.related = some d₀.path ∧
        (∃ test₀ xs₀, test₀.file = test.file ∧ test₀.name = test.name ∧
          workspace.ExplainedBy d₀ test₀ xs₀) ∧
        (d = d₀ ∨ ∀ test₀ xs₀, test₀.file = test.file → test₀.name = test.name →
          workspace.ExplainedBy d₀ test₀ xs₀ → (x :: xs).length < xs₀.length) := by
  refine ⟨impacts_changes, ?_⟩
  exact Workspace.analyze_chain rfl tidy_changes (fun _ _ => startsApart) (fun _ _ => unmarked)
    changes_not_global impacts_changes (List.mem_singleton_self impact) rfl

/-- The file that an impact names need not be the one that its chain begins in. -/
theorem not_chain_begins_in_related :
    (workspace.analyze changes).impacts = .ok [impact] ∧
    (workspace.analyze changes).chain workspace.root impact =
      .ok [("b (b/b.js)" : Text), ("x (b/t/x.test.js)" : Text)] ∧
    ¬ ∀ (w : Workspace) (ds : List FileDiff) (is : List Impact) (r : Impact),
      Path.resolve w.root = .ok w.root → (∀ d ∈ ds, Path.Tidy d.path) →
      (∀ path f, Session.fileOf {} w path = .ok f → f.StartsApart) →
      (∀ path f, Session.fileOf {} w path = .ok f → f.Unmarked) →
      (∀ d ∈ ds, w.settings.isGlobalFile d.path = false) →
      (w.analyze ds).impacts = .ok is → r ∈ is → r.kind = .indirect →
        ∃ name related rest, r.related = some related ∧ (w.analyze ds).chain w.root r =
          .ok ((name ++ (" (" : Text) ++ related ++ (")" : Text)) :: rest) := by
  refine ⟨impacts_changes, chain_impact, fun hall => ?_⟩
  rcases hall workspace changes [impact] impact rfl tidy_changes (fun _ _ => startsApart)
    (fun _ _ => unmarked) changes_not_global impacts_changes (List.mem_singleton_self impact) rfl with
    ⟨name, related, rest, hrelated, hchain⟩
  cases hrelated
  rw [chain_impact] at hchain
  have hlabel := (List.cons.inj (Except.ok.inj hchain)).1
  rw [List.append_assoc, List.append_assoc] at hlabel
  have hno : ¬ ((" (" : Text) ++ (("a.js" : Text) ++ (")" : Text))) <:+ ("b (b/b.js)" : Text) := by
    decide
  exact hno ⟨name, hlabel.symm⟩

end Nearer

end AffectedTests
