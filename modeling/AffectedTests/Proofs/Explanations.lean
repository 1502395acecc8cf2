import AffectedTests.Proofs.Places
import AffectedTests.Proofs.Records
/-!
# The chain behind a test

The chain that is shown for a test is a shortest explanation of it: it begins with a changed declaration,
each declaration is one hop from the one before it, and the last one is used inside the test. That the graph
is shared by all changes opens no way that is not really there, since every edge stands for a hop; and that
a changed declaration is not noted for a test that another one had reached before hides none that is nearer.

A trace may fail on the way. What it has noted until then stays, and the chains of later calls may go
through it.

- `Traces` are the calls that one tracer has gone through.
- `Tracer.exists_explanation`: a path of the graph is an explanation.
- `Tracer.chain_explains`: the chain of a test.
-/

namespace AffectedTests

/-! ## The calls of a tracer -/

/-- A call of a tracer: what it was asked for, and what came of it. -/
structure Call where
  diff : FileDiff
  path : Text
  outcome : Except Failure (List Impact)

namespace Call

/-- The changed declarations of a call; there are none if they cannot be told. -/
def seeds (w : Workspace) (s : Session) (c : Call) : List Declaration :=
  Tracing.seedsOf w s c.diff c.path

/-- The call gave an answer. -/
def Returned (c : Call) : Prop :=
  ∃ impacts, c.outcome = .ok impacts

/-- The call reported a test. -/
def Reports (c : Call) (file name : Text) : Prop :=
  ∃ impacts, c.outcome = .ok impacts ∧ (file, name) ∈ impacts.map Impact.key

end Call

/-- A tracer goes through some calls, each in a session that shows what the first one shows. -/
inductive Traces (w : Workspace) (s : Session) : Tracer → List Call → Tracer → Prop
  | none {t : Tracer} : Traces w s t [] t
  | call {t t' : Tracer} {calls : List Call} {s' : Session} (diff : FileDiff) (path : Text) :
      s'.Coherent → s.Alike w s' → Traces w s (t.trace diff path w s').2.2 calls t' →
        Traces w s t (⟨diff, path, (t.trace diff path w s').1⟩ :: calls) t'

/-! ## Explanations -/

section Explanations

variable (w : Workspace) (s : Session)

/-- A chain of hops from one of the given declarations into a test. -/
structure Explains (seeds : List Declaration) (test : TestDeclaration) (ds : List Declaration) :
    Prop where
  first : ∃ seed ∈ seeds, ds.head? = some seed
  hops : ds.IsChain (Hop w s)
  last : ∃ d, ds.getLast? = some d ∧ Touches w s d test

end Explanations

variable {w : Workspace} {s : Session} {seeds : List Declaration}

theorem Reach.exists_of_isChain {k : Nat} {d : Declaration} {ds : List Declaration}
    (h : Reach w s seeds k d) (hops : (d :: ds).IsChain (Hop w s)) :
    ∃ last, (d :: ds).getLast? = some last ∧ Reach w s seeds (k + ds.length) last := by
  induction ds generalizing k d with
  | nil => exact ⟨d, rfl, h⟩
  | cons d' ds ih =>
    rw [List.isChain_cons_cons] at hops
    rcases ih (h.hop hops.1) hops.2 with ⟨last, hlast, hreach⟩
    refine ⟨last, by rw [List.getLast?_cons_cons, hlast], ?_⟩
    rwa [List.length_cons, Nat.add_comm ds.length, ← Nat.add_assoc]

/-- An explanation of so many declarations makes one hop less. -/
theorem Explains.exists_reach {test : TestDeclaration} {ds : List Declaration}
    (h : Explains w s seeds test ds) :
    ∃ k d, ds.length = k + 1 ∧ Reach w s seeds k d ∧ Touches w s d test := by
  rcases h.first with ⟨seed, hseed, hhead⟩
  rcases List.head?_eq_some_iff.1 hhead with ⟨rest, rfl⟩
  rcases Reach.exists_of_isChain (.seed hseed) h.hops with ⟨last, hlast, hreach⟩
  rcases h.last with ⟨d, hd, htouches⟩
  rw [hlast] at hd
  cases hd
  exact ⟨rest.length, last, rfl, by simpa using hreach, htouches⟩

theorem Reach.exists_isChain {k : Nat} {d : Declaration} (h : Reach w s seeds k d) :
    ∃ ds : List Declaration, (∃ seed ∈ seeds, ds.head? = some seed) ∧ ds.IsChain (Hop w s) ∧
      ds.getLast? = some d := by
  induction h with
  | @seed d hd => exact ⟨[d], ⟨d, hd, rfl⟩, .singleton d, rfl⟩
  | @hop k d d' _ hhop ih =>
    rcases ih with ⟨ds, ⟨seed, hseed, hhead⟩, hchain, hlast⟩
    refine ⟨ds ++ [d'], ⟨seed, hseed, by simp [hhead]⟩, ?_, by simp⟩
    refine List.isChain_append.2 ⟨hchain, .singleton d', ?_⟩
    intro x hx y hy
    rw [hlast] at hx
    cases hx
    cases hy
    exact hhop

/-- What is reached and used inside a test explains the test. -/
theorem Reach.exists_explains {k : Nat} {d : Declaration} {test : TestDeclaration}
    (h : Reach w s seeds k d) (htouches : Touches w s d test) : ∃ ds, Explains w s seeds test ds := by
  rcases h.exists_isChain with ⟨ds, hfirst, hchain, hlast⟩
  exact ⟨ds, hfirst, hchain, d, hlast, htouches⟩

/-! ## Paths of the graph -/

namespace Tracer

variable {t : Tracer} {file name : Text} {d d' : Declaration}

section Paths

variable (hs : s.Coherent) (happart : ∀ path f, s.fileOf w path = .ok f → f.StartsApart)
  (hunmarked : ∀ path f, s.fileOf w path = .ok f → f.Unmarked)

include hs happart hunmarked

omit hs in
/-- What an edge from a declaration stands for. -/
theorem hop_or_touches_of_stands (hd : s.Declares w d) {v : Text} (h : Stands w s d.nodeId v) :
    (∃ d', v = d'.nodeId ∧ Hop w s d d') ∨ ∃ test, v = test.nodeId ∧ Touches w s d test := by
  generalize hid : d.nodeId = u at h
  cases h with
  | @hop x d' hx hhop =>
    have hsame := Session.eq_of_nodeId_eq happart hunmarked hd hx hid
    exact .inl ⟨d', rfl, hsame ▸ hhop⟩
  | @test x test hx htouches =>
    have hsame := Session.eq_of_nodeId_eq happart hunmarked hd hx hid
    exact .inr ⟨test, rfl, hsame ▸ htouches⟩

omit happart in
/-- No edge leaves a test. -/
theorem not_stands_of_touches {test : TestDeclaration} (h : Touches w s d test) (v : Text) :
    ¬ Stands w s test.nodeId v := by
  intro hstands
  have hfile := h.unmarked hs hunmarked
  generalize hid : test.nodeId = u at hstands
  cases hstands with
  | hop hx _ =>
    exact TestDeclaration.nodeId_ne_nodeIdOf (Session.unmarked_of_declares hunmarked hx) hfile hid.symm
  | test hx _ =>
    exact TestDeclaration.nodeId_ne_nodeIdOf (Session.unmarked_of_declares hunmarked hx) hfile hid.symm

omit hs in
/-- A declaration of the graph has its own label. -/
theorem label_nodeId (hs : s.Coherent) (hsound : t.Sound w s) (hd : s.Declares w d)
    (hnode : t.graph.labels.has d.nodeId = true) : t.graph.label d.nodeId = d.label w.root := by
  rcases Option.isSome_iff_exists.1 hnode with ⟨label, hlabel⟩
  have hname := hsound.labels _ _ hlabel
  unfold Graph.label
  rw [hlabel, Option.getD_some]
  generalize hid : d.nodeId = v at hname
  cases hname with
  | declaration hx => rw [Session.eq_of_nodeId_eq happart hunmarked hd hx hid]
  | test htouches =>
    exact absurd hid (TestDeclaration.nodeId_ne_nodeIdOf
      (Session.unmarked_of_declares hunmarked hd) (htouches.unmarked hs hunmarked))

omit happart in
/-- A test of the graph has its own label. -/
theorem label_nodeId_of_touches (hsound : t.Sound w s) {test : TestDeclaration}
    (htouches : Touches w s d test) (hnode : t.graph.labels.has test.nodeId = true) :
    t.graph.label test.nodeId = test.label w.root := by
  rcases Option.isSome_iff_exists.1 hnode with ⟨label, hlabel⟩
  have hname := hsound.labels _ _ hlabel
  have hfile := htouches.unmarked hs hunmarked
  unfold Graph.label
  rw [hlabel, Option.getD_some]
  generalize hid : test.nodeId = v at hname
  cases hname with
  | declaration hx =>
    exact absurd hid.symm
      (TestDeclaration.nodeId_ne_nodeIdOf (Session.unmarked_of_declares hunmarked hx) hfile)
  | test htouches' =>
    rcases TestDeclaration.nodeIdOf_inj hfile (htouches'.unmarked hs hunmarked) hid with
      ⟨hfile', hname'⟩
    unfold TestDeclaration.label
    rw [hfile', hname']

/-- A path of the graph from a declaration to a test is a chain of hops into the test, and its labels are
those of the declarations and of the test. -/
theorem exists_hops_of_isChain (hsound : t.Sound w s) (hfile : ¬ ("::" : Text) <:+: file) :
    ∀ (nodes : List Text) (d : Declaration), s.Declares w d →
      (d.nodeId :: nodes).IsChain (fun a b => (a, b) ∈ t.graph.edges) →
        (d.nodeId :: nodes).getLast? = some (TestDeclaration.nodeIdOf file name) →
          ∃ ds last test, (d :: ds).IsChain (Hop w s) ∧ (d :: ds).getLast? = some last ∧
            Touches w s last test ∧ test.file = file ∧ test.name = name ∧
              (d.nodeId :: nodes).map t.graph.label =
                (d :: ds).map (Declaration.label w.root) ++ [test.label w.root] := by
  intro nodes
  induction nodes with
  | nil =>
    intro d hd _ hlast
    have hmarks := Session.unmarked_of_declares hunmarked hd
    exact absurd (Option.some.inj hlast) (TestDeclaration.nodeId_ne_nodeIdOf hmarks hfile)
  | cons v nodes ih =>
    intro d hd hchain hlast
    rw [List.isChain_cons_cons] at hchain
    have hends := hsound.closed _ hchain.1
    have hlabel := label_nodeId happart hunmarked hs hsound hd hends.1
    rcases hop_or_touches_of_stands happart hunmarked hd (hsound.edges _ hchain.1) with
      ⟨d', rfl, hhop⟩ | ⟨test, rfl, htouches⟩
    · -- The next node is a declaration, and the rest of the path leads on from there.
      rw [List.getLast?_cons_cons] at hlast
      rcases ih d' (hhop.declares hs) hchain.2 hlast with
        ⟨ds, last, test, hhops, hend, htouches, hfile', hname, hlabels⟩
      refine ⟨d' :: ds, last, test, .cons_cons hhop hhops, by rw [List.getLast?_cons_cons, hend],
        htouches, hfile', hname, ?_⟩
      rw [List.map_cons, hlabels, hlabel]
      rfl
    · -- The next node is a test. No edge leaves it, so the path ends there.
      cases nodes with
      | nil =>
        have hid : TestDeclaration.nodeIdOf test.file test.name =
            TestDeclaration.nodeIdOf file name := Option.some.inj hlast
        rcases TestDeclaration.nodeIdOf_inj (htouches.unmarked hs hunmarked) hfile hid with
          ⟨hfile', hname⟩
        refine ⟨[], d, test, .singleton d, rfl, htouches, hfile', hname, ?_⟩
        simp [hlabel, label_nodeId_of_touches hs hunmarked hsound htouches hends.2]
      | cons u nodes =>
        rw [List.isChain_cons_cons] at hchain
        exact absurd (hsound.edges _ hchain.2.1)
          (not_stands_of_touches hs hunmarked htouches u)

/-- A path of the graph from a changed declaration to a test explains the test, and its labels are those
of the explanation. -/
theorem exists_explanation (hsound : t.Sound w s) (hfile : ¬ ("::" : Text) <:+: file)
    (hd : s.Declares w d) (hseed : d ∈ seeds) {p : List Text}
    (hpath : t.graph.IsPath d.nodeId (TestDeclaration.nodeIdOf file name) p) :
    ∃ ds test, test.file = file ∧ test.name = name ∧ Explains w s seeds test (d :: ds) ∧
      p.map t.graph.label =
        (d :: ds).map (Declaration.label w.root) ++ [test.label w.root] := by
  rcases List.head?_eq_some_iff.1 hpath.first with ⟨nodes, rfl⟩
  rcases exists_hops_of_isChain hs happart hunmarked hsound hfile nodes d hd hpath.edges hpath.last
    with ⟨ds, last, test, hhops, hlast, htouches, hfile', hname, hlabels⟩
  exact ⟨ds, test, hfile', hname, ⟨⟨d, hseed, rfl⟩, hhops, last, hlast, htouches⟩, hlabels⟩

end Paths

/-! ## The first of the shortest -/

/-- The first of the shortest of some paths. -/
def shortest? : List (List Text) → Option (List Text)
  | [] => none
  | first :: rest =>
    some (rest.foldl (fun best p => if p.length < best.length then p else best) first)

theorem shortest?_eq_none {paths : List (List Text)} : shortest? paths = none ↔ paths = [] := by
  cases paths <;> simp [shortest?]

/-- The paths to a test from the changed declarations that reached it. -/
def pathsTo (t : Tracer) (target : Text) : List (List Text) :=
  (t.originsOf target).filterMap fun origin => t.graph.shortestPath? origin target

theorem chain_eq (t : Tracer) (file name : Text) :
    t.chain file name =
      ((shortest? (t.pathsTo (TestDeclaration.nodeIdOf file name))).map
        (List.map t.graph.label)).getD [] := by
  unfold chain shortest?
  have hpaths : (((t.origins.get? (TestDeclaration.nodeIdOf file name)).getD []).filterMap
      fun origin => t.graph.shortestPath? origin (TestDeclaration.nodeIdOf file name)) =
        t.pathsTo (TestDeclaration.nodeIdOf file name) := rfl
  dsimp only
  rw [hpaths]
  cases t.pathsTo (TestDeclaration.nodeIdOf file name) <;> rfl

/-- A path that no other one is shorter than, and that those before it are longer than. -/
structure FirstShortest (paths : List (List Text)) (p : List Text) : Prop where
  split : ∃ earlier later, paths = earlier ++ p :: later ∧ ∀ q ∈ earlier, p.length < q.length
  least : ∀ q ∈ paths, p.length ≤ q.length

namespace FirstShortest

variable {paths : List (List Text)} {best p q : List Text}

/-- A longer path in front of the others is passed over. -/
theorem cons (h : FirstShortest paths p) (hbest : p.length < best.length) :
    FirstShortest (best :: paths) p := by
  rcases h.split with ⟨earlier, later, heq, hearlier⟩
  refine ⟨⟨best :: earlier, later, by rw [heq]; rfl, ?_⟩, ?_⟩
  · exact List.forall_mem_cons.2 ⟨hbest, hearlier⟩
  · exact List.forall_mem_cons.2 ⟨Nat.le_of_lt hbest, h.least⟩

/-- So is a path behind the first one that is no shorter than it. -/
theorem insert (h : FirstShortest (best :: paths) p) (hq : best.length ≤ q.length) :
    FirstShortest (best :: q :: paths) p := by
  rcases h.split with ⟨earlier, later, heq, hearlier⟩
  have hbest := h.least best (by simp)
  refine ⟨?_, ?_⟩
  · cases earlier with
    | nil =>
      cases heq
      exact ⟨[], q :: paths, rfl, by simp⟩
    | cons b earlier =>
      cases heq
      rcases List.forall_mem_cons.1 hearlier with ⟨hlt, hearlier⟩
      refine ⟨best :: q :: earlier, later, rfl, ?_⟩
      exact List.forall_mem_cons.2 ⟨hlt, List.forall_mem_cons.2 ⟨by omega, hearlier⟩⟩
  · rcases List.forall_mem_cons.1 h.least with ⟨-, hleast⟩
    exact List.forall_mem_cons.2 ⟨hbest, List.forall_mem_cons.2 ⟨by omega, hleast⟩⟩

end FirstShortest

theorem firstShortest_foldl (paths : List (List Text)) (best : List Text) :
    FirstShortest (best :: paths)
      (paths.foldl (fun best p => if p.length < best.length then p else best) best) := by
  induction paths generalizing best with
  | nil => exact ⟨⟨[], [], rfl, by simp⟩, by simp⟩
  | cons p paths ih =>
    rw [List.foldl_cons]
    by_cases hshorter : p.length < best.length
    · rw [if_pos hshorter]
      have hle := (ih p).least p (by simp)
      exact (ih p).cons (by omega)
    · rw [if_neg hshorter]
      exact (ih best).insert (by omega)

/-- The path that is chosen. -/
theorem firstShortest_of_shortest? {paths : List (List Text)} {p : List Text}
    (h : shortest? paths = some p) : FirstShortest paths p := by
  cases paths with
  | nil => cases h
  | cons first rest =>
    cases h
    exact firstShortest_foldl rest first

theorem shortest?_le {paths : List (List Text)} {p : List Text} (h : shortest? paths = some p) :
    p ∈ paths ∧ ∀ q ∈ paths, p.length ≤ q.length := by
  have hfirst := firstShortest_of_shortest? h
  rcases hfirst.split with ⟨earlier, later, heq, -⟩
  exact ⟨by simp [heq], hfirst.least⟩

/-- If the path that is chosen from two lists is none of the first one, all of those are longer. -/
theorem mem_or_lt_of_shortest?_append {paths paths' : List (List Text)} {p : List Text}
    (h : shortest? (paths ++ paths') = some p) : p ∈ paths ∨ ∀ q ∈ paths, p.length < q.length := by
  rcases (firstShortest_of_shortest? h).split with ⟨earlier, later, heq, hearlier⟩
  rcases List.append_eq_append_iff.1 heq with ⟨rest, hrest, -⟩ | ⟨rest, hrest, hlater⟩
  · exact .inr fun q hq => hearlier q (by simp [hrest, hq])
  · cases rest with
    | nil =>
      rw [List.append_nil] at hrest
      exact .inr fun q hq => hearlier q (hrest ▸ hq)
    | cons first rest =>
      cases hlater
      exact .inl (by simp [hrest])

end Tracer

/-! ## What calls leave behind -/

namespace Traces

variable {t t' : Tracer} {calls : List Call}

theorem declares_of_mem_seeds (hs : s.Coherent) {c : Call} {d : Declaration}
    (hd : d ∈ c.seeds w s) : s.Declares w d :=
  (Tracing.declares_and_resolve_of_mem_seedsOf hs hd).1

/-- What all calls together add, whatever comes of them. -/
theorem grows (hs : s.Coherent) (h : Traces w s t calls t') :
    ∃ noted, Tracer.Grows w s (calls.flatMap (Call.seeds w s)) noted t t' ∧
      ((∀ c ∈ calls, c.Returned) → ∀ i ∈ noted, ∃ c ∈ calls, c.Reports i.file i.testName) := by
  induction h with
  | none => exact ⟨[], .refl w s _ _ _, by simp⟩
  | @call t t' calls s' diff path hs' halike _ ih =>
    rcases Tracer.grows_trace t diff path hs hs' halike with ⟨noted, hgrows, -, hnoted⟩
    rcases ih with ⟨noted', hgrows', hnoted'⟩
    refine ⟨noted ++ noted', ?_, ?_⟩
    · refine (hgrows.mono ?_ (fun i hi => List.mem_append_left _ hi)).trans
        (hgrows'.mono ?_ fun i hi => List.mem_append_right _ hi)
      · exact fun d hd => List.mem_flatMap.2 ⟨_, List.mem_cons_self, hd⟩
      · intro d hd
        rcases List.mem_flatMap.1 hd with ⟨c, hc, hd⟩
        exact List.mem_flatMap.2 ⟨c, List.mem_cons_of_mem _ hc, hd⟩
    · intro hreturned i hi
      rcases List.mem_append.1 hi with hi | hi
      · rcases hreturned _ List.mem_cons_self with ⟨impacts, himpacts⟩
        refine ⟨_, List.mem_cons_self, impacts, himpacts, ?_⟩
        rw [hnoted impacts himpacts, Impact.mem_keys_merge]
        exact List.mem_map.2 ⟨i, hi, rfl⟩
      · rcases hnoted' (fun c hc => hreturned c (by simp [hc])) i hi with ⟨c, hc, hreports⟩
        exact ⟨c, by simp [hc], hreports⟩

/-- What a call that gave an answer leaves in the tracer. -/
theorem records (hs : s.Coherent)
    (happart : ∀ path f, s.fileOf w path = .ok f → f.StartsApart) (h : Traces w s t calls t')
    {c : Call} (hc : c ∈ calls) (hreturned : c.Returned) :
    t'.Records w s (c.seeds w s) ∧ ∀ file name, c.Reports file name ↔
      WithinReach w s (c.seeds w s) w.settings.maxDepth.toNat file name := by
  induction h with
  | none => cases hc
  | @call t t' calls s' diff path hs' halike hrest ih =>
    rcases List.mem_cons.1 hc with rfl | hc
    · rcases hreturned with ⟨impacts, himpacts⟩
      rcases Tracer.of_trace_eq_ok hs happart hs' halike himpacts with
        ⟨seeds, hseeds, -, hrecords, hreports⟩
      rw [← Tracing.seedsOf_eq hseeds] at hrecords hreports
      rcases hrest.grows hs with ⟨noted, hgrows, -⟩
      refine ⟨hrecords.mono hgrows, ?_⟩
      intro file name
      refine Iff.trans ?_ (hreports file name)
      constructor
      · rintro ⟨impacts', himpacts', hmem⟩
        rw [himpacts] at himpacts'
        cases himpacts'
        exact hmem
      · exact fun hmem => ⟨impacts, himpacts, hmem⟩
    · exact ih hc

/-- If all calls gave answers, no changed declaration is noted for a test that none of them reported. -/
theorem originsOf_eq_nil (hs : s.Coherent)
    (happart : ∀ path f, s.fileOf w path = .ok f → f.StartsApart)
    (hunmarked : ∀ path f, s.fileOf w path = .ok f → f.Unmarked) (h : Traces w s {} calls t)
    {file name : Text} (hfile : ¬ ("::" : Text) <:+: file) (hreturned : ∀ c ∈ calls, c.Returned)
    (hnone : ∀ c ∈ calls, ¬ c.Reports file name) :
    t.originsOf (TestDeclaration.nodeIdOf file name) = [] := by
  rcases h.grows hs with ⟨noted, hgrows, hnoted⟩
  refine List.eq_nil_iff_forall_not_mem.2 fun origin horigin => ?_
  -- What is noted for the test was noted for an impact that a call reported.
  rcases (hgrows.of_mem_originsOf horigin).2 with ⟨i, hi, hid⟩
  rcases hnoted hreturned i hi with ⟨c, hc, hreports⟩
  rcases ((h.records hs happart hc (hreturned c hc)).2 _ _).1 hreports with
    ⟨k, d, test, -, -, htouches, htest, -⟩
  rcases TestDeclaration.nodeIdOf_inj hfile (htest ▸ htouches.unmarked hs hunmarked) hid with
    ⟨rfl, rfl⟩
  exact hnone c hc hreports

end Traces

/-! ## The chain of a test -/

namespace Tracer

variable {t : Tracer} {calls : List Call} {file name : Text}

/-- A test within reach has a path in the graph that is no longer than the hops tell, also after other
calls; it begins with a changed declaration that was noted first. -/
theorem Records.exists_path_of_grows {t' : Tracer} (h : t.Records w s seeds) {seeds' : List Declaration}
    {noted : List Impact} (hgrows : Grows w s seeds' noted t t') (hclosed : t'.graph.Closed) {k : Nat}
    {d : Declaration} {test : TestDeclaration} (hk : k ≤ w.settings.maxDepth.toNat)
    (hreach : Reach w s seeds k d) (htouches : Touches w s d test) :
    ∃ p ∈ (t.originsOf test.nodeId).filterMap fun origin =>
      t'.graph.shortestPath? origin test.nodeId, p.length ≤ k + 2 := by
  rcases h k d test hk hreach htouches with ⟨origin, horigin, n, hn, hlead⟩
  rcases Graph.exists_shortestPath? hclosed (hgrows.leads hlead) with ⟨p, hp⟩
  have hle := (Graph.isPath_of_shortestPath? hp).2 n (hgrows.leads hlead)
  exact ⟨p, List.mem_filterMap.2 ⟨origin, horigin, hp⟩, by omega⟩

theorem Records.exists_path (h : t.Records w s seeds) (hclosed : t.graph.Closed) {k : Nat}
    {d : Declaration} {test : TestDeclaration} (hk : k ≤ w.settings.maxDepth.toNat)
    (hreach : Reach w s seeds k d) (htouches : Touches w s d test) :
    ∃ p ∈ t.pathsTo test.nodeId, p.length ≤ k + 2 :=
  h.exists_path_of_grows (.refl w s seeds [] t) hclosed hk hreach htouches

/-- If tests within reach have paths, and one of the paths is within the limit, some path is no longer than
an explanation: one that is beyond the limit is longer than that one. -/
theorem exists_path_of_explains {paths : List (List Text)} {test : TestDeclaration}
    (hwithin : ∀ k d, k ≤ w.settings.maxDepth.toNat → Reach w s seeds k d → Touches w s d test →
      ∃ p ∈ paths, p.length ≤ k + 2)
    (hlimit : ∃ p ∈ paths, p.length ≤ w.settings.maxDepth.toNat + 2) {ds : List Declaration}
    (hexplains : Explains w s seeds test ds) : ∃ p ∈ paths, p.length ≤ ds.length + 1 := by
  rcases hexplains.exists_reach with ⟨k, d, hds, hreach, htouches⟩
  by_cases hk : k ≤ w.settings.maxDepth.toNat
  · rcases hwithin k d hk hreach htouches with ⟨p, hp, hle⟩
    exact ⟨p, hp, by omega⟩
  · rcases hlimit with ⟨p, hp, hle⟩
    exact ⟨p, hp, by omega⟩

/-- Every path to a test begins with a changed declaration of one of the calls, and explains the test. -/
theorem exists_explanation_of_mem_pathsTo (hs : s.Coherent)
    (happart : ∀ path f, s.fileOf w path = .ok f → f.StartsApart)
    (hunmarked : ∀ path f, s.fileOf w path = .ok f → f.Unmarked) (h : Traces w s {} calls t)
    (hfile : ¬ ("::" : Text) <:+: file) {p : List Text}
    (hp : p ∈ t.pathsTo (TestDeclaration.nodeIdOf file name)) :
    ∃ c ∈ calls, ∃ ds test, test.file = file ∧ test.name = name ∧
      Explains w s (c.seeds w s) test ds ∧
      p.map t.graph.label = ds.map (Declaration.label w.root) ++ [test.label w.root] := by
  rcases h.grows hs with ⟨noted, hgrows, -⟩
  rcases List.mem_filterMap.1 hp with ⟨origin, horigin, hfound⟩
  rcases (hgrows.of_mem_originsOf horigin).1 with ⟨seed, hseed, rfl⟩
  rcases List.mem_flatMap.1 hseed with ⟨c, hc, hseed⟩
  rcases exists_explanation hs happart hunmarked (hgrows.sound sound_empty) hfile
    (Traces.declares_of_mem_seeds hs hseed) hseed (Graph.isPath_of_shortestPath? hfound).1 with
    ⟨ds, test, htest, hname, hexplains, hlabels⟩
  exact ⟨c, hc, seed :: ds, test, htest, hname, hexplains, hlabels⟩

/-- The chain of a test that a call reported is an explanation of it from a changed declaration of one of
the calls. It makes no more hops than the settings allow, and no explanation from a changed declaration of
a call that gave an answer is shorter. If all calls gave answers, a test that none of them reported has no
chain. -/
theorem chain_explains (hs : s.Coherent)
    (happart : ∀ path f, s.fileOf w path = .ok f → f.StartsApart)
    (hunmarked : ∀ path f, s.fileOf w path = .ok f → f.Unmarked) (h : Traces w s {} calls t)
    (hfile : ¬ ("::" : Text) <:+: file) :
    ((∃ c ∈ calls, c.Reports file name) →
      ∃ c ∈ calls, ∃ ds test, test.file = file ∧ test.name = name ∧
        Explains w s (c.seeds w s) test ds ∧
        t.chain file name = ds.map (Declaration.label w.root) ++ [test.label w.root] ∧
        ds.length ≤ w.settings.maxDepth.toNat + 1 ∧
        ∀ c' ∈ calls, c'.Returned → ∀ ds' test', test'.file = file → test'.name = name →
          Explains w s (c'.seeds w s) test' ds' → ds.length ≤ ds'.length) ∧
    ((∀ c ∈ calls, c.Returned) → (¬ ∃ c ∈ calls, c.Reports file name) →
      t.chain file name = []) := by
  rcases h.grows hs with ⟨noted, hgrows, hnoted⟩
  have hclosed := (hgrows.sound sound_empty).closed
  refine ⟨?_, ?_⟩
  · rintro ⟨c₀, hc₀, hreports⟩
    have hreturned : c₀.Returned := hreports.imp fun _ h => h.1
    rcases h.records hs happart hc₀ hreturned with ⟨hrecords, hiff⟩
    rcases (hiff file name).1 hreports with ⟨k, d, test, hk, hreach, htouches, rfl, rfl⟩
    rcases hrecords.exists_path hclosed hk hreach htouches with ⟨p₀, hp₀, hlength₀⟩
    -- There is a path, so one is chosen, and it explains the test.
    rcases hchosen : shortest? (t.pathsTo test.nodeId) with _ | p
    · rw [shortest?_eq_none] at hchosen
      simp [hchosen] at hp₀
    · rcases shortest?_le hchosen with ⟨hp, hleast⟩
      rcases exists_explanation_of_mem_pathsTo hs happart hunmarked h hfile hp with
        ⟨c, hc, ds, test', hfile', hname', hexplains, hlabels⟩
      have hlength : p.length = ds.length + 1 := by
        have hmap := congrArg List.length hlabels
        simpa using hmap
      refine ⟨c, hc, ds, test', hfile', hname', hexplains, ?_, ?_, ?_⟩
      · calc
          t.chain test.file test.name =
              ((shortest? (t.pathsTo test.nodeId)).map (List.map t.graph.label)).getD [] :=
            chain_eq t test.file test.name
          _ = p.map t.graph.label := by rw [hchosen]; rfl
          _ = ds.map (Declaration.label w.root) ++ [test'.label w.root] := hlabels
      · have hle := hleast p₀ hp₀
        omega
      · intro c' hc' hreturned' ds' test'' hfile'' hname'' hexplains'
        have hid : test''.nodeId = test.nodeId := by
          unfold TestDeclaration.nodeId
          rw [hfile'', hname'']
        have hrecords' := (h.records hs happart hc' hreturned').1
        have hlimit : ∃ p ∈ t.pathsTo test.nodeId, p.length ≤ w.settings.maxDepth.toNat + 2 :=
          ⟨p₀, hp₀, by omega⟩
        rcases exists_path_of_explains
          (fun k d hk hreach htouches => hid ▸ hrecords'.exists_path hclosed hk hreach htouches)
          hlimit hexplains' with ⟨p', hp', hlength'⟩
        have hle := hleast p' hp'
        omega
  · intro hreturned hnone
    have hpaths : t.pathsTo (TestDeclaration.nodeIdOf file name) = [] := by
      unfold pathsTo
      rw [h.originsOf_eq_nil hs happart hunmarked hfile hreturned fun c hc hreports =>
        hnone ⟨c, hc, hreports⟩]
      rfl
    rw [chain_eq, hpaths]
    rfl

end Tracer

/-! ## Examples -/

namespace Sample

/-- A file of a project stands under a path without marks if no name on the disk has one. -/
theorem path_unmarked {w : Workspace}
    (hnames : Disk.allNamedIn (fun name => !name.contains 58) w.disk = true) {p : Text} {f : SourceFile}
    (h : session.fileOf w p = .ok f) : ¬ ("::" : Text) <:+: f.path := by
  rcases coherent.fileOf_eq_ok h with ⟨rfl, hbytes⟩
  exact Disk.not_infix_of_read hbytes hnames

theorem unmarked {p : Text} {f : SourceFile} (h : session.fileOf workspace p = .ok f) :
    f.Unmarked := by
  refine SourceFile.unmarked_of_names (path_unmarked (by decide) h) ?_
  unfold SourceFile.top
  rw [tree_of_fileOf h]
  decide

/-- A change of the second line. -/
def later : FileDiff :=
  ⟨"a.test.js", .modified, [⟨2, "export function g() \x7b f(); \x7d", false⟩], []⟩

/-- What a trace of the first change gives and leaves. -/
def first : Except Failure (List Impact) × Session × Tracer :=
  ({} : Tracer).trace diff path workspace session

/-- The same for the second change, after the first one. -/
def second : Except Failure (List Impact) × Session × Tracer :=
  first.2.2.trace later path workspace first.2.1

/-- The calls for the two changes. -/
def calls : List Call :=
  [⟨diff, path, first.1⟩, ⟨later, path, second.1⟩]

theorem traces_calls : Traces workspace session {} calls second.2.2 := by
  have hstart : (⟨session, {}, [], []⟩ : Walk).InSession workspace session :=
    ⟨coherent, .refl workspace session⟩
  have hleft := (Tracing.extends_walkAll diff path coherent hstart).session
  exact .call diff path coherent (.refl workspace session) (.call later path hleft.1 hleft.2 .none)

/-- Both calls report the test. -/
theorem keys_calls : calls.map (fun c => c.outcome.toOption.map (List.map Impact.key)) =
    [some [(path, Text.ofString "x")], some [(path, Text.ofString "x")]] := by
  decide +kernel

theorem exists_keys_of_mem_calls {c : Call} (hc : c ∈ calls) :
    ∃ impacts, c.outcome = .ok impacts ∧ impacts.map Impact.key = [(path, Text.ofString "x")] := by
  have hkeys := List.mem_map_of_mem (f := fun c : Call => c.outcome.toOption.map (List.map Impact.key)) hc
  rw [keys_calls] at hkeys
  have hkey : c.outcome.toOption.map (List.map Impact.key) = some [(path, Text.ofString "x")] := by
    simpa using hkeys
  rcases Option.map_eq_some_iff.1 hkey with ⟨impacts, himpacts, heq⟩
  exact ⟨impacts, Fallible.toOption_eq_some.1 himpacts, heq⟩

theorem chain_calls : second.2.2.chain path "x" =
    [("g (a.test.js)" : Text), ("h (a.test.js)" : Text), ("x (a.test.js)" : Text)] := by
  decide +kernel

/-- The chain of the test begins with the second change, which is one hop nearer than the first one; and a
test that neither call reported has none. -/
theorem chain_explains_test :
    second.2.2.chain path "x" =
      [("g (a.test.js)" : Text), ("h (a.test.js)" : Text), ("x (a.test.js)" : Text)] ∧
    (∃ c ∈ calls, ∃ ds test, ds.length = 2 ∧ test.file = path ∧ test.name = Text.ofString "x" ∧
      Explains workspace session (c.seeds workspace session) test ds ∧
      ∀ c' ∈ calls, ∀ ds' test', test'.file = path → test'.name = Text.ofString "x" →
        Explains workspace session (c'.seeds workspace session) test' ds' → 2 ≤ ds'.length) ∧
    second.2.2.chain path "y" = [] := by
  have hpath : ¬ ("::" : Text) <:+: path := by decide +kernel
  have hexplains (name : Text) : ((∃ c ∈ calls, c.Reports path name) → _) ∧ _ :=
    Tracer.chain_explains coherent (fun _ _ => startsApart) (fun _ _ => unmarked) traces_calls hpath
  have hreports : ∀ c ∈ calls, ∀ name, c.Reports path name ↔ name = "x" := by
    intro c hc name
    rcases exists_keys_of_mem_calls hc with ⟨impacts, himpacts, hkeys⟩
    constructor
    · rintro ⟨impacts', himpacts', hmem⟩
      cases himpacts.symm.trans himpacts'
      rw [hkeys, List.mem_singleton] at hmem
      exact congrArg Prod.snd hmem
    · rintro rfl
      exact ⟨impacts, himpacts, by simp [hkeys]⟩
  have hreturned : ∀ c ∈ calls, c.Returned := fun c hc =>
    (exists_keys_of_mem_calls hc).imp fun _ h => h.1
  refine ⟨chain_calls, ?reported, ?other⟩
  case reported =>
    have hcall : ⟨diff, path, first.1⟩ ∈ calls := List.mem_cons_self
    rcases (hexplains "x").1 ⟨_, hcall, (hreports _ hcall "x").2 rfl⟩ with
      ⟨c, hc, ds, test, hfile, hname, hexplained, hchain, -, hleast⟩
    have hlength := congrArg List.length hchain
    rw [chain_calls, List.length_append, List.length_map] at hlength
    have hlength : ds.length = 2 := by simpa using hlength.symm
    exact ⟨c, hc, ds, test, hlength, hfile, hname, hexplained,
      fun c' hc' => hlength ▸ hleast c' hc' (hreturned c' hc')⟩
  case other =>
    refine (hexplains "y").2 hreturned ?_
    rintro ⟨c, hc, hreported⟩
    exact absurd ((hreports c hc "y").1 hreported) (by decide)

/-- A second test that uses the function, with a name that holds an escape without a code point. -/
def unnamedCall : Tree :=
  branch .callExpression none 37 58 2 [
    leaf .identifier (some .function) 37 41 2 [116, 101, 115, 116],
    branch .arguments (some .arguments) 41 58 2 [
      leaf .string none 42 54 2 [34, 92, 117, 123, 49, 49, 48, 48, 48, 48, 125, 34],
      leaf .identifier none 56 57 2 [102]]]

def unnamedSource : Bytes :=
  (Utf8.encode "export function f() \x7b\x7d\ntest(\"x\", f);\ntest(\"\\u\x7b110000\x7d\", f);\n").getD []

def unnamedTree : Tree :=
  .node ⟨.program, true, none, 0, 60, 0, 3, []⟩
    [statement, expression 23 36 1 [testCall 23 1 120 102], expression 37 59 2 [unnamedCall]]

/-- A project with two tests of the function. -/
def halting : Workspace :=
  { workspace with
    grammars := fun _ _ => unnamedTree
    disk := [.directory [112] [.file [97, 46, 116, 101, 115, 116, 46, 106, 115] unnamedSource]] }

theorem startsApart_and_unmarked_of_halting {p : Text} {f : SourceFile}
    (h : session.fileOf halting p = .ok f) : f.StartsApart ∧ f.Unmarked := by
  have htree : f.tree = unnamedTree := Session.tree_of_fileOf rfl h
  refine ⟨SourceFile.startsApart_of_nodup ?_,
    SourceFile.unmarked_of_names (path_unmarked (by decide) h) ?_⟩
  all_goals
    unfold SourceFile.top
    rw [htree]
    decide

/-- A trace that fails leaves the chains of the tests that it had reached before. -/
theorem not_chain_eq_nil_of_not_reports :
    (∀ p f, session.fileOf halting p = .ok f → f.StartsApart ∧ f.Unmarked) ∧
    ¬ ∀ (calls : List Call) (t : Tracer) (file name : Text), Traces halting session {} calls t →
      ¬ ("::" : Text) <:+: file → (¬ ∃ c ∈ calls, c.Reports file name) → t.chain file name = [] := by
  refine ⟨fun p f h => startsApart_and_unmarked_of_halting h, fun hall => ?_⟩
  have hpath : ¬ ("::" : Text) <:+: path := by decide +kernel
  have hfails : (({} : Tracer).trace diff path halting session).1.toBool = false := by
    decide +kernel
  have hchain : (({} : Tracer).trace diff path halting session).2.2.chain path "x" ≠ [] := by
    decide +kernel
  refine hchain (hall _ _ path "x" (.call diff path coherent (.refl halting session) .none) hpath ?_)
  rintro ⟨c, hc, impacts, hreturned, -⟩
  rw [List.mem_singleton.1 hc] at hreturned
  have hok : (({} : Tracer).trace diff path halting session).1 = .ok impacts := hreturned
  rw [hok] at hfails
  cases hfails

end Sample

end AffectedTests
