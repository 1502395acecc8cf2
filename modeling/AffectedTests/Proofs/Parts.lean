import AffectedTests.Analysis
import AffectedTests.Proofs.Records
import AffectedTests.Proofs.SourceFiles
/-!
# The parts of a change

The files of a change are analysed one after the other, in one session and with one tracer. Neither shows in
what is found: a walk goes the same way from every session that shows the same, and it never looks at the
graph that it writes. So each file has the impacts that it would have alone, and what is found for a change
can be put together from what is found for its parts, in any order.

- `Tracing.Blind` is closed under the ways in which walks are put together.
- `Workspace.alone` are the impacts of one file, `Workspace.analyze_impacts` those of a change.
- `Workspace.analyze_append_and_perm`: parts of a change, and changes in another order.
-/

namespace AffectedTests

/-- Two sessions that show the same give the same answer. -/
theorem Query.Steady.answer_eq_answer {α : Type} {q : Query α} (hq : q.Steady) {w : Workspace}
    {s s₁ s₂ : Session} (hs : s.Coherent) (hs₁ : s₁.Coherent) (h₁ : s.Alike w s₁) (hs₂ : s₂.Coherent)
    (h₂ : s.Alike w s₂) : q.answer w s₂ = q.answer w s₁ :=
  calc
    q.answer w s₂ = q.answer w s := hq.answer_eq hs hs₂ h₂
    _ = q.answer w s₁ := (hq.answer_eq hs hs₁ h₁).symm

/-! ## Walks that go the same way -/

/-- Walks that differ at most in what they have seen and in what the tracer keeps; the latter only if it
need not be the same. -/
structure Walk.Matches (w : Workspace) (s : Session) (same : Prop) (walk walk' : Walk) : Prop where
  left : walk.InSession w s
  right : walk'.InSession w s
  tracer : same → walk'.tracer = walk.tracer
  depths : walk'.depths = walk.depths
  impacts : walk'.impacts = walk.impacts

/-- A step that goes the same way in such walks. -/
def Tracing.Blind {α : Type} (w : Workspace) (s : Session) (same : Prop) (m : Tracing α) : Prop :=
  ∀ walk walk', Walk.Matches w s same walk walk' → (m.exec w walk').1 = (m.exec w walk).1 ∧
    Walk.Matches w s same (m.exec w walk).2 (m.exec w walk').2

namespace Tracing

variable {α β : Type} {w : Workspace} {s : Session} {same : Prop}

theorem blind_pure (a : α) : Blind w s same (pure a : Tracing α) :=
  fun _ _ h => ⟨rfl, h⟩

theorem Blind.bind {m : Tracing α} {k : α → Tracing β} (hm : Blind w s same m)
    (hk : ∀ a, Blind w s same (k a)) : Blind w s same (m >>= k) := by
  intro walk walk' h
  rcases hm walk walk' h with ⟨hsame, hmatch⟩
  rw [exec_bind, exec_bind]
  rcases hfirst : m.exec w walk with ⟨e | a, next⟩ <;>
    rcases hsecond : m.exec w walk' with ⟨e' | a', next'⟩ <;> rw [hfirst, hsecond] at hsame hmatch <;>
    cases hsame
  -- The first step ended in the same way in both walks, so both go on or neither does.
  · exact ⟨rfl, hmatch⟩
  · exact hk a next next' hmatch

/-- A step may look at the depths. -/
theorem blind_get {k : Walk → Tracing β}
    (hsame : ∀ walk walk', Walk.Matches w s same walk walk' → k walk' = k walk)
    (hk : ∀ walk, Blind w s same (k walk)) : Blind w s same (get >>= k) := by
  intro walk walk' h
  rw [exec_bind_ok (exec_get w walk), exec_bind_ok (exec_get w walk'), hsame walk walk' h]
  exact hk walk walk walk' h

theorem blind_modify {f : Walk → Walk}
    (h : ∀ walk walk', Walk.Matches w s same walk walk' → Walk.Matches w s same (f walk) (f walk')) :
    Blind w s same (modify f) :=
  fun walk walk' hmatch => ⟨rfl, h walk walk' hmatch⟩

theorem blind_ofQuery (hs : s.Coherent) {q : Query α} (hq : Query.Steady q) :
    Blind w s same (ofQuery q) := by
  intro walk walk' h
  exact ⟨hq.answer_eq_answer hs h.left.1 h.left.2 h.right.1 h.right.2,
    ⟨hq.coherent h.left.1, h.left.2.trans (hq.alike h.left.1)⟩,
    ⟨hq.coherent h.right.1, h.right.2.trans (hq.alike h.right.1)⟩, h.tracer, h.depths, h.impacts⟩

theorem Blind.mapM {m : α → Tracing β} (h : ∀ x, Blind w s same (m x)) (xs : List α) :
    Blind w s same (xs.mapM m) := by
  induction xs with
  | nil => exact blind_pure []
  | cons x xs ih =>
    rw [List.mapM_cons]
    exact (h x).bind fun _ => ih.bind fun _ => blind_pure _

theorem Blind.forM {m : α → Tracing Unit} (h : ∀ x, Blind w s same (m x)) (xs : List α) :
    Blind w s same (xs.forM m) := by
  induction xs with
  | nil => exact blind_pure ()
  | cons x xs ih => exact (h x).bind fun _ => ih

variable {related origin : Text} {d : Declaration} {depth : Nat} {mayDescend : Bool}

theorem blind_follow (r : Reference) :
    Blind w s same (follow related origin d depth mayDescend r) := by
  intro walk walk' h
  cases harrive : r.arrival w.settings with
  | error e =>
    rw [exec_follow_error harrive, exec_follow_error harrive]
    exact ⟨rfl, h⟩
  | ok a =>
    rw [exec_follow harrive, exec_follow harrive, h.depths]
    exact ⟨rfl, h.left, h.right, fun hsame => by rw [h.tracer hsame], rfl, by rw [h.impacts]⟩

/-- Expanding a declaration goes the same way, if what comes after it does. -/
theorem blind_expand (hs : s.Coherent) {k : List (List Declaration) → Tracing Unit}
    (hk : ∀ next, Blind w s same (k next)) : Blind w s same (do
      modify fun walk => { walk with depths := walk.depths.put d.key depth }
      let uses ← ofQuery (Query.uses d)
      let next ← uses.mapM (follow related origin d depth mayDescend)
      k next : Tracing Unit) := by
  refine (blind_modify ?_).bind fun _ => (blind_ofQuery hs (Query.steady_uses d)).bind fun rs =>
    (Blind.mapM blind_follow rs).bind hk
  exact fun walk walk' h => ⟨h.left, h.right, h.tracer, by rw [h.depths], h.impacts⟩

/-- The run lemma: a walk goes the same way. -/
theorem blind_walk (hs : s.Coherent) (remaining depth : Nat) (d : Declaration) :
    Blind w s same (walk related origin remaining depth d) := by
  -- All that a walk reads of its state are the depths.
  induction remaining generalizing depth d with
  | zero =>
    rw [Tracing.walk]
    refine blind_get (fun walk walk' h => by rw [h.depths]) fun walk => ?_
    split
    · exact blind_pure ()
    · exact blind_expand hs fun _ => blind_pure ()
  | succ remaining ih =>
    rw [Tracing.walk]
    refine blind_get (fun walk walk' h => by rw [h.depths]) fun walk => ?_
    split
    · exact blind_pure ()
    · exact blind_expand hs fun next => Blind.forM (fun d' => ih (depth + 1) d') _

theorem blind_walkAll (hs : s.Coherent) (diff : FileDiff) (path : Text) :
    Blind w s same (walkAll diff path) := by
  have hread : Blind w s same (read : Tracing Workspace) := fun _ _ h => ⟨rfl, h⟩
  refine hread.bind fun w' => (blind_ofQuery hs (Query.steady_changed diff path)).bind fun seeds =>
    Blind.forM (fun seed => (blind_modify ?_).bind fun _ => blind_walk hs _ 0 seed) seeds
  exact fun walk walk' h =>
    ⟨h.left, h.right, fun hsame => by rw [h.tracer hsame], h.depths, h.impacts⟩

end Tracing

/-- What a trace gives depends on what the session shows, and not on what the tracer keeps; what it adds
to the tracer depends on these two. The session shows the same afterwards. -/
theorem Tracer.trace_eq {w : Workspace} {s s₁ s₂ : Session} (hs : s.Coherent) (hs₁ : s₁.Coherent)
    (hs₂ : s₂.Coherent) (h₁ : s.Alike w s₁) (h₂ : s.Alike w s₂) (diff : FileDiff) (path : Text)
    (t₁ t₂ : Tracer) :
    (t₂.trace diff path w s₂).1 = (t₁.trace diff path w s₁).1 ∧
      (t₂ = t₁ → (t₂.trace diff path w s₂).2.2 = (t₁.trace diff path w s₁).2.2) ∧
      (t₂.trace diff path w s₂).2.1.Coherent ∧ s.Alike w (t₂.trace diff path w s₂).2.1 := by
  have hmatch : Walk.Matches w s (t₂ = t₁) ⟨s₁, t₁, [], []⟩ ⟨s₂, t₂, [], []⟩ :=
    ⟨⟨hs₁, h₁⟩, ⟨hs₂, h₂⟩, id, rfl, rfl⟩
  rcases Tracing.blind_walkAll hs diff path _ _ hmatch with ⟨hsame, hmatch⟩
  have htrace : ∀ (t : Tracer) (s : Session), (t.trace diff path w s).1 =
      ((Tracing.walkAll diff path).exec w ⟨s, t, [], []⟩).1.map fun _ =>
        Impact.merge ((Tracing.walkAll diff path).exec w ⟨s, t, [], []⟩).2.impacts := fun _ _ => rfl
  exact ⟨by rw [htrace, htrace, hsame, hmatch.impacts], hmatch.tracer, hmatch.right⟩

namespace Impact

variable (root : Text) (i : Impact)

theorem kind_relativeTo : (i.relativeTo root).kind = i.kind := by
  unfold relativeTo
  split <;> rfl

theorem related_relativeTo : (i.relativeTo root).related = i.related := by
  unfold relativeTo
  split <;> rfl

theorem relativeTo_of_isAbsolute (h : Path.isAbsolute i.file = true) :
    i.relativeTo root = { i with file := Path.relativeTo root i.file } :=
  if_pos h

end Impact

/-- A direct impact is one on a test of the file. -/
theorem FileDiff.of_mem_directImpacts {d : FileDiff} {tests : List TestDeclaration} {i : Impact}
    (h : i ∈ d.directImpacts tests) :
    ∃ t ∈ tests, i = ⟨t.name, d.path, .modified, none⟩ ∨ i = ⟨t.name, d.path, .added, none⟩ := by
  rcases List.mem_flatMap.1 (Impact.mem_of_mem_merge h) with ⟨t, ht, hi⟩
  refine ⟨t, ht, ?_⟩
  unfold TestDeclaration.directImpacts at hi
  rcases List.mem_append.1 hi with hi | hi <;> split at hi
  · exact .inl (List.mem_singleton.1 hi)
  · cases hi
  · exact .inr (List.mem_singleton.1 hi)
  · cases hi

/-- A removed test was declared by a deleted line. -/
theorem FileDiff.of_mem_removedImpacts {d : FileDiff} {keywords : List Text} {i : Impact}
    (h : i ∈ d.removedImpacts keywords) :
    ∃ line ∈ d.deletedLines, ∃ name ∈ declaredNames keywords line.content,
      i = ⟨name, d.path, .removed, none⟩ := by
  rcases List.mem_map.1 h with ⟨name, hname, rfl⟩
  rcases List.mem_flatMap.1 (mem_distinct.1 hname) with ⟨line, hline, hname⟩
  exact ⟨line, hline, name, hname, rfl⟩

/-! ## One file -/

/-- What the analysis of a change goes through shows what the workspace shows. -/
def Progress.Shows (w : Workspace) (p : Progress) : Prop :=
  p.session.Coherent ∧ ({} : Session).Alike w p.session

/-- The beginning of an analysis, when the project has been listed. -/
def Progress.listed (files : List Text) : Progress :=
  { session := { listing := some files } }

theorem Progress.shows_listed {w : Workspace} {files : List Text} (h : w.sourceFiles = .ok files) :
    (Progress.listed files).Shows w :=
  ⟨fun _ _ hf => by simp [Progress.listed, Table.get?] at hf,
    fun _ => rfl, fun _ => rfl, h.symm, fun _ _ => rfl⟩

namespace Workspace

variable {w : Workspace}

/-- The impacts of one changed file, looked at alone. -/
def alone (w : Workspace) (d : FileDiff) : Except Failure (List Impact) :=
  ((w.impactsOf d).run.run {}).1

/-- A changed file whose declarations are traced: it is there, it is no test file, and it is a source. -/
def Traced (w : Workspace) (d : FileDiff) : Prop :=
  d.kind ≠ .deleted ∧ w.settings.isTestFile d.path = false ∧ w.settings.isSourceFile d.path = true

instance (w : Workspace) (d : FileDiff) : Decidable (w.Traced d) :=
  inferInstanceAs (Decidable (_ ∧ _ ∧ _))

/-- What the analysis of one file does: it traces, it looks at the tests of the file, or it looks at nothing
but the diff. -/
theorem run_impactsOf_cases (w : Workspace) (d : FileDiff) :
    (w.Traced d ∧ ∀ p, (w.impactsOf d).run.run p =
      ((p.tracer.trace d (Path.join w.root d.path) w p.session).1,
        ⟨(p.tracer.trace d (Path.join w.root d.path) w p.session).2.1,
          (p.tracer.trace d (Path.join w.root d.path) w p.session).2.2⟩)) ∨
    (¬ w.Traced d ∧ d.kind ≠ .deleted ∧ w.settings.isTestFile d.path = true ∧
      ∀ p, (w.impactsOf d).run.run p =
        (((Query.tests (Path.join w.root d.path)).ask w p.session).1.map fun tests =>
          d.directImpacts tests ++ d.removedImpacts w.settings.testKeywords,
          { p with session := ((Query.tests (Path.join w.root d.path)).ask w p.session).2 })) ∨
    (¬ w.Traced d ∧ ¬ (d.kind ≠ .deleted ∧ w.settings.isTestFile d.path = true) ∧
      ∃ is, is = (if d.kind = .deleted then d.removedImpacts w.settings.testKeywords else []) ∧
        ∀ p, (w.impactsOf d).run.run p = (.ok is, p)) := by
  unfold Traced impactsOf
  by_cases hkind : d.kind = .deleted
  · exact .inr (.inr ⟨by simp [hkind], by simp [hkind], _, (if_pos hkind).symm,
      fun p => by simp only [if_pos hkind]; rfl⟩)
  · by_cases htest : w.settings.isTestFile d.path = true
    · exact .inr (.inl ⟨by simp [htest], hkind, htest,
        fun p => by simp only [if_neg hkind, if_pos htest]; rfl⟩)
    · by_cases hsource : w.settings.isSourceFile d.path = true
      · exact .inl ⟨⟨hkind, by simpa using htest, hsource⟩,
          fun p => by simp only [if_neg hkind, if_neg htest, if_pos hsource]; rfl⟩
      · exact .inr (.inr ⟨by simp [hsource], by simp [htest], [], (if_neg hkind).symm,
          fun p => by simp only [if_neg hkind, if_neg htest, if_neg hsource]; rfl⟩)

theorem alone_of_traced {d : FileDiff} (h : w.Traced d) :
    w.alone d = (({} : Tracer).trace d (Path.join w.root d.path) w {}).1 := by
  rcases run_impactsOf_cases w d with ⟨-, hrun⟩ | ⟨hnot, -⟩ | ⟨hnot, -⟩
  · exact congrArg Prod.fst (hrun {})
  · exact absurd h hnot
  · exact absurd h hnot

/-- What is found for one changed file, by the part of the analysis that looks for it. -/
inductive Produces (w : Workspace) (d : FileDiff) : Impact → Prop
  /-- Of a changed test file: its tests whose lines the hunks meet. -/
  | direct {tests : List TestDeclaration} {i : Impact} :
      d.kind ≠ .deleted → w.settings.isTestFile d.path = true →
        (Query.tests (Path.join w.root d.path)).answer w {} = .ok tests →
          i ∈ d.directImpacts tests → Produces w d i
  /-- Of a deleted file and of a changed test file: the tests that the deleted lines declare. -/
  | removed {i : Impact} :
      d.kind = .deleted ∨ w.settings.isTestFile d.path = true →
        i ∈ d.removedImpacts w.settings.testKeywords → Produces w d i
  /-- Of any other source file: the tests that its changed declarations reach. -/
  | traced {impacts : List Impact} {i : Impact} :
      w.Traced d → (({} : Tracer).trace d (Path.join w.root d.path) w {}).1 = .ok impacts →
        i ∈ impacts → Produces w d i

/-- What a file has alone is what the parts of the analysis find for it. -/
theorem mem_alone_iff {d : FileDiff} {found : List Impact} (h : w.alone d = .ok found)
    (i : Impact) : i ∈ found ↔ w.Produces d i := by
  unfold alone at h
  rcases run_impactsOf_cases w d with
    ⟨htraced, hrun⟩ | ⟨hnot, hkind, htest, hrun⟩ | ⟨hnot, hother, is, rfl, hrun⟩
  · rw [hrun] at h
    refine ⟨.traced htraced h, ?_⟩
    rintro (⟨-, htest, -, -⟩ | ⟨hrole, -⟩ | ⟨-, himpacts, hi⟩)
    · exact absurd htest (by simp [htraced.2.1])
    · exact absurd (hrole.resolve_left htraced.1) (by simp [htraced.2.1])
    · cases himpacts.symm.trans h
      exact hi
  · rw [hrun] at h
    rcases Fallible.map_eq_ok.1 h with ⟨tests, htests, rfl⟩
    rw [List.mem_append]
    constructor
    · rintro (hi | hi)
      · exact .direct hkind htest htests hi
      · exact .removed (.inr htest) hi
    · rintro (⟨-, -, htests', hi⟩ | ⟨-, hi⟩ | ⟨htraced, -, -⟩)
      · cases htests'.symm.trans htests
        exact .inl hi
      · exact .inr hi
      · exact absurd htraced hnot
  · rw [hrun] at h
    cases h
    constructor
    · intro hi
      split at hi
      · rename_i hkind
        exact .removed (.inl hkind) hi
      · cases hi
    · rintro (⟨hkind, htest, -, -⟩ | ⟨hrole, hi⟩ | ⟨htraced, -, -⟩)
      · exact absurd ⟨hkind, htest⟩ hother
      · -- A file that is looked at for removed tests only has been deleted.
        have hkind : d.kind = .deleted := by
          by_contra hkind
          exact hother ⟨hkind, hrole.resolve_left hkind⟩
        rwa [if_pos hkind]
      · exact absurd htraced hnot

/-- What a trace reports for a file stands for a test that its changed declarations reach. -/
theorem justified_of_trace {d : FileDiff} {path : Text} {impacts : List Impact}
    (h : (({} : Tracer).trace d path w {}).1 = .ok impacts) {i : Impact} (hi : i ∈ impacts) :
    ∃ limit, Justified w {} (Tracing.seedsOf w {} d path) d.path limit i := by
  rcases Tracer.grows_trace {} d path Session.coherent_empty Session.coherent_empty (.refl w {}) with
    ⟨noted, -, hnoted, hmerge⟩
  rw [hmerge impacts h] at hi
  exact hnoted i (Impact.mem_of_mem_merge hi)

/-- What comes of a file depends on what the session shows, and what it adds to the tracer on that and on
the tracer before. -/
theorem impactsOf_eq (d : FileDiff) {p p' : Progress} (hp : p.Shows w) (hp' : p'.Shows w) :
    ((w.impactsOf d).run.run p').1 = ((w.impactsOf d).run.run p).1 ∧
      (p'.tracer = p.tracer →
        ((w.impactsOf d).run.run p').2.tracer = ((w.impactsOf d).run.run p).2.tracer) ∧
      ((w.impactsOf d).run.run p').2.Shows w := by
  have hempty := Session.coherent_empty
  rcases run_impactsOf_cases w d with ⟨-, hrun⟩ | ⟨-, -, -, hrun⟩ | ⟨-, -, is, -, hrun⟩
  · rw [hrun, hrun]
    exact Tracer.trace_eq hempty hp.1 hp'.1 hp.2 hp'.2 d _ p.tracer p'.tracer
  · rw [hrun, hrun]
    have hsteady := Query.steady_tests (Path.join w.root d.path)
    refine ⟨?_, id, hsteady.coherent hp'.1, hp'.2.trans (hsteady.alike hp'.1)⟩
    exact congrArg (Except.map _) (hsteady.answer_eq_answer hempty hp.1 hp.2 hp'.1 hp'.2)
  · rw [hrun, hrun]
    exact ⟨rfl, id, hp'⟩

theorem shows_start : Progress.Shows w {} :=
  ⟨Session.coherent_empty, .refl w {}⟩

/-- A file has the impacts that it has alone, whatever was analysed before. -/
theorem impactsOf_eq_alone (d : FileDiff) {p : Progress} (hp : p.Shows w) :
    ((w.impactsOf d).run.run p).1 = w.alone d ∧ ((w.impactsOf d).run.run p).2.Shows w :=
  have h := impactsOf_eq d shows_start hp
  ⟨h.1, h.2.2⟩

/-- What a file has alone can be computed from the list of the project's files. -/
theorem alone_eq_ok {files : List Text} (hfiles : w.sourceFiles = .ok files) {d : FileDiff}
    {is : List Impact} (h : ((w.impactsOf d).run.run (.listed files)).1.toOption = some is) :
    w.alone d = .ok is := by
  rw [← (impactsOf_eq_alone d (Progress.shows_listed hfiles)).1]
  exact Fallible.toOption_eq_some.1 h

theorem run_bind {α β : Type} (m : ExceptT Failure (StateM Progress) α)
    (k : α → ExceptT Failure (StateM Progress) β) (p : Progress) :
    (m >>= k).run.run p =
      match m.run.run p with
      | (.ok a, p') => (k a).run.run p'
      | (.error e, p') => (.error e, p') := by
  rw [ExceptT.run_bind, StateT.run_bind]
  rcases m.run.run p with ⟨e | a, p'⟩ <;> rfl

/-- The files of a change are analysed one after the other, until one of them fails. -/
theorem run_mapM_cons (d : FileDiff) (ds : List FileDiff) (p : Progress) :
    ((d :: ds).mapM w.impactsOf).run.run p =
      match (w.impactsOf d).run.run p with
      | (.ok is, next) => (((ds.mapM w.impactsOf).run.run next).1.map (is :: ·),
          ((ds.mapM w.impactsOf).run.run next).2)
      | (.error e, next) => (.error e, next) := by
  rw [List.mapM_cons, run_bind]
  rcases (w.impactsOf d).run.run p with ⟨e | is, next⟩
  · rfl
  · dsimp only
    rw [run_bind]
    rcases (ds.mapM w.impactsOf).run.run next with ⟨e | others, last⟩ <;> rfl

/-- So the files of a change have the impacts that each of them has alone. -/
theorem mapM_impactsOf_eq (ds : List FileDiff) {p : Progress} (hp : p.Shows w) :
    ((ds.mapM w.impactsOf).run.run p).1 = ds.mapM w.alone := by
  induction ds generalizing p with
  | nil => rfl
  | cons d ds ih =>
    rcases impactsOf_eq_alone d hp with ⟨hfirst, hp'⟩
    rw [run_mapM_cons, List.mapM_cons, ← hfirst]
    rcases hrun : (w.impactsOf d).run.run p with ⟨e | is, next⟩
    · rfl
    · rw [hrun] at hp'
      dsimp only
      rw [ih hp']
      cases ds.mapM w.alone <;> rfl

theorem tracer_mapM_impactsOf (ds : List FileDiff) {p p' : Progress} (hp : p.Shows w)
    (hp' : p'.Shows w) (htracer : p'.tracer = p.tracer) :
    ((ds.mapM w.impactsOf).run.run p').2.tracer = ((ds.mapM w.impactsOf).run.run p).2.tracer := by
  induction ds generalizing p p' with
  | nil => exact htracer
  | cons d ds ih =>
    rcases impactsOf_eq d hp hp' with ⟨hsame, hkept, hshows'⟩
    have hshows := (impactsOf_eq_alone d hp).2
    have hnext := hkept htracer
    -- Both analyses of the first file end in the same way; if they fail, nothing comes after them.
    rw [run_mapM_cons, run_mapM_cons]
    rcases hrun : (w.impactsOf d).run.run p with ⟨e | is, next⟩ <;>
      rcases hrun' : (w.impactsOf d).run.run p' with ⟨e' | is', next'⟩ <;>
      rw [hrun, hrun'] at hsame hnext <;> cases hsame
    · exact hnext
    · rw [hrun] at hshows
      rw [hrun'] at hshows'
      exact ih hshows hshows' hnext

/-- Without a global file among them, all files of a change are looked at. -/
theorem analyze_eq {ds : List FileDiff} (h : ∀ d ∈ ds, w.settings.isGlobalFile d.path = false) :
    (w.analyze ds).impacts = ((ds.mapM w.impactsOf).run.run {}).1.map (fun found =>
      Impact.merge (found.flatten.map (Impact.relativeTo w.root))) ∧
    (w.analyze ds).tracer = some ((ds.mapM w.impactsOf).run.run {}).2.tracer := by
  have hnone : (ds.any fun d => w.settings.isGlobalFile d.path) = false := by
    rw [List.any_eq_false]
    exact fun d hd => by simp [h d hd]
  unfold analyze
  rw [hnone]
  exact ⟨rfl, rfl⟩

/-- The impacts of a change are those of its files, each looked at alone, put together. -/
theorem analyze_impacts {ds : List FileDiff}
    (h : ∀ d ∈ ds, w.settings.isGlobalFile d.path = false) :
    (w.analyze ds).impacts = (ds.mapM w.alone).map fun found =>
      Impact.merge (found.flatten.map (Impact.relativeTo w.root)) := by
  rw [(analyze_eq h).1, mapM_impactsOf_eq ds shows_start]

/-- An analysis may begin in any session that shows what the workspace shows. -/
theorem analyze_of_shows {ds : List FileDiff}
    (h : ∀ d ∈ ds, w.settings.isGlobalFile d.path = false) {p : Progress} (hp : p.Shows w)
    (htracer : p.tracer = {}) :
    (w.analyze ds).impacts = ((ds.mapM w.impactsOf).run.run p).1.map (fun found =>
      Impact.merge (found.flatten.map (Impact.relativeTo w.root))) ∧
    (w.analyze ds).tracer = some ((ds.mapM w.impactsOf).run.run p).2.tracer := by
  refine ⟨by rw [analyze_impacts h, mapM_impactsOf_eq ds hp], ?_⟩
  rw [(analyze_eq h).2, tracer_mapM_impactsOf ds shows_start hp htracer]

end Workspace

/-! ## All files -/

theorem Fallible.exists_mapM_of_perm {ε α β : Type} {f : α → Except ε β} {xs xs' : List α}
    (h : xs.Perm xs') : ∀ {ys : List β}, xs.mapM f = .ok ys →
      ∃ ys', xs'.mapM f = .ok ys' ∧ ys.Perm ys' := by
  induction h with
  | nil => exact fun {ys} hys => ⟨ys, hys, .refl ys⟩
  | @cons x xs xs' _ ih =>
    intro ys hys
    rcases mapM_cons_eq_ok.1 hys with ⟨b, bs, hb, hbs, rfl⟩
    rcases ih hbs with ⟨bs', hbs', hperm⟩
    exact ⟨b :: bs', mapM_cons_eq_ok.2 ⟨b, bs', hb, hbs', rfl⟩, hperm.cons b⟩
  | swap x x' xs =>
    intro ys hys
    rcases mapM_cons_eq_ok.1 hys with ⟨b, bs, hb, hbs, rfl⟩
    rcases mapM_cons_eq_ok.1 hbs with ⟨c, cs, hc, hcs, rfl⟩
    exact ⟨c :: b :: cs, mapM_cons_eq_ok.2 ⟨c, _, hc, mapM_cons_eq_ok.2 ⟨b, cs, hb, hcs, rfl⟩, rfl⟩,
      .swap c b cs⟩
  | trans _ _ ih ih' =>
    intro ys hys
    rcases ih hys with ⟨ys', hys', hperm⟩
    rcases ih' hys' with ⟨ys'', hys'', hperm'⟩
    exact ⟨ys'', hys'', hperm.trans hperm'⟩

namespace Workspace

variable {w : Workspace}

/-- Indirect impacts come from files that are traced and name them; no other impact names a file. -/
theorem of_mem_alone {d : FileDiff} {found : List Impact} (h : w.alone d = .ok found) {i : Impact}
    (hi : i ∈ found) :
    (w.Traced d ∧ i.kind = .indirect ∧ i.related = some d.path) ∨
      (¬ w.Traced d ∧ i.kind ≠ .indirect ∧ i.related = none) := by
  rcases (mem_alone_iff h i).1 hi with
    ⟨-, htest, -, hdirect⟩ | ⟨hrole, hremoved⟩ | ⟨htraced, himpacts, hmem⟩
  · refine .inr ⟨fun htraced => by simp [htraced.2.1] at htest, ?_⟩
    rcases FileDiff.of_mem_directImpacts hdirect with ⟨t, -, rfl | rfl⟩ <;> exact ⟨by simp, rfl⟩
  · refine .inr ⟨?_, ?_⟩
    · rintro ⟨hkind, htest, -⟩
      exact absurd (hrole.resolve_left hkind) (by simp [htest])
    · rcases FileDiff.of_mem_removedImpacts hremoved with ⟨line, -, name, -, rfl⟩
      exact ⟨by simp, rfl⟩
  · rcases justified_of_trace himpacts hmem with ⟨limit, k, x, test, -, -, -, rfl⟩
    exact .inl ⟨htraced, rfl, rfl⟩

/-- The analysis of a change is put together from the analyses of its parts. In another order the same
tests are affected in the same way; at most the file that an indirect impact comes from is another one. -/
theorem analyze_append_and_perm (w : Workspace) :
    (∀ ds ds' : List FileDiff, (∀ d ∈ ds ++ ds', w.settings.isGlobalFile d.path = false) →
      (w.analyze (ds ++ ds')).impacts = do
        let is ← (w.analyze ds).impacts
        let is' ← (w.analyze ds').impacts
        return Impact.merge (is ++ is')) ∧
    ∀ ds ds' : List FileDiff, (∀ d ∈ ds, w.settings.isGlobalFile d.path = false) → ds.Perm ds' →
      ∀ is, (w.analyze ds).impacts = .ok is → ∃ is', (w.analyze ds').impacts = .ok is' ∧
        (is.map Impact.unrelated).Perm (is'.map Impact.unrelated) := by
  refine ⟨?_, ?_⟩
  · intro ds ds' hnone
    rw [analyze_impacts hnone, analyze_impacts fun d hd => hnone d (List.mem_append_left _ hd),
      analyze_impacts fun d hd => hnone d (List.mem_append_right _ hd), List.mapM_append]
    cases ds.mapM w.alone with
    | error e => rfl
    | ok found =>
      cases ds'.mapM w.alone with
      | error e => rfl
      | ok found' =>
        -- Both parts give an answer; merging them first makes no difference.
        refine congrArg Except.ok ?_
        dsimp only
        rw [Impact.merge_merge_append, List.flatten_append, List.map_append]
  · intro ds ds' hnone hperm is his
    rw [analyze_impacts hnone] at his
    rcases Fallible.map_eq_ok.1 his with ⟨found, hfound, rfl⟩
    rcases Fallible.exists_mapM_of_perm hperm hfound with ⟨found', hfound', hperm'⟩
    -- Only indirect impacts name a file, so the order shows nowhere else.
    refine ⟨_, ?_, Impact.merge_perm (hperm'.flatten.map _) ?_⟩
    · rw [analyze_impacts fun d hd => hnone d (hperm.symm.subset hd), hfound']
      rfl
    · intro i hi hkind
      rcases List.mem_map.1 hi with ⟨j, hj, rfl⟩
      rcases List.mem_flatten.1 hj with ⟨js, hjs, hj⟩
      rcases Fallible.mem_of_mapM_eq_ok hfound hjs with ⟨d, -, hd⟩
      rw [Impact.kind_relativeTo] at hkind
      rw [Impact.related_relativeTo]
      exact ((of_mem_alone hd hj).resolve_left fun h => hkind h.2.1).2.2

end Workspace

/-! ## An example -/

namespace Linked

open Sample (leaf branch expression testCall function)

/-- A module that exports a function `f`. -/
def moduleSource : Bytes :=
  (Utf8.encode "export function f() {}\n").getD []

def moduleTree : Tree :=
  .node ⟨.program, true, none, 0, 23, 0, 1, []⟩ [branch .exportStatement none 0 22 0 [function]]

def testSource : Bytes :=
  (Utf8.encode "import { f } from '../a';\ntest(\"x\", f);\n").getD []

def statement : Tree :=
  branch .importStatement none 0 25 0 [
    branch .importClause none 7 12 0 [
      branch .namedImports none 7 12 0 [
        branch .importSpecifier none 9 10 0 [leaf .identifier (some .name) 9 10 0 [102]]]],
    leaf .string (some .source) 18 24 0 [39, 46, 46, 47, 97, 39]]

/-- The tree of a file that imports the function and has a test `x` that uses it. -/
def testTree : Tree :=
  .node ⟨.program, true, none, 0, 40, 0, 2, []⟩
    [statement, expression 26 39 1 [testCall 26 1 120 102]]

/-- A disk with the module `a.js` and a test file `t/x.test.js`. -/
def disk (test : Bytes) : Disk :=
  [.directory [112] [.file [97, 46, 106, 115] moduleSource,
    .directory [116] [.file [120, 46, 116, 101, 115, 116, 46, 106, 115] test]]]

/-- A project with the module and the test. -/
def workspace : Workspace where
  root := "/p"
  settings := {}
  grammars _ source := if source = testSource then testTree else moduleTree
  disk := disk testSource

/-- A change of the function. -/
def diff : FileDiff :=
  ⟨"a.js", .modified, [⟨1, "export function f() {}", false⟩], []⟩

/-- The test is new. -/
def edit : FileDiff :=
  ⟨"t/x.test.js", .modified, [⟨2, "test(\"x\", f);", false⟩], [⟨2, 1, 2, 1⟩]⟩

theorem sourceFiles_workspace :
    workspace.sourceFiles = .ok [("/p/a.js" : Text), ("/p/t/x.test.js" : Text)] := by
  rw [Workspace.sourceFiles_eq (by decide) rfl]
  simp only [Entry.filesBelow, Entry.subdirectories]
  exact Fallible.toOption_eq_some.1 (by decide +kernel)

theorem alone_diff : workspace.alone diff = .ok [⟨"x", "/p/t/x.test.js", .indirect, some "a.js"⟩] :=
  Workspace.alone_eq_ok sourceFiles_workspace (by decide +kernel)

theorem alone_edit : workspace.alone edit = .ok [⟨"x", "t/x.test.js", .added, none⟩] :=
  Workspace.alone_eq_ok sourceFiles_workspace (by decide)

/-- The function reaches the test, but that the test is new outranks it, in either order. -/
theorem analyze_diff_and_edit :
    (workspace.analyze [diff]).impacts = .ok [⟨"x", "t/x.test.js", .indirect, some "a.js"⟩] ∧
    (workspace.analyze [edit]).impacts = .ok [⟨"x", "t/x.test.js", .added, none⟩] ∧
    (workspace.analyze ([diff] ++ [edit])).impacts = (do
      let is ← (workspace.analyze [diff]).impacts
      let is' ← (workspace.analyze [edit]).impacts
      return Impact.merge (is ++ is')) ∧
    ∀ is, (workspace.analyze [diff, edit]).impacts = .ok is →
      ∃ is', (workspace.analyze [edit, diff]).impacts = .ok is' ∧
        (is.map Impact.unrelated).Perm (is'.map Impact.unrelated) := by
  have hnone : ∀ d ∈ [diff, edit], workspace.settings.isGlobalFile d.path = false := by
    decide +kernel
  have hone : ∀ d ∈ [diff, edit], ∀ e ∈ [d], workspace.settings.isGlobalFile e.path = false := by
    intro d hd e he
    rw [List.mem_singleton.1 he]
    exact hnone d hd
  refine ⟨?_, ?_, ?_, ?_⟩
  · rw [Workspace.analyze_impacts (hone diff (by simp)), List.mapM_cons, alone_diff]
    exact Fallible.toOption_eq_some.1 (by decide +kernel)
  · rw [Workspace.analyze_impacts (hone edit (by simp)), List.mapM_cons, alone_edit]
    exact Fallible.toOption_eq_some.1 (by decide +kernel)
  · exact (Workspace.analyze_append_and_perm workspace).1 [diff] [edit] hnone
  · exact (Workspace.analyze_append_and_perm workspace).2 [diff, edit] [edit, diff] hnone
      (.swap edit diff [])

end Linked

end AffectedTests
