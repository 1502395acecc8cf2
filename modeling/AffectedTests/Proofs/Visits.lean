import AffectedTests.Proofs.Mentions
/-!
# Visits of the files that mention a module

A visit of the files that mention a module is a visit of the files that pass the filter, one after the
other. So it answers exactly if the filter answers and every file that passes can be visited, and then it
gives what these files give.

- `Query.answer_visitMentioning_eq_ok`: the filter first, the visits then.
- `Query.mem_of_visit_taken_iff`: what is taken at the statements that name the module.
-/

namespace AffectedTests

/-- A statement of some kind at the top level of a file that names a module as its source. -/
structure SourceFile.TakesBy (f : SourceFile) (w : Workspace) (s : Session) (module_ : Text)
    (kind : Kind) (statement : Cursor) : Prop where
  mem : statement ∈ f.top.namedChildren
  kind_eq : statement.kind = kind
  named : (Query.hasSource f.path module_ statement).answer w s = .ok true

namespace Query

variable {α : Type} {w : Workspace} {s : Session} {module_ path : Text} {word : Bytes}
  {visit : SourceFile → Query (List α)} {xs : List α}

/-- What the visits of some files give, one after the other. -/
def visits (visit : SourceFile → Query (List α)) (w : Workspace) (s : Session)
    (fs : List SourceFile) : Except Failure (List α) :=
  (fs.mapM fun f => (visit f).answer w s).map List.flatten

/-! ## The filter first, the visits then -/

theorem visits_append_eq_ok {fs gs : List SourceFile} :
    visits visit w s (fs ++ gs) = .ok xs ↔
      ∃ ys zs, visits visit w s fs = .ok ys ∧ visits visit w s gs = .ok zs ∧ xs = ys ++ zs := by
  unfold visits
  rw [List.mapM_append]
  constructor
  · intro h
    rcases Fallible.map_eq_ok.1 h with ⟨xss, hxss, rfl⟩
    rcases Fallible.bind_eq_ok.1 hxss with ⟨yss, hyss, hxss⟩
    rcases Fallible.bind_eq_ok.1 hxss with ⟨zss, hzss, hxss⟩
    cases hxss
    exact ⟨_, _, Fallible.map_eq_ok.2 ⟨yss, hyss, rfl⟩, Fallible.map_eq_ok.2 ⟨zss, hzss, rfl⟩,
      List.flatten_append⟩
  · rintro ⟨ys, zs, hys, hzs, rfl⟩
    rcases Fallible.map_eq_ok.1 hys with ⟨yss, hyss, rfl⟩
    rcases Fallible.map_eq_ok.1 hzs with ⟨zss, hzss, rfl⟩
    refine Fallible.map_eq_ok.2 ⟨yss ++ zss, ?_, List.flatten_append⟩
    exact Fallible.bind_eq_ok.2 ⟨yss, hyss, Fallible.bind_eq_ok.2 ⟨zss, hzss, rfl⟩⟩

theorem visits_singleton (f : SourceFile) : visits visit w s [f] = (visit f).answer w s := by
  unfold visits
  rw [List.mapM_cons]
  cases (visit f).answer w s with
  | error e => rfl
  | ok xs => exact congrArg Except.ok (List.append_nil xs)

theorem steady_keep (f : SourceFile) : Steady (pure [f] : Query (List SourceFile)) :=
  steady_pure [f]

/-- At one path: the file there, and what its visit gives. -/
theorem answer_visitOne_eq_ok (hv : ∀ f, Steady (visit f)) (hs : s.Coherent) :
    (visitOne module_ word visit path).answer w s = .ok xs ↔
      ∃ fs, (visitOne module_ word (fun f => pure [f]) path).answer w s = .ok fs ∧
        visits visit w s fs = .ok xs := by
  have hnothing : Except.ok [] = (.ok xs : Except Failure (List α)) ↔
      ∃ fs, Except.ok [] = (.ok fs : Except Failure (List SourceFile)) ∧
        visits visit w s fs = .ok xs := by
    constructor
    · intro h
      exact ⟨[], rfl, h⟩
    · rintro ⟨fs, hfs, h⟩
      cases hfs
      exact h
  rw [answer_visitOne hv hs, answer_visitOne steady_keep hs]
  split
  · exact hnothing
  · split
    · exact hnothing
    · split
      · rw [answer_visitAt hv hs, answer_visitAt steady_keep hs]
        split
        · simp
        · split
          · exact hnothing
          · rename_i f _
            constructor
            · intro h
              exact ⟨[f], rfl, (visits_singleton f).trans h⟩
            · rintro ⟨fs, hfs, h⟩
              cases hfs
              exact (visits_singleton f).symm.trans h
      · exact hnothing

/-- A visit of the files that mention a module visits the files that pass the filter, one after the
other. -/
theorem answer_visitMentioning_eq_ok (hv : ∀ f, Steady (visit f)) (hs : s.Coherent) :
    (visitMentioning module_ visit).answer w s = .ok xs ↔
      ∃ fs, (mentioning module_).answer w s = .ok fs ∧ visits visit w s fs = .ok xs := by
  unfold mentioning
  rw [answer_visitMentioning hv hs, answer_visitMentioning steady_keep hs]
  cases Utf8.encode (moduleWord module_) with
  | none => simp
  | some word =>
    dsimp only
    cases s.listingOf w with
    | error failure => simp [Except.bind]
    | ok paths =>
    -- The induction is on the listing: each path has its files, and the visits are joined.
    simp only [Except.bind]
    induction paths generalizing xs with
    | nil =>
      constructor
      · intro h
        exact ⟨[], rfl, h⟩
      · rintro ⟨fs, hfs, h⟩
        cases hfs
        exact h
    | cons path paths ih =>
      simp only [Fallible.map_eq_ok, Fallible.mapM_cons_eq_ok] at ih ⊢
      constructor
      · rintro ⟨xss, ⟨here, rest, hhere, hrest, rfl⟩, rfl⟩
        rcases (answer_visitOne_eq_ok hv hs).1 hhere with ⟨fs, hfs, hvisit⟩
        rcases ih.1 ⟨rest, hrest, rfl⟩ with ⟨gs, ⟨gss, hgss, rfl⟩, hvisits⟩
        refine ⟨fs ++ gss.flatten, ⟨fs :: gss, ⟨fs, gss, hfs, hgss, rfl⟩, rfl⟩, ?_⟩
        exact visits_append_eq_ok.2 ⟨here, rest.flatten, hvisit, hvisits, rfl⟩
      · rintro ⟨fs, ⟨fss, ⟨here, rest, hhere, hrest, rfl⟩, rfl⟩, hvisits⟩
        rcases visits_append_eq_ok.1 hvisits with ⟨ys, zs, hys, hzs, rfl⟩
        rcases ih.2 ⟨rest.flatten, ⟨rest, hrest, rfl⟩, hzs⟩ with ⟨yss, hyss, rfl⟩
        exact ⟨ys :: yss, ⟨ys, yss, (answer_visitOne_eq_ok hv hs).2 ⟨here, hhere, hys⟩, hyss, rfl⟩,
          rfl⟩

/-- What a visit of the files that mention a module gives. -/
theorem mem_of_visitMentioning_iff (hv : ∀ f, Steady (visit f)) (hs : s.Coherent)
    (h : (visitMentioning module_ visit).answer w s = .ok xs) {x : α} :
    x ∈ xs ↔ ∃ f, Yields w s module_ f ∧ ∃ ys, (visit f).answer w s = .ok ys ∧ x ∈ ys := by
  rcases (answer_visitMentioning_eq_ok hv hs).1 h with ⟨fs, hfs, hvisits⟩
  rcases Fallible.map_eq_ok.1 hvisits with ⟨xss, hxss, rfl⟩
  rw [Fallible.mem_flatten_of_mapM hxss]
  constructor
  · rintro ⟨f, hf, hx⟩
    exact ⟨f, ⟨fs, hfs, hf⟩, hx⟩
  · rintro ⟨f, ⟨fs', hfs', hf⟩, hx⟩
    cases hfs.symm.trans hfs'
    exact ⟨f, hf, hx⟩

/-- Every file that passes the filter could be visited. -/
theorem exists_answer_of_yields (hv : ∀ f, Steady (visit f)) (hs : s.Coherent)
    (h : (visitMentioning module_ visit).answer w s = .ok xs) {f : SourceFile}
    (hf : Yields w s module_ f) : ∃ ys, (visit f).answer w s = .ok ys := by
  rcases (answer_visitMentioning_eq_ok hv hs).1 h with ⟨fs, hfs, hvisits⟩
  rcases Fallible.map_eq_ok.1 hvisits with ⟨xss, hxss, -⟩
  rcases hf with ⟨fs', hfs', hf⟩
  cases hfs.symm.trans hfs'
  rcases Fallible.exists_of_mapM_eq_ok hxss hf with ⟨ys, -, hys⟩
  exact ⟨ys, hys⟩

/-- A visit answers if the filter does and every file that passes can be visited. -/
theorem exists_visitMentioning_iff (hv : ∀ f, Steady (visit f)) (hs : s.Coherent) :
    (∃ xs, (visitMentioning module_ visit).answer w s = .ok xs) ↔
      (∃ fs, (mentioning module_).answer w s = .ok fs) ∧
        ∀ f, Yields w s module_ f → ∃ ys, (visit f).answer w s = .ok ys := by
  constructor
  · rintro ⟨xs, h⟩
    rcases (answer_visitMentioning_eq_ok hv hs).1 h with ⟨fs, hfs, -⟩
    exact ⟨⟨fs, hfs⟩, fun f hf => exists_answer_of_yields hv hs h hf⟩
  · rintro ⟨⟨fs, hfs⟩, hvisits⟩
    rcases Fallible.mapM_eq_ok_of_forall fun f hf => hvisits f ⟨fs, hfs, hf⟩ with ⟨xss, hxss⟩
    exact ⟨_, (answer_visitMentioning_eq_ok hv hs).2 ⟨fs, hfs, Fallible.map_eq_ok.2 ⟨xss, hxss, rfl⟩⟩⟩

/-! ## The files that pass -/

/-- The filter answers if the word of the module has bytes and there is a list of the files. -/
theorem exists_mentioning_iff (hs : s.Coherent) (hlists : s.ListsResolved w) :
    (∃ fs, (mentioning module_).answer w s = .ok fs) ↔
      (∃ word, Utf8.encode (moduleWord module_) = some word) ∧ ∃ paths, s.listingOf w = .ok paths := by
  constructor
  · rintro ⟨fs, hfs⟩
    unfold mentioning at hfs
    rw [answer_visitMentioning steady_keep hs] at hfs
    cases hword : Utf8.encode (moduleWord module_) with
    | none => simp [hword] at hfs
    | some word =>
      simp only [hword] at hfs
      rcases Fallible.bind_eq_ok.1 hfs with ⟨paths, hpaths, -⟩
      exact ⟨⟨word, rfl⟩, paths, hpaths⟩
  · rintro ⟨⟨word, hword⟩, paths, hpaths⟩
    rcases answer_mentioning hs hlists hpaths hword with ⟨fs, hfs, -⟩
    exact ⟨fs, hfs⟩

/-- A file that passes the filter is in view. -/
theorem opens_of_yields (hs : s.Coherent) {f : SourceFile} (h : Yields w s module_ f) :
    s.Opens w f := by
  rcases h with ⟨fs, hfs, hf⟩
  rcases mem_of_answer_visitMentioning steady_keep hs hfs hf with ⟨-, -, g, gs, hg, -, hgs, hmem⟩
  cases hgs
  rwa [List.mem_singleton.1 hmem]

/-- A file that passes the filter is one of the project. -/
theorem lists_of_yields (hs : s.Coherent) (hlists : s.ListsResolved w) {f : SourceFile}
    (h : Yields w s module_ f) : s.Lists w f := by
  rcases h with ⟨fs, hfs, hf⟩
  rcases mem_of_answer_visitMentioning steady_keep hs hfs hf with
    ⟨path, hpath, g, gs, hg, hkey, hgs, hmem⟩
  cases hgs
  cases (hlists path hpath).symm.trans hkey
  rw [List.mem_singleton.1 hmem]
  exact ⟨hpath, hg.2⟩

/-! ## What is taken at statements -/

section Taken

variable {kind : Kind} {act : SourceFile → Cursor → Query (List α)} {f : SourceFile}

theorem answer_takenFrom_eq_ok (hs : s.Coherent) (hact : ∀ f c, Steady (act f c)) :
    (takenFrom kind module_ act f).answer w s = .ok xs ↔
      ∃ xss, (f.top.namedChildren.filter fun c => c.kind = kind).mapM
          (fun c => (takenAt module_ act f c).answer w s) = .ok xss ∧ xs = xss.flatten := by
  have hmap : ∀ cs : List Cursor, Steady (cs.mapM (takenAt module_ act f)) :=
    fun cs => Steady.mapM (steady_takenAt hact f) cs
  unfold takenFrom
  rw [(hmap _).answer_bind_eq_ok (fun _ => steady_pure _) hs, answer_mapM (steady_takenAt hact f) hs]
  constructor
  · rintro ⟨xss, hxss, h⟩
    exact ⟨xss, hxss, (Except.ok.inj h).symm⟩
  · rintro ⟨xss, hxss, rfl⟩
    exact ⟨xss, hxss, rfl⟩

/-- What is taken from a file is what is taken at its statements that name the module. -/
theorem mem_of_takenFrom_iff (hs : s.Coherent) (hact : ∀ f c, Steady (act f c))
    (h : (takenFrom kind module_ act f).answer w s = .ok xs) {x : α} :
    x ∈ xs ↔ ∃ statement, f.TakesBy w s module_ kind statement ∧
      ∃ ys, (act f statement).answer w s = .ok ys ∧ x ∈ ys := by
  constructor
  · intro hx
    rcases mem_of_answer_takenFrom hs hact h hx with ⟨statement, hmem, hkind, hnamed, hys⟩
    exact ⟨statement, ⟨hmem, hkind, hnamed⟩, hys⟩
  · rintro ⟨statement, ⟨hmem, hkind, hnamed⟩, ys, hys, hx⟩
    rcases (answer_takenFrom_eq_ok hs hact).1 h with ⟨xss, hxss, rfl⟩
    have htaken : (takenAt module_ act f statement).answer w s = .ok ys :=
      (answer_takenAt_eq_ok hs hact).2 (.inl ⟨hnamed, hys⟩)
    exact (Fallible.mem_flatten_of_mapM hxss).2
      ⟨statement, List.mem_filter.2 ⟨hmem, decide_eq_true hkind⟩, ys, htaken, hx⟩

/-- What was taken from a file could be taken at each of its statements that name the module. -/
theorem exists_answer_of_takesBy (hs : s.Coherent) (hact : ∀ f c, Steady (act f c))
    (h : (takenFrom kind module_ act f).answer w s = .ok xs) {statement : Cursor}
    (hstatement : f.TakesBy w s module_ kind statement) :
    ∃ ys, (act f statement).answer w s = .ok ys := by
  rcases (answer_takenFrom_eq_ok hs hact).1 h with ⟨xss, hxss, -⟩
  have hmem : statement ∈ f.top.namedChildren.filter fun c => c.kind = kind :=
    List.mem_filter.2 ⟨hstatement.mem, decide_eq_true hstatement.kind_eq⟩
  rcases Fallible.exists_of_mapM_eq_ok hxss hmem with ⟨ys, -, htaken⟩
  rcases (answer_takenAt_eq_ok hs hact).1 htaken with ⟨-, hys⟩ | ⟨hnamed, -⟩
  · exact ⟨ys, hys⟩
  · rw [hstatement.named] at hnamed
    cases hnamed

/-- Taking from a file answers if at every statement it is known whether it names the module, and the
statements that do have something to give. -/
theorem exists_takenFrom_iff (hs : s.Coherent) (hact : ∀ f c, Steady (act f c)) :
    (∃ xs, (takenFrom kind module_ act f).answer w s = .ok xs) ↔
      ∀ statement ∈ f.top.namedChildren, statement.kind = kind →
        ∃ named, (hasSource f.path module_ statement).answer w s = .ok named ∧
          (named = true → ∃ ys, (act f statement).answer w s = .ok ys) := by
  constructor
  · rintro ⟨xs, h⟩ statement hmem hkind
    rcases (answer_takenFrom_eq_ok hs hact).1 h with ⟨xss, hxss, -⟩
    have hstatement : statement ∈ f.top.namedChildren.filter fun c => c.kind = kind :=
      List.mem_filter.2 ⟨hmem, decide_eq_true hkind⟩
    rcases Fallible.exists_of_mapM_eq_ok hxss hstatement with ⟨ys, -, htaken⟩
    rcases (answer_takenAt_eq_ok hs hact).1 htaken with ⟨hnamed, hys⟩ | ⟨hnamed, -⟩
    · exact ⟨true, hnamed, fun _ => ⟨ys, hys⟩⟩
    · exact ⟨false, hnamed, fun hfalse => by cases hfalse⟩
  · intro h
    have heach : ∀ statement ∈ f.top.namedChildren.filter fun c => c.kind = kind,
        ∃ ys, (takenAt module_ act f statement).answer w s = .ok ys := by
      intro statement hstatement
      rcases List.mem_filter.1 hstatement with ⟨hmem, hkind⟩
      rcases h statement hmem (of_decide_eq_true hkind) with ⟨named, hnamed, hact'⟩
      cases named with
      | true =>
        rcases hact' rfl with ⟨ys, hys⟩
        exact ⟨ys, (answer_takenAt_eq_ok hs hact).2 (.inl ⟨hnamed, hys⟩)⟩
      | false => exact ⟨[], (answer_takenAt_eq_ok hs hact).2 (.inr ⟨hnamed, rfl⟩)⟩
    rcases Fallible.mapM_eq_ok_of_forall heach with ⟨xss, hxss⟩
    exact ⟨_, (answer_takenFrom_eq_ok hs hact).2 ⟨xss, hxss, rfl⟩⟩

/-- What is taken at the statements that name a module, in the files that pass the filter: for every
statement a relation tells what it gives whenever it answers. -/
theorem mem_of_visit_taken_iff (hs : s.Coherent) (hact : ∀ f c, Steady (act f c))
    {Gives : SourceFile → Cursor → α → Prop}
    (hgives : ∀ f, Yields w s module_ f → ∀ c ys, (act f c).answer w s = .ok ys →
      ∀ x, x ∈ ys ↔ Gives f c x)
    (h : (visitMentioning module_ (takenFrom kind module_ act)).answer w s = .ok xs) {x : α} :
    x ∈ xs ↔ ∃ f, Yields w s module_ f ∧
      ∃ statement, f.TakesBy w s module_ kind statement ∧ Gives f statement x := by
  have hv : ∀ f, Steady (takenFrom kind module_ act f) := steady_takenFrom hact
  rw [mem_of_visitMentioning_iff hv hs h]
  constructor
  · rintro ⟨f, hf, ys, hys, hx⟩
    rcases (mem_of_takenFrom_iff hs hact hys).1 hx with ⟨statement, hstatement, zs, hzs, hx⟩
    exact ⟨f, hf, statement, hstatement, (hgives f hf statement zs hzs x).1 hx⟩
  · rintro ⟨f, hf, statement, hstatement, hx⟩
    rcases exists_answer_of_yields hv hs h hf with ⟨ys, hys⟩
    rcases exists_answer_of_takesBy hs hact hys hstatement with ⟨zs, hzs⟩
    exact ⟨f, hf, ys, hys, (mem_of_takenFrom_iff hs hact hys).2
      ⟨statement, hstatement, zs, hzs, (hgives f hf statement zs hzs x).2 hx⟩⟩

end Taken

end Query

end AffectedTests
