import AffectedTests.Proofs.Encoding
import AffectedTests.Proofs.References
import AffectedTests.Proofs.SourceFiles
import AffectedTests.Proofs.Spelling
import AffectedTests.Tree.Rows
/-!
# Files that mention a module

Before the files of a project are searched for imports of a module they are filtered by one word of its
path. The filter passes exactly the files whose bytes hold the word, so it loses an importer exactly if
the importer does not mention the module. An import whose specifier ends in the name of the file or of
its directory mentions it; one that reaches an index file by dots alone need not.

- `Query.yields_iff`: the files that pass.
- `Query.visitMentioning_refines`: where no visit has anything to give in a file that does not mention
  the module, a search of all files gives the same.
- `Query.importers_pass_iff`: when the filter loses no importer, and what follows from that.
-/

namespace AffectedTests

/-- The files of the project are listed by absolute, normalised paths. -/
def Session.ListsResolved (s : Session) (w : Workspace) : Prop :=
  ∀ path, s.Enumerates w path → Path.resolve path = .ok path

/-- A list that shows the files of the disk has resolved paths, if the root is resolved and the names on the
disk are names that a disk can have. -/
theorem Session.listsResolved_of_listingOf_eq {s : Session} {w : Workspace}
    (h : s.listingOf w = w.sourceFiles) (hroot : Path.resolve w.root = .ok w.root) (hnamed : w.disk.Named)
    (hzero : ∀ e, Disk.Below w.disk e → 0 ∉ e.name) : s.ListsResolved w := by
  rintro path ⟨paths, hpaths, hmem⟩
  rw [h] at hpaths
  rcases Workspace.exists_route_of_mem_sourceFiles hroot hnamed hpaths hmem with
    ⟨entries, r, hbelow, hr, rfl⟩
  rcases Path.exists_ofNames_of_resolve hroot with ⟨parts, hparts, hplain⟩
  have hnames : Path.names w.root = parts := by
    rw [hparts, Path.names_ofNames fun name hname => (hplain name hname).1]
  rw [Route.path, List.append_assoc, hnames]
  refine Path.resolve_ofNames (List.forall_mem_append.2 ⟨hplain, fun name hname => ?_⟩)
  rcases hr.exists_below name hname with ⟨e, he, rfl⟩
  exact ⟨hnamed e (hbelow e he), _, Path.storedName_spelled (hzero e (hbelow e he))⟩

/-- A file of the project that can be loaded. -/
def Session.Lists (s : Session) (w : Workspace) (f : SourceFile) : Prop :=
  s.Enumerates w f.path ∧ s.fileOf w f.path = .ok f

/-- The bytes of a file hold the word of a module. -/
def SourceFile.Mentions (f : SourceFile) (module_ : Text) : Prop :=
  ∃ word, Utf8.encode (Query.moduleWord module_) = some word ∧ word.occursIn f.source = true

/-- A file imports a module at its top level, or exports something from it. -/
def SourceFile.Takes (f : SourceFile) (w : Workspace) (s : Session) (module_ : Text) : Prop :=
  ∃ statement ∈ f.top.namedChildren,
    (statement.kind = .importStatement ∨ statement.kind = .exportStatement) ∧
      (Query.hasSource f.path module_ statement).answer w s = .ok true

/-- The same, where the specifier is written without escapes and ends in a proper name. -/
def SourceFile.TakesPlainly (f : SourceFile) (w : Workspace) (s : Session) (module_ : Text) : Prop :=
  ∃ statement ∈ f.top.namedChildren,
    (statement.kind = .importStatement ∨ statement.kind = .exportStatement) ∧
      (Query.hasSource f.path module_ statement).answer w s = .ok true ∧
        ∃ source text, statement.child? .source = some source ∧ source.text = .ok text ∧
          ('\\' : CodePoint) ∉ text ∧ Import.Plain (Literal.body text)

/-- The text of every node of a file stands in its source. -/
def SourceFile.Faithful (f : SourceFile) : Prop :=
  ∀ c, Cursor.Within f.tree c → c.info.text <:+: f.source

/-- Every import leads where the disk says. -/
def Session.ResolvesFreshly (s : Session) (w : Workspace) : Prop :=
  ∀ directory specifier, s.importOf w directory specifier = w.resolveImport directory specifier

/-- Another file of the project that takes something from a module. -/
def Session.Importer (s : Session) (w : Workspace) (module_ : Text) (f : SourceFile) : Prop :=
  s.Lists w f ∧ f.path ≠ module_ ∧ f.Takes w s module_

namespace Query

/-- The files that pass the filter for a module. -/
def mentioning (module_ : Text) : Query (List SourceFile) :=
  visitMentioning module_ fun file => return [file]

/-- The filter for a module passes a file. -/
def Yields (w : Workspace) (s : Session) (module_ : Text) (f : SourceFile) : Prop :=
  ∃ found, (mentioning module_).answer w s = .ok found ∧ f ∈ found

/-- The visit of a path of the listing other than the module's. -/
def visitOther {α : Type} (module_ : Text) (visit : SourceFile → Query (List α)) (path : Text) :
    Query (List α) :=
  if path = module_ then return [] else visitAt visit path

/-- The same visits without the filter. -/
def visitOthers {α : Type} (module_ : Text) (visit : SourceFile → Query (List α)) :
    Query (List α) := do
  return (← (← listing).mapM (visitOther module_ visit)).flatten

variable {α : Type} {w : Workspace} {s : Session} {module_ path : Text} {word : Bytes}
  {visit : SourceFile → Query (List α)} {f : SourceFile}

/-! ## One path of the listing -/

theorem answer_visitAt_of_file (hv : ∀ f, Steady (visit f)) (hs : s.Coherent)
    (hpath : Path.resolve path = .ok path) (hf : s.fileOf w path = .ok f) :
    (visitAt visit path).answer w s = (visit f).answer w s := by
  simp [answer_visitAt hv hs, hpath, hf]

theorem answer_visitAt_of_fault (hv : ∀ f, Steady (visit f)) (hs : s.Coherent)
    (hpath : Path.resolve path = .ok path) {fault : LoadFault} (hf : s.fileOf w path = .error fault) :
    (visitAt visit path).answer w s = .ok [] := by
  simp [answer_visitAt hv hs, hpath, hf]

theorem answer_visitOne_of_file (hv : ∀ f, Steady (visit f)) (hs : s.Coherent)
    (hpath : Path.resolve path = .ok path) (hf : s.fileOf w path = .ok f) (hne : path ≠ module_) :
    (visitOne module_ word visit path).answer w s =
      if word.occursIn f.source then (visit f).answer w s else .ok [] := by
  have hbytes := (hs.fileOf_eq_ok hf).2
  simp [answer_visitOne hv hs, hne, hbytes, answer_visitAt_of_file hv hs hpath hf]

theorem answer_visitOne_of_fault (hv : ∀ f, Steady (visit f)) (hs : s.Coherent)
    (hpath : Path.resolve path = .ok path) {fault : LoadFault} (hf : s.fileOf w path = .error fault) :
    (visitOne module_ word visit path).answer w s = .ok [] := by
  rw [answer_visitOne hv hs, answer_visitAt_of_fault hv hs hpath hf]
  split
  · rfl
  · split
    · rfl
    · split <;> rfl

theorem answer_visitOne_self (hv : ∀ f, Steady (visit f)) (hs : s.Coherent) :
    (visitOne module_ word visit module_).answer w s = .ok [] := by
  simp [answer_visitOne hv hs]

/-! ## The files that pass -/

/-- The filter at one path of the listing. -/
theorem answer_mentioning_one (hs : s.Coherent) (hlists : s.ListsResolved w)
    (hpath : s.Enumerates w path) :
    ∃ fs, (visitOne module_ word (fun g => pure [g]) path).answer w s = .ok fs ∧
      ∀ g, g ∈ fs ↔ s.Lists w g ∧ g.path = path ∧ path ≠ module_ ∧
        word.occursIn g.source = true := by
  have hv : ∀ g : SourceFile, Steady (pure [g] : Query (List SourceFile)) := fun g => steady_pure [g]
  by_cases hmodule : path = module_
  · refine ⟨[], ?_, ?_⟩
    · rw [hmodule, answer_visitOne_self hv hs]
    · intro g
      constructor
      · intro hmem
        cases hmem
      · rintro ⟨-, -, hne, -⟩
        exact absurd hmodule hne
  · cases hf : s.fileOf w path with
    | error fault =>
      refine ⟨[], answer_visitOne_of_fault hv hs (hlists path hpath) hf, ?_⟩
      intro g
      constructor
      · intro hmem
        cases hmem
      · rintro ⟨⟨-, hg⟩, rfl, -, -⟩
        rw [hf] at hg
        cases hg
    | ok f =>
      have hfpath : f.path = path := (hs.fileOf_eq_ok hf).1
      refine ⟨if word.occursIn f.source then [f] else [], ?_, ?_⟩
      · rw [answer_visitOne_of_file hv hs (hlists path hpath) hf hmodule]
        split <;> rfl
      · intro g
        constructor
        · intro hmem
          split at hmem
          · rename_i hholds
            rw [List.mem_singleton.1 hmem, Session.Lists, hfpath]
            exact ⟨⟨hpath, hf⟩, rfl, hmodule, hholds⟩
          · cases hmem
        · rintro ⟨⟨-, hg⟩, rfl, -, hholds⟩
          have hsame : f = g := Except.ok.inj (hf.symm.trans hg)
          rw [hsame, if_pos hholds]
          exact List.mem_singleton_self g

/-- The filter answers if there is a list of the files and the word of the module has bytes, and it passes
the files that hold them. -/
theorem answer_mentioning (hs : s.Coherent) (hlists : s.ListsResolved w) {paths : List Text}
    (hpaths : s.listingOf w = .ok paths) (hword : Utf8.encode (moduleWord module_) = some word) :
    ∃ found, (mentioning module_).answer w s = .ok found ∧
      ∀ g, g ∈ found ↔ s.Lists w g ∧ g.path ≠ module_ ∧ word.occursIn g.source = true := by
  have hv : ∀ g : SourceFile, Steady (pure [g] : Query (List SourceFile)) := fun g => steady_pure [g]
  have heach : ∀ path ∈ paths, ∃ fs,
      (visitOne module_ word (fun g => pure [g]) path).answer w s = .ok fs := by
    intro path hpath
    rcases answer_mentioning_one hs hlists ⟨paths, hpaths, hpath⟩ with ⟨fs, hfs, -⟩
    exact ⟨fs, hfs⟩
  -- The answers of the paths one after the other; a file passes at its own path only.
  rcases Fallible.mapM_eq_ok_of_forall heach with ⟨fss, hfss⟩
  refine ⟨fss.flatten, ?_, ?_⟩
  · unfold mentioning
    rw [answer_visitMentioning hv hs]
    simp only [hword]
    exact Fallible.bind_eq_ok.2 ⟨paths, hpaths, Fallible.map_eq_ok.2 ⟨fss, hfss, rfl⟩⟩
  · intro g
    constructor
    · intro hmem
      rcases List.mem_flatten.1 hmem with ⟨fs, hfs, hmem⟩
      rcases Fallible.mem_of_mapM_eq_ok hfss hfs with ⟨path, hpath, hone⟩
      rcases answer_mentioning_one hs hlists ⟨paths, hpaths, hpath⟩ with ⟨fs', hone', hiff⟩
      rw [hone] at hone'
      cases hone'
      rcases (hiff g).1 hmem with ⟨hg, rfl, hne, hholds⟩
      exact ⟨hg, hne, hholds⟩
    · rintro ⟨hg, hne, hholds⟩
      rcases hg.1 with ⟨paths', hpaths', hpath⟩
      cases hpaths.symm.trans hpaths'
      rcases Fallible.exists_of_mapM_eq_ok hfss hpath with ⟨fs, hfs, hone⟩
      rcases answer_mentioning_one hs hlists hg.1 with ⟨fs', hone', hiff⟩
      rw [hone] at hone'
      cases hone'
      exact List.mem_flatten.2 ⟨fs, hfs, (hiff g).2 ⟨hg, rfl, hne, hholds⟩⟩

/-- The filter passes exactly the files that mention the module. -/
theorem yields_iff (hs : s.Coherent) (hlists : s.ListsResolved w) (hf : s.Lists w f)
    (hmodule : f.path ≠ module_) : Yields w s module_ f ↔ f.Mentions module_ := by
  constructor
  · rintro ⟨found, hfound, hmem⟩
    -- A word without bytes makes the filter fail, so nothing is passed then.
    cases hword : Utf8.encode (moduleWord module_) with
    | none =>
      have hv : ∀ g : SourceFile, Steady (pure [g] : Query (List SourceFile)) :=
        fun g => steady_pure [g]
      unfold mentioning at hfound
      rw [answer_visitMentioning hv hs] at hfound
      simp [hword] at hfound
    | some word =>
      rcases hf.1 with ⟨paths, hpaths, -⟩
      rcases answer_mentioning hs hlists hpaths hword with ⟨found', hfound', hiff⟩
      rw [hfound] at hfound'
      cases hfound'
      exact ⟨word, hword, ((hiff f).1 hmem).2.2⟩
  · rintro ⟨word, hword, hholds⟩
    rcases hf.1 with ⟨paths, hpaths, -⟩
    rcases answer_mentioning hs hlists hpaths hword with ⟨found, hfound, hiff⟩
    exact ⟨found, hfound, (hiff f).2 ⟨hf, hmodule, hholds⟩⟩

/-! ## Plain imports -/

/-- A statement that names a module has a specifier that leads there. -/
theorem importOf_of_hasSource (hs : s.Coherent) {file : Text} {statement : Cursor}
    (h : (hasSource file module_ statement).answer w s = .ok true) :
    ∃ source specifier directory, statement.child? .source = some source ∧
      Literal.value source.tree = .ok specifier ∧ s.importOf w directory specifier = some module_ := by
  unfold hasSource at h
  cases hsource : statement.child? .source with
  | none =>
    rw [hsource] at h
    cases h
  | some source =>
    rw [hsource] at h
    have hresolve := fun specifier => steady_resolve file specifier
    rcases ((steady_ofExcept _).answer_bind_eq_ok
      (fun specifier => (hresolve specifier).bind fun _ => steady_pure _) hs).1 h with
      ⟨specifier, hspecifier, h⟩
    rcases ((hresolve specifier).answer_bind_eq_ok (fun _ => steady_pure _) hs).1 h with
      ⟨target, htarget, h⟩
    have hmodule : target = some module_ := of_decide_eq_true (Except.ok.inj h)
    rw [answer_ofExcept] at hspecifier
    rw [answer_resolve] at htarget
    split at htarget
    · cases htarget
    · rename_i key _
      exact ⟨source, specifier, Path.directory key, rfl, hspecifier,
        (Except.ok.inj htarget).trans hmodule⟩

/-- A file that takes something from a module by a plain specifier mentions the module. -/
theorem mentions_of_takesPlainly (hs : s.Coherent)
    (hext : ∀ e ∈ w.settings.sourceExtensions, Path.IsExtension e) (hfresh : s.ResolvesFreshly w)
    (hfaithful : f.Faithful) (h : f.TakesPlainly w s module_) : f.Mentions module_ := by
  rcases h with ⟨statement, hstatement, -, hnamed, source, text, hsource, htext, hslash, hplain⟩
  have hvalue : Literal.value source.tree = .ok (Literal.body text) :=
    Literal.value_of_not_mem htext hslash
  rcases importOf_of_hasSource hs hnamed with ⟨source', specifier, directory, hsource', hspecifier, himport⟩
  have hsame : source' = source := Option.some.inj (hsource'.symm.trans hsource)
  have hbody : specifier = Literal.body text := by
    rw [hsame, hvalue] at hspecifier
    exact (Except.ok.inj hspecifier).symm
  have hresolved : w.resolveImport directory (Literal.body text) = some module_ := by
    rw [← hfresh, ← hbody, himport]
  -- The word stands in the specifier, so its bytes stand among those of the literal.
  have hspelled : moduleWord module_ <:+: text := by
    refine (Import.moduleWord_spelled hext hplain hresolved).trans ?_
    exact (List.dropLast_prefix _).isInfix.trans (List.drop_suffix 1 text).isInfix
  have hbytes : Utf8.encode text = some source.info.text := by
    refine Utf8.encode_of_decode ?_
    unfold Cursor.text Tree.text at htext
    split at htext
    · rename_i decoded hdecoded
      cases htext
      exact hdecoded
    · cases htext
  rcases Utf8.exists_encode_of_infix hbytes hspelled with ⟨word, hword, hpart⟩
  have hwithin : Cursor.Within f.tree source :=
    (Cursor.Within.root.of_mem_namedChildren hstatement).of_child? hsource
  exact ⟨word, hword, Bytes.occursIn_iff.2 (hpart.trans (hfaithful source hwithin))⟩

/-! ## Without the filter -/

theorem steady_visitOther (hv : ∀ f, Steady (visit f)) (path : Text) :
    Steady (visitOther module_ visit path) := by
  unfold visitOther
  split
  · exact steady_pure []
  · exact steady_visitAt hv path

theorem answer_visitOthers (hv : ∀ f, Steady (visit f)) (hs : s.Coherent) :
    (visitOthers module_ visit).answer w s =
      (s.listingOf w).bind fun paths =>
        (paths.mapM fun path => (visitOther module_ visit path).answer w s).map List.flatten := by
  have hmap : ∀ paths : List Text, Steady (paths.mapM (visitOther module_ visit)) :=
    fun paths => Steady.mapM (steady_visitOther hv) paths
  unfold visitOthers
  rw [steady_listing.answer_bind (fun paths => (hmap paths).bind fun _ => steady_pure _) hs,
    answer_listing]
  refine congrArg (Except.bind (s.listingOf w)) (funext fun paths => ?_)
  rw [(hmap _).answer_bind (fun _ => steady_pure _) hs, answer_mapM (steady_visitOther hv) hs]
  rfl

/-- If a visit gives nothing in the files that do not mention the module, the filter does not show. -/
theorem visitMentioning_refines (hv : ∀ f, Steady (visit f)) (hs : s.Coherent)
    (hlists : s.ListsResolved w) (hword : Utf8.encode (moduleWord module_) = some word)
    (hnothing : ∀ f, s.Lists w f → f.path ≠ module_ → ¬ f.Mentions module_ →
      ∀ xs, (visit f).answer w s = .ok xs → xs = [])
    {xs : List α} (h : (visitOthers module_ visit).answer w s = .ok xs) :
    (visitMentioning module_ visit).answer w s = .ok xs := by
  rw [answer_visitOthers hv hs] at h
  rcases Fallible.bind_eq_ok.1 h with ⟨paths, hpaths, h⟩
  rcases Fallible.map_eq_ok.1 h with ⟨xss, hxss, rfl⟩
  rw [answer_visitMentioning hv hs]
  simp only [hword]
  -- Path by path: the filter matters only where the file does not hold the word.
  refine Fallible.bind_eq_ok.2 ⟨paths, hpaths, Fallible.map_eq_ok.2
    ⟨xss, Fallible.mapM_eq_ok_of_refines ?_ hxss, rfl⟩⟩
  intro path hmem ys hys
  have hpath : s.Enumerates w path := ⟨paths, hpaths, hmem⟩
  unfold visitOther at hys
  by_cases hmodule : path = module_
  · rw [if_pos hmodule] at hys
    rw [hmodule, answer_visitOne_self hv hs]
    exact hys
  · rw [if_neg hmodule] at hys
    cases hf : s.fileOf w path with
    | error fault =>
      rw [answer_visitAt_of_fault hv hs (hlists path hpath) hf] at hys
      rw [answer_visitOne_of_fault hv hs (hlists path hpath) hf, hys]
    | ok g =>
      rw [answer_visitAt_of_file hv hs (hlists path hpath) hf] at hys
      rw [answer_visitOne_of_file hv hs (hlists path hpath) hf hmodule]
      split
      · exact hys
      · rename_i hholds
        have hg : g.path = path := (hs.fileOf_eq_ok hf).1
        have hlisted : s.Lists w g := by
          rw [Session.Lists, hg]
          exact ⟨hpath, hf⟩
        have hsilent : ¬ g.Mentions module_ := by
          rintro ⟨word', hword', hholds'⟩
          rw [hword] at hword'
          cases hword'
          exact hholds hholds'
        rw [hnothing g hlisted (by rw [hg]; exact hmodule) hsilent ys hys]

/-- A file that takes nothing from a module has nothing to give. -/
theorem eq_nil_of_answer_takenFrom (hs : s.Coherent) {kind : Kind}
    {act : SourceFile → Cursor → Query (List α)} (hact : ∀ file c, Steady (act file c))
    (hkind : kind = .importStatement ∨ kind = .exportStatement) (hnone : ¬ f.Takes w s module_)
    {xs : List α} (h : (takenFrom kind module_ act f).answer w s = .ok xs) : xs = [] := by
  refine List.eq_nil_iff_forall_not_mem.2 ?_
  intro x hx
  rcases mem_of_answer_takenFrom hs hact h hx with ⟨statement, hmem, hk, hnamed, -⟩
  exact hnone ⟨statement, hmem, hk ▸ hkind, hnamed⟩

/-- When the filter for a module loses no importer, and what follows from that. It loses none exactly if
every importer holds the word of the module; then the references of importers and the exports that are
passed on are those that a search of all files finds. An importer with a plain specifier is never lost. -/
theorem importers_pass_iff (hs : s.Coherent) (hlists : s.ListsResolved w) (module_ : Text) :
    ((∀ f, s.Importer w module_ f → Yields w s module_ f) ↔
      ∀ f, s.Importer w module_ f → f.Mentions module_) ∧
    ((∀ f, s.Importer w module_ f → f.Mentions module_) →
      ∀ word, Utf8.encode (moduleWord module_) = some word → ∀ exported,
        (∀ refs, (visitOthers module_ (takenFrom .importStatement module_
            (takenReferences exported))).answer w s = .ok refs →
          (importerReferences module_ exported).answer w s = .ok refs) ∧
        (∀ es, (visitOthers module_ (takenFrom .exportStatement module_
            (takenExports exported))).answer w s = .ok es →
          (exportsOf (module_, exported)).answer w s = .ok es)) ∧
    ((∀ e ∈ w.settings.sourceExtensions, Path.IsExtension e) → s.ResolvesFreshly w →
      ∀ f, s.Lists w f → f.path ≠ module_ → f.Faithful → f.TakesPlainly w s module_ →
        Yields w s module_ f) := by
  refine ⟨?_, ?_, ?_⟩
  · constructor
    · intro hall f hf
      exact (yields_iff hs hlists hf.1 hf.2.1).1 (hall f hf)
    · intro hall f hf
      exact (yields_iff hs hlists hf.1 hf.2.1).2 (hall f hf)
  · intro hall word hword exported
    have hsilent : ∀ f, s.Lists w f → f.path ≠ module_ → ¬ f.Mentions module_ →
        ¬ f.Takes w s module_ := fun f hf hne hnot htakes => hnot (hall f ⟨hf, hne, htakes⟩)
    have himports := steady_takenReferences exported
    have hexports := steady_takenExports exported
    constructor
    · intro refs hrefs
      rw [importerReferences_eq]
      refine visitMentioning_refines (steady_takenFrom himports) hs hlists hword ?_ hrefs
      intro f hf hne hnot xs hxs
      exact eq_nil_of_answer_takenFrom hs himports (.inl rfl) (hsilent f hf hne hnot) hxs
    · intro es hes
      rw [exportsOf_eq]
      refine visitMentioning_refines (steady_takenFrom hexports) hs hlists hword ?_ hes
      intro f hf hne hnot xs hxs
      exact eq_nil_of_answer_takenFrom hs hexports (.inr rfl) (hsilent f hf hne hnot) hxs
  · intro hext hfresh f hf hne hfaithful hplain
    exact (yields_iff hs hlists hf hne).2 (mentions_of_takesPlainly hs hext hfresh hfaithful hplain)

end Query

/-! ## An importer that is lost, and one that is not -/

namespace DotImport

def indexSource : Bytes :=
  (Utf8.encode "export const a = 1;\n").getD []

/-- The rows of the module that is imported. -/
def indexRows : List TreeRow :=
  [⟨0, .program, true, none, 0, 20⟩,
    ⟨1, .exportStatement, true, none, 0, 19⟩,
    ⟨2, .other "lexical_declaration", true, some (.other "declaration"), 7, 19⟩,
    ⟨3, .variableDeclarator, true, none, 13, 18⟩,
    ⟨4, .identifier, true, some .name, 13, 14⟩,
    ⟨4, .other "number", true, some .value, 17, 18⟩]

/-- A statement that imports `a` by a specifier. -/
def source (specifier : Text) : Bytes :=
  (Utf8.encode (("import { a } from '" : Text) ++ specifier ++ ("';\n" : Text))).getD []

/-- Its rows, for a specifier of some length. -/
def rows (n : Nat) : List TreeRow :=
  [⟨0, .program, true, none, 0, n + 22⟩,
    ⟨1, .importStatement, true, none, 0, n + 21⟩,
    ⟨2, .importClause, true, none, 7, 12⟩,
    ⟨3, .namedImports, true, none, 7, 12⟩,
    ⟨4, .importSpecifier, true, none, 9, 10⟩,
    ⟨5, .identifier, true, some .name, 9, 10⟩,
    ⟨2, .string, true, some .source, 18, n + 20⟩]

/-- The index of a directory `lib`. -/
def index : Text := "/p/lib/index.ts"

/-- A file beside it that imports `a`. -/
def importer (specifier : Text) : SourceFile :=
  ⟨"/p/lib/z.ts", .typescript, source specifier, Tree.ofRows (source specifier) (rows specifier.length)⟩

/-- The name of the directory. -/
def lib : Bytes := [108, 105, 98]

def indexName : Bytes := [105, 110, 100, 101, 120, 46, 116, 115]

def importerName : Bytes := [122, 46, 116, 115]

def entries (specifier : Text) : List Entry :=
  [.directory lib [.file indexName indexSource, .file importerName (source specifier)]]

/-- A project with the two files. -/
def workspace (specifier : Text) : Workspace where
  root := "/p"
  settings := {}
  grammars _ text := Tree.ofRows text (if text = indexSource then indexRows else rows specifier.length)
  disk := [.directory [112] (entries specifier)]

variable {specifier : Text}

theorem listsResolved : Session.ListsResolved {} (workspace specifier) := by
  have hzero : Disk.allNamedIn (fun name => !name.contains 0) (workspace specifier).disk = true := by rfl
  refine Session.listsResolved_of_listingOf_eq rfl (by rfl) (.of_all (by rfl)) fun e he hmem => ?_
  have hpasses := he.name_passes hzero
  simp [hmem] at hpasses

/-- The ways to the two files. -/
theorem holdsFile_iff {r : Route} : Entry.HoldsFile (entries specifier) r ↔
    r = ⟨[Path.spelled lib], Path.spelled indexName⟩ ∨
      r = ⟨[Path.spelled lib], Path.spelled importerName⟩ := by
  constructor
  · intro h
    cases h with
    | here he => cases List.mem_singleton.1 he
    | inside he hrest =>
      cases List.mem_singleton.1 he
      cases hrest with
      | here he => rcases List.mem_pair.1 he with he | he <;> cases he <;> simp
      | inside he _ => rcases List.mem_pair.1 he with he | he <;> cases he
  · rintro (rfl | rfl)
    · exact .inside (List.mem_singleton_self _) (.here List.mem_cons_self)
    · exact .inside (List.mem_singleton_self _) (.here (List.mem_cons_of_mem _ List.mem_cons_self))

theorem exists_sourceFiles : ∃ files, (workspace specifier).sourceFiles = .ok files ∧
    ∀ path, path ∈ files ↔ path = index ∨ path = (importer specifier).path := by
  have hroot : Path.resolve (workspace specifier).root = .ok (workspace specifier).root := by rfl
  have hdepth : Entry.depthBelow (workspace specifier).enters
      (Path.ofNames (Path.names (workspace specifier).root)) (entries specifier) = 1 := by rfl
  have hnamed : Disk.Named (entries specifier) := .of_all (by rfl)
  have henters : (workspace specifier).enters (Path.spelled lib) = true := by rfl
  refine ⟨_, (Workspace.sourceFiles_eq hroot rfl).trans (if_neg (by rw [hdepth]; decide)), fun path => ?_⟩
  rw [Entry.mem_filesBelow_iff_holdsFile hnamed (Path.ofNames_names_of_resolve hroot).2]
  simp only [holdsFile_iff]
  constructor
  · rintro ⟨r, rfl | rfl, -, -, -, rfl⟩
    · exact .inl rfl
    · exact .inr rfl
  · rintro (rfl | rfl)
    · exact ⟨_, .inl rfl, List.forall_mem_singleton.2 henters, ⟨rfl, trivial⟩, rfl, rfl⟩
    · exact ⟨_, .inr rfl, List.forall_mem_singleton.2 henters, ⟨rfl, trivial⟩, rfl, rfl⟩

theorem lists_importer (h : specifier = "." ∨ specifier = "../lib") :
    Session.Lists {} (workspace specifier) (importer specifier) := by
  rcases exists_sourceFiles with ⟨files, hfiles, hmem⟩
  refine ⟨⟨files, hfiles, (hmem _).2 (.inr rfl)⟩, ?_⟩
  rcases h with rfl | rfl <;> rfl

theorem importer_importer (h : specifier = "." ∨ specifier = "../lib") :
    Session.Importer {} (workspace specifier) index (importer specifier) := by
  have hne : ("/p/lib/z.ts" : Text) ≠ index := by decide
  refine ⟨lists_importer h, hne, ?_⟩
  rcases h with rfl | rfl
  · exact ⟨_, List.mem_singleton_self _, .inl rfl, rfl⟩
  · exact ⟨_, List.mem_singleton_self _, .inl rfl, rfl⟩

/-- Nothing else in the project imports the index. -/
theorem eq_importer (h : specifier = "." ∨ specifier = "../lib") {f : SourceFile}
    (hf : Session.Importer {} (workspace specifier) index f) : f = importer specifier := by
  rcases hf with ⟨⟨⟨paths, hpaths, hlisted⟩, hfile⟩, hne, -⟩
  rcases exists_sourceFiles with ⟨files, hfiles, hmem⟩
  cases hfiles.symm.trans hpaths
  rw [((hmem _).1 hlisted).resolve_left hne] at hfile
  exact Except.ok.inj (hfile.symm.trans (lists_importer h).2)

theorem encode_moduleWord : Utf8.encode (Query.moduleWord index) = some lib := by decide

theorem not_mentions : ¬ (importer ".").Mentions index := by
  rintro ⟨word, hword, hholds⟩
  have hnone : Bytes.occursIn lib (importer ".").source = false := by decide
  rw [encode_moduleWord] at hword
  cases hword
  rw [hnone] at hholds
  cases hholds

/-- An importer need not pass the filter. -/
theorem not_importers_pass : ¬ ∀ (w : Workspace) (s : Session) (module_ : Text),
    s.Coherent → s.ListsResolved w → ∀ f, s.Importer w module_ f → Query.Yields w s module_ f := by
  intro hall
  have hyields := hall (workspace ".") {} index Session.coherent_empty listsResolved _
    (importer_importer (.inl rfl))
  exact not_mentions ((Query.yields_iff Session.coherent_empty listsResolved
    (lists_importer (.inl rfl)) (by decide)).1 hyields)

theorem faithful : (importer "../lib").Faithful := by
  have hall : ((importer "../lib").top.preorder.all fun c =>
      c.info.text.occursIn (importer "../lib").source) = true := by decide
  exact fun c hc => Bytes.occursIn_iff.1 (List.all_eq_true.1 hall c (Tree.mem_preorder_iff.2 hc))

theorem takesPlainly : (importer "../lib").TakesPlainly (workspace "../lib") {} index := by
  have hplain : Import.Plain "../lib" :=
    ⟨"lib", ⟨[("..": Text)], by decide⟩, ⟨by decide, (CodePoint.ofChar 'l'), by decide, by decide⟩,
      fun hindex => absurd hindex (by decide)⟩
  exact ⟨_, List.mem_singleton_self _, .inl rfl, rfl, _, ("'../lib'" : Text), rfl, rfl, by decide, hplain⟩

/-- Of an importer by a dot nothing is known but that it need not pass. One that names the directory is
written plainly, so it passes, and then the filter loses no references. -/
theorem importers_pass_index :
    ((∀ f, Session.Importer {} (workspace ".") index f → Query.Yields (workspace ".") {} index f) ↔
      ∀ f, Session.Importer {} (workspace ".") index f → f.Mentions index) ∧
    (∀ f, Session.Importer {} (workspace "../lib") index f → Query.Yields (workspace "../lib") {} index f) ∧
    ∀ exported refs, (Query.visitOthers index (Query.takenFrom .importStatement index
        (Query.takenReferences exported))).answer (workspace "../lib") {} = .ok refs →
      (Query.importerReferences index exported).answer (workspace "../lib") {} = .ok refs := by
  refine ⟨(Query.importers_pass_iff Session.coherent_empty listsResolved index).1, ?_⟩
  rcases Query.importers_pass_iff (w := workspace "../lib") Session.coherent_empty listsResolved index with
    ⟨hiff, hrefines, hplain⟩
  have hpass : ∀ f, Session.Importer {} (workspace "../lib") index f →
      Query.Yields (workspace "../lib") {} index f := by
    intro f hf
    rw [eq_importer (.inr rfl) hf]
    exact hplain (by decide) (fun _ _ => rfl) _ (lists_importer (.inr rfl)) (by decide) faithful
      takesPlainly
  exact ⟨hpass, fun exported => (hrefines (hiff.1 hpass) _ encode_moduleWord exported).1⟩

end DotImport

end AffectedTests
