import AffectedTests.Proofs.Lookups
import AffectedTests.Proofs.Routes
import AffectedTests.Proofs.Within
/-!
# References lie in files

The lookups behind a reference are steady, and every reference that they find is a node of a file in
view. The uses of a declaration are therefore a matter of the views, and they come from parse trees and
from nowhere else.
-/

namespace AffectedTests

/-- A node of the file in view at a path. -/
def Session.Shows (s : Session) (w : Workspace) (path : Text) (c : Cursor) : Prop :=
  ∃ file, s.Opens w file ∧ file.path = path ∧ Cursor.Within file.tree c

/-- The name that an import binds is the text of a node. -/
def Reference.Spelled (r : Reference) : Prop :=
  ∀ name, r.binding = some name → ∃ c : Cursor, c.text = .ok name

/-- A reference to a node of a file. -/
structure SourceFile.Owns (f : SourceFile) (r : Reference) : Prop where
  file : r.file = f.path
  within : Cursor.Within f.tree r.node
  spelled : r.Spelled

/-- A file that a search from a file may come to: that file itself, or one of the project. -/
def Session.Nearby (s : Session) (w : Workspace) (start file : Text) : Prop :=
  ∃ path, (path = start ∨ s.Enumerates w path) ∧ Path.resolve path = .ok file

/-- A reference to a node of a file in view that a search from a file may come to. -/
structure Session.Finds (s : Session) (w : Workspace) (start : Text) (r : Reference) : Prop where
  shows : s.Shows w r.file r.node
  spelled : r.Spelled
  nearby : s.Nearby w start r.file

/-- Whoever looks a file up again comes to the same file. -/
theorem Session.Nearby.of_resolve {s : Session} {w : Workspace} {start file file' : Text}
    (h : s.Nearby w start file) (hfile : Path.resolve file = .ok file') : s.Nearby w start file' := by
  rcases h with ⟨path, hpath, hkey⟩
  cases (Path.resolve_resolve hkey).symm.trans hfile
  exact ⟨path, hpath, hkey⟩

namespace Query

variable {w : Workspace} {s : Session}

/-! ## Steadiness -/

theorem steady_keywords : Steady keywords :=
  steady_read.bind fun _ => steady_pure _

/-- The tests of one file. -/
def testsOf (file : SourceFile) : Query (List TestDeclaration) := do
  ofExcept (file.tests (← keywords))

theorem steady_testsOf (file : SourceFile) : Steady (testsOf file) :=
  steady_keywords.bind fun _ => steady_ofExcept _

theorem answer_testsOf (hs : s.Coherent) (file : SourceFile) :
    (testsOf file).answer w s = file.tests w.settings.testKeywords :=
  (steady_keywords.answer_bind (fun _ => steady_ofExcept _) hs).trans (answer_ofExcept _ w s)

theorem steady_tests (path : Text) : Steady (tests path) := by
  refine (steady_load path).bind ?_
  intro file
  cases file with
  | none => exact steady_pure []
  | some file => exact steady_testsOf file

theorem steady_changedAt? (path : Text) (line : Int) : Steady (changedAt? path line) := by
  refine (steady_load path).bind ?_
  intro file
  cases file with
  | none => exact steady_pure none
  | some file => exact steady_ofExcept _

/-- The uses at the nodes that a search finds in a file. -/
def usesAt (search : SourceFile → Except Failure (List Cursor)) (file : SourceFile) :
    Query (List Reference) := do
  return (← ofExcept (search file)).map (Reference.use file.path)

theorem steady_usesAt (search : SourceFile → Except Failure (List Cursor)) (file : SourceFile) :
    Steady (usesAt search file) :=
  (steady_ofExcept _).bind fun _ => steady_pure _

theorem localReferences_eq (path name : Text) :
    localReferences path name = visitAt (usesAt fun file => file.identifierUses name) path := by
  refine congrArg (load path >>= ·) ?_
  funext file
  cases file <;> rfl

theorem steady_localReferences (path name : Text) : Steady (localReferences path name) := by
  rw [localReferences_eq]
  exact steady_visitAt (steady_usesAt _) path

theorem steady_hasSource (file module_ : Text) (statement : Cursor) :
    Steady (hasSource file module_ statement) := by
  unfold hasSource
  cases statement.child? .source with
  | none => exact steady_pure false
  | some source =>
    exact (steady_ofExcept _).bind fun _ => (steady_resolve file _).bind fun _ => steady_pure _

/-! ## Statements that name a module -/

section Taken

variable {α : Type} {kind : Kind} {module_ : Text} {act : SourceFile → Cursor → Query (List α)}

/-- What an action gives at a statement of a file that names a module as its source. -/
def takenAt (module_ : Text) (act : SourceFile → Cursor → Query (List α)) (file : SourceFile)
    (statement : Cursor) : Query (List α) := do
  if ← hasSource file.path module_ statement then act file statement else return []

/-- What an action gives at all such statements of one kind at the top level of a file. -/
def takenFrom (kind : Kind) (module_ : Text) (act : SourceFile → Cursor → Query (List α))
    (file : SourceFile) : Query (List α) := do
  return (← (file.top.namedChildren.filter fun s => s.kind = kind).mapM
    (takenAt module_ act file)).flatten

/-- The imports of a module. -/
def takenReferences (exported : Text) (file : SourceFile) (statement : Cursor) :
    Query (List Reference) :=
  ofExcept (statementReferences file exported statement)

/-- The exports of a module that are passed on. -/
def takenExports (exported : Text) (file : SourceFile) (statement : Cursor) :
    Query (List Export) := do
  return (← ofExcept (passedOn exported statement)).map (file.path, ·)

theorem importerReferences_eq (module_ exported : Text) :
    importerReferences module_ exported =
      visitMentioning module_ (takenFrom .importStatement module_ (takenReferences exported)) :=
  rfl

theorem exportsOf_eq (e : Export) :
    exportsOf e = visitMentioning e.1 (takenFrom .exportStatement e.1 (takenExports e.2)) :=
  rfl

theorem steady_takenReferences (exported : Text) (file : SourceFile) (statement : Cursor) :
    Steady (takenReferences exported file statement) :=
  steady_ofExcept _

theorem steady_takenExports (exported : Text) (file : SourceFile) (statement : Cursor) :
    Steady (takenExports exported file statement) :=
  (steady_ofExcept _).bind fun _ => steady_pure _

theorem steady_takenAt (hact : ∀ file c, Steady (act file c)) (file : SourceFile)
    (statement : Cursor) : Steady (takenAt module_ act file statement) := by
  refine (steady_hasSource _ _ _).bind ?_
  intro found
  cases found with
  | true => exact hact file statement
  | false => exact steady_pure []

theorem steady_takenFrom (hact : ∀ file c, Steady (act file c)) (file : SourceFile) :
    Steady (takenFrom kind module_ act file) :=
  (Steady.mapM (steady_takenAt hact file) _).bind fun _ => steady_pure _

/-- What is taken at a statement: nothing, if it does not name the module. -/
theorem answer_takenAt_eq_ok (hs : s.Coherent) (hact : ∀ file c, Steady (act file c))
    {file : SourceFile} {statement : Cursor} {xs : List α} :
    (takenAt module_ act file statement).answer w s = .ok xs ↔
      ((hasSource file.path module_ statement).answer w s = .ok true ∧
        (act file statement).answer w s = .ok xs) ∨
      ((hasSource file.path module_ statement).answer w s = .ok false ∧ xs = []) := by
  have hrest : ∀ named : Bool, Steady (if named then act file statement else return []) := by
    intro named
    cases named with
    | true => exact hact file statement
    | false => exact steady_pure []
  unfold takenAt
  rw [(steady_hasSource _ _ _).answer_bind_eq_ok hrest hs]
  constructor
  · rintro ⟨named, hnamed, h⟩
    cases named with
    | true => exact .inl ⟨hnamed, h⟩
    | false => exact .inr ⟨hnamed, (Except.ok.inj h).symm⟩
  · rintro (⟨hnamed, h⟩ | ⟨hnamed, rfl⟩)
    · exact ⟨true, hnamed, h⟩
    · exact ⟨false, hnamed, rfl⟩

/-- What is taken from a file is taken at its statements. -/
theorem mem_of_answer_takenFrom (hs : s.Coherent) (hact : ∀ file c, Steady (act file c))
    {file : SourceFile} {xs : List α} (h : (takenFrom kind module_ act file).answer w s = .ok xs)
    {x : α} (hx : x ∈ xs) :
    ∃ statement ∈ file.top.namedChildren, statement.kind = kind ∧
      (hasSource file.path module_ statement).answer w s = .ok true ∧
      ∃ ys, (act file statement).answer w s = .ok ys ∧ x ∈ ys := by
  rcases ((Steady.mapM (steady_takenAt hact file) _).answer_bind_eq_ok
    (fun _ => steady_pure _) hs).1 h with ⟨found, hfound, hxs⟩
  cases hxs
  rw [answer_mapM (steady_takenAt hact file) hs] at hfound
  rcases List.mem_flatten.1 hx with ⟨ys, hys, hx⟩
  rcases Fallible.mem_of_mapM_eq_ok hfound hys with ⟨statement, hstatement, htaken⟩
  rcases List.mem_filter.1 hstatement with ⟨hchild, hkind⟩
  rcases (answer_takenAt_eq_ok hs hact).1 htaken with ⟨hnamed, hact'⟩ | ⟨-, hnil⟩
  · exact ⟨statement, hchild, of_decide_eq_true hkind, hnamed, ys, hact', hx⟩
  · rw [hnil] at hx
    cases hx

end Taken

theorem steady_importerReferences (module_ exported : Text) :
    Steady (importerReferences module_ exported) := by
  rw [importerReferences_eq]
  exact steady_visitMentioning (steady_takenFrom (steady_takenReferences exported)) module_

theorem steady_importsModule (file : SourceFile) (module_ : Text) :
    Steady (importsModule file module_) :=
  Steady.anyM (fun _ => steady_hasSource _ _ _) _

theorem steady_exportsOf (e : Export) : Steady (exportsOf e) := by
  rw [exportsOf_eq]
  exact steady_visitMentioning (steady_takenFrom (steady_takenExports e.2)) e.1

theorem steady_followExports (fuel : Nat) (known waiting : List Export) :
    Steady (followExports fuel known waiting) := by
  induction fuel generalizing known waiting with
  | zero => exact steady_pure known
  | succ fuel ih =>
    cases waiting with
    | nil => exact steady_pure known
    | cons e waiting => exact (steady_exportsOf e).bind fun _ => ih _ _

/-- The bound of the search for exports is a matter of the views. -/
theorem exportBound_eq {s' : Session} (h : s.Alike w s') (start : List Export) :
    exportBound w s' start = exportBound w s start := by
  simp only [exportBound, h.listing, h.file]

theorem steady_exports (d : Declaration) : Steady (exports d) := by
  refine (steady_ofExcept _).bind ?_
  intro names
  -- The bound looks at the session, but only at what alike sessions share.
  refine Steady.ofViews ?_ ?_
  · intro w s s' h
    simp only [exportBound_eq h]
  · intro w s
    exact (steady_followExports _ _ _).bind fun _ => steady_pure _

theorem steady_symbolReferences (d : Declaration) : Steady (symbolReferences d) := by
  refine (steady_localReferences _ _).bind fun _ => (steady_exports d).bind fun _ => ?_
  exact (Steady.mapM (fun _ => steady_importerReferences _ _) _).bind fun _ => steady_pure _

theorem steady_binders (owner : Declaration) : Steady (binders owner) := by
  refine (steady_exports owner).bind fun _ => ?_
  exact (Steady.mapM (fun _ => steady_importerReferences _ _) _).bind fun _ => steady_pure _

/-- What a file adds to the files that are known: itself, if it imports the module. -/
def importerIfNew (known : List Text) (module_ : Text) (file : SourceFile) : Query (List Text) := do
  if known.contains file.path then return []
  else if ← importsModule file module_ then return [file.path]
  else return []

theorem extendByImporters_eq (modules known : List Text) :
    extendByImporters modules known = modules.foldlM (fun known module_ => do
      return known ++ (← visitMentioning module_ (importerIfNew known module_))) known :=
  rfl

theorem steady_importerIfNew (known : List Text) (module_ : Text) (file : SourceFile) :
    Steady (importerIfNew known module_ file) := by
  unfold importerIfNew
  split
  · exact steady_pure []
  · refine (steady_importsModule file module_).bind ?_
    intro found
    cases found with
    | true => exact steady_pure _
    | false => exact steady_pure []

theorem steady_extendByImporters (modules known : List Text) :
    Steady (extendByImporters modules known) := by
  rw [extendByImporters_eq]
  refine Steady.foldlM ?_ known modules
  intro known module_
  exact (steady_visitMentioning (steady_importerIfNew known module_) module_).bind
    fun _ => steady_pure _

theorem eq_of_answer_importerIfNew (hs : s.Coherent) {known : List Text} {module_ : Text}
    {file : SourceFile} {files : List Text}
    (h : (importerIfNew known module_ file).answer w s = .ok files) {path : Text}
    (hpath : path ∈ files) : path = file.path := by
  have hrest : ∀ found : Bool,
      Steady (if found then return [file.path] else return [] : Query (List Text)) := by
    intro found
    cases found with
    | true => exact steady_pure _
    | false => exact steady_pure []
  unfold importerIfNew at h
  split at h
  · cases h
    cases hpath
  · rcases ((steady_importsModule file module_).answer_bind_eq_ok hrest hs).1 h with ⟨found, -, h⟩
    cases found with
    | true =>
      cases h
      exact List.mem_singleton.1 hpath
    | false =>
      cases h
      cases hpath

/-- The files in which a member is looked for. -/
def memberFiles (d : Declaration) : Query (List Text) := do
  match ← ofExcept d.enclosingClass? with
  | none => return [d.file]
  | some owner =>
    let binders ← binders owner
    let settings := (← read).settings
    extendByImporters (binders.filter fun b => !settings.isTestFile b) (d.file :: binders)

theorem memberReferences_eq (d : Declaration) :
    memberReferences d = do
      let members := visitAt (usesAt fun file => file.memberAccesses d.name)
      return (← (← memberFiles d).mapM members).flatten := by
  unfold memberReferences memberFiles
  rw [bind_assoc]
  refine bind_congr fun owner => ?_
  -- Both sides look for the files first; what is then done with each file is the same.
  cases owner with
  | none =>
    refine bind_congr fun candidates => ?_
    refine congrArg (· >>= _) (congrArg (List.mapM · candidates) ?_)
    funext path
    refine bind_congr fun file => ?_
    cases file <;> rfl
  | some owner =>
    simp only [bind_assoc]
    refine bind_congr fun binders => bind_congr fun w => bind_congr fun candidates => ?_
    refine congrArg (· >>= _) (congrArg (List.mapM · candidates) ?_)
    funext path
    refine bind_congr fun file => ?_
    cases file <;> rfl

/-- The files in which a member of a class is looked for, or one of no class. -/
def memberFilesIn (d : Declaration) : Option Declaration → Query (List Text)
  | none => return [d.file]
  | some owner => do
    let binders ← binders owner
    let settings := (← read).settings
    extendByImporters (binders.filter fun b => !settings.isTestFile b) (d.file :: binders)

theorem memberFiles_eq (d : Declaration) :
    memberFiles d = ofExcept d.enclosingClass? >>= memberFilesIn d := by
  refine bind_congr fun owner => ?_
  cases owner <;> rfl

theorem steady_memberFilesIn (d : Declaration) (owner : Option Declaration) :
    Steady (memberFilesIn d owner) := by
  cases owner with
  | none => exact steady_pure _
  | some owner =>
    exact (steady_binders owner).bind fun _ => steady_read.bind fun _ =>
      steady_extendByImporters _ _

theorem steady_memberFiles (d : Declaration) : Steady (memberFiles d) := by
  rw [memberFiles_eq]
  exact (steady_ofExcept _).bind (steady_memberFilesIn d)

theorem steady_memberReferences (d : Declaration) : Steady (memberReferences d) := by
  rw [memberReferences_eq]
  exact (steady_memberFiles d).bind fun _ =>
    (Steady.mapM (steady_visitAt (steady_usesAt _)) _).bind fun _ => steady_pure _

theorem steady_guarded {α : Type} (d : Declaration) {q : Query α} (hq : Steady q) :
    Steady (guarded d q) :=
  hq.tryCatch fun _ => steady_throw _

/-- The search for the references to a declaration, before its failures are reported as those of one
look-up. -/
def search (d : Declaration) : Query (List Reference) :=
  if d.kind.isMember then memberReferences d else symbolReferences d

theorem references_eq (d : Declaration) : references d = guarded d (search d) :=
  rfl

theorem steady_search (d : Declaration) : Steady (search d) := by
  unfold search
  split
  · exact steady_memberReferences d
  · exact steady_symbolReferences d

theorem steady_references (d : Declaration) : Steady (references d) :=
  steady_guarded d (steady_search d)

theorem steady_usesOf (r : Reference) : Steady (usesOf r) := by
  unfold usesOf
  cases r.binding with
  | some name => exact steady_localReferences _ _
  | none => exact steady_pure [r]

/-- The references to a declaration; there are none if they cannot be resolved. -/
def found (d : Declaration) : Query (List Reference) :=
  tryCatch (references d) fun failure =>
    match failure with
    | .unresolved _ _ _ => do
      warn (.notFollowed failure)
      return []
    | failure => throw failure

theorem uses_eq (d : Declaration) :
    uses d = do return (← (← found d).mapM usesOf).flatten :=
  rfl

theorem steady_passOver (failure : Failure) :
    Steady (match failure with
      | .unresolved _ _ _ => do
        warn (.notFollowed failure)
        return []
      | failure => throw failure : Query (List Reference)) := by
  split
  · exact (steady_warn _).bind fun _ => steady_pure []
  · exact steady_throw _

theorem steady_found (d : Declaration) : Steady (found d) :=
  (steady_references d).tryCatch steady_passOver

theorem steady_uses (d : Declaration) : Steady (uses d) := by
  rw [uses_eq]
  exact (steady_found d).bind fun _ => (Steady.mapM steady_usesOf _).bind fun _ => steady_pure _

theorem steady_changed (d : FileDiff) (path : Text) : Steady (Tracing.changed d path) :=
  (Steady.mapM (fun _ => steady_changedAt? path _) _).bind fun _ => steady_pure _

end Query

/-! ## Nodes that are found in a file -/

namespace SourceFile

variable {f : SourceFile} {name object : Text} {cs : List Cursor}

theorem within_of_identifierUses (h : f.identifierUses name = .ok cs) :
    ∀ c ∈ cs, Cursor.Within f.tree c := by
  intro c hc
  rcases Fallible.map_eq_ok.1 h with ⟨bytes, -, rfl⟩
  split at hc
  · exact Tree.within_of_mem_usesOf f.tree [] .root c hc
  · cases hc

theorem within_of_memberAccesses (h : f.memberAccesses name = .ok cs) :
    ∀ c ∈ cs, Cursor.Within f.tree c := by
  intro c hc
  rcases Fallible.map_eq_ok.1 h with ⟨bytes, -, rfl⟩
  split at hc
  · rcases List.mem_filterMap.1 hc with ⟨e, he, haccess⟩
    unfold accessOf? at haccess
    split at haccess
    · have hchild : e.child? .property = some c := Option.eq_some_of_filter_eq_some haccess
      exact (Tree.mem_preorder_iff.1 he).of_child? hchild
    · cases haccess
  · cases hc

theorem within_of_accessesOf (h : f.accessesOf object name = .ok cs) :
    ∀ c ∈ cs, Cursor.Within f.tree c := by
  intro c hc
  rcases Fallible.bind_eq_ok.1 h with ⟨accesses, haccesses, h⟩
  exact within_of_memberAccesses haccesses c ((Fallible.mem_filterM_iff h).1 hc).1

/-- The uses at nodes of a file belong to it. -/
theorem owns_use (h : ∀ c ∈ cs, Cursor.Within f.tree c) :
    ∀ r ∈ cs.map (Reference.use f.path), f.Owns r := by
  intro r hr
  rcases List.mem_map.1 hr with ⟨c, hc, rfl⟩
  exact ⟨rfl, h c hc, fun _ hname => by cases hname⟩

theorem owns_import {at_ node : Cursor} {r : Reference} (hn : Cursor.Within f.tree node)
    (h : Reference.import? f.path at_ node = .ok r) : f.Owns r := by
  rcases Fallible.map_eq_ok.1 h with ⟨binding, hbinding, rfl⟩
  refine ⟨rfl, hn, fun name hname => ?_⟩
  cases hname
  exact ⟨node, hbinding⟩

end SourceFile

namespace Query

variable {w : Workspace} {s : Session} {file : SourceFile} {exported name path start : Text}
  {rs : List Reference}

theorem owns_of_specifier {c : Cursor} (hc : Cursor.Within file.tree c)
    (h : clauseReferences.specifier file exported c = .ok rs) : ∀ r ∈ rs, file.Owns r := by
  unfold clauseReferences.specifier at h
  split at h
  · cases h
    simp
  · rename_i node hnode
    rcases Fallible.bind_eq_ok.1 h with ⟨text, -, h⟩
    split at h
    · rcases Fallible.bind_eq_ok.1 h with ⟨r, hr, h⟩
      cases h
      -- The reference stands at the alias, or at the name if there is none.
      have hn : Cursor.Within file.tree ((c.child? .alias).getD node) := by
        cases ha : c.child? .alias with
        | none => exact hc.of_child? hnode
        | some alias_ => exact hc.of_child? ha
      intro r' hr'
      rcases List.mem_singleton.1 hr' with rfl
      exact SourceFile.owns_import hn hr
    · cases h
      simp

theorem owns_of_clauseReferences {c : Cursor} (hc : Cursor.Within file.tree c)
    (h : clauseReferences file exported c = .ok rs) : ∀ r ∈ rs, file.Owns r := by
  -- A default import, named imports, or a namespace, whose uses are accesses to its members.
  unfold clauseReferences at h
  split at h
  · split at h
    · rcases Fallible.map_eq_ok.1 h with ⟨r, hr, rfl⟩
      intro r' hr'
      rcases List.mem_singleton.1 hr' with rfl
      exact SourceFile.owns_import hc hr
    · cases h
      simp
  · rcases Fallible.map_eq_ok.1 h with ⟨rss, hrss, rfl⟩
    intro r hr
    rcases List.mem_flatten.1 hr with ⟨rs, hrs, hr⟩
    rcases Fallible.mem_of_mapM_eq_ok hrss hrs with ⟨spec, hspec, hrefs⟩
    exact owns_of_specifier (hc.of_mem_namedChildren (List.mem_filter.1 hspec).1) hrefs r hr
  · split at h
    · cases h
      simp
    · split at h
      · cases h
        simp
      · rcases Fallible.bind_eq_ok.1 h with ⟨object, -, h⟩
        rcases Fallible.bind_eq_ok.1 h with ⟨accesses, haccesses, h⟩
        cases h
        exact SourceFile.owns_use (SourceFile.within_of_accessesOf haccesses)
  · cases h
    simp

theorem owns_of_statementReferences {c : Cursor} (hc : Cursor.Within file.tree c)
    (h : statementReferences file exported c = .ok rs) : ∀ r ∈ rs, file.Owns r := by
  unfold statementReferences at h
  split at h
  · cases h
    simp
  · rename_i clause hclause
    have hclause' : Cursor.Within file.tree clause :=
      hc.of_mem_namedChildren (List.mem_of_find?_eq_some hclause)
    rcases Fallible.map_eq_ok.1 h with ⟨rss, hrss, rfl⟩
    intro r hr
    rcases List.mem_flatten.1 hr with ⟨rs, hrs, hr⟩
    rcases Fallible.mem_of_mapM_eq_ok hrss hrs with ⟨child, hchild, hrefs⟩
    exact owns_of_clauseReferences (hclause'.of_mem_namedChildren hchild) hrefs r hr

/-! ## What a search is put together from -/

/-- References that are resolved are those that the search finds. -/
theorem answer_references_eq_ok (hs : s.Coherent) {d : Declaration} :
    (references d).answer w s = .ok rs ↔ (search d).answer w s = .ok rs := by
  rw [references_eq]
  unfold guarded
  rw [(steady_search d).answer_tryCatch (fun _ => steady_throw _) hs]
  split
  · rename_i found hfound
    rw [hfound]
  · rename_i failure hfailure
    rw [hfailure]
    exact iff_of_false nofun nofun

/-- The references to a function, class or variable are those in its own file and those of its
importers. -/
theorem answer_symbolReferences_eq_ok (hs : s.Coherent) {d : Declaration} :
    (symbolReferences d).answer w s = .ok rs ↔ ∃ inside es outside,
      (localReferences d.file d.name).answer w s = .ok inside ∧ (exports d).answer w s = .ok es ∧
        (es.mapM fun e => importerReferences e.1 e.2).answer w s = .ok outside ∧
          rs = inside ++ outside.flatten := by
  have houtside : ∀ es : List Export, Steady (es.mapM fun e => importerReferences e.1 e.2) :=
    fun es => Steady.mapM (fun _ => steady_importerReferences _ _) es
  unfold symbolReferences
  rw [(steady_localReferences _ _).answer_bind_eq_ok (fun _ => (steady_exports d).bind
    fun es => (houtside es).bind fun _ => steady_pure _) hs]
  constructor
  · rintro ⟨inside, hinside, h⟩
    rcases ((steady_exports d).answer_bind_eq_ok (fun es => (houtside es).bind
      fun _ => steady_pure _) hs).1 h with ⟨es, hes, h⟩
    rcases ((houtside es).answer_bind_eq_ok (fun _ => steady_pure _) hs).1 h with
      ⟨outside, houtside', h⟩
    cases h
    exact ⟨inside, es, outside, hinside, hes, houtside', rfl⟩
  · rintro ⟨inside, es, outside, hinside, hes, houtside', rfl⟩
    refine ⟨inside, hinside, ((steady_exports d).answer_bind_eq_ok (fun es => (houtside es).bind
      fun _ => steady_pure _) hs).2 ⟨es, hes, ?_⟩⟩
    exact ((houtside es).answer_bind_eq_ok (fun _ => steady_pure _) hs).2 ⟨outside, houtside', rfl⟩

/-- The references to a method or field are the accesses in the files in which it is looked for. -/
theorem answer_memberReferences_eq_ok (hs : s.Coherent) {d : Declaration} :
    (memberReferences d).answer w s = .ok rs ↔ ∃ paths rss, (memberFiles d).answer w s = .ok paths ∧
      (paths.mapM (visitAt (usesAt fun file => file.memberAccesses d.name))).answer w s = .ok rss ∧
        rs = rss.flatten := by
  have hmembers : ∀ paths : List Text,
      Steady (paths.mapM (visitAt (usesAt fun file => file.memberAccesses d.name))) :=
    fun paths => Steady.mapM (steady_visitAt (steady_usesAt _)) paths
  rw [memberReferences_eq, (steady_memberFiles d).answer_bind_eq_ok (fun paths => (hmembers paths).bind
    fun _ => steady_pure _) hs]
  constructor
  · rintro ⟨paths, hpaths, h⟩
    rcases ((hmembers paths).answer_bind_eq_ok (fun _ => steady_pure _) hs).1 h with ⟨rss, hrss, h⟩
    cases h
    exact ⟨paths, rss, hpaths, hrss, rfl⟩
  · rintro ⟨paths, rss, hpaths, hrss, rfl⟩
    exact ⟨paths, hpaths, ((hmembers paths).answer_bind_eq_ok (fun _ => steady_pure _) hs).2
      ⟨rss, hrss, rfl⟩⟩

/-- References that are found have been resolved, or there are none. -/
theorem answer_references_of_found (hs : s.Coherent) {d : Declaration}
    (h : (found d).answer w s = .ok rs) : (references d).answer w s = .ok rs ∨ rs = [] := by
  unfold found at h
  rw [(steady_references d).answer_tryCatch (fun failure => steady_passOver failure) hs] at h
  split at h
  · rename_i rs' hrs
    cases h
    exact .inl hrs
  · split at h
    · cases h
      exact .inr rfl
    · cases h

theorem answer_found_of_references (hs : s.Coherent) {d : Declaration}
    (h : (references d).answer w s = .ok rs) : (found d).answer w s = .ok rs := by
  unfold found
  rw [(steady_references d).answer_tryCatch (fun failure => steady_passOver failure) hs, h]

/-- The uses of a declaration are what each of the references found stands for. -/
theorem answer_uses_eq_ok (hs : s.Coherent) {d : Declaration} :
    (uses d).answer w s = .ok rs ↔ ∃ refs rss, (found d).answer w s = .ok refs ∧
      (refs.mapM usesOf).answer w s = .ok rss ∧ rs = rss.flatten := by
  have huses : ∀ refs : List Reference, Steady (refs.mapM usesOf) :=
    fun refs => Steady.mapM steady_usesOf refs
  rw [uses_eq, (steady_found d).answer_bind_eq_ok (fun refs => (huses refs).bind
    fun _ => steady_pure _) hs]
  constructor
  · rintro ⟨refs, hrefs, h⟩
    rcases ((huses refs).answer_bind_eq_ok (fun _ => steady_pure _) hs).1 h with ⟨rss, hrss, h⟩
    cases h
    exact ⟨refs, rss, hrefs, hrss, rfl⟩
  · rintro ⟨refs, rss, hrefs, hrss, rfl⟩
    exact ⟨refs, hrefs, ((huses refs).answer_bind_eq_ok (fun _ => steady_pure _) hs).2 ⟨rss, hrss, rfl⟩⟩

/-! ## Where the references of a declaration lie -/

theorem finds_of_owns {r : Reference} (hf : s.Opens w file) (hnear : s.Nearby w start file.path)
    (h : file.Owns r) : s.Finds w start r :=
  ⟨⟨file, hf, h.file.symm, h.within⟩, h.spelled, h.file ▸ hnear⟩

/-- What is found in the file at a path by a search that stays within the tree. -/
theorem finds_of_usesAt (hs : s.Coherent) {search : SourceFile → Except Failure (List Cursor)}
    (hsearch : ∀ file cs, search file = .ok cs → ∀ c ∈ cs, Cursor.Within file.tree c)
    (hnear : ∀ file, Path.resolve path = .ok file → s.Nearby w start file)
    (h : (visitAt (usesAt search) path).answer w s = .ok rs) :
    ∀ r ∈ rs, s.Finds w start r := by
  intro r hr
  rcases mem_of_answer_visitAt (steady_usesAt search) hs h hr with ⟨file, hfile, hkey, hvisit⟩
  rcases ((steady_ofExcept _).answer_bind_eq_ok (fun _ => steady_pure _) hs).1 hvisit with
    ⟨cs, hcs, hrs⟩
  rw [answer_ofExcept] at hcs
  cases hrs
  exact finds_of_owns hfile (hnear _ hkey) (SourceFile.owns_use (hsearch file cs hcs) r hr)

theorem finds_of_localReferences (hs : s.Coherent)
    (hnear : ∀ file, Path.resolve path = .ok file → s.Nearby w start file)
    (h : (localReferences path name).answer w s = .ok rs) :
    ∀ r ∈ rs, s.Finds w start r := by
  rw [localReferences_eq] at h
  exact finds_of_usesAt hs (fun _ _ => SourceFile.within_of_identifierUses) hnear h

theorem finds_of_importerReferences (hs : s.Coherent) {module_ : Text}
    (h : (importerReferences module_ exported).answer w s = .ok rs) :
    ∀ r ∈ rs, s.Finds w start r := by
  intro r hr
  have hact := steady_takenReferences exported
  rcases mem_of_answer_visitMentioning (steady_takenFrom hact) hs h hr with
    ⟨path, hpath, file, found, hfile, hkey, hvisit, hr⟩
  rcases mem_of_answer_takenFrom hs hact hvisit hr with ⟨statement, hstatement, -, -, refs, hrefs, hr⟩
  have hrefs' : statementReferences file exported statement = .ok refs :=
    (answer_ofExcept _ w s).symm.trans hrefs
  have hw : Cursor.Within file.tree statement := Cursor.Within.root.of_mem_namedChildren hstatement
  exact finds_of_owns hfile ⟨path, .inr hpath, hkey⟩ (owns_of_statementReferences hw hrefs' r hr)

/-- A list of lookups finds what its members find. -/
theorem finds_of_mapM {α : Type} (hs : s.Coherent) {q : α → Query (List Reference)}
    (hq : ∀ a, Steady (q a)) {as : List α}
    (hfinds : ∀ a ∈ as, ∀ rs, (q a).answer w s = .ok rs → ∀ r ∈ rs, s.Finds w start r)
    {rss : List (List Reference)} (h : (as.mapM q).answer w s = .ok rss) :
    ∀ r ∈ rss.flatten, s.Finds w start r := by
  intro r hr
  rw [answer_mapM hq hs] at h
  rcases List.mem_flatten.1 hr with ⟨rs, hrs, hr⟩
  rcases Fallible.mem_of_mapM_eq_ok h hrs with ⟨a, ha, hanswer⟩
  exact hfinds a ha rs hanswer r hr

/-- What the importers of some exports refer to. -/
theorem finds_of_importers (hs : s.Coherent) {es : List Export} {rss : List (List Reference)}
    (h : (es.mapM fun e => importerReferences e.1 e.2).answer w s = .ok rss) :
    ∀ r ∈ rss.flatten, s.Finds w start r :=
  finds_of_mapM hs (fun _ => steady_importerReferences _ _)
    (fun _ _ _ hrs => finds_of_importerReferences hs hrs) h

theorem finds_of_symbolReferences (hs : s.Coherent) {d : Declaration}
    (h : (symbolReferences d).answer w s = .ok rs) : ∀ r ∈ rs, s.Finds w d.file r := by
  rcases (answer_symbolReferences_eq_ok hs).1 h with ⟨inside, es, outside, hinside, -, houtside, rfl⟩
  intro r hr
  rcases List.mem_append.1 hr with hr | hr
  · exact finds_of_localReferences hs (fun _ hfile => ⟨d.file, .inl rfl, hfile⟩) hinside r hr
  · exact finds_of_importers hs houtside r hr

/-- The files that import a class are files of the project. -/
theorem nearby_of_binders (hs : s.Coherent) {owner : Declaration} {files : List Text}
    (h : (binders owner).answer w s = .ok files) : ∀ file ∈ files, s.Nearby w start file := by
  have hfound : ∀ es : List Export, Steady (es.mapM fun e => importerReferences e.1 e.2) :=
    fun es => Steady.mapM (fun _ => steady_importerReferences _ _) es
  rcases ((steady_exports owner).answer_bind_eq_ok (fun es => (hfound es).bind
    fun _ => steady_pure _) hs).1 h with ⟨es, -, h⟩
  rcases ((hfound es).answer_bind_eq_ok (fun _ => steady_pure _) hs).1 h with ⟨rss, hrss, h⟩
  cases h
  intro file hfile
  rcases List.mem_map.1 (mem_distinct.1 hfile) with ⟨r, hr, rfl⟩
  exact (finds_of_importers hs hrss r hr).nearby

/-- So are those that import one of some modules. The induction is on the modules, for every list of
files that are known before. -/
theorem nearby_of_extendByImporters (hs : s.Coherent) {modules known files : List Text}
    (h : (extendByImporters modules known).answer w s = .ok files)
    (hknown : ∀ path ∈ known, ∀ file, Path.resolve path = .ok file → s.Nearby w start file) :
    ∀ path ∈ files, ∀ file, Path.resolve path = .ok file → s.Nearby w start file := by
  induction modules generalizing known with
  | nil =>
    cases h
    exact hknown
  | cons module_ modules ih =>
    have hvisit := steady_visitMentioning (steady_importerIfNew known module_) module_
    rw [extendByImporters_eq, List.foldlM_cons] at h
    rcases ((hvisit.bind fun _ => steady_pure _).answer_bind_eq_ok
      (fun known => steady_extendByImporters modules known) hs).1 h with ⟨next, hnext, h⟩
    rcases (hvisit.answer_bind_eq_ok (fun _ => steady_pure _) hs).1 hnext with ⟨found, hfound, hnext⟩
    cases hnext
    refine ih h ?_
    intro path hpath file hfile
    rcases List.mem_append.1 hpath with hpath | hpath
    · exact hknown path hpath file hfile
    · rcases mem_of_answer_visitMentioning (steady_importerIfNew known module_) hs hfound hpath with
        ⟨listed, hlisted, visited, ys, -, hkey, hys, hmem⟩
      rw [eq_of_answer_importerIfNew hs hys hmem] at hfile
      exact Session.Nearby.of_resolve ⟨listed, .inr hlisted, hkey⟩ hfile

/-- The files in which a member is looked for are the one of its declaration and files of the project. -/
theorem nearby_of_memberFiles (hs : s.Coherent) {d : Declaration} {files : List Text}
    (h : (memberFiles d).answer w s = .ok files) :
    ∀ path ∈ files, ∀ file, Path.resolve path = .ok file → s.Nearby w d.file file := by
  have hself : ∀ file, Path.resolve d.file = .ok file → s.Nearby w d.file file :=
    fun file hfile => ⟨d.file, .inl rfl, hfile⟩
  rw [memberFiles_eq] at h
  rcases ((steady_ofExcept _).answer_bind_eq_ok (steady_memberFilesIn d) hs).1 h with ⟨owner, -, h⟩
  cases owner with
  | none =>
    cases h
    intro path hpath
    rcases List.mem_singleton.1 hpath with rfl
    exact hself
  | some owner =>
    rcases ((steady_binders owner).answer_bind_eq_ok (fun _ => steady_read.bind fun _ =>
      steady_extendByImporters _ _) hs).1 h with ⟨known, hknown, h⟩
    refine nearby_of_extendByImporters hs h ?_
    intro path hpath file hfile
    rcases List.mem_cons.1 hpath with rfl | hpath
    · exact hself file hfile
    · exact (nearby_of_binders hs hknown path hpath).of_resolve hfile

theorem finds_of_memberReferences (hs : s.Coherent) {d : Declaration}
    (h : (memberReferences d).answer w s = .ok rs) : ∀ r ∈ rs, s.Finds w d.file r := by
  rcases (answer_memberReferences_eq_ok hs).1 h with ⟨paths, rss, hpaths, hrss, rfl⟩
  have hnear := nearby_of_memberFiles hs hpaths
  exact finds_of_mapM hs (steady_visitAt (steady_usesAt _)) (fun path hpath _ hrs =>
    finds_of_usesAt hs (fun _ _ => SourceFile.within_of_memberAccesses) (hnear path hpath) hrs) hrss

/-- Every reference to a declaration is one to a node of a file in view. -/
theorem finds_of_references (hs : s.Coherent) {d : Declaration}
    (h : (references d).answer w s = .ok rs) : ∀ r ∈ rs, s.Finds w d.file r := by
  have hsearch := (answer_references_eq_ok hs).1 h
  unfold search at hsearch
  split at hsearch
  · exact finds_of_memberReferences hs hsearch
  · exact finds_of_symbolReferences hs hsearch

theorem finds_of_found (hs : s.Coherent) {d : Declaration} (h : (found d).answer w s = .ok rs) :
    ∀ r ∈ rs, s.Finds w d.file r := by
  rcases answer_references_of_found hs h with hrs | rfl
  · exact finds_of_references hs hrs
  · simp

/-- Every use of a declaration is a node of a file in view, in the file of the declaration or in one of
the project. -/
theorem finds_of_uses (hs : s.Coherent) {d : Declaration} (h : (uses d).answer w s = .ok rs) :
    ∀ r ∈ rs, s.Finds w d.file r := by
  rcases (answer_uses_eq_ok hs).1 h with ⟨found, rss, hfound, hrss, rfl⟩
  have hfinds : ∀ r ∈ found, s.Finds w d.file r := finds_of_found hs hfound
  refine finds_of_mapM hs steady_usesOf ?_ hrss
  intro r hr rs huse
  -- A reference that binds a name stands for the uses of that name in its file.
  unfold usesOf at huse
  split at huse
  · exact finds_of_localReferences hs (fun _ hfile => (hfinds r hr).nearby.of_resolve hfile) huse
  · cases huse
    intro r' hr'
    rcases List.mem_singleton.1 hr' with rfl
    exact hfinds _ hr

theorem shows_of_uses (hs : s.Coherent) {d : Declaration} (h : (uses d).answer w s = .ok rs) :
    ∀ r ∈ rs, s.Shows w r.file r.node :=
  fun r hr => (finds_of_uses hs h r hr).shows

end Query

end AffectedTests
