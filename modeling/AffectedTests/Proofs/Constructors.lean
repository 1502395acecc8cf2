import AffectedTests.Proofs.Answers
import AffectedTests.Proofs.Members
import AffectedTests.Proofs.Seeds
import AffectedTests.Proofs.Widening
/-!
# Changes of constructors

The references to a method are the accesses to a property with its name. A constructor is called without
such an access, by a `new` expression with the name of its class, so the tests that make instances of
the class are missed: a change inside a constructor is one of the constructor, and reaches nothing in a
project where no property `constructor` is accessed. It reaches the tests if the constructor is private,
since then it is a change of the class, and together with a change of the class itself.

- `Session.Makes`: a test makes an instance of a class.
- `Query.property_of_use`: the uses of a method or field are accesses to a property with its name.
- `Tracer.trace_construction`: what a trace reports of a change inside a constructor.
-/

namespace AffectedTests

/-- The constructor of a class. -/
structure Declaration.ConstructorOf (ctor owner : Declaration) : Prop where
  kind : ctor.kind = .method
  name : ctor.name = "constructor"
  member : ctor.MemberOf owner

/-- A line is changed inside a declaration: the smallest declaration at the line is this one or stands in
it, and no visible declaration stands between the two. -/
def SourceFile.ChangesInside (f : SourceFile) (line : Int) (d : Declaration) : Prop :=
  ∃ smallest, f.declarationAt? line = .ok smallest ∧ d.StandsAround smallest ∧
    ∀ d', f.Exposes d' → d'.StandsAround smallest → d'.StandsAround (some d)

/-- An identifier is the callee of a `new` expression. -/
structure Cursor.Constructs (c : Cursor) (name : Text) : Prop where
  identifier : c.kind = .identifier
  text : c.text = .ok name
  callee : ∃ e, c.parent? = some e ∧ e.kind = .other "new_expression" ∧
    c.info.field = some (.other "constructor")
  outside : ∀ p ∈ c.enclosing, p.kind ≠ .importStatement ∧ p.kind ≠ .comment

/-- A test makes an instance of a class: its file imports the class from its module, by a name that is
found there, and inside the test stands a `new` expression with the name that the import binds. -/
def Session.Makes (s : Session) (w : Workspace) (owner : Declaration) (t : TestDeclaration) : Prop :=
  ∃ names e g c r name u, owner.exportNames = .ok names ∧ e ∈ names ∧
    s.ImportsFrom w owner.file g c ∧ g.BindsAt c e r ∧ r.binding = some name ∧
      Cursor.Within g.tree u ∧ u.Constructs name ∧ (Reference.use g.path u).EntersTest w.settings t

/-- A reference at which a property with a name is accessed. -/
def Session.PropertyAt (s : Session) (w : Workspace) (name : Text) (r : Reference) : Prop :=
  ∃ g e c, s.Opens w g ∧ Cursor.Within g.tree e ∧ e.kind = .memberExpression ∧
    e.child? .property = some c ∧ c.text = .ok name ∧ r = Reference.use g.path c

/-! ## Lines inside a declaration -/

namespace Cursor

variable {b c p : Cursor}

/-- What stands around a node stands around the nodes in it. -/
theorem mem_enclosing_trans (hc : c ∈ p :: p.enclosing) (hb : b ∈ c :: c.enclosing) :
    b ∈ p :: p.enclosing := by
  rcases List.append_of_mem hc with ⟨before, after, hsplit⟩
  cases eq_enclosing_of_append hsplit
  rw [hsplit]
  exact List.mem_append_right _ hb

/-- Of two different nodes at most one stands around the other. -/
theorem eq_of_mem_enclosing (hc : c ∈ p :: p.enclosing) (hp : p ∈ c :: c.enclosing) : c = p := by
  rcases List.append_of_mem hc with ⟨before, after, hsplit⟩
  rcases List.append_of_mem hp with ⟨before', after', hsplit'⟩
  cases eq_enclosing_of_append hsplit
  cases eq_enclosing_of_append hsplit'
  -- Each list is as long as the other one and what stands before it there.
  have hlength : (p :: p.enclosing).length = before.length + (c :: c.enclosing).length := by
    rw [hsplit, List.length_append]
  have hlength' : (c :: c.enclosing).length = before'.length + (p :: p.enclosing).length := by
    rw [hsplit', List.length_append]
  have hnil : before = [] := List.length_eq_zero_iff.1 (by omega)
  rw [hnil] at hsplit
  exact (List.cons.inj hsplit).1.symm

end Cursor

theorem Declaration.StandsAround.trans {d d' : Declaration} {smallest : Option Declaration}
    (h : d'.StandsAround (some d)) (hd : d.StandsAround smallest) : d'.StandsAround smallest := by
  rcases h with ⟨_, ⟨⟩, h⟩
  rcases hd with ⟨m, rfl, hd⟩
  exact ⟨m, rfl, Cursor.mem_enclosing_trans hd h⟩

namespace SourceFile

variable {f : SourceFile} {line : Int} {ctor owner x : Declaration} {found : Option Declaration}

/-- What a change inside a declaration belongs to stands around it. -/
theorem standsAround_of_changesInside (h : f.ChangesInside line ctor)
    (hfound : f.changedAt? line = .ok (some x)) : x.StandsAround (some ctor) := by
  rcases h with ⟨smallest, hsmallest, -, hinside⟩
  rcases nearest_of_changedAt? hsmallest hfound with ⟨hx, hstands, -⟩
  exact hinside x hx hstands

/-- A change inside a declaration that is not hidden belongs to that declaration, or to none. -/
theorem eq_of_changesInside (hd : f.Declares ctor) (h : f.ChangesInside line ctor)
    (hfound : f.changedAt? line = .ok (some x)) (hopen : ctor.isVisible ≠ .ok false) : x = ctor := by
  rcases standsAround_of_changesInside h hfound with ⟨_, ⟨⟩, houter⟩
  rcases h with ⟨smallest, hsmallest, hstands, -⟩
  rcases nearest_of_changedAt? hsmallest hfound with ⟨hx, -, hnearest⟩
  rcases (hnearest ctor hd hstands).resolve_left hopen with ⟨_, ⟨⟩, hinner⟩
  exact hx.toDeclares.ext hd (Cursor.eq_of_mem_enclosing houter hinner)

/-- A change inside a private member of a visible class belongs to the class. -/
theorem changedAt?_of_private (hd : f.Declares ctor) (hkind : ctor.kind.isMember = true)
    (hprivate : ctor.Private) (hmember : ctor.MemberOf owner) (howner : f.Exposes owner)
    (h : f.ChangesInside line ctor) (hfound : f.changedAt? line = .ok found) : found = some owner := by
  have hhidden : ¬ f.Exposes ctor := by
    intro hexposed
    rcases Declaration.isVisible_cases hkind hexposed.visible with ⟨-, hfalse⟩ | ⟨hopen, -⟩ | ⟨hopen, -⟩
    · cases hfalse
    · exact hopen hprivate
    · exact hopen hprivate
  rcases hmember with ⟨body, hbody, hbodykind, hparent, -, -⟩
  have haround : owner.StandsAround (some ctor) := by
    refine ⟨ctor, rfl, List.mem_cons_of_mem _ ?_⟩
    rw [Cursor.enclosing_of_parent? hbody, Cursor.enclosing_of_parent? hparent]
    simp
  cases found with
  | none =>
    rcases h with ⟨smallest, hsmallest, hstands, -⟩
    exact absurd (haround.trans hstands) ((changedAt?_eq_none_iff hsmallest hfound).1 rfl owner howner)
  | some x =>
    rcases standsAround_of_changesInside h hfound with ⟨_, ⟨⟩, houter⟩
    rcases h with ⟨smallest, hsmallest, hstands, -⟩
    rcases nearest_of_changedAt? hsmallest hfound with ⟨hx, -, hnearest⟩
    -- The class is visible, so the search did not pass over it.
    have hvisible : owner.isVisible ≠ .ok false := fun hfalse => by
      cases howner.visible.symm.trans hfalse
    rcases (hnearest owner howner.toDeclares (haround.trans hstands)).resolve_left hvisible with
      ⟨_, ⟨⟩, hinner⟩
    -- Around the member stand the body of the class, which declares nothing, and then the class.
    rw [Cursor.enclosing_of_parent? hbody, Cursor.enclosing_of_parent? hparent] at houter
    rcases List.mem_cons.1 houter with hnode | houter
    · exact absurd (hx.toDeclares.ext hd hnode ▸ hx) hhidden
    rcases List.mem_cons.1 houter with hnode | houter
    · have hmade := Declaration.kind_of_declaration? hx.made
      rw [hnode, hbodykind] at hmade
      cases hmade
    · have hnode := Cursor.eq_of_mem_enclosing houter hinner
      exact congrArg some (hx.toDeclares.ext howner.toDeclares hnode)

end SourceFile

/-! ## Uses of a member -/

namespace Query

variable {w : Workspace} {s : Session} {d owner : Declaration} {t : TestDeclaration}
  {rs us : List Reference} {r : Reference}

theorem property_of_mem_memberReferences (hs : s.Coherent) (hparsed : ∀ f, s.Opens w f → f.WellParsed)
    (h : (memberReferences d).answer w s = .ok rs) (hr : r ∈ rs) : s.PropertyAt w d.name r := by
  rcases (answer_memberReferences_eq_ok hs).1 h with ⟨paths, rss, -, hrss, rfl⟩
  rw [answer_mapM (steady_visitAt (steady_usesAt _)) hs] at hrss
  rcases (Fallible.mem_flatten_of_mapM hrss).1 hr with ⟨path, -, ys, hys, hr⟩
  rcases mem_of_answer_visitAt (steady_usesAt _) hs hys hr with ⟨g, hg, -, hys⟩
  rcases ((steady_ofExcept _).answer_bind_eq_ok (fun _ => steady_pure _) hs).1 hys with ⟨cs, hcs, hys⟩
  rw [answer_ofExcept] at hcs
  cases hys
  rcases List.mem_map.1 hr with ⟨c, hc, rfl⟩
  rcases (SourceFile.mem_memberAccesses_iff (hparsed g hg).faithful hcs).1 hc with
    ⟨e, he, hkind, hproperty, htext⟩
  exact ⟨g, e, c, hg, he, hkind, hproperty, htext, rfl⟩

/-- The uses of a method or field are accesses to a property with its name. -/
theorem property_of_use (hs : s.Coherent) (hparsed : ∀ f, s.Opens w f → f.WellParsed)
    (hkind : d.kind.isMember = true) (h : Use w s d r) : s.PropertyAt w d.name r := by
  rcases h with ⟨us, hus, hr⟩
  rcases (answer_uses_eq_ok hs).1 hus with ⟨refs, rss, hrefs, hrss, rfl⟩
  rw [answer_mapM steady_usesOf hs] at hrss
  rcases (Fallible.mem_flatten_of_mapM hrss).1 hr with ⟨r', hr', ys, hys, hr⟩
  have hproperty : s.PropertyAt w d.name r' := by
    rcases answer_references_of_found hs hrefs with hresolved | rfl
    · have hsearch := (answer_references_eq_ok hs).1 hresolved
      unfold search at hsearch
      rw [if_pos hkind] at hsearch
      exact property_of_mem_memberReferences hs hparsed hsearch hr'
    · cases hr'
  -- An access binds no name, so it stands for itself.
  rcases hproperty with ⟨g, e, c, hg, he, hkind, hchild, htext, rfl⟩
  cases hys
  rcases List.mem_singleton.1 hr with rfl
  exact ⟨g, e, c, hg, he, hkind, hchild, htext, rfl⟩

end Query

/-! ## Uses of a class -/

theorem Cursor.Constructs.uses {c : Cursor} {name : Text} (h : c.Constructs name) : c.Uses name where
  identifier := by rw [h.identifier]; rfl
  text := h.text
  notBinding := by
    rcases h.callee with ⟨e, he, hkind, -⟩
    unfold isBinding
    rw [he]
    dsimp only
    rw [hkind]
    rfl
  outside := h.outside

/-- A test that makes an instance of a class is one that the class is used in. -/
theorem Session.Makes.touches {w : Workspace} {s : Session} {owner : Declaration} {t : TestDeclaration}
    (hs : s.Coherent) (hparsed : ∀ f, s.Opens w f → f.WellParsed) (hkind : owner.kind.isMember = false)
    {rs us : List Reference} (hrefs : (Query.references owner).answer w s = .ok rs)
    (hus : (Query.uses owner).answer w s = .ok us) (h : s.Makes w owner t) : Touches w s owner t := by
  rcases h with ⟨names, e, g, c, r, name, u, hnames, he, himports, hbinds, hname, hu, hmakes, henters⟩
  have hr : r ∈ rs := Query.mem_references_of_exportNames hs hparsed hkind hrefs hnames he
    (.inl ⟨g, c, himports, hbinds⟩)
  have hfile : r.file = g.path := by
    rcases hbinds with ⟨at_, node, name', -, -, rfl⟩
    rfl
  -- The import stands for the uses of the name that it binds.
  rcases (Query.answer_uses_eq_ok hs).1 hus with ⟨refs, rss, hfound, hrss, rfl⟩
  cases (Query.answer_found_of_references hs hrefs).symm.trans hfound
  rw [Query.answer_mapM Query.steady_usesOf hs] at hrss
  rcases Fallible.exists_of_mapM_eq_ok hrss hr with ⟨ys, hmem, hys⟩
  have hlocal : (Query.localReferences g.path name).answer w s = .ok ys := by
    unfold Query.usesOf at hys
    rw [hname, hfile] at hys
    exact hys
  have huse : Reference.use g.path u ∈ ys :=
    (Query.mem_localReferences_of_opens_iff hs hparsed (Query.opens_of_yields hs himports.1) hlocal).2
      ⟨u, hu, hmakes.uses, rfl⟩
  exact ⟨_, ⟨_, hus, List.mem_flatten.2 ⟨ys, hmem, huse⟩⟩, henters⟩

/-! ## What a trace reports -/

namespace Declaration

variable {ctor owner : Declaration} {names : List Text} {n : Text}

/-- A class for which a name is found is visible. -/
theorem isVisible_of_mem_exportNames (hkind : owner.kind.isMember = false)
    (hnames : owner.exportNames = .ok names) (hn : n ∈ names) :
    owner.isExported = .ok true ∧ owner.isVisible = .ok true := by
  have hexported : owner.isExported = .ok true :=
    isExported_eq_ok_iff.2 ⟨names, hnames, by cases names with | nil => cases hn | cons _ _ => rfl⟩
  unfold isVisible
  rw [hkind]
  exact ⟨hexported, hexported⟩

/-- A member that is not private of a class that is exported is not hidden. -/
theorem not_hidden_of_memberOf (hkind : ctor.kind.isMember = true) (hmember : ctor.MemberOf owner)
    (hexported : owner.isExported = .ok true) (hopen : ¬ ctor.Private) : ctor.isVisible ≠ .ok false := by
  intro hhidden
  rcases isVisible_cases hkind hhidden with ⟨hprivate, -⟩ | ⟨-, hnone, -⟩ | ⟨-, owner', hnearest, hfalse⟩
  · exact hopen hprivate
  · exact hnone owner hmember.nearestClass
  · cases hnearest.unique hmember.nearestClass
    cases hexported.symm.trans hfalse

end Declaration

namespace Tracing

variable {w : Workspace} {s : Session} {diff : FileDiff} {path : Text} {f : SourceFile}
  {ctor owner d : Declaration} {t : TestDeclaration}

/-- The declaration that a line of a file in view belongs to. -/
theorem answer_changedAt?_of_opens (hs : s.Coherent) (hf : s.Opens w f)
    (hpath : Path.resolve path = .ok f.path) (line : Int) :
    (Query.changedAt? path line).answer w s = f.changedAt? line := by
  refine (Query.answer_load_bind hs ?_ hf hpath).trans (Query.answer_ofExcept _ w s)
  intro found
  cases found with
  | none => exact Query.steady_pure none
  | some f => exact Query.steady_ofExcept _

/-- A change of a constructor: the diff is one of the file of a class, and adds a line inside the
constructor of the class. -/
structure ChangesConstructor (w : Workspace) (s : Session) (diff : FileDiff) (path : Text)
    (f : SourceFile) (ctor owner : Declaration) : Prop where
  class_ : ctor.ConstructorOf owner
  opens : s.Opens w f
  path : Path.resolve path = .ok f.path
  declared : f.Declares ctor
  owner : f.Declares owner
  line : ∃ line ∈ diff.addedLines, f.ChangesInside line.number ctor

variable {seeds : List Declaration}

/-- A change inside a private constructor is one of the class. -/
theorem ChangesConstructor.added_of_private (hs : s.Coherent)
    (h : ChangesConstructor w s diff path f ctor owner)
    (hseeds : (changed diff path).answer w s = .ok seeds) (hvisible : owner.isVisible = .ok true)
    (hprivate : ctor.Private) : Added w s diff path owner := by
  rcases h.line with ⟨line, hline, hinside⟩
  rcases (exists_changed_iff hs).1 ⟨seeds, hseeds⟩ line hline with ⟨found, hfound⟩
  refine ⟨line, hline, ?_⟩
  rw [answer_changedAt?_of_opens hs h.opens h.path] at hfound ⊢
  have hkind : ctor.kind.isMember = true := by rw [h.class_.kind]; rfl
  rw [hfound, SourceFile.changedAt?_of_private h.declared hkind hprivate h.class_.member
    ⟨h.owner, hvisible⟩ hinside hfound]

/-- Changes inside a constructor that is not hidden are changes of the constructor. -/
theorem ChangesConstructor.eq_of_mem_seeds (hs : s.Coherent)
    (h : ChangesConstructor w s diff path f ctor owner)
    (hseeds : (changed diff path).answer w s = .ok seeds) (hopen : ctor.isVisible ≠ .ok false)
    (hlines : ∀ line ∈ diff.addedLines, f.ChangesInside line.number ctor) : ∀ d ∈ seeds, d = ctor := by
  intro d hd
  rcases added_of_mem_changed hs hseeds hd with ⟨line, hline, hfound⟩
  rw [answer_changedAt?_of_opens hs h.opens h.path] at hfound
  exact SourceFile.eq_of_changesInside h.declared (hlines line hline) hfound hopen

/-- From a declaration without uses nothing is within reach. -/
theorem not_withinReach_of_not_use {ctor : Declaration} (hseeds : ∀ d ∈ seeds, d = ctor)
    (hnone : ∀ r, ¬ Use w s ctor r) (limit : Nat) (file name : Text) :
    ¬ WithinReach w s seeds limit file name := by
  have hreach : ∀ k d, Reach w s seeds k d → d = ctor := by
    intro k d h
    induction h with
    | seed hd => exact hseeds _ hd
    | hop _ hhop ih =>
      rcases hhop with ⟨r, hr, -⟩
      exact absurd (ih ▸ hr) (hnone r)
  rintro ⟨k, d, t, -, hd, ⟨r, hr, -⟩, -⟩
  exact hnone r (hreach k d hd ▸ hr)

end Tracing

/-- What a trace reports of a change inside a constructor. A test that makes an instance of the class is
reported if the constructor is private or another added line belongs to the class itself. If all added
lines are inside a constructor that is not private, and no property with the name of a constructor is
accessed in the project, nothing is reported. -/
theorem Tracer.trace_construction {w : Workspace} {s : Session} {diff : FileDiff} {path : Text}
    {f : SourceFile} {ctor owner : Declaration} {t : TestDeclaration} {seeds : List Declaration}
    (hs : s.Coherent) (happart : ∀ path f, s.fileOf w path = .ok f → f.StartsApart)
    (hparsed : ∀ f, s.Opens w f → f.WellParsed)
    (hchange : Tracing.ChangesConstructor w s diff path f ctor owner) (htest : s.Makes w owner t)
    (hseeds : (Tracing.changed diff path).answer w s = .ok seeds)
    (hok : ∀ k x, k ≤ w.settings.maxDepth.toNat → Reach w s seeds k x → Resolves w s x)
    (hrefs : ∃ rs, (Query.references owner).answer w s = .ok rs) (tracer : Tracer) :
    ∃ impacts, (tracer.trace diff path w s).1 = .ok impacts ∧
      (ctor.Private ∨ Tracing.Added w s diff path owner →
        (t.file, t.name) ∈ impacts.map Impact.key) ∧
      (¬ ctor.Private → (∀ line ∈ diff.addedLines, f.ChangesInside line.number ctor) →
        (∀ r, ¬ s.PropertyAt w "constructor" r) → impacts = []) := by
  rcases exists_trace_eq_ok hs hs (.refl w s) hseeds hok tracer with ⟨impacts, himpacts⟩
  rcases of_trace_eq_ok hs happart hs (.refl w s) himpacts with ⟨seeds', hseeds', -, -, hreports⟩
  cases hseeds.symm.trans hseeds'
  have hkind : owner.kind.isMember = false := by
    rcases hchange.class_.member with ⟨body, -, -, -, hclass, -⟩
    rw [hclass]
    rfl
  have hmember : ctor.kind.isMember = true := by rw [hchange.class_.kind]; rfl
  have hexported : owner.isExported = .ok true ∧ owner.isVisible = .ok true := by
    rcases htest with ⟨names, e, -, -, -, -, -, hnames, he, -⟩
    exact Declaration.isVisible_of_mem_exportNames hkind hnames he
  refine ⟨impacts, himpacts, ?_, ?_⟩
  · -- The class is a seed, and the test stands at one of its uses: no hop is needed.
    intro h
    have hadded : Tracing.Added w s diff path owner :=
      h.elim (hchange.added_of_private hs hseeds hexported.2) id
    have hseed : owner ∈ seeds := (Tracing.mem_changed_iff hs happart hseeds).2 hadded
    rcases hok 0 owner (Nat.zero_le _) (.seed hseed) with ⟨us, hus, -⟩
    rcases hrefs with ⟨rs, hrs⟩
    exact (hreports _ _).2 ⟨0, owner, t, Nat.zero_le _, .seed hseed,
      htest.touches hs hparsed hkind hrs hus, rfl, rfl⟩
  · -- Only the constructor is a seed, and it has no uses to go on from.
    intro hprivate hlines hnone
    have hopen := Declaration.not_hidden_of_memberOf hmember hchange.class_.member hexported.1 hprivate
    have hunused : ∀ r, ¬ Use w s ctor r := by
      intro r hr
      exact hnone r (hchange.class_.name ▸ Query.property_of_use hs hparsed hmember hr)
    have hseeds' := hchange.eq_of_mem_seeds hs hseeds hopen hlines
    cases impacts with
    | nil => rfl
    | cons i is =>
      have hmem : (i.key.1, i.key.2) ∈ (i :: is).map Impact.key := List.mem_cons_self
      exact absurd ((hreports _ _).1 hmem) (Tracing.not_withinReach_of_not_use hseeds' hunused _ _ _)

/-! ## A class and a test that makes an instance -/

namespace Instances

open Sample (leaf branch block expression)

def sourceA : Bytes :=
  (Utf8.encode "export class C \x7b\n  constructor() \x7b\x7d\n\x7d\n").getD []

def sourceT : Bytes :=
  (Utf8.encode "import { C } from './a';\ntest(\"x\", () => new C());\n").getD []

def method : Tree :=
  branch .methodDefinition (some (.other "member")) 19 35 1 [
    leaf .propertyIdentifier (some .name) 19 30 1 [99, 111, 110, 115, 116, 114, 117, 99, 116, 111, 114]]

def members : Tree :=
  block (.other "class_body") (some (.other "body")) 15 37 0 2 [method]

def classTree : Tree :=
  block .classDeclaration (some (.other "declaration")) 7 37 0 2 [
    leaf .identifier (some .name) 13 14 0 [67], members]

def exported : Tree :=
  block .exportStatement none 0 37 0 2 [classTree]

/-- The tree of a module that exports a class `C` with a constructor. -/
def treeA : Tree :=
  block .program none 0 38 0 3 [exported]

def specifier : Tree :=
  branch .importSpecifier none 9 10 0 [leaf .identifier (some .name) 9 10 0 [67]]

def namedImports : Tree :=
  branch .namedImports none 7 12 0 [specifier]

def clause : Tree :=
  branch .importClause none 7 12 0 [namedImports]

def importing : Tree :=
  branch .importStatement none 0 24 0 [clause, Imported.literal 18 0]

def callee : Tree :=
  leaf .identifier (some (.other "constructor")) 45 46 1 [67]

def creation : Tree :=
  branch (.other "new_expression") (some (.other "body")) 41 48 1 [callee]

def callback : Tree :=
  branch .arrowFunction none 35 48 1 [creation]

def arguments : Tree :=
  branch .arguments (some .arguments) 29 49 1 [leaf .string none 30 33 1 [34, 120, 34], callback]

def call : Tree :=
  branch .callExpression none 25 49 1 [
    leaf .identifier (some .function) 25 29 1 [116, 101, 115, 116], arguments]

def calling : Tree :=
  expression 25 50 1 [call]

/-- The tree of a test `x` that imports the class and makes an instance. -/
def treeT : Tree :=
  block .program none 0 51 0 2 [importing, calling]

/-- A project with the module and the test. -/
def workspace : Workspace where
  root := "/p"
  settings := {}
  grammars _ source :=
    if source = sourceA then treeA else if source = sourceT then treeT else Imported.blank
  disk := [.directory [112] [.file [97, 46, 106, 115] sourceA,
    .file [116, 46, 116, 101, 115, 116, 46, 106, 115] sourceT]]

/-- A session in which the project was listed. -/
def session : Session :=
  { listing := some ["/p/a.js", "/p/t.test.js"] }

def fileA : SourceFile :=
  ⟨"/p/a.js", .javascript, sourceA, treeA⟩

def fileT : SourceFile :=
  ⟨"/p/t.test.js", .javascript, sourceT, treeT⟩

def owner : Declaration :=
  ⟨"C", .classLike, "/p/a.js", ⟨classTree, [exported, treeA]⟩⟩

def ctor : Declaration :=
  ⟨"constructor", .method, "/p/a.js", ⟨method, [members, classTree, exported, treeA]⟩⟩

/-- The test. -/
def test : TestDeclaration :=
  ⟨"x", 2, 2, "/p/t.test.js"⟩

/-- A change that adds the whole class. -/
def whole : FileDiff :=
  ⟨"a.js", .modified, [⟨1, "export class C \x7b", false⟩, ⟨2, "  constructor() \x7b\x7d", false⟩,
    ⟨3, "\x7d", false⟩], [⟨0, 0, 1, 3⟩]⟩

/-- A change of the constructor only. -/
def inner : FileDiff :=
  ⟨"a.js", .modified, [⟨2, "  constructor() \x7b\x7d", false⟩], [⟨2, 1, 2, 1⟩]⟩

theorem coherent : session.Coherent := by
  intro path f h
  simp [session, Table.get?] at h

/-- A file in view is one of the two, or it is empty. -/
theorem tree_of_fileOf {path : Text} {f : SourceFile} (h : session.fileOf workspace path = .ok f) :
    (f.source = sourceA ∧ f.tree = treeA) ∨ (f.source = sourceT ∧ f.tree = treeT) ∨
      f.tree = Imported.blank :=
  Session.tree_of_fileOf_of_pair rfl rfl h

theorem startsApart {path : Text} {f : SourceFile} (h : session.fileOf workspace path = .ok f) :
    f.StartsApart := by
  refine SourceFile.startsApart_of_nodup ?_
  unfold SourceFile.top
  rcases tree_of_fileOf h with ⟨-, htree⟩ | ⟨-, htree⟩ | htree <;> rw [htree] <;> decide

theorem wellParsed {f : SourceFile} (h : session.Opens workspace f) : f.WellParsed := by
  refine SourceFile.wellParsed_of_all ?_
  unfold SourceFile.top
  rcases tree_of_fileOf h.2 with ⟨hsource, htree⟩ | ⟨hsource, htree⟩ | htree
  · rw [hsource, htree]
    rfl
  · rw [hsource, htree]
    rfl
  · rw [htree]
    cases f.source <;> rfl

theorem opensA : session.Opens workspace fileA :=
  ⟨⟨"/p/a.js", rfl⟩, rfl⟩

theorem declares_ctor : fileA.Declares ctor :=
  ⟨(((Cursor.Within.root.child List.mem_cons_self).child List.mem_cons_self).child
    (List.mem_cons_of_mem _ List.mem_cons_self)).child List.mem_cons_self, rfl⟩

theorem declares_owner : fileA.Declares owner :=
  ⟨(Cursor.Within.root.child List.mem_cons_self).child List.mem_cons_self, rfl⟩

theorem constructorOf : ctor.ConstructorOf owner :=
  ⟨rfl, rfl, _, rfl, rfl, rfl, rfl, rfl⟩

/-- The second line is changed inside the constructor. -/
theorem changesInside : fileA.ChangesInside 2 ctor :=
  ⟨some ctor, rfl, ⟨ctor, rfl, List.mem_cons_self⟩, fun _ _ hstands => hstands⟩

/-- The test file imports the class. -/
theorem importsFrom : session.ImportsFrom workspace owner.file fileT
    ⟨namedImports, [clause, importing, treeT]⟩ := by
  have hyields : Query.Yields workspace session owner.file fileT :=
    ⟨[fileT], by rfl, List.mem_singleton_self _⟩
  have htakes : fileT.TakesBy workspace session owner.file .importStatement ⟨importing, [treeT]⟩ :=
    ⟨List.mem_cons_self, rfl, by rfl⟩
  exact ⟨hyields, _, htakes, _, rfl, List.mem_cons_self⟩

/-- The test makes an instance of the class. -/
theorem makes : session.Makes workspace owner test := by
  have hbinds : (⟨namedImports, [clause, importing, treeT]⟩ : Cursor).Binds "C"
      ⟨specifier, [namedImports, clause, importing, treeT]⟩
      ⟨leaf .identifier (some .name) 9 10 0 [67], [specifier, namedImports, clause, importing, treeT]⟩ :=
    .named rfl List.mem_cons_self rfl rfl rfl
  have hwithin : Cursor.Within fileT.tree
      ⟨callee, [creation, callback, arguments, call, calling, treeT]⟩ := by
    refine Tree.mem_preorder_iff.1 ?_
    simp [fileT, treeT, calling, call, arguments, callback, creation, callee, importing, Cursor.preorder,
      Cursor.ofRoot, Tree.preorder, Tree.preorderAll, block, branch, expression, leaf]
  have hconstructs : Cursor.Constructs
      ⟨callee, [creation, callback, arguments, call, calling, treeT]⟩ "C" :=
    ⟨rfl, rfl, ⟨_, rfl, rfl, rfl⟩, by decide⟩
  exact ⟨["C"], "C", fileT, _, _, "C", _, rfl, List.mem_singleton_self _, importsFrom,
    ⟨_, _, "C", hbinds, rfl, rfl⟩, rfl, hwithin, hconstructs, by decide, by rfl⟩

/-- The look-ups for the class and its constructor answer, and no use of either leads into another
declaration. -/
theorem lookups_answer : ∀ d ∈ [owner, ctor], Resolves workspace session d ∧
    ((Query.references d).answer workspace session).toOption.isSome = true ∧
    ((((Query.uses d).answer workspace session).toOption.getD []).all fun r =>
      (r.descends workspace.settings [] 0 true).isEmpty) = true := by
  decide +kernel

/-- No hop leads from the class or its constructor to another declaration. -/
theorem mem_of_reach {seeds : List Declaration} (hseeds : ∀ d ∈ seeds, d ∈ [owner, ctor]) {k : Nat}
    {d : Declaration} (h : Reach workspace session seeds k d) : d ∈ [owner, ctor] := by
  induction h with
  | seed hd => exact hseeds _ hd
  | hop _ hhop ih =>
    rcases hhop with ⟨r, ⟨rs, hrs, hr⟩, hinto⟩
    have hall := (lookups_answer _ ih).2.2
    rw [hrs] at hall
    have hnone := List.all_eq_true.1 hall r hr
    simp [Reference.descends, Reference.arrival_eq_declaration.2 hinto, Table.get?] at hnone

theorem resolves {seeds : List Declaration} (hseeds : ∀ d ∈ seeds, d ∈ [owner, ctor]) (k : Nat)
    (d : Declaration) (_ : k ≤ workspace.settings.maxDepth.toNat)
    (h : Reach workspace session seeds k d) : Resolves workspace session d :=
  (lookups_answer d (mem_of_reach hseeds h)).1

theorem references_owner : ∃ rs, (Query.references owner).answer workspace session = .ok rs := by
  rcases Option.isSome_iff_exists.1 (lookups_answer owner List.mem_cons_self).2.1 with ⟨rs, hrs⟩
  exact ⟨rs, Fallible.toOption_eq_some.1 hrs⟩

theorem changesConstructor_whole :
    Tracing.ChangesConstructor workspace session whole "/p/a.js" fileA ctor owner :=
  ⟨constructorOf, opensA, rfl, declares_ctor, declares_owner, _,
    List.mem_cons_of_mem _ List.mem_cons_self, changesInside⟩

theorem changesConstructor_inner :
    Tracing.ChangesConstructor workspace session inner "/p/a.js" fileA ctor owner :=
  ⟨constructorOf, opensA, rfl, declares_ctor, declares_owner, _, List.mem_cons_self, changesInside⟩

theorem not_private_ctor : ¬ ctor.Private := by
  rintro ⟨c, hc, hhides⟩
  rcases List.mem_singleton.1 hc with rfl
  rcases hhides with ⟨hkind, -⟩ | hkind <;> cases hkind

/-- No property is accessed in the project. -/
theorem not_propertyAt (name : Text) (r : Reference) : ¬ session.PropertyAt workspace name r := by
  rintro ⟨g, e, c, hg, he, hkind, -⟩
  have hnone : ∀ t ∈ [treeA, treeT, Imported.blank], ∀ e ∈ (Cursor.ofRoot t).preorder,
      e.kind ≠ .memberExpression := by decide
  have htree : g.tree ∈ [treeA, treeT, Imported.blank] := by
    rcases tree_of_fileOf hg.2 with ⟨-, htree⟩ | ⟨-, htree⟩ | htree <;> rw [htree] <;> simp
  exact hnone _ htree e (Tree.mem_preorder_iff.2 he) hkind

/-- If the whole class is added, the test is reported; if only the constructor changes, nothing is. -/
theorem trace_construction_whole_and_inner :
    (∃ impacts, (({} : Tracer).trace whole "/p/a.js" workspace session).1 = .ok impacts ∧
      (test.file, test.name) ∈ impacts.map Impact.key) ∧
    (({} : Tracer).trace inner "/p/a.js" workspace session).1 = .ok [] := by
  have hwhole : (Tracing.changed whole "/p/a.js").answer workspace session = .ok [owner, ctor] := by rfl
  have hinner : (Tracing.changed inner "/p/a.js").answer workspace session = .ok [ctor] := by rfl
  have hadded : Tracing.Added workspace session whole "/p/a.js" owner :=
    ⟨_, List.mem_cons_self, by rfl⟩
  have hlines : ∀ line ∈ inner.addedLines, fileA.ChangesInside line.number ctor := by
    intro line hline
    rcases List.mem_singleton.1 hline with rfl
    exact changesInside
  rcases Tracer.trace_construction coherent (fun _ _ => startsApart) (fun _ => wellParsed)
    changesConstructor_whole makes hwhole (resolves fun _ hd => hd) references_owner {} with
    ⟨impacts, himpacts, hreported, -⟩
  rcases Tracer.trace_construction coherent (fun _ _ => startsApart) (fun _ => wellParsed)
    changesConstructor_inner makes hinner (resolves fun _ hd => List.mem_cons_of_mem _ hd)
    references_owner {} with ⟨none, hnone, -, hmissed⟩
  refine ⟨⟨impacts, himpacts, hreported (.inr hadded)⟩, ?_⟩
  rw [hnone, hmissed not_private_ctor hlines (not_propertyAt _)]

/-- If only the constructor changes, nothing is reported, although the test makes an instance. -/
theorem not_trace_construction_inner :
    (({} : Tracer).trace inner "/p/a.js" workspace session).1.toOption = some [] ∧
    ¬ ∀ (w : Workspace) (s : Session) (diff : FileDiff) (path : Text) (f : SourceFile)
      (ctor owner : Declaration) (t : TestDeclaration) (seeds : List Declaration), s.Coherent →
      (∀ path f, s.fileOf w path = .ok f → f.StartsApart) → (∀ f, s.Opens w f → f.WellParsed) →
      Tracing.ChangesConstructor w s diff path f ctor owner → owner.ExportedAtTop → s.Makes w owner t →
      (Tracing.changed diff path).answer w s = .ok seeds →
      (∀ k x, k ≤ w.settings.maxDepth.toNat → Reach w s seeds k x → Resolves w s x) →
      (∃ rs, (Query.references owner).answer w s = .ok rs) → ∀ tracer : Tracer, ∃ impacts,
        (tracer.trace diff path w s).1 = .ok impacts ∧ (t.file, t.name) ∈ impacts.map Impact.key := by
  have hnone : (({} : Tracer).trace inner "/p/a.js" workspace session).1.toOption = some [] := by
    decide +kernel
  refine ⟨hnone, fun hall => ?_⟩
  have hseeds : (Tracing.changed inner "/p/a.js").answer workspace session = .ok [ctor] := by rfl
  have hexported : owner.ExportedAtTop := ⟨_, _, rfl, .inline rfl⟩
  rcases hall workspace session inner "/p/a.js" fileA ctor owner test [ctor] coherent
    (fun _ _ => startsApart) (fun _ => wellParsed) changesConstructor_inner hexported makes hseeds
    (resolves fun _ hd => List.mem_cons_of_mem _ hd) references_owner {} with ⟨impacts, himpacts, hmem⟩
  cases hnone.symm.trans (Fallible.toOption_eq_some.2 himpacts)
  cases hmem

end Instances

end AffectedTests
