import AffectedTests.Proofs.Declarations
import AffectedTests.Proofs.Trace
import AffectedTests.Proofs.Uses
import AffectedTests.Proofs.Visits
/-!
# References to a declaration

The references to a function, class or variable are its uses in its own file and, for each of its
exports, what the importing files make of it: the names that their imports bind it to, and the accesses
to it as a member of an imported namespace. The relations below tell these three kinds of references by
the nodes of the import clauses, and the search finds exactly the references that are so related.

- `Cursor.Binds`, `Cursor.BindsNamespace`: what an import statement binds, and where.
- `Query.mem_importerReferences_iff`: the references to one export.
- `Query.mem_references_iff`: the references to a declaration.
-/

namespace AffectedTests

namespace Cursor

/-- A child of the import clause of a statement. There is at most one clause; of several the first one
counts. -/
def Imports (statement c : Cursor) : Prop :=
  ∃ clause, (statement.namedChildren.find? fun c => c.kind = .importClause) = some clause ∧
    c ∈ clause.namedChildren

/-- A child of an import clause binds an export at one node to the name at another: the default at an
identifier, or a name at a specifier, to its alias or else to the name itself. -/
inductive Binds (c : Cursor) : (exported : Text) → (at_ node : Cursor) → Prop
  | default (hkind : c.kind = .identifier) : Binds c Tree.defaultName c c
  | named {spec original : Cursor} {exported : Text} (hkind : c.kind = .namedImports)
      (hspec : spec ∈ c.namedChildren) (hspecifier : spec.kind = .importSpecifier)
      (hname : spec.child? .name = some original) (htext : original.text = .ok exported) :
      Binds c exported spec ((spec.child? .alias).getD original)

/-- A child of an import clause binds the module as a namespace to the name at a node. -/
def BindsNamespace (c node : Cursor) : Prop :=
  c.kind = .namespaceImport ∧ (c.namedChildren.find? fun n => n.kind = .identifier) = some node

end Cursor

namespace SourceFile

/-- A reference in a file at which a child of an import clause binds an export to a name. -/
def BindsAt (f : SourceFile) (c : Cursor) (exported : Text) (r : Reference) : Prop :=
  ∃ at_ node name, c.Binds exported at_ node ∧ node.text = .ok name ∧
    r = ⟨f.path, at_.startLine, node, some name⟩

/-- A reference in a file to an export, other than the default, as a member of the namespace that a child
of an import clause binds. -/
def AccessesAt (f : SourceFile) (c : Cursor) (exported : Text) (r : Reference) : Prop :=
  exported ≠ Tree.defaultName ∧ ∃ node object access, c.BindsNamespace node ∧
    node.text = .ok object ∧ f.Accesses object exported access ∧ r = Reference.use f.path access

end SourceFile

namespace Query

variable {w : Workspace} {s : Session} {f : SourceFile} {statement c : Cursor} {exported : Text}
  {rs : List Reference} {r : Reference}

/-! ## One import clause -/

theorem mem_of_specifier_iff {spec : Cursor}
    (h : clauseReferences.specifier f exported spec = .ok rs) : r ∈ rs ↔
      ∃ original node name, spec.child? .name = some original ∧ original.text = .ok exported ∧
        node = (spec.child? .alias).getD original ∧ node.text = .ok name ∧
          r = ⟨f.path, spec.startLine, node, some name⟩ := by
  unfold clauseReferences.specifier at h
  cases hname : spec.child? .name with
  | none =>
    rw [hname] at h
    cases h
    refine iff_of_false List.not_mem_nil ?_
    rintro ⟨_, _, _, hsome, -⟩
    cases hsome
  | some original =>
    rw [hname] at h
    rcases Fallible.bind_eq_ok.1 h with ⟨text, htext, h⟩
    by_cases hexported : text = exported
    · rw [if_pos hexported] at h
      rcases Fallible.bind_eq_ok.1 h with ⟨r', hr', h⟩
      rcases Fallible.map_eq_ok.1 hr' with ⟨name, hbound, rfl⟩
      cases h
      rw [List.mem_singleton]
      constructor
      · rintro rfl
        exact ⟨original, _, name, rfl, hexported ▸ htext, rfl, hbound, rfl⟩
      · rintro ⟨_, _, name', ⟨⟩, -, rfl, hbound', rfl⟩
        cases hbound.symm.trans hbound'
        rfl
    · rw [if_neg hexported] at h
      cases h
      refine iff_of_false List.not_mem_nil ?_
      rintro ⟨_, _, _, ⟨⟩, htext', -⟩
      exact absurd (Except.ok.inj (htext.symm.trans htext')) hexported

theorem mem_of_identifier_iff (hkind : c.kind = .identifier)
    (h : clauseReferences f exported c = .ok rs) : r ∈ rs ↔ f.BindsAt c exported r := by
  unfold clauseReferences at h
  rw [hkind] at h
  dsimp only at h
  split at h
  · rename_i hdefault
    rcases Fallible.map_eq_ok.1 h with ⟨r', hr', rfl⟩
    rcases Fallible.map_eq_ok.1 hr' with ⟨name, hname, rfl⟩
    rw [List.mem_singleton]
    constructor
    · rintro rfl
      exact ⟨c, c, name, hdefault ▸ .default hkind, hname, rfl⟩
    · rintro ⟨_, _, name', hbinds, hname', rfl⟩
      cases hbinds with
      | default =>
        cases hname.symm.trans hname'
        rfl
      | named hnamed => cases hkind.symm.trans hnamed
  · rename_i hdefault
    cases h
    refine iff_of_false List.not_mem_nil ?_
    rintro ⟨_, _, _, hbinds, -⟩
    cases hbinds with
    | default => exact absurd rfl hdefault
    | named hnamed => cases hkind.symm.trans hnamed

theorem mem_of_namedImports_iff (hkind : c.kind = .namedImports)
    (h : clauseReferences f exported c = .ok rs) : r ∈ rs ↔ f.BindsAt c exported r := by
  unfold clauseReferences at h
  rw [hkind] at h
  rcases Fallible.map_eq_ok.1 h with ⟨rss, hrss, rfl⟩
  constructor
  · intro hr
    rcases (Fallible.mem_flatten_of_mapM hrss).1 hr with ⟨spec, hspec, ys, hys, hr⟩
    rcases List.mem_filter.1 hspec with ⟨hmem, hspecifier⟩
    rcases (mem_of_specifier_iff hys).1 hr with ⟨original, _, name, hname, htext, rfl, hbound, rfl⟩
    exact ⟨spec, _, name, .named hkind hmem (of_decide_eq_true hspecifier) hname htext, hbound, rfl⟩
  · rintro ⟨at_, node, name, hbinds, hbound, rfl⟩
    cases hbinds with
    | default hidentifier => cases hkind.symm.trans hidentifier
    | named _ hmem hspecifier hname htext =>
      have hspec : at_ ∈ c.namedChildren.filter fun s => s.kind = .importSpecifier :=
        List.mem_filter.2 ⟨hmem, decide_eq_true hspecifier⟩
      rcases Fallible.exists_of_mapM_eq_ok hrss hspec with ⟨ys, -, hys⟩
      exact (Fallible.mem_flatten_of_mapM hrss).2 ⟨_, hspec, ys, hys,
        (mem_of_specifier_iff hys).2 ⟨_, _, name, hname, htext, rfl, hbound, rfl⟩⟩

theorem mem_of_namespaceImport_iff (hf : f.Faithful) (hkind : c.kind = .namespaceImport)
    (h : clauseReferences f exported c = .ok rs) : r ∈ rs ↔ f.AccessesAt c exported r := by
  unfold clauseReferences at h
  rw [hkind] at h
  dsimp only at h
  split at h
  · rename_i hnone
    cases h
    refine iff_of_false List.not_mem_nil ?_
    rintro ⟨-, _, _, _, ⟨-, hsome⟩, -⟩
    cases hnone.symm.trans hsome
  · rename_i node hnode
    split at h
    · rename_i hdefault
      cases h
      refine iff_of_false List.not_mem_nil ?_
      rintro ⟨hother, -⟩
      exact absurd hdefault hother
    · rename_i hdefault
      rcases Fallible.bind_eq_ok.1 h with ⟨object, hobject, h⟩
      rcases Fallible.bind_eq_ok.1 h with ⟨accesses, haccesses, h⟩
      cases h
      rw [List.mem_map]
      constructor
      · rintro ⟨access, hmem, rfl⟩
        exact ⟨hdefault, node, object, access, ⟨hkind, hnode⟩, hobject,
          (SourceFile.mem_accessesOf_iff hf haccesses).1 hmem, rfl⟩
      · rintro ⟨-, node', object', access, ⟨-, hnode'⟩, hobject', haccess, rfl⟩
        cases hnode.symm.trans hnode'
        cases hobject.symm.trans hobject'
        exact ⟨access, (SourceFile.mem_accessesOf_iff hf haccesses).2 haccess, rfl⟩

/-- What a child of an import clause gives: its bindings if it is an identifier or named imports, and the
accesses through it if it is a namespace. -/
theorem mem_clauseReferences_iff (hf : f.Faithful) (h : clauseReferences f exported c = .ok rs) :
    r ∈ rs ↔ f.BindsAt c exported r ∨ f.AccessesAt c exported r := by
  have haccess : c.kind ≠ .namespaceImport → ¬ f.AccessesAt c exported r := by
    rintro hkind ⟨-, _, _, _, ⟨hnamespace, -⟩, -⟩
    exact hkind hnamespace
  have hbinds : c.kind ≠ .identifier → c.kind ≠ .namedImports → ¬ f.BindsAt c exported r := by
    rintro hidentifier hnamed ⟨_, _, _, hbinds, -⟩
    cases hbinds with
    | default hkind => exact hidentifier hkind
    | named hkind => exact hnamed hkind
  by_cases hidentifier : c.kind = .identifier
  · rw [or_iff_left (haccess (by simp [hidentifier]))]
    exact mem_of_identifier_iff hidentifier h
  by_cases hnamed : c.kind = .namedImports
  · rw [or_iff_left (haccess (by simp [hnamed]))]
    exact mem_of_namedImports_iff hnamed h
  by_cases hnamespace : c.kind = .namespaceImport
  · rw [or_iff_right (hbinds hidentifier hnamed)]
    exact mem_of_namespaceImport_iff hf hnamespace h
  · have hnone : clauseReferences f exported c = .ok [] := by
      unfold clauseReferences
      split
      · exact absurd ‹_› hidentifier
      · exact absurd ‹_› hnamed
      · exact absurd ‹_› hnamespace
      · rfl
    cases hnone.symm.trans h
    refine iff_of_false List.not_mem_nil ?_
    rintro (hr | hr)
    · exact absurd hr (hbinds hidentifier hnamed)
    · exact absurd hr (haccess hnamespace)

theorem mem_statementReferences_iff (hf : f.Faithful)
    (h : statementReferences f exported statement = .ok rs) : r ∈ rs ↔
      ∃ c, statement.Imports c ∧ (f.BindsAt c exported r ∨ f.AccessesAt c exported r) := by
  unfold statementReferences at h
  split at h
  · rename_i hnone
    cases h
    refine iff_of_false List.not_mem_nil ?_
    rintro ⟨c, ⟨clause, hclause, -⟩, -⟩
    cases hnone.symm.trans hclause
  · rename_i clause hclause
    rcases Fallible.map_eq_ok.1 h with ⟨rss, hrss, rfl⟩
    rw [Fallible.mem_flatten_of_mapM hrss]
    constructor
    · rintro ⟨c, hc, ys, hys, hr⟩
      exact ⟨c, ⟨clause, hclause, hc⟩, (mem_clauseReferences_iff hf hys).1 hr⟩
    · rintro ⟨c, ⟨clause', hclause', hc⟩, hgives⟩
      cases hclause.symm.trans hclause'
      rcases Fallible.exists_of_mapM_eq_ok hrss hc with ⟨ys, -, hys⟩
      exact ⟨c, hc, ys, hys, (mem_clauseReferences_iff hf hys).2 hgives⟩

end Query

/-! ## References in a project -/

namespace Session

/-- A child of the import clause of a top-level import of a module, in a file that the filter for the
module passes. -/
def ImportsFrom (s : Session) (w : Workspace) (module_ : Text) (f : SourceFile) (c : Cursor) : Prop :=
  Query.Yields w s module_ f ∧ ∃ statement,
    f.TakesBy w s module_ .importStatement statement ∧ statement.Imports c

/-- A reference at which an import binds an export to a name. -/
def BindsAt (s : Session) (w : Workspace) (e : Query.Export) (r : Reference) : Prop :=
  ∃ f c, s.ImportsFrom w e.1 f c ∧ f.BindsAt c e.2 r

/-- A reference to an export as a member of an imported namespace. -/
def AccessesAt (s : Session) (w : Workspace) (e : Query.Export) (r : Reference) : Prop :=
  ∃ f c, s.ImportsFrom w e.1 f c ∧ f.AccessesAt c e.2 r

/-- A reference at which a declaration is used in its own file. -/
def UsesAt (s : Session) (w : Workspace) (d : Declaration) (r : Reference) : Prop :=
  ∃ f c, s.Opens w f ∧ f.path = d.file ∧ Cursor.Within f.tree c ∧ c.Uses d.name ∧
    r = Reference.use f.path c

variable {w : Workspace} {s : Session} {d : Declaration} {e : Query.Export} {r : Reference}

theorem BindsAt.binding_ne_none (h : s.BindsAt w e r) : r.binding ≠ none := by
  rcases h with ⟨f, c, -, at_, node, name, -, -, rfl⟩
  exact Option.some_ne_none name

theorem AccessesAt.binding_eq_none (h : s.AccessesAt w e r) : r.binding = none := by
  rcases h with ⟨f, c, -, -, node, object, access, -, -, -, rfl⟩
  rfl

theorem UsesAt.binding_eq_none (h : s.UsesAt w d r) : r.binding = none := by
  rcases h with ⟨f, c, -, -, -, -, rfl⟩
  rfl

end Session

namespace Query

variable {w : Workspace} {s : Session} {d : Declaration} {e : Export} {rs : List Reference}
  {r : Reference}

/-- The references to an export of a module. -/
theorem mem_importerReferences_iff (hs : s.Coherent)
    (hparsed : ∀ f, s.Opens w f → f.WellParsed)
    (h : (importerReferences e.1 e.2).answer w s = .ok rs) :
    r ∈ rs ↔ s.BindsAt w e r ∨ s.AccessesAt w e r := by
  have hgives : ∀ f, Yields w s e.1 f → ∀ statement ys,
      (takenReferences e.2 f statement).answer w s = .ok ys →
        ∀ r, r ∈ ys ↔ ∃ c, statement.Imports c ∧ (f.BindsAt c e.2 r ∨ f.AccessesAt c e.2 r) := by
    intro f hf statement ys hys r
    exact mem_statementReferences_iff (hparsed f (opens_of_yields hs hf)).faithful
      ((answer_ofExcept _ w s).symm.trans hys)
  rw [importerReferences_eq] at h
  rw [mem_of_visit_taken_iff hs (steady_takenReferences e.2) hgives h]
  constructor
  · rintro ⟨f, hf, statement, hstatement, c, hc, hbinds | haccesses⟩
    · exact .inl ⟨f, c, ⟨hf, statement, hstatement, hc⟩, hbinds⟩
    · exact .inr ⟨f, c, ⟨hf, statement, hstatement, hc⟩, haccesses⟩
  · rintro (⟨f, c, ⟨hf, statement, hstatement, hc⟩, hbinds⟩ |
      ⟨f, c, ⟨hf, statement, hstatement, hc⟩, haccesses⟩)
    · exact ⟨f, hf, statement, hstatement, c, hc, .inl hbinds⟩
    · exact ⟨f, hf, statement, hstatement, c, hc, .inr haccesses⟩

/-- The uses of a name in a file in view. -/
theorem mem_localReferences_of_opens_iff (hs : s.Coherent) (hparsed : ∀ f, s.Opens w f → f.WellParsed)
    {f : SourceFile} (hf : s.Opens w f) {name : Text}
    (h : (localReferences f.path name).answer w s = .ok rs) :
    r ∈ rs ↔ ∃ c, Cursor.Within f.tree c ∧ c.Uses name ∧ r = Reference.use f.path c := by
  rcases hf with ⟨⟨path, hresolve⟩, hloaded⟩
  have hself : Path.resolve f.path = .ok f.path := Path.resolve_resolve hresolve
  rw [localReferences_eq, answer_visitAt_of_file (steady_usesAt _) hs hself hloaded] at h
  rcases ((steady_ofExcept _).answer_bind_eq_ok (fun _ => steady_pure _) hs).1 h with ⟨cs, hcs, h⟩
  rw [answer_ofExcept] at hcs
  cases h
  have hmem := fun c => SourceFile.mem_identifierUses_iff (c := c)
    (hparsed f ⟨⟨path, hresolve⟩, hloaded⟩) hcs
  rw [List.mem_map]
  constructor
  · rintro ⟨c, hc, rfl⟩
    exact ⟨c, ((hmem c).1 hc).1, ((hmem c).1 hc).2, rfl⟩
  · rintro ⟨c, hwithin, huses, rfl⟩
    exact ⟨c, (hmem c).2 ⟨hwithin, huses⟩, rfl⟩

/-- The uses of a declaration in its own file. -/
theorem mem_localReferences_iff (hs : s.Coherent) (hparsed : ∀ f, s.Opens w f → f.WellParsed)
    (hd : s.Declares w d) (h : (localReferences d.file d.name).answer w s = .ok rs) :
    r ∈ rs ↔ s.UsesAt w d r := by
  rcases hd with ⟨⟨f, hopens, hpath, -⟩, -⟩
  rw [← hpath] at h
  rw [mem_localReferences_of_opens_iff hs hparsed hopens h]
  constructor
  · rintro ⟨c, hwithin, huses, rfl⟩
    exact ⟨f, c, hopens, hpath, hwithin, huses, rfl⟩
  · rintro ⟨f', c, hopens', hpath', hwithin, huses, rfl⟩
    -- There is one file in view at a path.
    have hsame : s.fileOf w f.path = .ok f' := by
      rw [hpath, ← hpath']
      exact hopens'.2
    cases hopens.2.symm.trans hsame
    exact ⟨c, hwithin, huses, rfl⟩

/-- The references to a function, class or variable are its uses in its own file and, for each of its
exports, the references to that. -/
theorem exists_of_references (hs : s.Coherent) (hkind : d.kind.isMember = false)
    (h : (references d).answer w s = .ok rs) : ∃ inside es outside,
      (localReferences d.file d.name).answer w s = .ok inside ∧ (exports d).answer w s = .ok es ∧
        (es.mapM fun e => (importerReferences e.1 e.2).answer w s) = .ok outside ∧
          rs = inside ++ outside.flatten := by
  have hsearch := (answer_references_eq_ok hs).1 h
  unfold search at hsearch
  rw [hkind] at hsearch
  rcases (answer_symbolReferences_eq_ok hs).1 hsearch with
    ⟨inside, es, outside, hinside, hes, houtside, hrs⟩
  rw [answer_mapM (fun _ => steady_importerReferences _ _) hs] at houtside
  exact ⟨inside, es, outside, hinside, hes, houtside, hrs⟩

/-- The references to a function, class or variable: the names that imports of its exports bind, its uses
in its own file, and the accesses to its exports as members of imported namespaces. -/
theorem mem_references_iff (hs : s.Coherent) (hparsed : ∀ f, s.Opens w f → f.WellParsed)
    (hd : s.Declares w d) (hkind : d.kind.isMember = false)
    (h : (references d).answer w s = .ok rs) : ∃ es, (exports d).answer w s = .ok es ∧
      (∀ r : Reference, r.binding ≠ none → (r ∈ rs ↔ ∃ e ∈ es, s.BindsAt w e r)) ∧
      (∀ r : Reference, r.binding = none →
        (r ∈ rs ↔ s.UsesAt w d r ∨ ∃ e ∈ es, s.AccessesAt w e r)) := by
  rcases exists_of_references hs hkind h with ⟨inside, es, outside, hinside, hes, houtside, rfl⟩
  have hall : ∀ r, r ∈ inside ++ outside.flatten ↔
      s.UsesAt w d r ∨ ∃ e ∈ es, s.BindsAt w e r ∨ s.AccessesAt w e r := by
    intro r
    rw [List.mem_append, mem_localReferences_iff hs hparsed hd hinside]
    refine or_congr_right ?_
    constructor
    · intro hr
      rcases (Fallible.mem_flatten_of_mapM houtside).1 hr with ⟨e, he, ys, hys, hr⟩
      exact ⟨e, he, (mem_importerReferences_iff hs hparsed hys).1 hr⟩
    · rintro ⟨e, he, hr⟩
      rcases Fallible.exists_of_mapM_eq_ok houtside he with ⟨ys, -, hys⟩
      exact (Fallible.mem_flatten_of_mapM houtside).2
        ⟨e, he, ys, hys, (mem_importerReferences_iff hs hparsed hys).2 hr⟩
  refine ⟨es, hes, ?_, ?_⟩
  · -- Uses and accesses bind no name.
    intro r hbinding
    rw [hall]
    constructor
    · rintro (huses | ⟨e, he, hbinds | haccesses⟩)
      · exact absurd huses.binding_eq_none hbinding
      · exact ⟨e, he, hbinds⟩
      · exact absurd haccesses.binding_eq_none hbinding
    · rintro ⟨e, he, hbinds⟩
      exact .inr ⟨e, he, .inl hbinds⟩
  · intro r hbinding
    rw [hall]
    constructor
    · rintro (huses | ⟨e, he, hbinds | haccesses⟩)
      · exact .inl huses
      · exact absurd hbinding hbinds.binding_ne_none
      · exact .inr ⟨e, he, haccesses⟩
    · rintro (huses | ⟨e, he, haccesses⟩)
      · exact .inl huses
      · exact .inr ⟨e, he, .inr haccesses⟩

end Query

/-! ## An example -/

namespace Imported

open Sample (leaf branch expression function statement)

def sourceA : Bytes :=
  (Utf8.encode "export function f() {}\nf();\n").getD []

def sourceB : Bytes :=
  (Utf8.encode "import { f as g } from './a';\nimport * as m from './a';\ng(m.f);\n").getD []

def literal (first row : Nat) : Tree :=
  leaf .string (some .source) first (first + 5) row [39, 46, 47, 97, 39]

/-- The tree of a module that exports a function `f` and calls it. -/
def treeA : Tree :=
  .node ⟨.program, true, none, 0, 28, 0, 2, []⟩ [statement,
    expression 23 27 1 [branch .callExpression none 23 26 1 [
      leaf .identifier (some .function) 23 24 1 [102]]]]

/-- The tree of a module that imports the function as `g` and its module as `m`, and uses both. -/
def treeB : Tree :=
  .node ⟨.program, true, none, 0, 64, 0, 3, []⟩ [
    branch .importStatement none 0 29 0 [
      branch .importClause none 7 17 0 [branch .namedImports none 7 17 0 [
        branch .importSpecifier none 9 15 0 [
          leaf .identifier (some .name) 9 10 0 [102], leaf .identifier (some .alias) 14 15 0 [103]]]],
      literal 23 0],
    branch .importStatement none 30 55 1 [
      branch .importClause none 37 43 1 [branch .namespaceImport none 37 43 1 [
        leaf .identifier none 42 43 1 [109]]],
      literal 49 1],
    expression 56 63 2 [branch .callExpression none 56 62 2 [
      leaf .identifier (some .function) 56 57 2 [103],
      branch .arguments (some .arguments) 57 62 2 [branch .memberExpression none 58 61 2 [
        leaf .identifier (some .object) 58 59 2 [109],
        leaf .propertyIdentifier (some .property) 60 61 2 [102]]]]]]

/-- The tree of an empty file. -/
def blank : Tree :=
  .node ⟨.program, true, none, 0, 0, 0, 0, []⟩ []

/-- A project with the two modules `a` and `b`. -/
def workspace : Workspace where
  root := "/p"
  settings := {}
  grammars _ source := if source = sourceA then treeA else if source = sourceB then treeB else blank
  disk := [.directory [112] [.file [97, 46, 106, 115] sourceA, .file [98, 46, 106, 115] sourceB]]

/-- A session in which the project was listed. -/
def session : Session :=
  { listing := some ["/p/a.js", "/p/b.js"] }

def declared : Declaration :=
  ⟨"f", .function, "/p/a.js", ⟨function, [statement, treeA]⟩⟩

theorem coherent : session.Coherent := by
  intro path f h
  simp [session, Table.get?] at h

/-- A file in view is one of the two, or it is empty. -/
theorem tree_of_fileOf {path : Text} {f : SourceFile} (h : session.fileOf workspace path = .ok f) :
    (f.source = sourceA ∧ f.tree = treeA) ∨ (f.source = sourceB ∧ f.tree = treeB) ∨ f.tree = blank :=
  Session.tree_of_fileOf_of_pair rfl rfl h

theorem wellParsed {f : SourceFile} (h : session.Opens workspace f) : f.WellParsed := by
  refine SourceFile.wellParsed_of_all ?_
  unfold SourceFile.top
  rcases tree_of_fileOf h.2 with ⟨hsource, htree⟩ | ⟨hsource, htree⟩ | htree
  · rw [hsource, htree]
    rfl
  · rw [hsource, htree]
    rfl
  · rw [htree]
    cases f.source <;> rfl

theorem declares : session.Declares workspace declared := by
  refine ⟨⟨⟨"/p/a.js", .javascript, sourceA, treeA⟩, ⟨⟨"/p/a.js", ?_⟩, ?_⟩, rfl, ?_⟩, ?_⟩
  · rfl
  · rfl
  · have hstatement : Cursor.Within treeA ⟨statement, [treeA]⟩ :=
      Cursor.Within.root.child (by simp [treeA, Cursor.ofRoot, Tree.children])
    exact hstatement.child (by simp [statement, branch, Tree.children])
  · rfl

/-- The file and the line of a reference, and the name that it binds. -/
def place (r : Reference) : Text × Int × Option Text :=
  (r.file, r.line, r.binding)

def places : List (Text × Int × Option Text) :=
  [("/p/a.js", 2, none), ("/p/b.js", 1, some "g"), ("/p/b.js", 3, none)]

/-- The references to the function: its use in its own module, the name that the other module binds it
to, and the access to it there. -/
theorem exists_references : ∃ rs,
    (Query.references declared).answer workspace session = .ok rs ∧ rs.map place = places := by
  have hanswer : ((Query.references declared).answer workspace session).toOption.map (·.map place) =
      some places := by
    decide +kernel
  rcases Option.map_eq_some_iff.1 hanswer with ⟨rs, hrs, hplaces⟩
  exact ⟨rs, Fallible.toOption_eq_some.1 hrs, hplaces⟩

/-- They are what the imports bind, the uses and the accesses. -/
theorem mem_references_iff_imported : ∃ rs es,
    (Query.references declared).answer workspace session = .ok rs ∧
    rs.map place = places ∧
    (Query.exports declared).answer workspace session = .ok es ∧
    (∀ r : Reference, r.binding ≠ none → (r ∈ rs ↔ ∃ e ∈ es, session.BindsAt workspace e r)) ∧
    (∀ r : Reference, r.binding = none →
      (r ∈ rs ↔ session.UsesAt workspace declared r ∨ ∃ e ∈ es, session.AccessesAt workspace e r)) := by
  rcases exists_references with ⟨rs, hrs, hplaces⟩
  rcases Query.mem_references_iff coherent (fun _ => wellParsed) declares rfl hrs with
    ⟨es, hes, hbinds, huses⟩
  exact ⟨rs, es, hrs, hplaces, hes, hbinds, huses⟩

end Imported

end AffectedTests
