import AffectedTests.Proofs.Barrels
import AffectedTests.Proofs.Bindings
/-!
# Exports of a module's own declarations

A declaration at the top level of a module is exported by an export statement around it, under its name or
as the default, and by every other statement of the module that lists it or makes it the default. Where
there is no export statement around the declaration, all these names are found. Where there is one, only
its name is found, so a name that another statement gives is lost, and with it the importers that use it.

- `Declaration.ExportedAs`: the names under which a module exports a declaration.
- `Declaration.exportNames_exact_iff`: when they are all found.
-/

namespace AffectedTests

namespace Declaration

variable {d : Declaration} {module_ : Cursor} {n : Text}

/-- The node around the statement that makes a declaration. -/
def container? (d : Declaration) : Option Cursor :=
  d.statement?.bind Cursor.parent?

/-- The export statement around a declaration. -/
def inlineExport? (d : Declaration) : Option Cursor :=
  d.container?.filter fun c => c.kind = .exportStatement

/-- The module of a declaration at its top level: the program around the statement that makes the
declaration, or around the export statement that this stands in. -/
def module? (d : Declaration) : Option Cursor :=
  (d.inlineExport?.elim d.container? Cursor.parent?).filter fun c => c.kind = .program

/-- The name that the export statement around a declaration gives it. -/
def inlineName (d : Declaration) (statement : Cursor) : Text :=
  if statement.tree.hasDefault then Tree.defaultName else d.name

/-- A module exports a declaration under a name: the export statement around it gives it that name, or a
statement of the module exports its name under that one. -/
inductive ExportedAs (d : Declaration) (module_ : Cursor) : Text → Prop
  | inline {statement : Cursor} (h : d.inlineExport? = some statement) :
      ExportedAs d module_ (d.inlineName statement)
  | stated {statement : Tree} {n : Text} (hmem : statement ∈ module_.tree.children)
      (hnamed : statement.info.named = true) (hexports : statement.Exports d.name n) :
      ExportedAs d module_ n

/-- Exactly the names under which a module exports a declaration are found. -/
def NamesAll (d : Declaration) (module_ : Cursor) : Prop :=
  ∃ names, d.exportNames = .ok names ∧ ∀ n, n ∈ names ↔ d.ExportedAs module_ n

/-- No name is lost: the export statement around the declaration gives the only name or, if there is
none, the exports of the module can be read. -/
def KeepsNames (d : Declaration) (module_ : Cursor) : Prop :=
  match d.inlineExport? with
  | some statement => ∀ n, d.ExportedAs module_ n → n = d.inlineName statement
  | none => ∀ statement ∈ module_.tree.children, statement.info.named = true → statement.Legible

theorem exportNames_of_inlineExport? {statement : Cursor} (h : d.inlineExport? = some statement) :
    d.exportNames = .ok [d.inlineName statement] := by
  rcases Option.filter_eq_some_iff.1 h with ⟨hcontainer, hkind⟩
  have hcontainer : d.statement?.bind Cursor.parent? = some statement := hcontainer
  unfold exportNames inlineName
  rw [hcontainer]
  exact if_pos (of_decide_eq_true hkind)

theorem exportNames_of_program (h : d.container? = some module_) (hkind : module_.kind = .program) :
    d.exportNames = do
      let names ← (module_.tree.children.filter fun c => c.info.named).mapM (Tree.localExports d.name)
      return distinct names.flatten := by
  have hcontainer : d.statement?.bind Cursor.parent? = some module_ := h
  unfold exportNames
  rw [hcontainer]
  dsimp only
  rw [if_neg (by simp [hkind]), if_pos hkind]

/-- A declaration at the top level without an export statement around it stands in the program. -/
theorem container?_of_module? (hm : d.module? = some module_) (hinline : d.inlineExport? = none) :
    d.container? = some module_ ∧ module_.kind = .program := by
  unfold module? at hm
  rw [hinline] at hm
  rcases Option.filter_eq_some_iff.1 hm with ⟨hcontainer, hkind⟩
  exact ⟨hcontainer, of_decide_eq_true hkind⟩

/-- Without an export statement around the declaration, what is found are the names that the statements
of the module give. -/
theorem mem_exportNames_iff (hm : d.module? = some module_) (hinline : d.inlineExport? = none)
    {names : List Text} (h : d.exportNames = .ok names) :
    n ∈ names ↔ d.ExportedAs module_ n := by
  rcases container?_of_module? hm hinline with ⟨hcontainer, hkind⟩
  rw [exportNames_of_program hcontainer hkind] at h
  rcases Fallible.bind_eq_ok.1 h with ⟨found, hfound, h⟩
  cases h
  rw [mem_distinct, Fallible.mem_flatten_of_mapM hfound]
  constructor
  · rintro ⟨statement, hstatement, ys, hys, hn⟩
    rcases List.mem_filter.1 hstatement with ⟨hmem, hnamed⟩
    exact .stated hmem hnamed ((Tree.mem_localExports_iff hys).1 hn)
  · intro hexported
    cases hexported with
    | inline hsome => cases hinline.symm.trans hsome
    | @stated statement _ hmem hnamed hexports =>
      have hstatement : statement ∈ module_.tree.children.filter fun c => c.info.named :=
        List.mem_filter.2 ⟨hmem, hnamed⟩
      rcases Fallible.exists_of_mapM_eq_ok hfound hstatement with ⟨ys, -, hys⟩
      exact ⟨statement, hstatement, ys, hys, (Tree.mem_localExports_iff hys).2 hexports⟩

theorem exists_exportNames_iff (hm : d.module? = some module_) (hinline : d.inlineExport? = none) :
    (∃ names, d.exportNames = .ok names) ↔
      ∀ statement ∈ module_.tree.children, statement.info.named = true → statement.Legible := by
  rcases container?_of_module? hm hinline with ⟨hcontainer, hkind⟩
  have hall : (∃ names, d.exportNames = .ok names) ↔ ∃ found,
      (module_.tree.children.filter fun c => c.info.named).mapM (Tree.localExports d.name) =
        .ok found := by
    rw [exportNames_of_program hcontainer hkind]
    constructor
    · rintro ⟨names, h⟩
      rcases Fallible.bind_eq_ok.1 h with ⟨found, hfound, -⟩
      exact ⟨found, hfound⟩
    · rintro ⟨found, hfound⟩
      exact ⟨_, Fallible.bind_eq_ok.2 ⟨found, hfound, rfl⟩⟩
  rw [hall, Fallible.exists_mapM_eq_ok_iff]
  simp only [Tree.exists_localExports_iff, List.mem_filter, and_imp]

theorem namesAll_iff (hm : d.module? = some module_) : d.NamesAll module_ ↔ d.KeepsNames module_ := by
  unfold NamesAll KeepsNames
  cases hinline : d.inlineExport? with
  | some statement =>
    dsimp only
    rw [exportNames_of_inlineExport? hinline]
    constructor
    · rintro ⟨names, ⟨⟩, hall⟩ n hn
      exact List.mem_singleton.1 ((hall n).2 hn)
    · intro hall
      refine ⟨_, rfl, fun n => ⟨?_, fun hn => List.mem_singleton.2 (hall n hn)⟩⟩
      intro hn
      rw [List.mem_singleton.1 hn]
      exact .inline hinline
  | none =>
    dsimp only
    rw [← exists_exportNames_iff hm hinline]
    constructor
    · rintro ⟨names, h, -⟩
      exact ⟨names, h⟩
    · rintro ⟨names, h⟩
      exact ⟨names, h, fun n => mem_exportNames_iff hm hinline h⟩

end Declaration

namespace Query

variable {w : Workspace} {s : Session} {d : Declaration} {rs : List Reference} {r : Reference}

/-- The importers of a name that is found are found. -/
theorem mem_references_of_exportNames (hs : s.Coherent) (hparsed : ∀ f, s.Opens w f → f.WellParsed)
    (hkind : d.kind.isMember = false) (h : (references d).answer w s = .ok rs) {names : List Text}
    (hnames : d.exportNames = .ok names) {n : Text} (hn : n ∈ names)
    (hr : s.BindsAt w (d.file, n) r ∨ s.AccessesAt w (d.file, n) r) : r ∈ rs := by
  rcases exists_of_references hs hkind h with ⟨inside, es, outside, -, hes, houtside, rfl⟩
  have he := mem_exports_of_mem_exportNames hs hes hnames hn
  rcases Fallible.exists_of_mapM_eq_ok houtside he with ⟨ys, -, hys⟩
  refine List.mem_append_right _ ((Fallible.mem_flatten_of_mapM houtside).2 ⟨_, he, ys, hys, ?_⟩)
  exact (mem_importerReferences_iff hs hparsed hys).2 hr

end Query

namespace Declaration

/-- For a function, class or variable at the top level of a module, exactly the names under which the
module exports it are found if and only if none is lost; and then the importers that use any one of these
names are among its references. -/
theorem exportNames_exact_iff {d : Declaration} {module_ : Cursor} (hm : d.module? = some module_)
    (hkind : d.kind.isMember = false) :
    (d.NamesAll module_ ↔ d.KeepsNames module_) ∧
    (d.KeepsNames module_ → ∀ (w : Workspace) (s : Session), s.Coherent →
      (∀ f, s.Opens w f → f.WellParsed) → ∀ rs, (Query.references d).answer w s = .ok rs →
        ∀ n, d.ExportedAs module_ n → ∀ r, s.BindsAt w (d.file, n) r ∨ s.AccessesAt w (d.file, n) r →
          r ∈ rs) := by
  refine ⟨namesAll_iff hm, ?_⟩
  intro hkeeps w s hs hparsed rs hrs n hn r hr
  rcases (namesAll_iff hm).2 hkeeps with ⟨names, hnames, hall⟩
  exact Query.mem_references_of_exportNames hs hparsed hkind hrs hnames ((hall n).2 hn) hr

end Declaration

/-! ## A name that is lost -/

namespace Aliased

open Sample (leaf branch statement)

/-- The statement `export { f as g };` at a byte. -/
def aliasing (first row : Nat) : Tree :=
  branch .exportStatement none first (first + 18) row [
    branch .exportClause none (first + 7) (first + 17) row [
      branch .exportSpecifier none (first + 9) (first + 15) row [
        leaf .identifier (some .name) (first + 9) (first + 10) row [102],
        leaf .identifier (some .alias) (first + 14) (first + 15) row [103]]]]

/-- The statement `export default f;` at a byte. -/
def defaulting (first row : Nat) : Tree :=
  branch .exportStatement none first (first + 17) row [
    .node ⟨.defaultKeyword, false, none, first + 7, first + 14, row, row, []⟩ [],
    leaf .identifier (some .value) (first + 15) (first + 16) row [102]]

def function : Tree :=
  branch .functionDeclaration none 0 15 0 [leaf .identifier (some .name) 9 10 0 [102]]

/-- A module that declares a function `f` and exports it as `g` and as the default. -/
def tree : Tree :=
  .node ⟨.program, true, none, 0, 53, 0, 3, []⟩ [function, aliasing 16 1, defaulting 35 2]

def declared : Declaration :=
  ⟨"f", .function, "/p/a.js", ⟨function, [tree]⟩⟩

/-- A function that is exported where it is declared, and by no other statement, keeps its name. -/
theorem keepsNames_imported : Imported.declared.KeepsNames (.ofRoot Imported.treeA) := by
  have hinline : Imported.declared.inlineExport? = some ⟨statement, [Imported.treeA]⟩ := rfl
  have hnone : ∀ c ∈ Imported.treeA.children, c.localExports "f" = .ok [] := by
    intro c hc
    simp only [Imported.treeA, Tree.children, List.mem_cons, List.not_mem_nil, or_false] at hc
    rcases hc with rfl | rfl <;> rfl
  unfold Declaration.KeepsNames
  rw [hinline]
  intro n hn
  cases hn with
  | inline h =>
    cases hinline.symm.trans h
    rfl
  | stated hmem _ hexports => cases (Tree.mem_localExports_iff (hnone _ hmem)).2 hexports

/-- Both names of the function are found; and the importers of a function that keeps its name are among
its references. -/
theorem exportNames_exact_aliased :
    declared.exportNames = .ok ["g", "default"] ∧ declared.NamesAll (.ofRoot tree) ∧
    ∃ rs, (Query.references Imported.declared).answer Imported.workspace Imported.session = .ok rs ∧
      ∀ n, Imported.declared.ExportedAs (.ofRoot Imported.treeA) n → ∀ r,
        Imported.session.BindsAt Imported.workspace (Imported.declared.file, n) r ∨
          Imported.session.AccessesAt Imported.workspace (Imported.declared.file, n) r → r ∈ rs := by
  have hnames : declared.exportNames = .ok ["g", "default"] := by rfl
  have hkeeps : declared.KeepsNames (.ofRoot tree) :=
    (Declaration.exists_exportNames_iff rfl rfl).1 ⟨_, hnames⟩
  rcases Imported.exists_references with ⟨rs, hrs, -⟩
  exact ⟨hnames, (Declaration.exportNames_exact_iff rfl rfl).1.2 hkeeps, rs, hrs,
    (Declaration.exportNames_exact_iff rfl rfl).2 keepsNames_imported _ _ Imported.coherent
      (fun _ => Imported.wellParsed) rs hrs⟩

/-- A module that exports a function `f` where it declares it, and again as `g`. -/
def inlineTree : Tree :=
  .node ⟨.program, true, none, 0, 42, 0, 2, []⟩ [statement, aliasing 23 1]

def inlined : Declaration :=
  ⟨"f", .function, "/p/a.js", ⟨Sample.function, [statement, inlineTree]⟩⟩

theorem exportedAs_inlined : inlined.ExportedAs (.ofRoot inlineTree) "g" := by
  have hmem : aliasing 23 1 ∈ (Cursor.ofRoot inlineTree).tree.children := by
    simp [inlineTree, Cursor.ofRoot, Tree.children]
  have hnames : (aliasing 23 1).localExports "f" = .ok ["g"] := by rfl
  exact .stated hmem rfl ((Tree.mem_localExports_iff hnames).1 (List.mem_singleton_self _))

/-- The name that the second statement gives is lost. -/
theorem not_exportNames_exact_inlined :
    inlined.exportNames = .ok ["f"] ∧ inlined.ExportedAs (.ofRoot inlineTree) "g" ∧
    ¬ ∀ (d : Declaration) (module_ : Cursor), d.module? = some module_ → d.kind.isMember = false →
      d.NamesAll module_ := by
  have hnames : inlined.exportNames = .ok ["f"] := by rfl
  refine ⟨hnames, exportedAs_inlined, fun hall => ?_⟩
  rcases hall inlined (.ofRoot inlineTree) rfl rfl with ⟨names, h, hexact⟩
  cases hnames.symm.trans h
  have hmem := (hexact "g").2 exportedAs_inlined
  revert hmem
  decide

end Aliased

end AffectedTests
