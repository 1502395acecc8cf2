import AffectedTests.Proofs.Clauses
import AffectedTests.Proofs.Declarations
/-!
# Trees whose text can be decoded

The look-ups for declarations read the text of some nodes. They fail only if it cannot be decoded: in a
tree whose text can be decoded throughout, every node tells which declaration it makes, and every
declaration whether other modules can see it.

- `Declaration.exists_exportNames`: the names of a declaration can be told.
- `Cursor.exists_visibleDeclaration?`: the visible declaration that a node makes can be told.
-/

namespace AffectedTests

/-- The text of every node of a tree can be decoded. -/
def Tree.Decodes (root : Tree) : Prop :=
  ∀ c, Cursor.Within root c → ∃ text, c.tree.text = .ok text

open Cursor (Within)

variable {root : Tree} {c : Cursor} {d : Declaration}

/-- The text of a child can be told. -/
theorem Tree.Decodes.text_of_child (h : root.Decodes) (hc : Within root c) {t : Tree}
    (ht : t ∈ c.tree.children) : ∃ text, t.text = .ok text :=
  h _ (hc.child ht)

theorem Declaration.mem_children_of_nameNode? {t n : Tree} (h : nameNode? t = some n) :
    n ∈ t.children := by
  have hfound : (t.child? .name <|> t.child? .property) = some n := (Option.filter_eq_some_iff.1 h).1
  cases hname : t.child? .name with
  | some n' =>
    rw [hname] at hfound
    cases hfound
    exact List.mem_of_find?_eq_some hname
  | none =>
    rw [hname] at hfound
    exact List.mem_of_find?_eq_some hfound

theorem Cursor.exists_declaration? (h : root.Decodes) (hc : Within root c) (file : Text) :
    ∃ found, c.declaration? file = .ok found := by
  unfold declaration?
  split
  · rename_i name _ hname
    rcases h.text_of_child hc (Declaration.mem_children_of_nameNode? hname) with ⟨text, htext⟩
    exact ⟨_, Fallible.map_eq_ok.2 ⟨text, htext, rfl⟩⟩
  · exact ⟨none, rfl⟩

namespace Tree

theorem exists_exportSpecifiers (h : root.Decodes) (hc : Within root c) :
    ∃ specifiers, c.tree.exportSpecifiers = .ok specifiers := by
  rw [exportSpecifiers_eq]
  refine Fallible.mapM_eq_ok_of_forall ?_
  rintro ⟨node, under⟩ hmem
  rcases mem_listed_iff.1 hmem with ⟨spec, hspec, -, -, hname, halias⟩
  -- A specifier without an alias lists a name under itself.
  have hunder : under ∈ spec.children := by
    rw [halias]
    cases hfound : spec.child? .alias with
    | none => exact List.mem_of_find?_eq_some hname
    | some t => exact List.mem_of_find?_eq_some hfound
  rcases h.text_of_child (hc.child hspec) (List.mem_of_find?_eq_some hname) with ⟨name, hspelled⟩
  rcases h.text_of_child (hc.child hspec) hunder with ⟨exported, hspelled'⟩
  exact ⟨(name, exported), spell_eq_ok_iff.2 ⟨hspelled, hspelled'⟩⟩

theorem exists_localExports (h : root.Decodes) (hc : Within root c) (name : Text) :
    ∃ names, c.tree.localExports name = .ok names :=
  exists_localExports_iff.2 fun _ =>
    ⟨fun _ hclause => exists_exportSpecifiers h (hc.child hclause.1),
      fun _ hvalue => h.text_of_child hc (List.mem_of_find?_eq_some hvalue.2.1)⟩

end Tree

namespace Declaration

theorem exists_exportNames (h : root.Decodes) (hd : Within root d.node) :
    ∃ names, d.exportNames = .ok names := by
  unfold exportNames
  cases hcontainer : d.statement?.bind Cursor.parent? with
  | none => exact ⟨[], rfl⟩
  | some container =>
    -- The container is one or two nodes up, so it lies within the tree.
    have hw : Within root container := by
      rcases Option.bind_eq_some_iff.1 hcontainer with ⟨statement, hstatement, hparent⟩
      have hstands : Within root statement := by
        unfold statement? at hstatement
        split at hstatement
        · exact hd.of_mem_enclosing (Cursor.mem_enclosing_of_parent? hstatement)
        · cases hstatement
          exact hd
      exact hstands.of_mem_enclosing (Cursor.mem_enclosing_of_parent? hparent)
    dsimp only
    split
    · exact ⟨_, rfl⟩
    · split
      · have hnames : ∃ names, (container.tree.children.filter fun t => t.info.named).mapM
            (Tree.localExports d.name) = .ok names :=
          Fallible.mapM_eq_ok_of_forall fun t ht =>
            Tree.exists_localExports h (hw.child (List.mem_filter.1 ht).1) d.name
        rcases hnames with ⟨names, hnames⟩
        exact ⟨_, Fallible.bind_eq_ok.2 ⟨names, hnames, rfl⟩⟩
      · exact ⟨[], rfl⟩

theorem exists_isExported (h : root.Decodes) (hd : Within root d.node) :
    ∃ b, d.isExported = .ok b := by
  rcases exists_exportNames h hd with ⟨names, hnames⟩
  exact ⟨_, Fallible.map_eq_ok.2 ⟨names, hnames, rfl⟩⟩

theorem exists_isPrivate (h : root.Decodes) (hd : Within root d.node) : ∃ b, d.isPrivate = .ok b := by
  refine Fallible.anyM_eq_ok_of_forall fun t ht => ?_
  split
  · rcases h.text_of_child hd ht with ⟨text, htext⟩
    exact ⟨_, Fallible.bind_eq_ok.2 ⟨text, htext, rfl⟩⟩
  · exact ⟨_, rfl⟩

theorem exists_isVisible (h : root.Decodes) (hd : Within root d.node) : ∃ b, d.isVisible = .ok b := by
  unfold isVisible
  split
  · rcases exists_isPrivate h hd with ⟨hidden, hhidden⟩
    cases hidden with
    | true => exact ⟨false, Fallible.bind_eq_ok.2 ⟨true, hhidden, rfl⟩⟩
    | false =>
      -- What is asked next is asked of the class, so its place in the tree is kept.
      have howner : ∃ o, d.enclosingClass? = .ok o ∧
          ∀ owner, o = some owner → Within root owner.node := by
        unfold enclosingClass?
        split
        · rename_i c hc
          have hw := hd.of_mem_enclosing (List.mem_of_find?_eq_some hc)
          rcases Cursor.exists_declaration? h hw d.file with ⟨found, hfound⟩
          refine ⟨found, hfound, ?_⟩
          rintro owner rfl
          exact (Cursor.node_of_declaration? hfound).1 ▸ hw
        · exact ⟨none, rfl, fun _ h => nomatch h⟩
      rcases howner with ⟨o, ho, hwithin⟩
      cases o with
      | none =>
        exact ⟨false, Fallible.bind_eq_ok.2 ⟨false, hhidden, Fallible.bind_eq_ok.2 ⟨none, ho, rfl⟩⟩⟩
      | some owner =>
        rcases exists_isExported h (hwithin owner rfl) with ⟨b, hb⟩
        exact ⟨b, Fallible.bind_eq_ok.2 ⟨false, hhidden, Fallible.bind_eq_ok.2 ⟨some owner, ho, hb⟩⟩⟩
  · exact exists_isExported h hd

end Declaration

theorem Cursor.exists_visibleDeclaration? (h : root.Decodes) (hc : Within root c) (file : Text) :
    ∃ found, c.visibleDeclaration? file = .ok found := by
  rcases Cursor.exists_declaration? h hc file with ⟨found, hfound⟩
  cases found with
  | none => exact ⟨none, Fallible.bind_eq_ok.2 ⟨none, hfound, rfl⟩⟩
  | some d =>
    have hd : Within root d.node := (Cursor.node_of_declaration? hfound).1 ▸ hc
    rcases Declaration.exists_isVisible h hd with ⟨visible, hvisible⟩
    refine ⟨if visible then some d else none, Fallible.bind_eq_ok.2 ⟨some d, hfound, ?_⟩⟩
    refine Fallible.bind_eq_ok.2 ⟨visible, hvisible, ?_⟩
    cases visible <;> rfl

end AffectedTests
