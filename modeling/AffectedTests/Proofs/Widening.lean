import AffectedTests.Proofs.Readable
import AffectedTests.Proofs.Trace
import AffectedTests.Proofs.Uses
/-!
# The visible declaration around a line

A search for the declaration at a line goes down the tree along the nodes that cover the line, and keeps
the smallest declaration that it meets. From there the search for a visible declaration goes up, along
the nodes around that declaration and along no others.

- `Tree.Weighs`: what a search through some nodes makes of the best declaration so far.
- `SourceFile.smallestAt_of_declarationAt?`: the search down finds a smallest declaration.
- `SourceFile.changedAt?_widens`: what the search up finds, and when it finds nothing.
-/

namespace AffectedTests

/-- Every node of a tree lies in the rows of the node around it. -/
def Tree.NestsRows (root : Tree) : Prop :=
  ∀ c, Cursor.Within root c → ∀ t ∈ c.tree.children,
    c.tree.info.startRow ≤ t.info.startRow ∧ t.info.endRow ≤ c.tree.info.endRow

/-- What every grammar guarantees of the lines of a tree, and that the root declares nothing. -/
structure SourceFile.Nested (f : SourceFile) : Prop where
  rows : f.tree.NestsRows
  root : DeclarationKind.ofKind? f.tree.kind = none

/-- A declaration that a node of a file makes. -/
structure SourceFile.Declares (f : SourceFile) (d : Declaration) : Prop where
  within : Cursor.Within f.tree d.node
  made : d.node.declaration? f.path = .ok (some d)

/-- A declaration of a file that other modules can see. -/
structure SourceFile.Exposes (f : SourceFile) (d : Declaration) : Prop extends f.Declares d where
  visible : d.isVisible = .ok true

/-- A line is one of the lines of a declaration. -/
def Declaration.Covers (d : Declaration) (line : Int) : Prop :=
  d.startLine ≤ line ∧ line ≤ d.endLine

/-- A declaration is the given one or stands around it. -/
def Declaration.StandsAround (d : Declaration) (smallest : Option Declaration) : Prop :=
  ∃ m, smallest = some m ∧ d.node ∈ m.node :: m.node.enclosing

/-- A declaration is a smallest one among those of a file that cover a line; none if there are none. -/
def SourceFile.SmallestAt (f : SourceFile) (line : Int) : Option Declaration → Prop
  | none => ∀ d, f.Declares d → ¬ d.Covers line
  | some m => f.Declares m ∧ m.Covers line ∧
      ∀ d, f.Declares d → d.Covers line → m.node.tree.size ≤ d.node.tree.size

namespace Cursor

variable {root : Tree} {c p : Cursor}

/-- A line is one of those of a node if its row is one of those of the tree. -/
theorem covers_iff_lines {line : Int} :
    Tree.covers (line - 1) c.tree = true ↔ c.startLine ≤ line ∧ line ≤ c.endLine := by
  simp only [Tree.covers, Bool.and_eq_true, decide_eq_true_eq, startLine, endLine, info]
  omega

/-- Behind a node in the list of the nodes around another one stand those around it. -/
theorem eq_enclosing_of_append {before after : List Cursor}
    (h : c :: c.enclosing = before ++ p :: after) : after = p.enclosing := by
  induction before generalizing c with
  | nil =>
    cases h
    rfl
  | cons b before ih =>
    have htail : c.enclosing = before ++ p :: after := (List.cons.inj h).2
    cases hparent : c.parent? with
    | none =>
      rcases c with ⟨tree, above⟩
      cases above with
      | nil => cases before <;> cases htail
      | cons parent above => cases hparent
    | some parent =>
      rw [enclosing_of_parent? hparent] at htail
      exact ih htail

end Cursor

/-! ## The search down -/

namespace Tree

open Cursor (Within)

variable {root : Tree} {file : Text} {row : Int} {P Q : Cursor → Prop}
  {best best' best'' : Option Declaration} {c : Cursor}

/-- The best declaration so far is not larger than this. -/
def AtMost (best : Option Declaration) (size : Nat) : Prop :=
  ∃ b, best = some b ∧ b.node.tree.size ≤ size

/-- What a search through some nodes makes of the best declaration so far: it keeps it or takes one of
these nodes, and in the end it has nothing larger than either. -/
structure Weighs (file : Text) (P : Cursor → Prop) (best best' : Option Declaration) : Prop where
  origin : best' = best ∨ ∃ c, P c ∧ c.declaration? file = .ok best'
  kept : ∀ b, best = some b → AtMost best' b.node.tree.size
  least : ∀ c, P c → ∀ d, c.declaration? file = .ok (some d) → AtMost best' c.tree.size

namespace Weighs

theorem refl : Weighs file (fun _ => False) best best where
  origin := .inl rfl
  kept b hb := ⟨b, hb, le_rfl⟩
  least _ hc := hc.elim

theorem atMost (h : Weighs file P best best') {size : Nat} (hbest : AtMost best size) :
    AtMost best' size := by
  rcases hbest with ⟨b, hb, hle⟩
  rcases h.kept b hb with ⟨b', hb', hle'⟩
  exact ⟨b', hb', hle'.trans hle⟩

theorem trans (h : Weighs file P best best') (h' : Weighs file Q best' best'') :
    Weighs file (fun c => P c ∨ Q c) best best'' where
  origin := by
    rcases h'.origin with rfl | ⟨c, hc, hmade⟩
    · rcases h.origin with hsame | ⟨c, hc, hmade⟩
      · exact .inl hsame
      · exact .inr ⟨c, .inl hc, hmade⟩
    · exact .inr ⟨c, .inr hc, hmade⟩
  kept b hb := h'.atMost (h.kept b hb)
  least c hc d hd := hc.elim (fun hp => h'.atMost (h.least c hp d hd)) (fun hq => h'.least c hq d hd)

theorem congr (h : Weighs file P best best') (hpq : ∀ c, Q c ↔ P c) : Weighs file Q best best' :=
  (funext fun c => propext (hpq c) : Q = P) ▸ h

end Weighs

theorem weighs_of_smaller (h : smaller file best c = .ok best') : Weighs file (· = c) best best' := by
  rcases Fallible.map_eq_ok.1 h with ⟨found, hfound, hnew⟩
  have hleast : (∀ d, found = some d → AtMost best' c.tree.size) →
      ∀ c', c' = c → ∀ d, c'.declaration? file = .ok (some d) → AtMost best' c'.tree.size := by
    rintro hall c' rfl d hd
    exact hall d (Except.ok.inj (hfound.symm.trans hd))
  -- The node is the new best one only if it makes a declaration that is strictly smaller.
  cases found with
  | none =>
    cases hnew
    exact ⟨.inl rfl, fun b hb => ⟨b, hb, le_rfl⟩, hleast fun d hd => nomatch hd⟩
  | some d =>
    have hnode : d.node = c := (Cursor.node_of_declaration? hfound).1
    cases best with
    | none =>
      cases hnew
      exact ⟨.inr ⟨c, rfl, hfound⟩, fun b hb => (nomatch hb), hleast fun _ _ => ⟨d, rfl, by rw [hnode]⟩⟩
    | some b =>
      dsimp only at hnew
      split at hnew
      · rename_i hlt
        cases hnew
        refine ⟨.inr ⟨c, rfl, hfound⟩, ?_, hleast fun _ _ => ⟨d, rfl, by rw [hnode]⟩⟩
        rintro b' hb'
        cases hb'
        exact ⟨d, rfl, by rw [hnode]; exact hlt.le⟩
      · rename_i hge
        cases hnew
        refine ⟨.inl rfl, fun b' hb' => ⟨b', hb', le_rfl⟩, hleast fun _ _ => ?_⟩
        exact ⟨b, rfl, not_lt.1 hge⟩

theorem weighs_of_foldlM {here : List Tree} {ts : List Tree}
    (h : ts.foldlM (fun b t => smaller file b ⟨t, here⟩) best = .ok best') :
    Weighs file (fun c => ∃ t ∈ ts, c = ⟨t, here⟩) best best' := by
  induction ts generalizing best with
  | nil =>
    cases h
    exact Weighs.refl.congr (by simp)
  | cons t ts ih =>
    rw [List.foldlM_cons] at h
    rcases Fallible.bind_eq_ok.1 h with ⟨weighed, hweighed, h⟩
    exact ((weighs_of_smaller hweighed).trans (ih h)).congr (by simp)

/-- The nodes of a list of trees are their roots and what is below these. -/
theorem mem_preorderAll_iff {above ts : List Tree} : c ∈ preorderAll above ts ↔
    (∃ t ∈ ts, c = ⟨t, above⟩) ∨ ∃ t ∈ ts, c ∈ preorderAll (t :: above) t.children := by
  induction ts with
  | nil => simp [preorderAll]
  | cons t rest ih =>
    rcases t with ⟨info, children⟩
    rw [preorderAll, preorder, List.mem_append, List.mem_cons, ih]
    simp only [List.mem_cons, exists_eq_or_imp]
    exact or_or_or_comm

/-- A node that covers a row stands in nodes that cover it. -/
theorem covers_of_mem_enclosing (hrows : root.NestsRows) (hc : Within root c)
    (hcovers : covers row c.tree = true) {p : Cursor} (hp : p ∈ c.enclosing) :
    covers row p.tree = true := by
  induction hc with
  | root => cases hp
  | @child c t hc ht ih =>
    have hparent : covers row c.tree = true := by
      have hrow := hrows c hc t ht
      simp only [covers, Bool.and_eq_true, decide_eq_true_eq] at hcovers ⊢
      omega
    rcases List.mem_cons.1 (show p ∈ c :: c.enclosing from hp) with rfl | hp
    · exact hparent
    · exact ih hparent hp

/-- A tree that holds a node which covers a row covers it too. -/
theorem covers_of_mem_preorderAll (hrows : root.NestsRows) {t : Tree} {above : List Tree}
    (ht : Within root ⟨t, above⟩) (hc : c ∈ preorderAll (t :: above) t.children)
    (hcovers : covers row c.tree = true) : covers row t = true := by
  have haround : (⟨t, above⟩ : Cursor) ∈ c.enclosing :=
    (enclosing_suffix_of_mem_preorderAll t.children (t :: above) c hc).subset List.mem_cons_self
  have hw := within_of_mem_preorderAll t.children (t :: above) (fun u hu => ht.child hu) c hc
  exact covers_of_mem_enclosing hrows hw hcovers haround

mutual

/-- The search below a node weighs the nodes below it that cover the row. -/
theorem weighs_of_smallestBelow (hrows : root.NestsRows) : ∀ (t : Tree) (above : List Tree)
    (best best' : Option Declaration), Within root ⟨t, above⟩ →
      smallestBelow file row above t best = .ok best' →
        Weighs file (fun c => c ∈ preorderAll (t :: above) t.children ∧ covers row c.tree = true)
          best best'
  | .node info children, above, best, best', hw, h => by
    rw [smallestBelow] at h
    rcases Fallible.bind_eq_ok.1 h with ⟨weighed, hweighed, h⟩
    have hbelow := weighs_of_smallestBelowAll hrows children _ weighed best' (fun t ht => hw.child ht) h
    refine ((weighs_of_foldlM hweighed).trans hbelow).congr fun c => ?_
    -- The children that cover the row are weighed at once, the nodes below them one level down.
    rw [show (Tree.node info children).children = children from rfl, mem_preorderAll_iff, or_and_right]
    refine or_congr_left ⟨?_, ?_⟩
    · rintro ⟨⟨t, ht, rfl⟩, hcovers⟩
      exact ⟨t, List.mem_filter.2 ⟨ht, hcovers⟩, rfl⟩
    · rintro ⟨t, ht, rfl⟩
      exact ⟨⟨t, (List.mem_filter.1 ht).1, rfl⟩, (List.mem_filter.1 ht).2⟩

theorem weighs_of_smallestBelowAll (hrows : root.NestsRows) : ∀ (ts : List Tree) (above : List Tree)
    (best best' : Option Declaration), (∀ t ∈ ts, Within root ⟨t, above⟩) →
      smallestBelowAll file row above ts best = .ok best' →
        Weighs file (fun c => (∃ t ∈ ts, c ∈ preorderAll (t :: above) t.children) ∧
          covers row c.tree = true) best best'
  | [], above, best, best', _, h => by
    rw [smallestBelowAll] at h
    cases h
    exact Weighs.refl.congr (by simp)
  | t :: rest, above, best, best', hw, h => by
    rw [smallestBelowAll] at h
    rcases Fallible.bind_eq_ok.1 h with ⟨later, hlater, h⟩
    have hw' : Within root ⟨t, above⟩ := hw t (by simp)
    have hrest := weighs_of_smallestBelowAll hrows rest above best later
      (fun u hu => hw u (by simp [hu])) hlater
    split at h
    · have hfirst := weighs_of_smallestBelow hrows t above later best' hw' h
      refine (hrest.trans hfirst).congr fun c => ?_
      simp only [List.mem_cons, exists_eq_or_imp]
      rw [← or_and_right, or_comm]
    · rename_i hnot
      cases h
      refine hrest.congr fun c => and_congr_left fun hcovers => ?_
      simp only [List.mem_cons, exists_eq_or_imp, or_iff_right_iff_imp]
      -- A tree that does not cover the row is not entered, and holds no node that does.
      intro hc
      exact absurd (covers_of_mem_preorderAll hrows hw' hc hcovers) hnot

end

mutual

/-- The search answers if every node tells which declaration it makes. -/
theorem exists_smallestBelow (hmade : ∀ c, Within root c → ∃ o, c.declaration? file = .ok o) :
    ∀ (t : Tree) (above : List Tree) (best : Option Declaration), Within root ⟨t, above⟩ →
      ∃ best', smallestBelow file row above t best = .ok best'
  | .node info children, above, best, hw => by
    have hstep : ∀ t ∈ children.filter (covers row), ∀ b,
        ∃ b', smaller file b ⟨t, .node info children :: above⟩ = .ok b' := by
      intro t ht b
      rcases hmade _ (hw.child (List.mem_filter.1 ht).1) with ⟨found, hfound⟩
      exact ⟨_, Fallible.map_eq_ok.2 ⟨found, hfound, rfl⟩⟩
    rcases Fallible.foldlM_eq_ok_of_forall hstep best with ⟨weighed, hweighed⟩
    rcases exists_smallestBelowAll hmade children _ weighed (fun t ht => hw.child ht) with ⟨best', h⟩
    rw [smallestBelow]
    exact ⟨best', Fallible.bind_eq_ok.2 ⟨weighed, hweighed, h⟩⟩

theorem exists_smallestBelowAll (hmade : ∀ c, Within root c → ∃ o, c.declaration? file = .ok o) :
    ∀ (ts : List Tree) (above : List Tree) (best : Option Declaration),
      (∀ t ∈ ts, Within root ⟨t, above⟩) → ∃ best', smallestBelowAll file row above ts best = .ok best'
  | [], above, best, _ => ⟨best, by rw [smallestBelowAll]⟩
  | t :: rest, above, best, hw => by
    rcases exists_smallestBelowAll hmade rest above best (fun u hu => hw u (by simp [hu])) with
      ⟨later, hlater⟩
    rw [smallestBelowAll]
    cases hcovers : covers row t with
    | false => exact ⟨later, Fallible.bind_eq_ok.2 ⟨later, hlater, rfl⟩⟩
    | true =>
      rcases exists_smallestBelow hmade t above later (hw t (by simp)) with ⟨best', h⟩
      exact ⟨best', Fallible.bind_eq_ok.2 ⟨later, hlater, h⟩⟩

end

end Tree

/-! ## The search up -/

namespace SourceFile

open Cursor (Within)

variable {f : SourceFile} {line : Int} {d m : Declaration} {smallest found : Option Declaration}

/-- A node makes one declaration. -/
theorem Declares.ext {d' : Declaration} (h : f.Declares d) (h' : f.Declares d')
    (hnode : d.node = d'.node) : d = d' := by
  have hmade := h.made
  rw [hnode, h'.made] at hmade
  exact (Option.some.inj (Except.ok.inj hmade)).symm

theorem covers_iff : Tree.covers (line - 1) d.node.tree = true ↔ d.Covers line :=
  Cursor.covers_iff_lines

/-- The nodes below the root are those that make declarations. -/
theorem Declares.mem_preorderAll (hnested : f.Nested) (h : f.Declares d) :
    d.node ∈ Tree.preorderAll [f.tree] f.tree.children := by
  have hmem := Tree.mem_preorder_iff.2 h.within
  cases htree : f.tree with
  | node info children =>
    rw [htree, Cursor.preorder, Cursor.ofRoot, Tree.preorder] at hmem
    rcases List.mem_cons.1 hmem with hroot | hmem
    · have hkind := hnested.root
      have hmade := h.made
      rw [htree] at hkind
      rw [hroot] at hmade
      unfold Cursor.declaration? at hmade
      have hcursor : DeclarationKind.ofKind? (Cursor.kind ⟨.node info children, []⟩) = none := hkind
      rw [hcursor] at hmade
      cases hmade
    · exact hmem

/-- The declaration at a line is a smallest one among those that cover the line. -/
theorem smallestAt_of_declarationAt? (hnested : f.Nested) (h : f.declarationAt? line = .ok smallest) :
    f.SmallestAt line smallest := by
  have hweighs := Tree.weighs_of_smallestBelow hnested.rows f.tree [] none smallest .root h
  -- The search weighs the nodes below the root; the root itself declares nothing.
  have hleast : ∀ d, f.Declares d → d.Covers line → Tree.AtMost smallest d.node.tree.size :=
    fun d hd hcovers => hweighs.least d.node ⟨hd.mem_preorderAll hnested, covers_iff.2 hcovers⟩ d hd.made
  cases smallest with
  | none =>
    intro d hd hcovers
    rcases hleast d hd hcovers with ⟨b, hb, -⟩
    cases hb
  | some m =>
    have hm := within_of_declarationAt? h
    refine ⟨⟨hm.1, hm.2⟩, ?_, fun d hd hcovers => ?_⟩
    · rcases hweighs.origin with hnone | ⟨c, ⟨-, hcovers⟩, hmade⟩
      · cases hnone
      · rw [← (Cursor.node_of_declaration? hmade).1] at hcovers
        exact covers_iff.1 hcovers
    · rcases hleast d hd hcovers with ⟨b, hb, hle⟩
      cases hb
      exact hle

theorem exists_declarationAt? (h : f.tree.Decodes) (line : Int) :
    ∃ smallest, f.declarationAt? line = .ok smallest :=
  Tree.exists_smallestBelow (fun _ hc => Cursor.exists_declaration? h hc f.path) f.tree [] none .root

/-- The search for a visible declaration starts at the declaration at the line and goes up. -/
theorem changedAt?_eq (h : f.declarationAt? line = .ok (some m)) :
    f.changedAt? line =
      (m.node :: m.node.enclosing).findSomeM? (Cursor.visibleDeclaration? f.path) := by
  have hmade := (within_of_declarationAt? h).2
  unfold changedAt? Cursor.enclosingVisible?
  rw [h, List.findSomeM?_cons]
  unfold Cursor.visibleDeclaration?
  rw [hmade]
  dsimp only [bind, Except.bind]
  cases m.isVisible with
  | error failure => rfl
  | ok visible => cases visible <;> rfl

theorem exists_changedAt? (h : f.tree.Decodes) (line : Int) :
    ∃ found, f.changedAt? line = .ok found := by
  rcases exists_declarationAt? h line with ⟨smallest, hsmallest⟩
  cases smallest with
  | none => exact ⟨none, Fallible.bind_eq_ok.2 ⟨none, hsmallest, rfl⟩⟩
  | some m =>
    rw [changedAt?_eq hsmallest]
    refine Fallible.findSomeM?_eq_ok_of_forall fun c hc => ?_
    have hm := (within_of_declarationAt? hsmallest).1
    rcases List.mem_cons.1 hc with rfl | hc
    · exact Cursor.exists_visibleDeclaration? h hm f.path
    · exact Cursor.exists_visibleDeclaration? h (hm.of_mem_enclosing hc) f.path

theorem Exposes.visibleDeclaration? (h : f.Exposes d) :
    d.node.visibleDeclaration? f.path = .ok (some d) :=
  Fallible.bind_eq_ok.2 ⟨some d, h.made, Fallible.bind_eq_ok.2 ⟨true, h.visible, rfl⟩⟩

/-- A declaration that the search passes over is hidden. -/
theorem Declares.isVisible_of_passed (h : f.Declares d)
    (hpassed : d.node.visibleDeclaration? f.path = .ok none) : d.isVisible = .ok false := by
  rcases Fallible.bind_eq_ok.1 hpassed with ⟨o, ho, hpassed⟩
  cases h.made.symm.trans ho
  rcases Fallible.bind_eq_ok.1 hpassed with ⟨visible, hvisible, hpassed⟩
  cases visible with
  | true => cases hpassed
  | false => exact hvisible

/-- Nothing is found if no visible declaration is the one at the line or stands around it. -/
theorem changedAt?_eq_none_iff (h : f.declarationAt? line = .ok smallest)
    (hfound : f.changedAt? line = .ok found) :
    found = none ↔ ∀ d, f.Exposes d → ¬ d.StandsAround smallest := by
  cases smallest with
  | none =>
    have hnone : f.changedAt? line = .ok none := Fallible.bind_eq_ok.2 ⟨none, h, rfl⟩
    cases hnone.symm.trans hfound
    refine iff_of_true rfl ?_
    rintro d - ⟨m, hm, -⟩
    cases hm
  | some m =>
    rw [changedAt?_eq h] at hfound
    have hm := (within_of_declarationAt? h).1
    constructor
    · -- The search went through all nodes around the declaration, and found none of them visible.
      rintro rfl d hd ⟨m', hm', hmem⟩
      cases hm'
      cases (Fallible.findSomeM?_eq_ok_none_iff.1 hfound d.node hmem).symm.trans hd.visibleDeclaration?
    · intro hnot
      cases found with
      | none => rfl
      | some d =>
        rcases Fallible.findSomeM?_eq_ok_some hfound with ⟨c, hc, hd⟩
        rcases Cursor.declaration?_of_visibleDeclaration? hd with ⟨hmade, hvisible⟩
        have hnode := (Cursor.node_of_declaration? hmade).1
        have hw : Within f.tree c := by
          rcases List.mem_cons.1 hc with rfl | hc
          · exact hm
          · exact hm.of_mem_enclosing hc
        refine absurd ⟨m, rfl, hnode ▸ hc⟩ (hnot d ⟨⟨hnode ▸ hw, hnode ▸ hmade⟩, hvisible⟩)

/-- What is found is visible, and of the declarations that are the one at the line or stand around it,
those that it does not stand in are hidden. -/
theorem nearest_of_changedAt? (h : f.declarationAt? line = .ok smallest)
    (hfound : f.changedAt? line = .ok (some d)) :
    f.Exposes d ∧ d.StandsAround smallest ∧ ∀ d', f.Declares d' → d'.StandsAround smallest →
      d'.isVisible = .ok false ∨ d'.StandsAround (some d) := by
  have hnearest : d.isVisible = .ok true ∧ d.StandsAround smallest ∧ ∀ d', f.Declares d' →
      d'.StandsAround smallest → d'.isVisible = .ok false ∨ d'.StandsAround (some d) := by
    cases smallest with
    | none =>
      have hnone : f.changedAt? line = .ok none := Fallible.bind_eq_ok.2 ⟨none, h, rfl⟩
      cases hnone.symm.trans hfound
    | some m =>
      rw [changedAt?_eq h] at hfound
      rcases Fallible.exists_append_of_findSomeM? hfound with ⟨before, c, after, hsplit, hbefore, hd⟩
      rcases Cursor.declaration?_of_visibleDeclaration? hd with ⟨hmade, hvisible⟩
      cases (Cursor.node_of_declaration? hmade).1
      refine ⟨hvisible, ⟨m, rfl, hsplit ▸ List.mem_append_right _ List.mem_cons_self⟩, ?_⟩
      rintro d' hd' ⟨m', hm', hmem⟩
      cases hm'
      rw [hsplit] at hmem
      -- What stands before the one found was passed over, and behind it is what stands around it.
      rcases List.mem_append.1 hmem with hmem | hmem
      · exact .inl (hd'.isVisible_of_passed (hbefore _ hmem))
      · rw [Cursor.eq_enclosing_of_append hsplit] at hmem
        exact .inr ⟨d, rfl, hmem⟩
  have hw := within_of_changedAt? hfound
  exact ⟨⟨⟨hw.1, hw.2⟩, hnearest.1⟩, hnearest.2⟩

theorem covers_of_standsAround (hnested : f.Nested) (h : f.SmallestAt line smallest)
    (hd : d.StandsAround smallest) : d.Covers line := by
  rcases hd with ⟨m, rfl, hmem⟩
  rcases h with ⟨hm, hcovers, -⟩
  rw [← covers_iff] at hcovers ⊢
  rcases List.mem_cons.1 hmem with hnode | hmem
  · rwa [hnode]
  · exact Tree.covers_of_mem_enclosing hnested.rows hm.within hcovers hmem

/-- The declaration that a change of a line belongs to. The search starts at a smallest declaration among
those that cover the line. It finds nothing exactly if this one is not visible and no visible one stands
around it; otherwise it finds the nearest of these, which covers the line too. It answers if the text of
the file can be decoded. -/
theorem changedAt?_widens (hnested : f.Nested) (line : Int) :
    (f.tree.Decodes → ∃ found, f.changedAt? line = .ok found) ∧
    ∀ found, f.changedAt? line = .ok found →
      ∃ smallest, f.declarationAt? line = .ok smallest ∧ f.SmallestAt line smallest ∧
        (found = none ↔ ∀ d, f.Exposes d → ¬ d.StandsAround smallest) ∧
        ∀ d, found = some d → f.Exposes d ∧ d.Covers line ∧ d.StandsAround smallest ∧
          ∀ d', f.Exposes d' → d'.StandsAround smallest → d'.StandsAround (some d) := by
  refine ⟨fun h => exists_changedAt? h line, fun found hfound => ?_⟩
  rcases Fallible.bind_eq_ok.1 hfound with ⟨smallest, hsmallest, -⟩
  have hat := smallestAt_of_declarationAt? hnested hsmallest
  refine ⟨smallest, hsmallest, hat, changedAt?_eq_none_iff hsmallest hfound, ?_⟩
  rintro d rfl
  rcases nearest_of_changedAt? hsmallest hfound with ⟨hd, hstands, hnearest⟩
  refine ⟨hd, covers_of_standsAround hnested hat hstands, hstands, fun d' hd' hstands' => ?_⟩
  refine (hnearest d' hd'.toDeclares hstands').resolve_left fun hhidden => ?_
  cases hhidden.symm.trans hd'.visible

end SourceFile

/-! ## Two declarations side by side -/

namespace SideBySide

open Sample (block leaf)

def inner : Tree :=
  block .variableDeclarator none 30 35 1 1 [leaf .identifier (some .name) 30 31 1 [120]]

def innerStatement : Tree :=
  block (.other "lexical_declaration") none 24 36 1 1 [inner]

def body : Tree :=
  block (.other "statement_block") none 20 38 0 2 [innerStatement]

/-- A function `f` with a local variable `x`. -/
def function : Tree :=
  block .functionDeclaration none 7 38 0 2 [leaf .identifier (some .name) 16 17 0 [102], body]

def exported : Tree :=
  block .exportStatement none 0 38 0 2 [function]

/-- A variable `y`. -/
def variableTree : Tree :=
  block .variableDeclarator none 45 50 2 2 [leaf .identifier (some .name) 45 46 2 [121]]

def variableStatement : Tree :=
  block (.other "lexical_declaration") none 39 51 2 2 [variableTree]

/-- A module that exports the function, and declares the variable on the last line of the function. -/
def tree : Tree :=
  block .program none 0 52 0 3 [exported, variableStatement]

def file : SourceFile :=
  ⟨"/p/a.js", .javascript, [], tree⟩

def outer : Declaration :=
  ⟨"f", .function, "/p/a.js", ⟨function, [exported, tree]⟩⟩

def neighbour : Declaration :=
  ⟨"y", .variable, "/p/a.js", ⟨variableTree, [variableStatement, tree]⟩⟩

theorem nested : file.Nested := by
  refine ⟨fun c hc => ?_, rfl⟩
  revert c
  simp only [← Tree.mem_preorder_iff]
  decide

theorem decodes : file.tree.Decodes := by
  have hall : ∀ c ∈ (Cursor.ofRoot file.tree).preorder, c.tree.text.toOption.isSome = true := by decide
  intro c hc
  rcases Option.isSome_iff_exists.1 (hall c (Tree.mem_preorder_iff.2 hc)) with ⟨text, htext⟩
  exact ⟨text, Fallible.toOption_eq_some.1 htext⟩

theorem exposes_outer : file.Exposes outer :=
  ⟨⟨(Cursor.Within.root.child List.mem_cons_self).child List.mem_cons_self, rfl⟩, rfl⟩

/-- Every line belongs to something or to nothing, and a change of the local variable to the function. -/
theorem changedAt?_widens_inner :
    file.Nested ∧ (∀ line, ∃ found, file.changedAt? line = .ok found) ∧
    file.changedAt? 2 = .ok (some outer) ∧ outer.Covers 2 ∧
    ∃ smallest, file.declarationAt? 2 = .ok smallest ∧ outer.StandsAround smallest := by
  have hfound : file.changedAt? 2 = .ok (some outer) := rfl
  have hanswers : ∀ line, ∃ found, file.changedAt? line = .ok found :=
    fun line => (SourceFile.changedAt?_widens nested line).1 decodes
  rcases (SourceFile.changedAt?_widens nested 2).2 _ hfound with ⟨smallest, hsmallest, -, -, hnearest⟩
  rcases hnearest outer rfl with ⟨-, hcovers, hstands, -⟩
  exact ⟨nested, hanswers, hfound, hcovers, smallest, hsmallest, hstands⟩

/-- On the line that the function shares with the variable a change belongs to nothing, although the
function can be seen and covers the line. -/
theorem not_changedAt?_neighbour :
    file.declarationAt? 3 = .ok (some neighbour) ∧ file.changedAt? 3 = .ok none ∧
    file.Exposes outer ∧ outer.Covers 3 ∧
    ¬ ∀ (f : SourceFile) (line : Int) (found : Option Declaration), f.Nested →
      f.changedAt? line = .ok found → (found = none ↔ ∀ d, f.Exposes d → ¬ d.Covers line) := by
  have hfound : file.changedAt? 3 = .ok none := rfl
  have hcovers : outer.Covers 3 := by
    unfold Declaration.Covers
    decide
  exact ⟨rfl, hfound, exposes_outer, hcovers,
    fun hall => (hall file 3 none nested hfound).1 rfl outer exposes_outer hcovers⟩

end SideBySide

end AffectedTests
