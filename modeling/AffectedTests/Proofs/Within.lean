import AffectedTests.Source.References
/-!
# Nodes within a tree

A cursor is within a tree when it is the root of the tree or a child of a cursor within it. The nodes
around a cursor within a tree are within it too, and the preorder lists the nodes within the tree.

The searches of the analysis stay within the tree that they start in: they never make a cursor up.
-/

namespace AffectedTests

namespace Cursor

/-- A node of a tree, reached from the root by going down. -/
inductive Within (root : Tree) : Cursor → Prop
  | root : Within root (ofRoot root)
  | child {c : Cursor} {t : Tree} :
      Within root c → t ∈ c.tree.children → Within root ⟨t, c.tree :: c.above⟩

variable {root : Tree} {c p : Cursor}

theorem Within.of_mem_children (h : Within root c) (hp : p ∈ c.children) : Within root p := by
  rcases List.mem_map.1 hp with ⟨t, ht, rfl⟩
  exact h.child ht

theorem Within.of_mem_namedChildren (h : Within root c) (hp : p ∈ c.namedChildren) :
    Within root p :=
  h.of_mem_children (List.mem_filter.1 hp).1

theorem Within.of_child? (h : Within root c) {field : Field} (hp : c.child? field = some p) :
    Within root p :=
  h.of_mem_children (List.mem_of_find?_eq_some hp)

theorem enclosing_of_parent? (h : c.parent? = some p) : c.enclosing = p :: p.enclosing := by
  rcases c with ⟨tree, above⟩
  cases above with
  | nil => cases h
  | cons parent above =>
    cases h
    rfl

theorem mem_enclosing_of_parent? (h : c.parent? = some p) : p ∈ c.enclosing := by
  rw [enclosing_of_parent? h]
  exact List.mem_cons_self

/-- Going up from a node of a tree stays within the tree. -/
theorem Within.of_mem_enclosing (h : Within root c) : p ∈ c.enclosing → Within root p := by
  induction h with
  | root =>
    intro hp
    cases hp
  | @child c t hc _ ih =>
    -- Around a child stand its parent and what stands around that.
    intro hp
    have hcons : p = c ∨ p ∈ c.enclosing := List.mem_cons.1 hp
    rcases hcons with rfl | hp
    · exact hc
    · exact ih hp

end Cursor

/-! ## The preorder -/

namespace Tree

open Cursor

variable {root : Tree}

mutual

theorem within_of_mem_preorder : ∀ (t : Tree) (above : List Tree), Within root ⟨t, above⟩ →
    ∀ c ∈ t.preorder above, Within root c
  | .node info children, above, h, c, hc => by
    rw [preorder] at hc
    rcases List.mem_cons.1 hc with rfl | hc
    · exact h
    · exact within_of_mem_preorderAll children _ (fun t ht => h.child ht) c hc

theorem within_of_mem_preorderAll : ∀ (ts : List Tree) (above : List Tree),
    (∀ t ∈ ts, Within root ⟨t, above⟩) → ∀ c ∈ preorderAll above ts, Within root c
  | [], above, _, c, hc => by
    rw [preorderAll] at hc
    cases hc
  | t :: rest, above, h, c, hc => by
    rw [preorderAll] at hc
    rcases List.mem_append.1 hc with hc | hc
    · exact within_of_mem_preorder t above (h t (by simp)) c hc
    · exact within_of_mem_preorderAll rest above (fun u hu => h u (by simp [hu])) c hc

end

theorem mem_preorder_self (t : Tree) (above : List Tree) : ⟨t, above⟩ ∈ t.preorder above := by
  cases t with
  | node info children =>
    rw [preorder]
    exact List.mem_cons_self

theorem mem_preorderAll {above ts : List Tree} {t : Tree} (ht : t ∈ ts) {c : Cursor}
    (hc : c ∈ t.preorder above) : c ∈ preorderAll above ts := by
  induction ts with
  | nil => cases ht
  | cons u rest ih =>
    rw [preorderAll]
    rcases List.mem_cons.1 ht with rfl | ht
    · exact List.mem_append_left _ hc
    · exact List.mem_append_right _ (ih ht)

mutual

/-- The preorder holds with a node also the children of the node. -/
theorem child_mem_preorder : ∀ (t : Tree) (above : List Tree), ∀ c ∈ t.preorder above,
    ∀ u ∈ c.tree.children, ⟨u, c.tree :: c.above⟩ ∈ t.preorder above
  | .node info children, above, c, hc, u, hu => by
    rw [preorder] at hc ⊢
    rcases List.mem_cons.1 hc with rfl | hc
    · exact List.mem_cons_of_mem _ (mem_preorderAll hu (mem_preorder_self u _))
    · exact List.mem_cons_of_mem _ (child_mem_preorderAll children _ c hc u hu)

theorem child_mem_preorderAll : ∀ (ts : List Tree) (above : List Tree),
    ∀ c ∈ preorderAll above ts, ∀ u ∈ c.tree.children,
      ⟨u, c.tree :: c.above⟩ ∈ preorderAll above ts
  | [], above, c, hc, u, hu => by
    rw [preorderAll] at hc
    cases hc
  | t :: rest, above, c, hc, u, hu => by
    rw [preorderAll] at hc ⊢
    rcases List.mem_append.1 hc with hc | hc
    · exact List.mem_append_left _ (child_mem_preorder t above c hc u hu)
    · exact List.mem_append_right _ (child_mem_preorderAll rest above c hc u hu)

end

/-- The preorder lists exactly the nodes within the tree. -/
theorem mem_preorder_iff {c : Cursor} : c ∈ (ofRoot root).preorder ↔ Within root c := by
  constructor
  · intro hc
    exact within_of_mem_preorder root [] .root c hc
  · intro hc
    induction hc with
    | root => exact mem_preorder_self root []
    | child _ ht ih => exact child_mem_preorder root [] _ ih _ ht

/-! ## Searches that stay within the tree -/

mutual

/-- The uses of a name are nodes of the tree. -/
theorem within_of_mem_usesOf {name : Bytes} : ∀ (t : Tree) (above : List Tree),
    Within root ⟨t, above⟩ → ∀ c ∈ t.usesOf name above, Within root c
  | .node info children, above, h, c, hc => by
    rw [usesOf] at hc
    split at hc
    · cases hc
    · -- An identifier has no uses below it; any other node has the uses of its children.
      split at hc
      · dsimp only at hc
        split at hc
        · rcases List.mem_singleton.1 hc with rfl
          exact h
        · cases hc
      · exact within_of_mem_usesOfAll children _ (fun t ht => h.child ht) c hc

theorem within_of_mem_usesOfAll {name : Bytes} : ∀ (ts : List Tree) (above : List Tree),
    (∀ t ∈ ts, Within root ⟨t, above⟩) → ∀ c ∈ usesOfAll name above ts, Within root c
  | [], above, _, c, hc => by
    rw [usesOfAll] at hc
    cases hc
  | t :: rest, above, h, c, hc => by
    rw [usesOfAll] at hc
    rcases List.mem_append.1 hc with hc | hc
    · exact within_of_mem_usesOf t above (h t (by simp)) c hc
    · exact within_of_mem_usesOfAll rest above (fun u hu => h u (by simp [hu])) c hc

end

end Tree

end AffectedTests
