/-!
# Lists without repetition

Elements are kept in the order of their first occurrence. A list whose elements stand in a strict order has
no repetition either, and there is only one such list with these elements.
-/

namespace AffectedTests

section Order

variable {α : Type} {R : α → α → Prop} {xs ys : List α}

theorem nodup_of_pairwise (hasymm : ∀ a b, R a b → ¬ R b a) (h : xs.Pairwise R) : xs.Nodup := by
  refine h.imp ?_
  rintro a b hlt rfl
  exact hasymm a a hlt hlt

/-- Two lists that stand in one strict order and have the same elements are the same. -/
theorem eq_of_pairwise (hasymm : ∀ a b, R a b → ¬ R b a) (hxs : xs.Pairwise R) (hys : ys.Pairwise R)
    (hmem : ∀ a, a ∈ xs ↔ a ∈ ys) : xs = ys := by
  have hperm : xs.Perm ys :=
    (List.perm_ext_iff_of_nodup (nodup_of_pairwise hasymm hxs) (nodup_of_pairwise hasymm hys)).2 hmem
  exact hperm.eq_of_pairwise (fun a b _ _ hab hba => absurd hba (hasymm a b hab)) hxs hys

end Order

variable {α : Type} [BEq α]

/-- Adds at the end the elements of a list that are not known yet. -/
def addNew (known : List α) (xs : List α) : List α :=
  xs.foldl (fun known x => if known.contains x then known else known ++ [x]) known

/-- The distinct elements of a list. -/
def distinct (xs : List α) : List α :=
  addNew [] xs

variable {x : α} {known xs : List α}

/-- What is known stays in front. -/
theorem prefix_addNew : known <+: addNew known xs := by
  induction xs generalizing known with
  | nil => exact List.prefix_rfl
  | cons y xs ih =>
    have hstep : known <+: if known.contains y then known else known ++ [y] := by
      split
      · exact List.prefix_rfl
      · exact List.prefix_append known [y]
    unfold addNew at ih ⊢
    rw [List.foldl_cons]
    exact hstep.trans ih

/-- The first element stays the first one. -/
theorem exists_distinct_cons (x : α) (xs : List α) : ∃ more, distinct (x :: xs) = x :: more := by
  have hfirst : [x] <+: addNew [x] xs := prefix_addNew
  rcases hfirst with ⟨more, hmore⟩
  exact ⟨more, hmore.symm⟩

variable [LawfulBEq α]

theorem mem_addNew : x ∈ addNew known xs ↔ x ∈ known ∨ x ∈ xs := by
  induction xs generalizing known with
  | nil => simp [addNew]
  | cons y xs ih =>
    -- Whether the first element is new or not, it is known to the rest.
    have hknown : x ∈ (if known.contains y then known else known ++ [y]) ↔ x ∈ known ∨ x = y := by
      split
      · rename_i hy
        have hy : y ∈ known := List.contains_iff_mem.1 hy
        exact ⟨.inl, fun h => h.elim id fun heq => heq ▸ hy⟩
      · simp
    unfold addNew at ih ⊢
    rw [List.foldl_cons, ih, hknown, List.mem_cons, or_assoc]

theorem nodup_addNew (h : known.Nodup) : (addNew known xs).Nodup := by
  induction xs generalizing known with
  | nil => exact h
  | cons y xs ih =>
    unfold addNew at ih ⊢
    rw [List.foldl_cons]
    refine ih ?_
    split
    · exact h
    · rename_i hy
      refine List.nodup_append.2 ⟨h, List.nodup_cons.2 ⟨List.not_mem_nil, List.nodup_nil⟩, ?_⟩
      rintro a ha b hb rfl
      cases List.mem_singleton.1 hb
      exact hy (List.contains_iff_mem.2 ha)

/-- Nothing is lost, and nothing comes in. -/
theorem mem_distinct : x ∈ distinct xs ↔ x ∈ xs := by
  unfold distinct
  rw [mem_addNew]
  simp

theorem nodup_distinct : (distinct xs).Nodup :=
  nodup_addNew List.nodup_nil

end AffectedTests
