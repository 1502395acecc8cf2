import AffectedTests.Distinct
import AffectedTests.Proofs.Impacts
/-!
# The laws of merging

A merged list has one impact for each test that is mentioned, in the order in which the tests are mentioned
first, and for each test the first impact of those of the highest rank. There is only one such list. So it
does not matter whether impacts were merged before, together or in parts; and in whatever order they come,
each test is affected in the same way.

- `Impact.IsMerged`: what a list of impacts is merged to.
- `Impact.eq_merge_iff`: there is nothing else.
- `Impact.merge_laws`: merging again, merging parts, and merging in another order.
-/

namespace AffectedTests

/-! ## The order of first mention -/

section Order

variable {α : Type} [BEq α]

theorem distinct_concat (xs : List α) (x : α) :
    distinct (xs ++ [x]) =
      if (distinct xs).contains x then distinct xs else distinct xs ++ [x] := by
  unfold distinct addNew
  rw [List.foldl_append, List.foldl_cons, List.foldl_nil]

variable [LawfulBEq α]

/-- The distinct elements of a list stand in the order of their first places in it. -/
theorem pairwise_idxOf_distinct (xs : List α) :
    (distinct xs).Pairwise fun a b => xs.idxOf a < xs.idxOf b := by
  induction xs using List.reverseRecOn with
  | nil => exact List.Pairwise.nil
  | append_singleton xs x ih =>
    -- The elements that are known already keep their first places.
    have hplaces : ∀ a ∈ distinct xs, (xs ++ [x]).idxOf a = xs.idxOf a :=
      fun a ha => List.idxOf_append_of_mem (mem_distinct.1 ha)
    have hknown : (distinct xs).Pairwise fun a b => (xs ++ [x]).idxOf a < (xs ++ [x]).idxOf b := by
      refine ih.imp_of_mem fun {a b} ha hb hlt => ?_
      rw [hplaces a ha, hplaces b hb]
      exact hlt
    rw [distinct_concat]
    split
    · exact hknown
    · rename_i hnew
      refine List.pairwise_append.2 ⟨hknown, List.pairwise_singleton _ _, ?_⟩
      intro a ha b hb
      have hfresh : x ∉ xs := fun hx => hnew (List.contains_iff_mem.2 (mem_distinct.2 hx))
      rw [List.mem_singleton.1 hb, hplaces a ha, List.idxOf_append_of_notMem hfresh]
      have hlt := List.idxOf_lt_length_iff.2 (mem_distinct.1 ha)
      omega

/-- Elements that are told apart by their images are as distinct as these. -/
theorem distinct_map_of_injective {β : Type} [BEq β] [LawfulBEq β] {f : α → β} (hf : Function.Injective f)
    (xs : List α) : distinct (xs.map f) = (distinct xs).map f := by
  induction xs using List.reverseRecOn with
  | nil => rfl
  | append_singleton xs x ih =>
    have hknown : ((distinct xs).map f).contains (f x) = (distinct xs).contains x := by
      rw [Bool.eq_iff_iff, List.contains_iff_mem, List.contains_iff_mem, List.mem_map_of_injective hf]
    rw [List.map_append, List.map_singleton, distinct_concat, distinct_concat, ih, hknown]
    split <;> simp

end Order

theorem eq_of_map_eq {α β : Type} {f : β → α} {xs ys : List β} (h : xs.map f = ys.map f)
    (hinj : ∀ x ∈ xs, ∀ y ∈ ys, f x = f y → x = y) : xs = ys := by
  induction xs generalizing ys with
  | nil => exact (List.map_eq_nil_iff.1 h.symm).symm
  | cons x xs ih =>
    rcases List.map_eq_cons_iff.1 h.symm with ⟨y, ys, rfl, hy, hrest⟩
    rw [hinj x (by simp) y (by simp) hy.symm,
      ih hrest.symm fun x' hx' y' hy' => hinj x' (by simp [hx']) y' (by simp [hy'])]

namespace Impact

/-! ## What a list is merged to -/

/-- An impact is the first one of the highest rank for its test. -/
def IsFirstHighest (impacts : List Impact) (i : Impact) : Prop :=
  ∃ earlier later, impacts = earlier ++ i :: later ∧
    (∀ j ∈ earlier, j.key = i.key → j.kind.rank < i.kind.rank) ∧
    ∀ j ∈ later, j.key = i.key → j.kind.rank ≤ i.kind.rank

/-- A list has one impact for each test that is mentioned, in the order in which the tests are mentioned
first, and each impact is the first one of the highest rank for its test. -/
structure IsMerged (impacts merged : List Impact) : Prop where
  tests : ∀ test, test ∈ merged.map Impact.key ↔ test ∈ impacts.map Impact.key
  inOrder : (merged.map Impact.key).Pairwise fun a b =>
    (impacts.map Impact.key).idxOf a < (impacts.map Impact.key).idxOf b
  firstHighest : ∀ i ∈ merged, IsFirstHighest impacts i

variable {new i j : Impact} {merged impacts xs ys : List Impact} {test : Text × Text}

/-- Only one impact is the first one of the highest rank for a test. -/
theorem IsFirstHighest.eq (hi : IsFirstHighest impacts i) (hj : IsFirstHighest impacts j)
    (hkey : i.key = j.key) : i = j := by
  rcases hi with ⟨earlier, later, himpacts, hearlier, hlater⟩
  rcases hj with ⟨earlier', later', himpacts', hearlier', hlater'⟩
  -- If one of them stood before the other, it would be both lower and not lower.
  rcases List.append_eq_append_iff.1 (himpacts.symm.trans himpacts') with
    ⟨between, rfl, hrest⟩ | ⟨between, rfl, hrest⟩
  · cases between with
    | nil => exact (List.cons.inj hrest).1
    | cons first between =>
      rcases List.cons.inj hrest with ⟨rfl, rfl⟩
      have hlt := hearlier' i (by simp) hkey
      have hle := hlater j (by simp) hkey.symm
      omega
  · cases between with
    | nil => exact (List.cons.inj hrest).1.symm
    | cons first between =>
      rcases List.cons.inj hrest with ⟨rfl, rfl⟩
      have hlt := hearlier j (by simp) hkey.symm
      have hle := hlater' i (by simp) hkey
      omega

theorem keys_enter (new : Impact) (merged : List Impact) :
    (enter new merged).map Impact.key =
      if (merged.map Impact.key).contains new.key then merged.map Impact.key
      else merged.map Impact.key ++ [new.key] := by
  induction merged with
  | nil => rfl
  | cons old rest ih =>
    by_cases hsame : old.key = new.key
    · rw [enter, if_pos hsame, List.map_cons, key_ite _ hsame.symm, List.map_cons, if_pos (by simp [hsame])]
    · have hother : (new.key == old.key) = false := beq_eq_false_iff_ne.2 (Ne.symm hsame)
      rw [enter, if_neg hsame, List.map_cons, ih, List.map_cons, List.contains_cons, hother, Bool.false_or]
      split <;> rfl

/-- The tests of a merged list, in the order in which they are mentioned first. -/
theorem keys_merge (impacts : List Impact) :
    (merge impacts).map Impact.key = distinct (impacts.map Impact.key) := by
  induction impacts using List.reverseRecOn with
  | nil => rfl
  | append_singleton impacts x ih =>
    rw [merge_concat, keys_enter, ih, List.map_append, List.map_singleton, distinct_concat]

theorem isMerged_merge (impacts : List Impact) : IsMerged impacts (merge impacts) := by
  refine ⟨fun _ => mem_keys_merge, ?_, fun _ => exists_append_of_mem_merge⟩
  rw [keys_merge]
  exact pairwise_idxOf_distinct _

/-- A list is merged to what the rules say, and to nothing else. -/
theorem eq_merge_iff : merged = merge impacts ↔ IsMerged impacts merged := by
  constructor
  · rintro rfl
    exact isMerged_merge impacts
  · intro h
    have hmerge := isMerged_merge impacts
    have hkeys : merged.map Impact.key = (merge impacts).map Impact.key :=
      eq_of_pairwise (fun _ _ => Nat.lt_asymm) h.inOrder hmerge.inOrder fun test =>
        (h.tests test).trans (hmerge.tests test).symm
    exact eq_of_map_eq hkeys fun i hi j hj => (h.firstHighest i hi).eq (hmerge.firstHighest j hj)

/-! ## The laws -/

/-- How a test is affected by a list of impacts; the first impact on it tells. -/
def kindOf? (impacts : List Impact) (test : Text × Text) : Option ImpactKind :=
  (impacts.find? fun i => i.key = test).map (·.kind)

/-- In a merged list there is one impact for a test, and it tells how the test is affected. -/
theorem kindOf?_merge_eq_some_iff {kind : ImpactKind} :
    kindOf? (merge impacts) test = some kind ↔ ∃ i ∈ merge impacts, i.kind = kind ∧ i.key = test := by
  unfold kindOf?
  rw [Option.map_eq_some_iff]
  constructor
  · rintro ⟨i, hi, hkind⟩
    exact ⟨i, List.mem_of_find?_eq_some hi, hkind, by simpa using List.find?_some hi⟩
  · rintro ⟨i, hi, hkind, hkey⟩
    cases hfound : (merge impacts).find? fun i => i.key = test with
    | none => exact absurd hkey (by simpa using List.find?_eq_none.1 hfound i hi)
    | some j =>
      have hjkey : j.key = test := by simpa using List.find?_some hfound
      have heq : i = j := List.inj_on_of_nodup_map (nodup_keys_merge impacts) hi
        (List.mem_of_find?_eq_some hfound) (hkey.trans hjkey.symm)
      exact ⟨j, rfl, heq ▸ hkind⟩

/-- In another order each test is affected in the same way. -/
theorem kindOf?_merge_of_perm (h : xs.Perm ys) (test : Text × Text) :
    kindOf? (merge ys) test = kindOf? (merge xs) test := by
  ext kind
  rw [kindOf?_merge_eq_some_iff, kindOf?_merge_eq_some_iff, exists_kind_mem_merge_iff,
    exists_kind_mem_merge_iff]
  simp only [h.mem_iff]

theorem merge_merge (impacts : List Impact) : merge (merge impacts) = merge impacts := by
  simpa [merge] using merge_merge_append impacts []

/-- Merging keeps the first impact of the highest rank for each test, in the order of first mention;
merging again changes nothing, parts may be merged first, and the order of the impacts does not show in how
the tests are affected. -/
theorem merge_laws (xs ys : List Impact) :
    (∀ merged, merged = merge xs ↔ IsMerged xs merged) ∧
      merge (merge xs) = merge xs ∧
      merge (xs ++ ys) = merge (merge xs ++ merge ys) ∧
      (xs.Perm ys → ∀ test, kindOf? (merge ys) test = kindOf? (merge xs) test) :=
  ⟨fun _ => eq_merge_iff, merge_merge xs, (merge_merge_append xs ys).symm, kindOf?_merge_of_perm⟩

end Impact

/-! ## An example -/

namespace Reordered

/-- The test `x` is removed, another one is modified, and `x` is added again. -/
def impacts : List Impact :=
  [⟨"x", "a.test.js", .removed, none⟩, ⟨"y", "a.test.js", .modified, none⟩,
    ⟨"x", "a.test.js", .added, none⟩]

/-- The test `x` is affected in the same way, and it stays in front, whichever of its impacts comes
first. -/
theorem merge_laws_reverse :
    impacts.reverse.Perm impacts ∧
      (Impact.merge impacts).map (·.kind) = [.added, .modified] ∧
      (Impact.merge impacts.reverse).map (·.kind) = [.added, .modified] ∧
      Impact.kindOf? (Impact.merge impacts) ("a.test.js", "x") =
        Impact.kindOf? (Impact.merge impacts.reverse) ("a.test.js", "x") :=
  ⟨List.reverse_perm impacts, by decide, by decide,
    (Impact.merge_laws impacts.reverse impacts).2.2.2 (List.reverse_perm impacts) _⟩

end Reordered

end AffectedTests
