import AffectedTests.Impact.Basic
import Mathlib.Data.List.Induction
import Mathlib.Data.List.Perm.Basic
import Mathlib.Data.List.Nodup
/-!
# Merged impacts

Merging keeps one impact for each test that is mentioned: the first one of those of the highest rank. So
what was merged before may be merged again without loss, and in another order at most the choice among
equals changes.

- `Impact.exists_append_of_mem_merge`: which impact is kept.
- `Impact.merge_merge_append`: parts may be merged first.
- `Impact.merge_perm`: the order of the impacts.
-/

namespace AffectedTests

theorem ImpactKind.rank_inj {k k' : ImpactKind} (h : k.rank = k'.rank) : k = k' := by
  cases k <;> cases k' <;> first | rfl | cases h

namespace Impact

variable {new : Impact} {merged impacts : List Impact} {key : Text × Text}

theorem mem_keys_enter :
    key ∈ (enter new merged).map Impact.key ↔ key = new.key ∨ key ∈ merged.map Impact.key := by
  induction merged with
  | nil => simp [enter]
  | cons old rest ih =>
    unfold enter
    split
    · -- Whichever of the two impacts is kept, its key is the same.
      rename_i hsame
      split <;> simp [hsame]
    · rw [List.map_cons, List.mem_cons, ih, List.map_cons, List.mem_cons]
      exact or_left_comm

/-- The tests of a merged list are the tests that were mentioned. -/
theorem mem_keys_merge : key ∈ (merge impacts).map Impact.key ↔ key ∈ impacts.map Impact.key := by
  -- The induction is over the impacts, for every list that was merged before.
  have hfold : ∀ merged : List Impact,
      key ∈ (impacts.foldl (fun merged new => enter new merged) merged).map Impact.key ↔
        key ∈ merged.map Impact.key ∨ key ∈ impacts.map Impact.key := by
    induction impacts with
    | nil => simp
    | cons new impacts ih =>
      intro merged
      rw [List.foldl_cons, ih, mem_keys_enter, List.map_cons, List.mem_cons, or_assoc]
      exact or_left_comm
  rw [merge, hfold []]
  simp

/-- Each test of a merged list is listed once. -/
theorem nodup_keys_enter (h : (merged.map Impact.key).Nodup) :
    ((enter new merged).map Impact.key).Nodup := by
  induction merged with
  | nil => simp [enter]
  | cons old rest ih =>
    rw [List.map_cons, List.nodup_cons] at h
    unfold enter
    split
    · rename_i hsame
      split
      · simpa [← hsame] using h
      · simpa using h
    · rename_i hother
      rw [List.map_cons, List.nodup_cons, mem_keys_enter]
      exact ⟨fun hmem => hmem.elim hother h.1, ih h.2⟩

theorem nodup_keys_merge (impacts : List Impact) : ((merge impacts).map Impact.key).Nodup := by
  have hfold : ∀ merged : List Impact, (merged.map Impact.key).Nodup →
      ((impacts.foldl (fun merged new => enter new merged) merged).map Impact.key).Nodup := by
    induction impacts with
    | nil => exact fun _ h => h
    | cons new impacts ih => exact fun merged h => ih _ (nodup_keys_enter h)
  exact hfold [] List.nodup_nil

/-! ## Merging parts -/

section Parts

variable {x y old : Impact}

theorem key_ite (p : Prop) [Decidable p] (h : x.key = y.key) : (if p then x else y).key = y.key := by
  split
  · exact h
  · rfl

/-- Of two impacts on one test that are entered one after the other the higher one decides. -/
theorem enter_enter_of_key_eq (h : y.key = x.key) :
    enter x (enter y merged) = enter (if y.kind.rank < x.kind.rank then x else y) merged := by
  have hbest := key_ite (y.kind.rank < x.kind.rank) h.symm
  induction merged with
  | nil => simp [enter, h]
  | cons e rest ih =>
    simp only [enter, hbest]
    by_cases he : e.key = y.key
    · rw [if_pos he, if_pos he]
      have hkept := key_ite (e.kind.rank < y.kind.rank) he.symm
      rw [enter, if_pos (hkept.trans (he.trans h))]
      -- Whichever of the three is the first of the highest rank is kept on both ways.
      by_cases h₁ : e.kind.rank < y.kind.rank <;> by_cases h₂ : y.kind.rank < x.kind.rank <;>
        by_cases h₃ : e.kind.rank < x.kind.rank <;> simp [h₁, h₂, h₃] <;> omega
    · rw [if_neg he, if_neg he, enter, if_neg fun hx => he (hx.trans h.symm), ih]

/-- Impacts on different tests may change places, if the one test is known already. -/
theorem enter_comm (hne : y.key ≠ x.key) (hmem : x.key ∈ merged.map Impact.key) :
    enter y (enter x merged) = enter x (enter y merged) := by
  induction merged with
  | nil => cases hmem
  | cons e rest ih =>
    by_cases hx : e.key = x.key
    · have hy : e.key ≠ y.key := fun h => hne (h.symm.trans hx)
      have hkept := key_ite (e.kind.rank < x.kind.rank) hx.symm
      have hkept' : (if e.kind.rank < x.kind.rank then x else e).key ≠ y.key :=
        fun h => hy (hkept.symm.trans h)
      simp only [enter, if_pos hx, if_neg hy, if_neg hkept']
    · have hrest : x.key ∈ rest.map Impact.key := by
        rw [List.map_cons, List.mem_cons] at hmem
        exact hmem.resolve_left fun h => hx h.symm
      by_cases hy : e.key = y.key
      · have hkept := key_ite (e.kind.rank < y.kind.rank) hy.symm
        have hkept' : (if e.kind.rank < y.kind.rank then y else e).key ≠ x.key :=
          fun h => hx (hkept.symm.trans h)
        simp only [enter, if_neg hx, if_pos hy, if_neg hkept']
      · simp only [enter, if_neg hx, if_neg hy, ih hrest]

theorem foldl_enter_comm (hmem : x.key ∈ merged.map Impact.key)
    (hnew : x.key ∉ impacts.map Impact.key) :
    impacts.foldl (fun m i => enter i m) (enter x merged) =
      enter x (impacts.foldl (fun m i => enter i m) merged) := by
  induction impacts generalizing merged with
  | nil => rfl
  | cons y rest ih =>
    rw [List.map_cons, List.mem_cons, not_or] at hnew
    rw [List.foldl_cons, List.foldl_cons, enter_comm (fun h => hnew.1 h.symm) hmem]
    exact ih (mem_keys_enter.2 (.inr hmem)) hnew.2

/-- Entering a list that an impact was entered into is entering the list and then the impact. -/
theorem foldl_enter_enter (hnodup : (impacts.map Impact.key).Nodup) :
    (enter x impacts).foldl (fun m i => enter i m) merged =
      enter x (impacts.foldl (fun m i => enter i m) merged) := by
  induction impacts generalizing merged with
  | nil => rfl
  | cons e rest ih =>
    rw [List.map_cons, List.nodup_cons] at hnodup
    rw [enter]
    split
    · rename_i hkey
      rw [List.foldl_cons, List.foldl_cons, ← foldl_enter_comm
        (mem_keys_enter.2 (.inl hkey.symm)) (hkey ▸ hnodup.1), enter_enter_of_key_eq hkey]
    · rw [List.foldl_cons, List.foldl_cons, ih hnodup.2]

theorem merge_concat (impacts : List Impact) (x : Impact) :
    merge (impacts ++ [x]) = enter x (merge impacts) := by
  simp [merge]

theorem foldl_enter_merge (impacts : List Impact) :
    (merge impacts).foldl (fun m i => enter i m) merged =
      impacts.foldl (fun m i => enter i m) merged := by
  induction impacts using List.reverseRecOn with
  | nil => rfl
  | append_singleton impacts x ih =>
    rw [merge_concat, foldl_enter_enter (nodup_keys_merge impacts), ih, List.foldl_append]
    rfl

/-- Merging parts first makes no difference. -/
theorem merge_merge_append (xs ys : List Impact) : merge (merge xs ++ merge ys) = merge (xs ++ ys) := by
  have hxs : merge (merge xs) = merge xs := foldl_enter_merge xs
  have happend : ∀ as bs : List Impact,
      merge (as ++ bs) = bs.foldl (fun m i => enter i m) (merge as) := fun as bs =>
    List.foldl_append
  rw [happend, happend, foldl_enter_merge, hxs]

end Parts

/-! ## The impact that is kept -/

theorem mem_enter (hnodup : (merged.map Impact.key).Nodup) {i : Impact} (h : i ∈ enter new merged) :
    (i ∈ merged ∧ (new.key = i.key → new.kind.rank ≤ i.kind.rank)) ∨
      (i = new ∧ ∀ j ∈ merged, j.key = new.key → j.kind.rank < new.kind.rank) := by
  induction merged with
  | nil =>
    rcases List.mem_singleton.1 h with rfl
    exact .inr ⟨rfl, by simp⟩
  | cons old rest ih =>
    rw [List.map_cons, List.nodup_cons] at hnodup
    have hapart : ∀ j ∈ rest, j.key ≠ old.key :=
      fun j hj hkey => hnodup.1 (hkey ▸ List.mem_map.2 ⟨j, hj, rfl⟩)
    rw [enter] at h
    split at h
    · rename_i hkey
      rcases List.mem_cons.1 h with rfl | h
      · split
        · rename_i hlt
          refine .inr ⟨rfl, ?_⟩
          intro j hj hjkey
          rcases List.mem_cons.1 hj with rfl | hj
          · exact hlt
          · exact absurd (hjkey.trans hkey.symm) (hapart j hj)
        · rename_i hle
          exact .inl ⟨by simp, fun _ => by omega⟩
      · exact .inl ⟨by simp [h], fun hi => absurd (hi.symm.trans hkey.symm) (hapart i h)⟩
    · rename_i hkey
      rcases List.mem_cons.1 h with rfl | h
      · exact .inl ⟨by simp, fun hi => absurd hi.symm hkey⟩
      · rcases ih hnodup.2 h with ⟨hmem, hle⟩ | ⟨rfl, hlt⟩
        · exact .inl ⟨by simp [hmem], hle⟩
        · refine .inr ⟨rfl, ?_⟩
          intro j hj hjkey
          rcases List.mem_cons.1 hj with rfl | hj
          · exact absurd hjkey hkey
          · exact hlt j hj hjkey

/-- An impact that is kept is the first one of the highest rank for its test. -/
theorem exists_append_of_mem_merge {i : Impact} (h : i ∈ merge impacts) :
    ∃ earlier later, impacts = earlier ++ i :: later ∧
      (∀ j ∈ earlier, j.key = i.key → j.kind.rank < i.kind.rank) ∧
      ∀ j ∈ later, j.key = i.key → j.kind.rank ≤ i.kind.rank := by
  induction impacts using List.reverseRecOn generalizing i with
  | nil => cases h
  | append_singleton impacts x ih =>
    rw [merge_concat] at h
    rcases mem_enter (nodup_keys_merge impacts) h with ⟨hmem, hle⟩ | ⟨rfl, hlt⟩
    · rcases ih hmem with ⟨earlier, later, rfl, hearlier, hlater⟩
      refine ⟨earlier, later ++ [x], by simp, hearlier, ?_⟩
      intro j hj hkey
      rcases List.mem_append.1 hj with hj | hj
      · exact hlater j hj hkey
      · rcases List.mem_singleton.1 hj with rfl
        exact hle hkey
    · refine ⟨impacts, [], rfl, ?_, by simp⟩
      -- Before the last impact one on the same test was kept, and it is not lower than the others.
      intro j hj hkey
      have hkept : i.key ∈ (merge impacts).map Impact.key :=
        mem_keys_merge.2 (List.mem_map.2 ⟨j, hj, hkey⟩)
      rcases List.mem_map.1 hkept with ⟨m, hm, hmkey⟩
      have hmlt := hlt m hm hmkey
      rcases ih hm with ⟨earlier, later, rfl, hearlier, hlater⟩
      have hjm : j.kind.rank ≤ m.kind.rank := by
        rcases List.mem_append.1 hj with hj | hj
        · exact Nat.le_of_lt (hearlier j hj (hkey.trans hmkey.symm))
        · rcases List.mem_cons.1 hj with rfl | hj
          · exact Nat.le_refl _
          · exact hlater j hj (hkey.trans hmkey.symm)
      omega

theorem le_of_mem_merge {i j : Impact} (h : i ∈ merge impacts) (hj : j ∈ impacts)
    (hkey : j.key = i.key) : j.kind.rank ≤ i.kind.rank := by
  rcases exists_append_of_mem_merge h with ⟨earlier, later, rfl, hearlier, hlater⟩
  rcases List.mem_append.1 hj with hj | hj
  · exact Nat.le_of_lt (hearlier j hj hkey)
  · rcases List.mem_cons.1 hj with rfl | hj
    · exact Nat.le_refl _
    · exact hlater j hj hkey

theorem mem_of_mem_merge {i : Impact} (h : i ∈ merge impacts) : i ∈ impacts := by
  rcases exists_append_of_mem_merge h with ⟨earlier, later, rfl, -, -⟩
  simp

/-- An impact of some kind is kept for a test if there is one and none of a higher rank. -/
theorem exists_kind_mem_merge_iff {kind : ImpactKind} :
    (∃ i ∈ merge impacts, i.kind = kind ∧ i.key = key) ↔
      (∃ i ∈ impacts, i.kind = kind ∧ i.key = key) ∧
        ∀ j ∈ impacts, j.key = key → j.kind.rank ≤ kind.rank := by
  constructor
  · rintro ⟨i, hi, rfl, rfl⟩
    exact ⟨⟨i, mem_of_mem_merge hi, rfl, rfl⟩, fun j hj hkey => le_of_mem_merge hi hj hkey⟩
  · rintro ⟨⟨i, hi, rfl, rfl⟩, hhighest⟩
    have hkept : i.key ∈ (merge impacts).map Impact.key := mem_keys_merge.2 (List.mem_map_of_mem hi)
    rcases List.mem_map.1 hkept with ⟨m, hm, hkey⟩
    have hle := hhighest m (mem_of_mem_merge hm) hkey
    have hge := le_of_mem_merge hm hi hkey.symm
    exact ⟨m, hm, ImpactKind.rank_inj (Nat.le_antisymm hle hge), hkey⟩

/-! ## The order of the impacts -/

/-- An impact without the file that an indirect one comes from. -/
def unrelated (i : Impact) : Impact :=
  { i with related := if i.kind = .indirect then none else i.related }

/-- Impacts of one kind on one test differ in the file that they come from at most. -/
theorem unrelated_eq {i j : Impact} (hi : i.kind ≠ .indirect → i.related = none)
    (hj : j.kind ≠ .indirect → j.related = none) (hkey : i.key = j.key) (hkind : i.kind = j.kind) :
    i.unrelated = j.unrelated := by
  have hrelated : i.unrelated.related = none ∧ j.unrelated.related = none := by
    unfold unrelated
    constructor
    · by_cases h : i.kind = .indirect <;> simp [h, hi]
    · by_cases h : j.kind = .indirect <;> simp [h, hj]
  have hfile : i.file = j.file := congrArg Prod.fst hkey
  have hname : i.testName = j.testName := congrArg Prod.snd hkey
  have hparts : ∀ k : Impact, k.unrelated = ⟨k.testName, k.file, k.kind, k.unrelated.related⟩ :=
    fun _ => rfl
  rw [hparts i, hparts j, hrelated.1, hrelated.2, hfile, hname, hkind]

theorem mem_unrelated_of_perm {xs ys : List Impact} (h : xs.Perm ys)
    (hrelated : ∀ i ∈ xs, i.kind ≠ .indirect → i.related = none) {a : Impact}
    (ha : a ∈ (merge xs).map unrelated) : a ∈ (merge ys).map unrelated := by
  rcases List.mem_map.1 ha with ⟨i, hi, rfl⟩
  have hixs := mem_of_mem_merge hi
  have hkey : i.key ∈ (merge ys).map Impact.key :=
    mem_keys_merge.2 (List.mem_map.2 ⟨i, h.subset hixs, rfl⟩)
  rcases List.mem_map.1 hkey with ⟨j, hj, hjkey⟩
  have hjxs := h.symm.subset (mem_of_mem_merge hj)
  -- Both are of the highest rank for the test, and a kind is known by its rank.
  have hkind : j.kind = i.kind := ImpactKind.rank_inj (Nat.le_antisymm
    (le_of_mem_merge hi hjxs hjkey) (le_of_mem_merge hj (h.subset hixs) hjkey.symm))
  exact List.mem_map.2 ⟨j, hj, unrelated_eq (hrelated j hjxs) (hrelated i hixs) hjkey hkind⟩

theorem nodup_unrelated_merge (impacts : List Impact) : ((merge impacts).map unrelated).Nodup := by
  refine List.Nodup.of_map Impact.key ?_
  rw [List.map_map]
  exact nodup_keys_merge impacts

/-- In another order the same tests are affected in the same way. -/
theorem merge_perm {xs ys : List Impact} (h : xs.Perm ys)
    (hrelated : ∀ i ∈ xs, i.kind ≠ .indirect → i.related = none) :
    ((merge xs).map unrelated).Perm ((merge ys).map unrelated) := by
  refine (List.perm_ext_iff_of_nodup (nodup_unrelated_merge xs) (nodup_unrelated_merge ys)).2 ?_
  intro a
  exact ⟨mem_unrelated_of_perm h hrelated,
    mem_unrelated_of_perm h.symm fun i hi => hrelated i (h.symm.subset hi)⟩

end Impact

end AffectedTests
