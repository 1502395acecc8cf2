import AffectedTests.Proofs.Bindings
import AffectedTests.Proofs.Extents
import AffectedTests.Proofs.Identities
/-!
# The test around a node

The tests of a file are found in two ways: all of them at once, by a look at every node, and the one
around a reference, by going up from its node. The first way lists each call that declares a test exactly
once, in document order; the second one ends at the innermost of the listed calls, and tells the same of
it.

- `SourceFile.ListsTests`: a list of all tests of a file, each with the address of its call.
- `Reference.StandsAt`: a reference at the node at an address.
- `SourceFile.exists_listed_tests`: the tests of a file are such a list.
- `SourceFile.tests_agree`: the test around a reference is the innermost one of this list.
-/

namespace AffectedTests

open Cursor (Within)

/-! ## Lists of tests -/

/-- An address leads to a node that is properly around the node at another one. -/
def Encloses (outer inner : List Nat) : Prop :=
  outer <+: inner ∧ outer ≠ inner

/-- A list of all calls of a file that declare a test, in document order: the address of the call, and
what it declares. -/
structure SourceFile.ListsTests (f : SourceFile) (keywords : List Text)
    (listed : List (List Nat × TestDeclaration)) : Prop where
  ordered : (listed.map Prod.fst).Pairwise (· < ·)
  mem_iff : ∀ address t, (address, t) ∈ listed ↔
    ∃ c, f.top.at? address = some c ∧ c.test? keywords f.path = .ok (some t)

/-- A test is that of the innermost call around the node at an address. -/
def IsInnermost (listed : List (List Nat × TestDeclaration)) (address : List Nat) (t : TestDeclaration) :
    Prop :=
  ∃ outer, (outer, t) ∈ listed ∧ Encloses outer address ∧
    ∀ l ∈ listed, Encloses l.1 address → l.1 <+: outer

/-- A reference at the node at an address of a file. It is on the line of the node or, if the node is the
name in an import, on that of the node right around it. -/
structure Reference.StandsAt (r : Reference) (f : SourceFile) (address : List Nat) : Prop where
  file : r.file = f.path
  node : f.top.at? address = some r.node
  line : r.line = r.node.startLine ∨ ∃ p, r.node.parent? = some p ∧ r.line = p.startLine

theorem encloses_concat_iff {outer address : List Nat} {i : Nat} :
    Encloses outer (address ++ [i]) ↔ outer <+: address := by
  unfold Encloses
  rw [List.prefix_concat_iff]
  constructor
  · rintro ⟨rfl | hlead, hne⟩
    · exact absurd rfl hne
    · exact hlead
  · intro hlead
    refine ⟨.inr hlead, ?_⟩
    rintro rfl
    exact absurd hlead.length_le (by simp)

theorem prefix_iff_encloses_or_eq {outer address : List Nat} :
    outer <+: address ↔ Encloses outer address ∨ outer = address := by
  unfold Encloses
  constructor
  · intro hlead
    by_cases heq : outer = address
    · exact .inr heq
    · exact .inl ⟨hlead, heq⟩
  · rintro (⟨hlead, -⟩ | rfl)
    · exact hlead
    · exact List.prefix_rfl

/-! ## Where nodes and references stand -/

/-- The nodes of a tree are those at its addresses. -/
theorem Cursor.within_iff_at? {root : Tree} {c : Cursor} :
    Within root c ↔ ∃ address, (ofRoot root).at? address = some c := by
  constructor
  · intro hc
    have hmem : some c ∈ root.addresses.map (ofRoot root).at? := by
      rw [show root.addresses.map (ofRoot root).at? = (root.preorder []).map some from
        Tree.map_at?_addresses root []]
      exact List.mem_map.2 ⟨c, Tree.mem_preorder_iff.2 hc, rfl⟩
    rcases List.mem_map.1 hmem with ⟨address, -, haddress⟩
    exact ⟨address, haddress⟩
  · rintro ⟨address, haddress⟩
    exact Within.root.of_at? haddress

namespace Reference

variable {f : SourceFile} {c : Cursor} {r : Reference}

/-- A use of a name at a node of a file stands somewhere. -/
theorem exists_standsAt_use (hc : Within f.tree c) :
    ∃ address, (Reference.use f.path c).StandsAt f address := by
  rcases Cursor.within_iff_at?.1 hc with ⟨address, haddress⟩
  exact ⟨address, rfl, haddress, .inl rfl⟩

/-- So does a name that an import binds. -/
theorem exists_standsAt_of_bindsAt {exported : Text} (hc : Within f.tree c)
    (h : f.BindsAt c exported r) : ∃ address, r.StandsAt f address := by
  rcases h with ⟨at_, node, name, hbinds, -, rfl⟩
  cases hbinds with
  | default =>
    rcases Cursor.within_iff_at?.1 hc with ⟨address, haddress⟩
    exact ⟨address, rfl, haddress, .inl rfl⟩
  | @named _ original _ _ hspec _ hname _ =>
    -- The name and the alias are both children of the specifier.
    have hchild : ∃ field, at_.child? field = some ((at_.child? .alias).getD original) := by
      cases halias : at_.child? .alias with
      | none => exact ⟨.name, hname⟩
      | some alias_ => exact ⟨.alias, halias⟩
    rcases hchild with ⟨field, hfield⟩
    rcases Cursor.within_iff_at?.1 ((hc.of_mem_namedChildren hspec).of_child? hfield) with
      ⟨address, haddress⟩
    exact ⟨address, rfl, haddress, .inr ⟨at_, SourceFile.parent?_of_child? hfield, rfl⟩⟩

/-- The line of a reference is one of the lines of each node around its own. -/
theorem StandsAt.line_covered {address : List Nat} (h : r.StandsAt f address) (hplaced : f.Placed)
    {e : Cursor} (he : e ∈ r.node.enclosing) : e.startLine ≤ r.line ∧ r.line ≤ e.endLine := by
  have hw : Within f.tree r.node := Cursor.within_iff_at?.2 ⟨address, h.node⟩
  rcases h.line with hline | ⟨p, hp, hline⟩
  · rw [hline]
    exact hplaced.startLine_covered hw (List.mem_cons_of_mem _ he)
  · rw [hline]
    have hparent : p ∈ r.node.enclosing := Cursor.mem_enclosing_of_parent? hp
    rw [Cursor.enclosing_of_parent? hp] at he
    exact hplaced.startLine_covered (hw.of_mem_enclosing hparent) he

end Reference

/-! ## The list and the way up -/

namespace SourceFile

variable {f : SourceFile} {keywords : List Text} {found : List TestDeclaration}
  {listed : List (List Nat × TestDeclaration)} {c : Cursor} {t : TestDeclaration}

/-- The tests of a file are those of a list of all calls that declare one. -/
theorem exists_listed_tests (h : f.tests keywords = .ok found) :
    ∃ listed, found = listed.map Prod.snd ∧ f.ListsTests keywords listed := by
  rcases Fallible.map_eq_ok.1 h with ⟨looked, hlooked, rfl⟩
  rcases Fallible.exists_listed_of_mapM hlooked (Tree.map_at?_addresses f.tree []) with
    ⟨listed, hlisted, hsub, hmem⟩
  refine ⟨listed, hlisted, (Tree.pairwise_addresses f.tree).sublist hsub, fun address t => ?_⟩
  rw [hmem]
  refine and_iff_right_of_imp ?_
  rintro ⟨c, hc, -⟩
  exact (Tree.mem_addresses_iff f.tree [] address).2 (Option.isSome_iff_exists.2 ⟨c, hc⟩)

theorem exists_test?_of_tests (h : f.tests keywords = .ok found) (hc : Within f.tree c) :
    ∃ o, c.test? keywords f.path = .ok o := by
  rcases Fallible.map_eq_ok.1 h with ⟨looked, hlooked, -⟩
  rcases Fallible.exists_of_mapM_eq_ok hlooked (Tree.mem_preorder_iff.2 hc) with ⟨o, -, ho⟩
  exact ⟨o, ho⟩

/-- The way up from the node at an address ends at the innermost of the listed calls around it. -/
theorem exists_enclosingTest? (hanswers : ∀ c, Within f.tree c → ∃ o, c.test? keywords f.path = .ok o)
    (hlists : f.ListsTests keywords listed) {address : List Nat} (hc : f.top.at? address = some c) :
    ∃ o, c.enclosingTest? keywords f.path = .ok o ∧
      (o = none ↔ ∀ l ∈ listed, ¬ Encloses l.1 address) ∧
      ∀ t, o = some t → IsInnermost listed address t := by
  induction address using List.reverseRecOn generalizing c with
  | nil =>
    cases hc
    refine ⟨none, rfl, iff_of_true rfl fun l _ hencloses => ?_, fun t ht => nomatch ht⟩
    exact hencloses.2 (List.prefix_nil.1 hencloses.1)
  | append_singleton address i ih =>
    rcases Cursor.enclosing_of_at?_concat hc with ⟨p, hp, haround⟩
    rcases hanswers p (Within.root.of_at? hp) with ⟨o, ho⟩
    unfold Cursor.enclosingTest?
    rw [haround, List.findSomeM?_cons, ho]
    cases o with
    | some t =>
      -- The parent declares a test: nothing that encloses the node is further inside.
      have hlisted : (address, t) ∈ listed := (hlists.mem_iff address t).2 ⟨p, hp, ho⟩
      have hencloses : Encloses address (address ++ [i]) := encloses_concat_iff.2 List.prefix_rfl
      refine ⟨some t, rfl, iff_of_false (fun h => nomatch h) fun hnot => hnot _ hlisted hencloses, ?_⟩
      rintro t' ⟨⟩
      exact ⟨address, hlisted, hencloses, fun l _ hl => encloses_concat_iff.1 hl⟩
    | none =>
      -- The parent declares none, so the listed calls around the node are those around the parent.
      have hsame : ∀ l ∈ listed, (Encloses l.1 (address ++ [i]) ↔ Encloses l.1 address) := by
        rintro ⟨outer, t⟩ hl
        rw [encloses_concat_iff, prefix_iff_encloses_or_eq]
        refine or_iff_left ?_
        rintro rfl
        rcases (hlists.mem_iff _ t).1 hl with ⟨p', hp', ht⟩
        cases hp.symm.trans hp'
        cases ho.symm.trans ht
      rcases ih hp with ⟨o, ho, hnone, hsome⟩
      refine ⟨o, ho, hnone.trans (forall₂_congr fun l hl => not_congr (hsame l hl).symm), fun t ht => ?_⟩
      rcases hsome t ht with ⟨outer, hlisted, hencloses, hinner⟩
      exact ⟨outer, hlisted, (hsame _ hlisted).2 hencloses,
        fun l hl hle => hinner l hl ((hsame l hl).1 hle)⟩

/-- The tests around references are those of the list. A list holds each call of the file that declares a
test once, in document order. Around a reference nothing is found if none of these calls is around its
node; otherwise what the innermost of these calls declares is found, and its lines hold that of the
reference. -/
theorem tests_agree (hplaced : f.Placed) (h : f.tests keywords = .ok found) :
    ∃ listed, found = listed.map Prod.snd ∧ f.ListsTests keywords listed ∧
      ∀ (r : Reference) address, r.StandsAt f address →
        ∃ o, r.node.enclosingTest? keywords r.file = .ok o ∧
          (o = none ↔ ∀ l ∈ listed, ¬ Encloses l.1 address) ∧
          ∀ t, o = some t →
            IsInnermost listed address t ∧ t.firstLine ≤ r.line ∧ r.line ≤ t.lastLine := by
  rcases exists_listed_tests h with ⟨listed, hfound, hlists⟩
  refine ⟨listed, hfound, hlists, fun r address hr => ?_⟩
  rcases exists_enclosingTest? (fun c hc => exists_test?_of_tests h hc) hlists hr.node with
    ⟨o, ho, hnone, hsome⟩
  rw [← hr.file] at ho
  refine ⟨o, ho, hnone, ?_⟩
  rintro t rfl
  rcases Fallible.findSomeM?_eq_ok_some ho with ⟨e, he, ht⟩
  rcases Cursor.exists_name_of_test? ht with ⟨name, rfl⟩
  exact ⟨hsome _ rfl, hr.line_covered hplaced he⟩

end SourceFile

/-! ## A suite with a test -/

namespace Suite

def source : Bytes :=
  [100, 101, 115, 99, 114, 105, 98, 101, 40, 34, 115, 34, 44, 32, 40, 41, 32, 61, 62, 32, 123, 10,
    32, 32, 116, 101, 115, 116, 40, 34, 120, 34, 44, 32, 102, 41, 59, 10, 125, 41, 59, 10]

def rows : List TreeRow :=
  [⟨0, .program, true, none, 0, 42⟩,
    ⟨1, .other "expression_statement", true, none, 0, 41⟩,
    ⟨2, .callExpression, true, none, 0, 40⟩,
    ⟨3, .identifier, true, some .function, 0, 8⟩,
    ⟨3, .arguments, true, some .arguments, 8, 40⟩,
    ⟨4, .string, true, none, 9, 12⟩,
    ⟨4, .arrowFunction, true, none, 14, 39⟩,
    ⟨5, .formalParameters, true, some (.other "parameters"), 14, 16⟩,
    ⟨5, .other "statement_block", true, some (.other "body"), 20, 39⟩,
    ⟨6, .other "expression_statement", true, none, 24, 37⟩,
    ⟨7, .callExpression, true, none, 24, 36⟩,
    ⟨8, .identifier, true, some .function, 24, 28⟩,
    ⟨8, .arguments, true, some .arguments, 28, 36⟩,
    ⟨9, .string, true, none, 29, 32⟩,
    ⟨9, .identifier, true, none, 34, 35⟩]

/-- A suite with a test that uses a function `f`:

```
describe("s", () => {
  test("x", f);
});
```
-/
def file : SourceFile :=
  ⟨"/p/a.test.js", .javascript, source, Tree.ofRows source rows⟩

def keywords : List Text := ["describe", "test"]

def suite : TestDeclaration :=
  ⟨"s", 1, 3, "/p/a.test.js"⟩

def test : TestDeclaration :=
  ⟨"x", 2, 2, "/p/a.test.js"⟩

/-- Where the function is used. -/
def address : List Nat :=
  [0, 0, 1, 1, 1, 0, 0, 1, 1]

/-- The suite and the test are listed in this order, and the test is the innermost of the two around the
use of the function. -/
theorem tests_agree_nested : file.Placed ∧ file.tests keywords = .ok [suite, test] ∧
    ∃ c, file.top.at? address = some c ∧ c.text = .ok "f" ∧
      c.enclosingTest? keywords file.path = .ok (some test) ∧
      ∃ listed, [suite, test] = listed.map Prod.snd ∧ file.ListsTests keywords listed ∧
        IsInnermost listed address test := by
  have hplaced : file.Placed := SourceFile.placed_of_all (by decide)
  have htests : file.tests keywords = .ok [suite, test] := rfl
  have hsome : (file.top.at? address).isSome = true := rfl
  rcases Option.isSome_iff_exists.1 hsome with ⟨c, hc⟩
  have hevaluated : (file.top.at? address).map (fun c =>
      (c.text, c.enclosingTest? keywords file.path)) = some (.ok "f", .ok (some test)) := rfl
  rw [hc] at hevaluated
  rcases Prod.mk.inj (Option.some.inj hevaluated) with ⟨htext, htest⟩
  rcases SourceFile.tests_agree hplaced htests with ⟨listed, hlisted, hlists, hagree⟩
  rcases hagree (Reference.use file.path c) address ⟨rfl, hc, .inl rfl⟩ with ⟨o, ho, -, hinner⟩
  cases htest.symm.trans ho
  exact ⟨hplaced, htests, c, hc, htext, htest, listed, hlisted, hlists, (hinner test rfl).1⟩

end Suite

end AffectedTests
