import AffectedTests.Proofs.Extents
import AffectedTests.Proofs.Uses
/-!
# Searches in document order

A search of a file lists what it finds in the order of the nodes: by their addresses, each node once. For
the uses of a name these are the identifiers with that text in the open that bind nothing; for the accesses
to a member, the member expressions whose property has that text, so that of two nested expressions the
outer one comes first, though its property stands behind that of the inner one.

- `Tree.Lists`: a list of all that the nodes of a tree give, each with the address of its node.
- `SourceFile.searches_exact`: what the two searches of a file list.
-/

namespace AffectedTests

open Cursor (Within)

/-! ## Lists in document order -/

/-- A list of all that the nodes of a tree give, in document order: the address of a node, and what it
gives. -/
structure Tree.Lists {α : Type} (root : Tree) (Gives : Cursor → α → Prop)
    (listed : List (List Nat × α)) : Prop where
  ordered : (listed.map Prod.fst).Pairwise (· < ·)
  mem_iff : ∀ address a, (address, a) ∈ listed ↔
    ∃ c, (Cursor.ofRoot root).at? address = some c ∧ Gives c a

namespace Tree

variable {α : Type} {root : Tree} {listed : List (List Nat × α)} {Gives Gives' : Cursor → α → Prop}

/-- What is taken from the nodes of the preorder is listed in document order. -/
theorem exists_lists_filterMap (root : Tree) (take? : Cursor → Option α) :
    ∃ listed, (Cursor.ofRoot root).preorder.filterMap take? = listed.map Prod.snd ∧
      root.Lists (fun c a => take? c = some a) listed := by
  have hlooked : (root.preorder []).mapM (fun c => (.ok (take? c) : Except Failure (Option α))) =
      .ok ((root.preorder []).map take?) :=
    List.mapM_pure
  rcases Fallible.exists_listed_of_mapM hlooked (map_at?_addresses root []) with
    ⟨listed, hlisted, hsub, hmem⟩
  rw [List.filterMap_map] at hlisted
  refine ⟨listed, hlisted, (pairwise_addresses root).sublist hsub, fun address a => ?_⟩
  rw [hmem]
  constructor
  · rintro ⟨-, c, hc, ha⟩
    exact ⟨c, hc, Except.ok.inj ha⟩
  · rintro ⟨c, hc, ha⟩
    exact ⟨(mem_addresses_iff root [] address).2 (Option.isSome_iff_exists.2 ⟨c, hc⟩), c, hc,
      congrArg Except.ok ha⟩

theorem Lists.congr (h : root.Lists Gives listed)
    (hsame : ∀ c, Within root c → ∀ a, Gives c a ↔ Gives' c a) : root.Lists Gives' listed := by
  refine ⟨h.ordered, fun address a => (h.mem_iff address a).trans ?_⟩
  exact exists_congr fun c => and_congr_right fun hc => hsame c (Within.root.of_at? hc) a

end Tree

/-! ## Identifiers that are leaves -/

/-- No identifier of a file has nodes below it. -/
def SourceFile.LeafIdentifiers (f : SourceFile) : Prop :=
  ∀ c, Within f.tree c → c.kind.isIdentifier = true → c.tree.children = []

/-- A node that is around another one has children. -/
theorem Cursor.Within.children_ne_nil {root : Tree} {c p : Cursor} (h : Within root c)
    (hp : p ∈ c.enclosing) : p.tree.children ≠ [] := by
  induction h with
  | root => cases hp
  | @child c t _ ht ih =>
    have haround : p = c ∨ p ∈ c.enclosing := List.mem_cons.1 hp
    rcases haround with rfl | hp
    · exact List.ne_nil_of_mem ht
    · exact ih hp

namespace SourceFile

variable {f : SourceFile} {name : Text}

theorem wellParsed_of_leafIdentifiers (hf : f.Faithful) (hleaf : f.LeafIdentifiers) : f.WellParsed := by
  refine ⟨hf, fun c hc _ p hp => Bool.eq_false_iff.2 fun hidentifier => ?_⟩
  exact hc.children_ne_nil hp (hleaf p (hc.of_mem_enclosing hp) hidentifier)

/-- It is enough to look at every node once. -/
theorem leafIdentifiers_of_all
    (h : (f.top.preorder.all fun c => !c.kind.isIdentifier || c.tree.children.isEmpty) = true) :
    f.LeafIdentifiers := by
  intro c hc hidentifier
  have hnode := List.all_eq_true.1 h c (Tree.mem_preorder_iff.2 hc)
  rw [hidentifier, Bool.not_true, Bool.false_or] at hnode
  exact List.isEmpty_iff.1 hnode

/-! ## The two searches -/

/-- A node is a member expression whose property has a given text. -/
def AccessesMember (name : Text) (e property : Cursor) : Prop :=
  e.kind = .memberExpression ∧ e.child? .property = some property ∧ property.text = .ok name

/-- The uses of a name are listed in document order. -/
theorem exists_lists_identifierUses (hf : f.WellParsed) {bytes : Bytes} (h : nameBytes name = .ok bytes) :
    ∃ listed, f.identifierUses name = .ok (listed.map Prod.snd) ∧
      f.tree.Lists (fun c found => found = c ∧ c.Uses name) listed := by
  rcases Tree.exists_lists_filterMap f.tree (Option.guard (Tree.isUseOf bytes)) with
    ⟨listed, hlisted, hlists⟩
  refine ⟨listed, ?_, hlists.congr fun c hc found => ?_⟩
  · rw [identifierUses_eq hf.faithful h, ← hlisted, List.filterMap_eq_filter]
    rfl
  · rw [Option.guard_eq_some_iff, uses_iff hf hc h, eq_comm]

/-- The accesses to a member are listed in the document order of the member expressions. -/
theorem exists_lists_memberAccesses (hf : f.Faithful) {bytes : Bytes} (h : nameBytes name = .ok bytes) :
    ∃ listed, f.memberAccesses name = .ok (listed.map Prod.snd) ∧
      f.tree.Lists (AccessesMember name) listed := by
  rcases Tree.exists_lists_filterMap f.tree (accessOf? bytes) with ⟨listed, hlisted, hlists⟩
  refine ⟨listed, ?_, hlists.congr fun e _ property => ?_⟩
  · rw [memberAccesses_eq hf h, ← hlisted]
    rfl
  · rw [accessOf?_eq_some_iff, text_eq_bytes_iff h]
    rfl

/-- What is found for a name in a file whose texts stand in its source and whose identifiers are leaves. If
the name has no surrogates, its uses are the identifiers with that text that are outside imports and
comments and name no declaration or parameter, and its accesses are the properties with that text of all
member expressions; either list has one entry for each such node, in document order, and it is the same as
without a look for the bytes of the name in the source. A name with a surrogate has no bytes to look for. -/
theorem searches_exact (hf : f.Faithful) (hleaf : f.LeafIdentifiers) (name : Text) :
    (name.Scalar → ∃ bytes uses accesses, Utf8.encode name = some bytes ∧
      (f.identifierUses name = .ok (uses.map Prod.snd) ∧ f.tree.usesOf bytes [] = uses.map Prod.snd ∧
        f.tree.Lists (fun c found => found = c ∧ c.Uses name) uses) ∧
      f.memberAccesses name = .ok (accesses.map Prod.snd) ∧
        f.top.preorder.filterMap (accessOf? bytes) = accesses.map Prod.snd ∧
        f.tree.Lists (AccessesMember name) accesses) ∧
    (¬ name.Scalar →
      f.identifierUses name = .error .unencodable ∧ f.memberAccesses name = .error .unencodable) := by
  constructor
  · intro hscalar
    rcases Utf8.exists_encode hscalar with ⟨bytes, hencode⟩
    have hbytes : nameBytes name = .ok bytes := nameBytes_eq_ok_iff.2 hencode
    have hparsed := wellParsed_of_leafIdentifiers hf hleaf
    rcases exists_lists_identifierUses hparsed hbytes with ⟨uses, huses, huseslist⟩
    rcases exists_lists_memberAccesses hf hbytes with ⟨accesses, haccesses, haccesseslist⟩
    refine ⟨bytes, uses, accesses, hencode, ⟨huses, ?_, huseslist⟩, haccesses, ?_, haccesseslist⟩
    · rw [Tree.usesOf_eq_filter f.tree [] (fun p hp => nomatch hp)]
      exact Except.ok.inj ((identifierUses_eq hf hbytes).symm.trans huses)
    · exact Except.ok.inj ((memberAccesses_eq hf hbytes).symm.trans haccesses)
  · intro hscalar
    have hbytes : nameBytes name = .error .unencodable := by
      unfold nameBytes
      cases hencode : Utf8.encode name with
      | none => rfl
      | some bytes => exact absurd (Utf8.scalar_iff_exists_encode.2 ⟨bytes, hencode⟩) hscalar
    unfold identifierUses memberAccesses
    rw [hbytes]
    exact ⟨rfl, rfl⟩

end SourceFile

/-! ## A name in many places -/

namespace Spread

def source : Bytes :=
  [105, 109, 112, 111, 114, 116, 32, 123, 32, 120, 32, 125, 32, 102, 114, 111, 109, 32, 34, 46, 47,
    98, 34, 59, 10, 102, 117, 110, 99, 116, 105, 111, 110, 32, 103, 40, 120, 41, 32, 123, 32, 114,
    101, 116, 117, 114, 110, 32, 97, 46, 120, 46, 120, 59, 32, 125, 32, 47, 47, 32, 120, 10, 120,
    59, 10]

def rows : List TreeRow :=
  [⟨0, .program, true, none, 0, 65⟩,
    ⟨1, .importStatement, true, none, 0, 24⟩,
    ⟨2, .importClause, true, none, 7, 12⟩,
    ⟨3, .namedImports, true, none, 7, 12⟩,
    ⟨4, .importSpecifier, true, none, 9, 10⟩,
    ⟨5, .identifier, true, some .name, 9, 10⟩,
    ⟨2, .string, true, some .source, 18, 23⟩,
    ⟨1, .functionDeclaration, true, none, 25, 56⟩,
    ⟨2, .identifier, true, some .name, 34, 35⟩,
    ⟨2, .formalParameters, true, some (.other "parameters"), 35, 38⟩,
    ⟨3, .identifier, true, none, 36, 37⟩,
    ⟨2, .other "statement_block", true, some (.other "body"), 39, 56⟩,
    ⟨3, .other "return_statement", true, none, 41, 54⟩,
    ⟨4, .memberExpression, true, none, 48, 53⟩,
    ⟨5, .memberExpression, true, some .object, 48, 51⟩,
    ⟨6, .identifier, true, some .object, 48, 49⟩,
    ⟨6, .propertyIdentifier, true, some .property, 50, 51⟩,
    ⟨5, .propertyIdentifier, true, some .property, 52, 53⟩,
    ⟨1, .comment, true, none, 57, 61⟩,
    ⟨1, .other "expression_statement", true, none, 62, 64⟩,
    ⟨2, .identifier, true, none, 62, 63⟩]

/-- A module with many nodes of the text `x`, on three lines: `import { x } from "./b";`, then
`function g(x) { return a.x.x; } // x`, and `x;`. -/
def file : SourceFile :=
  ⟨"/p/a.js", .javascript, source, Tree.ofRows source rows⟩

theorem faithful : file.Faithful :=
  (SourceFile.wellParsed_of_all (by decide)).faithful

theorem leafIdentifiers : file.LeafIdentifiers :=
  SourceFile.leafIdentifiers_of_all (by decide)

/-- A name that is one surrogate. -/
def surrogate : Text := [0xD800]

/-- Of the nodes of the text `x` only the last one is a use, and of the two accesses the outer expression's
comes first. -/
theorem searches_exact_x :
    file.Faithful ∧ file.LeafIdentifiers ∧ Text.Scalar "x" ∧
    (file.identifierUses "x").map (List.map (·.info.startByte)) = .ok [62] ∧
    (file.memberAccesses "x").map (List.map (·.info.startByte)) = .ok [52, 50] ∧
    ∃ uses accesses : List (List Nat × Cursor),
      file.identifierUses "x" = .ok (uses.map Prod.snd) ∧
      file.tree.Lists (fun c found => found = c ∧ c.Uses "x") uses ∧
      file.memberAccesses "x" = .ok (accesses.map Prod.snd) ∧
      file.tree.Lists (SourceFile.AccessesMember "x") accesses := by
  have hscalar : Text.Scalar "x" := List.forall_mem_iff_forall_getElem.2 (by decide)
  rcases (SourceFile.searches_exact faithful leafIdentifiers "x").1 hscalar with
    ⟨_, uses, accesses, -, ⟨huses, -, huseslist⟩, haccesses, -, haccesseslist⟩
  exact ⟨faithful, leafIdentifiers, hscalar, rfl, rfl, uses, accesses, huses, huseslist, haccesses,
    haccesseslist⟩

/-- For a name with a surrogate, which no node has, both searches fail instead of finding nothing. And of
two nested accesses the property of the outer one comes first, though it stands behind the other one. -/
theorem not_searches_exact_surrogate :
    file.Faithful ∧ file.LeafIdentifiers ∧ (∀ c : Cursor, ¬ c.Uses surrogate) ∧
    file.identifierUses surrogate = .error .unencodable ∧
    file.memberAccesses surrogate = .error .unencodable ∧
    (file.memberAccesses "x").map (List.map (·.info.startByte)) = .ok [52, 50] ∧
    ¬ ∀ (f : SourceFile) (name : Text), f.Faithful → f.LeafIdentifiers →
      ∃ uses : List (List Nat × Cursor), f.identifierUses name = .ok (uses.map Prod.snd) ∧
        f.tree.Lists (fun c found => found = c ∧ c.Uses name) uses := by
  have hfails : file.identifierUses surrogate = .error .unencodable := rfl
  have hnone : ∀ c : Cursor, ¬ c.Uses surrogate := by
    intro c huse
    have hencode : Utf8.encode surrogate = some c.info.text := Tree.text_eq_ok_iff.1 huse.text
    cases hencode
  refine ⟨faithful, leafIdentifiers, hnone, hfails, rfl, rfl, fun hall => ?_⟩
  rcases hall file surrogate faithful leafIdentifiers with ⟨uses, huses, -⟩
  cases hfails.symm.trans huses

end Spread

end AffectedTests
