import AffectedTests.Proofs.Extents
/-!
# The smallest declaration around a line

The search for the declaration at a line cuts off what does not cover the line, and weighs the rest in an
order of its own. It loses nothing by it: its result is that of a search through all nodes below the
root. It reads the name of every declaration that it weighs, though, also of those that are not the
smallest, so one name that cannot be decoded takes the answer away from every line of its declaration.

- `SourceFile.NamesAt`: the nodes below the root that declare something at a line.
- `Tree.exists_smallestBelow_iff`: the search answers if each declaration that it weighs can be named.
- `SourceFile.findsSmallest_iff`: when the search finds a smallest declaration.
-/

namespace AffectedTests

open Cursor (Within)

/-! ## Declarations and their names -/

/-- The node that names what a node declares; none if it declares nothing. -/
def Cursor.declaredName? (c : Cursor) : Option Tree :=
  (DeclarationKind.ofKind? c.kind).bind fun _ => Declaration.nameNode? c.tree

/-- A node declares something with a name that can be read, or declares nothing. -/
def Cursor.Readable (c : Cursor) : Prop :=
  ∀ n, c.declaredName? = some n → ∃ text, n.text = .ok text

/-- A node below the root that declares something, on lines of which the given one is one. -/
structure SourceFile.NamesAt (f : SourceFile) (line : Int) (c : Cursor) : Prop where
  within : Within f.tree c
  below : f.top ∈ c.enclosing
  declares : c.declaredName?.isSome = true
  covers : c.startLine ≤ line ∧ line ≤ c.endLine

/-- The search answers, with nothing if no node declares something at the line, and otherwise with what a
node of the fewest bytes declares there. -/
def SourceFile.FindsSmallest (f : SourceFile) (line : Int) : Prop :=
  ∃ found, f.declarationAt? line = .ok found ∧
    (found = none ↔ ∀ c, ¬ f.NamesAt line c) ∧
    ∀ d, found = some d → f.NamesAt line d.node ∧ f.Declares d ∧
      ∀ c, f.NamesAt line c → d.node.tree.size ≤ c.tree.size

namespace Cursor

variable {c : Cursor} {file : Text} {d : Declaration}

theorem exists_declaration?_iff (file : Text) : (∃ o, c.declaration? file = .ok o) ↔ c.Readable := by
  unfold declaration? Readable declaredName?
  cases DeclarationKind.ofKind? c.kind with
  | none => simp
  | some kind =>
    cases Declaration.nameNode? c.tree with
    | none => simp
    | some n => simp [Fallible.map_eq_ok]

/-- Where all text can be decoded, so can the names. -/
theorem readable_of_decodes {root : Tree} (h : root.Decodes) (hc : Within root c) : c.Readable :=
  (exists_declaration?_iff []).1 (exists_declaration? h hc [])

theorem declaredName?_of_declaration? (h : c.declaration? file = .ok (some d)) :
    c.declaredName?.isSome = true := by
  unfold declaration? at h
  unfold declaredName?
  split at h
  · rename_i hkind hname
    rw [hkind, Option.bind_some, hname]
    rfl
  · cases h

theorem exists_declaration?_of_declaredName? (hread : c.Readable) (hname : c.declaredName?.isSome = true)
    (file : Text) : ∃ d, c.declaration? file = .ok (some d) := by
  rcases Option.isSome_iff_exists.1 hname with ⟨n, hn⟩
  rcases hread n hn with ⟨text, htext⟩
  rcases Option.bind_eq_some_iff.1 hn with ⟨kind, hkind, hnode⟩
  unfold declaration?
  rw [hkind, hnode]
  exact ⟨_, Fallible.map_eq_ok.2 ⟨text, htext, rfl⟩⟩

end Cursor

/-! ## What the search reads -/

namespace Tree

variable {root : Tree} {file : Text} {row : Int}

theorem exists_smaller_iff {best : Option Declaration} {c : Cursor} :
    (∃ best', smaller file best c = .ok best') ↔ c.Readable := by
  rw [← Cursor.exists_declaration?_iff file]
  constructor
  · rintro ⟨best', h⟩
    rcases Fallible.map_eq_ok.1 h with ⟨found, hfound, -⟩
    exact ⟨found, hfound⟩
  · rintro ⟨found, hfound⟩
    exact ⟨_, Fallible.map_eq_ok.2 ⟨found, hfound, rfl⟩⟩

mutual

/-- The search below a node answers if each node below it that covers the row can be read. -/
theorem exists_smallestBelow_iff (hrows : root.NestsRows) : ∀ (t : Tree) (above : List Tree)
    (best : Option Declaration), Within root ⟨t, above⟩ →
      ((∃ best', smallestBelow file row above t best = .ok best') ↔
        ∀ c ∈ preorderAll (t :: above) t.children, covers row c.tree = true → c.Readable)
  | .node info children, above, best, hw => by
    have hbelow := fun weighed => exists_smallestBelowAll_iff hrows children (.node info children :: above)
      weighed (fun t ht => hw.child ht)
    have hstep : ∀ t weighed,
        (∃ best', smaller file weighed ⟨t, .node info children :: above⟩ = .ok best') ↔
        Cursor.Readable ⟨t, .node info children :: above⟩ := fun _ _ => exists_smaller_iff
    rw [smallestBelow, Fallible.exists_bind_iff fun weighed _ => hbelow weighed,
      Fallible.exists_foldlM_iff hstep]
    -- The children that cover the row are read at once, the nodes below them one level down.
    constructor
    · rintro ⟨hchildren, hdeeper⟩ c hc hcovers
      rcases mem_preorderAll_iff.1 hc with ⟨t, ht, rfl⟩ | ⟨t, ht, hc⟩
      · exact hchildren t (List.mem_filter.2 ⟨ht, hcovers⟩)
      · exact hdeeper t ht c hc hcovers
    · intro hall
      refine ⟨fun t ht => ?_, fun t ht c hc => hall c (mem_preorderAll_iff.2 (.inr ⟨t, ht, hc⟩))⟩
      have hmem := List.mem_filter.1 ht
      exact hall _ (mem_preorderAll_iff.2 (.inl ⟨t, hmem.1, rfl⟩)) hmem.2

theorem exists_smallestBelowAll_iff (hrows : root.NestsRows) : ∀ (ts : List Tree) (above : List Tree)
    (best : Option Declaration), (∀ t ∈ ts, Within root ⟨t, above⟩) →
      ((∃ best', smallestBelowAll file row above ts best = .ok best') ↔
        ∀ t ∈ ts, ∀ c ∈ preorderAll (t :: above) t.children, covers row c.tree = true → c.Readable)
  | [], above, best, _ => by simp [smallestBelowAll]
  | t :: rest, above, best, hw => by
    have ht : Within root ⟨t, above⟩ := hw t List.mem_cons_self
    have hrest := exists_smallestBelowAll_iff hrows rest above best
      fun u hu => hw u (List.mem_cons_of_mem t hu)
    have hfirst : ∀ weighed, (∃ best', (if covers row t = true then
        smallestBelow file row above t weighed else .ok weighed) = .ok best') ↔
        ∀ c ∈ preorderAll (t :: above) t.children, covers row c.tree = true → c.Readable := by
      intro weighed
      split
      · exact exists_smallestBelow_iff hrows t above weighed ht
      · -- A tree that does not cover the row holds no node that does.
        rename_i hnot
        exact iff_of_true ⟨weighed, rfl⟩ fun c hc hcovers =>
          absurd (covers_of_mem_preorderAll hrows ht hc hcovers) hnot
    rw [smallestBelowAll, Fallible.exists_bind_iff fun weighed _ => hfirst weighed, hrest,
      List.forall_mem_cons, and_comm]

end

end Tree

/-! ## What the search finds -/

namespace SourceFile

variable {f : SourceFile} {line : Int} {c : Cursor} {d : Declaration}

/-- The nodes below the root are those that have the root around them. -/
theorem mem_below_iff :
    c ∈ Tree.preorderAll [f.tree] f.tree.children ↔ Within f.tree c ∧ f.top ∈ c.enclosing := by
  have hmem : c ∈ f.top.preorder ↔ c = f.top ∨ c ∈ Tree.preorderAll [f.tree] f.tree.children := by
    unfold top Cursor.preorder Cursor.ofRoot
    cases f.tree with
    | node info children =>
      rw [Tree.preorder]
      exact List.mem_cons
  constructor
  · intro hc
    exact ⟨Tree.mem_preorder_iff.1 (hmem.2 (.inr hc)),
      (Tree.enclosing_suffix_of_mem_preorderAll f.tree.children [f.tree] c hc).subset List.mem_cons_self⟩
  · rintro ⟨hw, htop⟩
    refine (hmem.1 (Tree.mem_preorder_iff.2 hw)).resolve_left ?_
    rintro rfl
    cases htop

/-- The search at a line answers if each name that it reads can be decoded. -/
theorem exists_declarationAt?_iff (hrows : f.tree.NestsRows) :
    (∃ found, f.declarationAt? line = .ok found) ↔ ∀ c, f.NamesAt line c → c.Readable := by
  unfold declarationAt?
  rw [Tree.exists_smallestBelow_iff hrows f.tree [] none .root]
  constructor
  · intro hall c hc
    exact hall c (mem_below_iff.2 ⟨hc.within, hc.below⟩) (Cursor.covers_iff_lines.2 hc.covers)
  · intro hall c hc hcovers n hn
    have hbelow := mem_below_iff.1 hc
    have hdeclares : c.declaredName?.isSome = true := Option.isSome_iff_exists.2 ⟨n, hn⟩
    exact hall c ⟨hbelow.1, hbelow.2, hdeclares, Cursor.covers_iff_lines.1 hcovers⟩ n hn

/-- The search that cuts branches off finds what a search through all nodes below the root finds: the
smallest declaration at a line, and none if there is none. It does so exactly if each declaration at the
line has a name that can be decoded. -/
theorem findsSmallest_iff (h : f.Placed) (line : Int) :
    f.FindsSmallest line ↔ ∀ c, f.NamesAt line c → c.Readable := by
  have hanswers : (∃ found, f.declarationAt? line = .ok found) ↔ ∀ c, f.NamesAt line c → c.Readable :=
    exists_declarationAt?_iff h.nestsRows
  refine ⟨fun ⟨found, hfound, _⟩ => hanswers.1 ⟨found, hfound⟩, fun hread => ?_⟩
  rcases hanswers.2 hread with ⟨found, hfound⟩
  have hweighs := Tree.weighs_of_smallestBelow h.nestsRows f.tree [] none found .root hfound
  -- A node at the line makes a declaration, so what was found is not larger than it.
  have hleast : ∀ c, f.NamesAt line c → Tree.AtMost found c.tree.size := by
    intro c hc
    rcases Cursor.exists_declaration?_of_declaredName? (hread c hc) hc.declares f.path with ⟨d, hd⟩
    exact hweighs.least c ⟨mem_below_iff.2 ⟨hc.within, hc.below⟩, Cursor.covers_iff_lines.2 hc.covers⟩ d hd
  have hnames : ∀ d, found = some d → f.NamesAt line d.node ∧ f.Declares d := by
    rintro d rfl
    rcases hweighs.origin with hnone | ⟨c, ⟨hc, hcovers⟩, hmade⟩
    · cases hnone
    · have hbelow := mem_below_iff.1 hc
      have hname := Cursor.declaredName?_of_declaration? hmade
      cases (Cursor.node_of_declaration? hmade).1
      exact ⟨⟨hbelow.1, hbelow.2, hname, Cursor.covers_iff_lines.1 hcovers⟩, hbelow.1, hmade⟩
  refine ⟨found, hfound, ⟨?_, fun hnone => ?_⟩, fun d hd => ?_⟩
  · rintro rfl c hc
    rcases hleast c hc with ⟨b, hb, -⟩
    cases hb
  · cases found with
    | none => rfl
    | some d => exact absurd (hnames d rfl).1 (hnone d.node)
  · refine ⟨(hnames d hd).1, (hnames d hd).2, fun c hc => ?_⟩
    rcases hleast c hc with ⟨b, hb, hle⟩
    cases hd.symm.trans hb
    exact hle

end SourceFile

/-! ## A function in a variable -/

namespace Wrapped

/-- A module with a variable, of this name, that holds a function with a variable `b`:

```
const a = () => {
  const b = 1;
};
```
-/
def source (name : Bytes) : Bytes :=
  [99, 111, 110, 115, 116, 32] ++ name ++ [32, 61, 32, 40, 41, 32, 61, 62, 32, 123, 10,
    32, 32, 99, 111, 110, 115, 116, 32, 98, 32, 61, 32, 49, 59, 10, 125, 59, 10]

def rows (name : Bytes) : List TreeRow :=
  let n := name.length
  [⟨0, .program, true, none, 0, n + 35⟩,
    ⟨1, .other "lexical_declaration", true, none, 0, n + 34⟩,
    ⟨2, .variableDeclarator, true, none, 6, n + 33⟩,
    ⟨3, .identifier, true, some .name, 6, n + 6⟩,
    ⟨3, .arrowFunction, true, some .value, n + 9, n + 33⟩,
    ⟨4, .formalParameters, true, some (.other "parameters"), n + 9, n + 11⟩,
    ⟨4, .other "statement_block", true, some (.other "body"), n + 15, n + 33⟩,
    ⟨5, .other "lexical_declaration", true, none, n + 19, n + 31⟩,
    ⟨6, .variableDeclarator, true, none, n + 25, n + 30⟩,
    ⟨7, .identifier, true, some .name, n + 25, n + 26⟩]

def file (name : Bytes) : SourceFile :=
  ⟨"/p/a.js", .javascript, source name, Tree.ofRows (source name) (rows name)⟩

theorem placed : (file [97]).Placed :=
  SourceFile.placed_of_all (by decide)

theorem decodes : (file [97]).tree.Decodes := by
  have hall : ∀ c ∈ (Cursor.ofRoot (file [97]).tree).preorder, c.tree.text.toOption.isSome = true := by
    decide
  intro c hc
  rcases Option.isSome_iff_exists.1 (hall c (Tree.mem_preorder_iff.2 hc)) with ⟨text, htext⟩
  exact ⟨text, Fallible.toOption_eq_some.1 htext⟩

/-- Of the two variables on the second line the inner one is found, and none behind the last line. -/
theorem findsSmallest_iff_decoded :
    (file [97]).Placed ∧ (∀ line, (file [97]).FindsSmallest line) ∧
    ((file [97]).declarationAt? 2).map (Option.map Declaration.name) = .ok (some "b") ∧
    (file [97]).declarationAt? 4 = .ok none := by
  have hread : ∀ c, Within (file [97]).tree c → c.Readable :=
    fun c hc => Cursor.readable_of_decodes decodes hc
  exact ⟨placed, fun line => (SourceFile.findsSmallest_iff placed line).2 fun c hc => hread c hc.within,
    rfl, rfl⟩

/-- If the outer variable has a name that is no UTF-8, the inner one is not found on its line. -/
theorem not_findsSmallest_undecodable :
    (file [97, 0xE9]).Placed ∧ (file [97, 0xE9]).declarationAt? 2 = .error .undecodable ∧
    ¬ ∀ (f : SourceFile) (line : Int), f.Placed → f.FindsSmallest line := by
  have hplaced : (file [97, 0xE9]).Placed := SourceFile.placed_of_all (by decide)
  have hfails : (file [97, 0xE9]).declarationAt? 2 = .error .undecodable := rfl
  refine ⟨hplaced, hfails, fun hall => ?_⟩
  rcases hall (file [97, 0xE9]) 2 hplaced with ⟨found, hfound, -⟩
  cases hfails.symm.trans hfound

end Wrapped

end AffectedTests
