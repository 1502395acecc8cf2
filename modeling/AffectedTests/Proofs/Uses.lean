import AffectedTests.Proofs.Clauses
import AffectedTests.Proofs.Mentions
/-!
# Uses of a name

A search for the uses of a name goes down a tree and leaves out what stands in imports, comments and
identifiers; what it finds are the nodes of the preorder that pass one test. A search for accesses to the
members of an object looks at every member expression.

- `SourceFile.identifierUses_eq`, `SourceFile.mem_identifierUses_iff`: the uses of a name in a file.
- `SourceFile.mem_accessesOf_iff`: the accesses to a member of an object in a file.
-/

namespace AffectedTests

/-- What every grammar guarantees of a tree: the text of a node stands in the source, and no identifier
stands in another one. -/
structure SourceFile.WellParsed (f : SourceFile) : Prop where
  faithful : f.Faithful
  apart : ∀ c, Cursor.Within f.tree c → c.kind.isIdentifier = true →
    ∀ p ∈ c.enclosing, p.kind.isIdentifier = false

/-- A node uses a name: it is an identifier with that text that stands outside imports and comments and
is not itself the name of a declaration or of a parameter. -/
structure Cursor.Uses (c : Cursor) (name : Text) : Prop where
  identifier : c.kind.isIdentifier = true
  text : c.text = .ok name
  notBinding : c.isBinding = false
  outside : ∀ p ∈ c.enclosing, p.kind ≠ .importStatement ∧ p.kind ≠ .comment

/-- A node of a file is the property of a member expression with a given identifier as its object. -/
def SourceFile.Accesses (f : SourceFile) (object member : Text) (property : Cursor) : Prop :=
  ∃ e node, Cursor.Within f.tree e ∧ e.kind = .memberExpression ∧
    e.child? .property = some property ∧ property.text = .ok member ∧
      e.child? .object = some node ∧ node.kind = .identifier ∧ node.text = .ok object

namespace Tree

/-- The kinds of nodes that are not searched below. -/
def isClosed (k : Kind) : Bool :=
  k = .importStatement || k = .comment || k.isIdentifier

theorem isClosed_iff {k : Kind} :
    isClosed k = true ↔ (k = .importStatement ∨ k = .comment) ∨ k.isIdentifier = true := by
  simp [isClosed]

theorem isIdentifier_of_hidden {k : Kind} (h : k = .importStatement ∨ k = .comment) :
    k.isIdentifier = false := by
  rcases h with rfl | rfl <;> rfl

/-- What the search for uses asks of a node. -/
def isUseOf (name : Bytes) (c : Cursor) : Bool :=
  c.kind.isIdentifier && decide (c.info.text = name) && !c.isBinding &&
    c.enclosing.all fun p => !isClosed p.kind

mutual

/-- What stands around a node stands around all nodes below it. -/
theorem enclosing_suffix_of_mem_preorder : ∀ (t : Tree) (above : List Tree), ∀ c ∈ t.preorder above,
    (⟨t, above⟩ : Cursor).enclosing <:+ c.enclosing
  | .node info children, above, c, hc => by
    rw [preorder] at hc
    rcases List.mem_cons.1 hc with rfl | hc
    · exact List.suffix_refl _
    · exact (List.suffix_cons _ _).trans (enclosing_suffix_of_mem_preorderAll children _ c hc)

theorem enclosing_suffix_of_mem_preorderAll : ∀ (ts : List Tree) (above : List Tree),
    ∀ c ∈ preorderAll above ts, Cursor.enclosing.go above <:+ c.enclosing
  | [], above, c, hc => by
    rw [preorderAll] at hc
    cases hc
  | t :: rest, above, c, hc => by
    rw [preorderAll] at hc
    rcases List.mem_append.1 hc with hc | hc
    · exact enclosing_suffix_of_mem_preorder t above c hc
    · exact enclosing_suffix_of_mem_preorderAll rest above c hc

end

theorem isUseOf_of_not_isIdentifier {name : Bytes} {c : Cursor} (h : c.kind.isIdentifier = false) :
    isUseOf name c = false := by
  simp [isUseOf, h]

/-- An identifier in the open is a use if it has the name and does not bind it. -/
theorem isUseOf_of_open {name : Bytes} {c : Cursor} (hidentifier : c.kind.isIdentifier = true)
    (hopen : ∀ p ∈ c.enclosing, isClosed p.kind = false) :
    isUseOf name c = decide (c.info.text = name ∧ c.isBinding = false) := by
  have hall : (c.enclosing.all fun p => !isClosed p.kind) = true :=
    List.all_eq_true.2 fun p hp => by rw [hopen p hp]; rfl
  unfold isUseOf
  rw [hidentifier, hall, Bool.true_and, Bool.and_true, Bool.decide_and]
  cases c.isBinding <;> simp

/-- Nothing below a closed node is a use. -/
theorem filter_preorderAll_of_isClosed {name : Bytes} {t : Tree} {above : List Tree} (ts : List Tree)
    (h : isClosed t.kind = true) : (preorderAll (t :: above) ts).filter (isUseOf name) = [] := by
  refine List.filter_eq_nil_iff.2 ?_
  intro c hc huse
  have hmem : (⟨t, above⟩ : Cursor) ∈ c.enclosing :=
    (enclosing_suffix_of_mem_preorderAll ts (t :: above) c hc).subset List.mem_cons_self
  have hopen := List.all_eq_true.1 (Bool.and_eq_true_iff.1 huse).2 _ hmem
  rw [show isClosed (Cursor.kind ⟨t, above⟩) = true from h] at hopen
  cases hopen

mutual

/-- The search finds the nodes of the preorder that pass its test, unless it starts in a closed node. -/
theorem usesOf_eq_filter {name : Bytes} : ∀ (t : Tree) (above : List Tree),
    (∀ p ∈ (⟨t, above⟩ : Cursor).enclosing, isClosed p.kind = false) →
      t.usesOf name above = (t.preorder above).filter (isUseOf name)
  | .node info children, above, hopen => by
    have hclosed : isClosed info.kind = true →
        (preorderAll (.node info children :: above) children).filter (isUseOf name) = [] :=
      filter_preorderAll_of_isClosed (t := .node info children) children
    rw [usesOf, preorder, List.filter_cons]
    by_cases hhidden : info.kind = .importStatement ∨ info.kind = .comment
    · have hself : isUseOf name ⟨.node info children, above⟩ = false :=
        isUseOf_of_not_isIdentifier (isIdentifier_of_hidden hhidden)
      rw [if_pos hhidden, hself, hclosed (isClosed_iff.2 (.inl hhidden))]
      rfl
    · rw [if_neg hhidden]
      by_cases hidentifier : info.kind.isIdentifier = true
      · rw [if_pos hidentifier, hclosed (isClosed_iff.2 (.inr hidentifier)),
          isUseOf_of_open (c := ⟨.node info children, above⟩) hidentifier hopen]
        simp only [decide_eq_true_eq]
        rfl
      · have hkind := Bool.eq_false_iff.2 hidentifier
        have hbelow : ∀ p ∈ Cursor.enclosing.go (.node info children :: above),
            isClosed p.kind = false := by
          intro p hp
          rcases List.mem_cons.1 hp with rfl | hp
          · exact Bool.eq_false_iff.2 fun h => (isClosed_iff.1 h).elim hhidden hidentifier
          · exact hopen p hp
        rw [if_neg hidentifier, usesOfAll_eq_filter children _ hbelow,
          isUseOf_of_not_isIdentifier (c := ⟨.node info children, above⟩) hkind]
        rfl

theorem usesOfAll_eq_filter {name : Bytes} : ∀ (ts : List Tree) (above : List Tree),
    (∀ p ∈ Cursor.enclosing.go above, isClosed p.kind = false) →
      usesOfAll name above ts = (preorderAll above ts).filter (isUseOf name)
  | [], above, _ => by
    rw [usesOfAll, preorderAll, List.filter_nil]
  | t :: rest, above, hopen => by
    rw [usesOfAll, preorderAll, List.filter_append, usesOf_eq_filter t above hopen,
      usesOfAll_eq_filter rest above hopen]

end

end Tree

namespace SourceFile

variable {f : SourceFile} {name object : Text} {cs : List Cursor} {c : Cursor}

/-! ## Uses in a file -/

/-- It is enough to look at every node once. -/
theorem wellParsed_of_all (h : (f.top.preorder.all fun c => c.info.text.occursIn f.source &&
    (!c.kind.isIdentifier || c.enclosing.all fun p => !p.kind.isIdentifier)) = true) :
    f.WellParsed := by
  have hnode : ∀ c, Cursor.Within f.tree c → _ :=
    fun c hc => Bool.and_eq_true_iff.1 (List.all_eq_true.1 h c (Tree.mem_preorder_iff.2 hc))
  constructor
  · intro c hc
    exact Bytes.occursIn_iff.1 (hnode c hc).1
  · intro c hc hidentifier p hp
    have hall := (hnode c hc).2
    rw [hidentifier, Bool.not_true, Bool.false_or] at hall
    simpa using List.all_eq_true.1 hall p hp

theorem occursIn_of_text (hf : f.Faithful) (hc : Cursor.Within f.tree c) {bytes : Bytes}
    (htext : c.info.text = bytes) : bytes.occursIn f.source = true := by
  rw [← htext]
  exact Bytes.occursIn_iff.2 (hf c hc)

theorem nameBytes_eq_ok_iff {bytes : Bytes} :
    nameBytes name = .ok bytes ↔ Utf8.encode name = some bytes := by
  unfold nameBytes
  cases Utf8.encode name with
  | none => simp
  | some encoded => simp

/-- A node has the bytes of a name if it is spelled so. -/
theorem text_eq_bytes_iff {bytes : Bytes} (h : nameBytes name = .ok bytes) :
    c.info.text = bytes ↔ c.text = .ok name := by
  unfold Cursor.text
  rw [Tree.text_eq_ok_iff, nameBytes_eq_ok_iff.1 h, Option.some_inj, eq_comm]
  rfl

theorem uses_iff (hf : f.WellParsed) (hc : Cursor.Within f.tree c) {bytes : Bytes}
    (h : nameBytes name = .ok bytes) : Tree.isUseOf bytes c = true ↔ c.Uses name := by
  have hopen : c.kind.isIdentifier = true →
      ((c.enclosing.all fun p => !Tree.isClosed p.kind) = true ↔
        ∀ p ∈ c.enclosing, p.kind ≠ .importStatement ∧ p.kind ≠ .comment) := by
    intro hidentifier
    rw [List.all_eq_true]
    refine forall₂_congr fun p hp => ?_
    simp [Tree.isClosed, hf.apart c hc hidentifier p hp]
  unfold Tree.isUseOf
  simp only [Bool.and_eq_true, decide_eq_true_eq, Bool.not_eq_true']
  constructor
  · rintro ⟨⟨⟨hidentifier, htext⟩, hbinding⟩, hall⟩
    exact ⟨hidentifier, (text_eq_bytes_iff h).1 htext, hbinding, (hopen hidentifier).1 hall⟩
  · rintro ⟨hidentifier, htext, hbinding, houtside⟩
    exact ⟨⟨⟨hidentifier, (text_eq_bytes_iff h).2 htext⟩, hbinding⟩, (hopen hidentifier).2 houtside⟩

/-- To look for the name in the source first changes nothing: a use would have shown there. -/
theorem identifierUses_eq (hf : f.Faithful) {bytes : Bytes} (h : nameBytes name = .ok bytes) :
    f.identifierUses name = .ok (f.top.preorder.filter (Tree.isUseOf bytes)) := by
  have hsearch : f.tree.usesOf bytes [] = f.top.preorder.filter (Tree.isUseOf bytes) :=
    Tree.usesOf_eq_filter f.tree [] (by intro p hp; cases hp)
  unfold identifierUses
  rw [h, Except.map, hsearch]
  refine congrArg Except.ok ?_
  split
  · rfl
  · rename_i habsent
    refine (List.filter_eq_nil_iff.2 fun c hc huse => habsent ?_).symm
    simp only [Tree.isUseOf, Bool.and_eq_true, decide_eq_true_eq] at huse
    exact occursIn_of_text hf (Tree.mem_preorder_iff.1 hc) huse.1.1.2

/-- The uses of a name that are found in a file. -/
theorem mem_identifierUses_iff (hf : f.WellParsed) (h : f.identifierUses name = .ok cs) :
    c ∈ cs ↔ Cursor.Within f.tree c ∧ c.Uses name := by
  rcases Fallible.map_eq_ok.1 h with ⟨bytes, hbytes, -⟩
  rw [identifierUses_eq hf.faithful hbytes] at h
  cases h
  rw [List.mem_filter, SourceFile.top, Tree.mem_preorder_iff]
  exact and_congr_right fun hc => uses_iff hf hc hbytes

/-! ## Accesses in a file -/

theorem accessOf?_eq_some_iff {bytes : Bytes} {e : Cursor} :
    accessOf? bytes e = some c ↔
      e.kind = .memberExpression ∧ e.child? .property = some c ∧ c.info.text = bytes := by
  unfold accessOf?
  split
  · rename_i hkind
    rw [Option.filter_eq_some_iff, decide_eq_true_iff]
    exact ⟨fun h => ⟨hkind, h⟩, fun h => h.2⟩
  · rename_i hkind
    exact ⟨fun hnone => (nomatch hnone), fun h => absurd h.1 hkind⟩

theorem memberAccesses_eq (hf : f.Faithful) {bytes : Bytes} (h : nameBytes name = .ok bytes) :
    f.memberAccesses name = .ok (f.top.preorder.filterMap (accessOf? bytes)) := by
  unfold memberAccesses
  rw [h, Except.map]
  refine congrArg Except.ok ?_
  split
  · rfl
  · rename_i habsent
    refine (List.filterMap_eq_nil_iff.2 fun e he => ?_).symm
    refine Option.eq_none_iff_forall_not_mem.2 fun c hc => habsent ?_
    rcases accessOf?_eq_some_iff.1 hc with ⟨-, hproperty, htext⟩
    exact occursIn_of_text hf ((Tree.mem_preorder_iff.1 he).of_child? hproperty) htext

theorem mem_memberAccesses_iff (hf : f.Faithful) (h : f.memberAccesses name = .ok cs) :
    c ∈ cs ↔ ∃ e, Cursor.Within f.tree e ∧ e.kind = .memberExpression ∧
      e.child? .property = some c ∧ c.text = .ok name := by
  rcases Fallible.map_eq_ok.1 h with ⟨bytes, hbytes, -⟩
  rw [memberAccesses_eq hf hbytes] at h
  cases h
  rw [List.mem_filterMap]
  simp only [accessOf?_eq_some_iff, text_eq_bytes_iff hbytes, SourceFile.top, Tree.mem_preorder_iff]

theorem isMemberOf_eq_ok_true_iff {e : Cursor} (he : c.parent? = some e) :
    isMemberOf object c = .ok true ↔
      ∃ node, e.child? .object = some node ∧ node.kind = .identifier ∧ node.text = .ok object := by
  unfold isMemberOf
  rw [he, Option.bind_some]
  cases e.child? .object with
  | none => simp [pure, Except.pure]
  | some node =>
    by_cases hkind : node.kind = .identifier
    · cases htext : node.text with
      | error failure => simp [hkind, htext, bind, Except.bind]
      | ok text => simp [hkind, htext, bind, Except.bind, pure, Except.pure]
    · simp [hkind, pure, Except.pure]

theorem parent?_of_child? {e : Cursor} {field : Field} (h : e.child? field = some c) :
    c.parent? = some e := by
  rcases List.mem_map.1 (List.mem_of_find?_eq_some h) with ⟨t, -, rfl⟩
  rfl

/-- The accesses to a member of an object that are found in a file. -/
theorem mem_accessesOf_iff (hf : f.Faithful) (h : f.accessesOf object name = .ok cs) :
    c ∈ cs ↔ f.Accesses object name c := by
  rcases Fallible.bind_eq_ok.1 h with ⟨accesses, haccesses, h⟩
  rw [Fallible.mem_filterM_iff h, mem_memberAccesses_iff hf haccesses]
  constructor
  · rintro ⟨⟨e, he, hkind, hproperty, htext⟩, hmember⟩
    rcases (isMemberOf_eq_ok_true_iff (parent?_of_child? hproperty)).1 hmember with
      ⟨node, hnode, hidentifier, hobject⟩
    exact ⟨e, node, he, hkind, hproperty, htext, hnode, hidentifier, hobject⟩
  · rintro ⟨e, node, he, hkind, hproperty, htext, hnode, hidentifier, hobject⟩
    exact ⟨⟨e, he, hkind, hproperty, htext⟩, (isMemberOf_eq_ok_true_iff
      (parent?_of_child? hproperty)).2 ⟨node, hnode, hidentifier, hobject⟩⟩

end SourceFile

end AffectedTests
