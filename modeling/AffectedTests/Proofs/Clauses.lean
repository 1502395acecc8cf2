import AffectedTests.Proofs.Encoding
import AffectedTests.Proofs.Fallible
import AffectedTests.Source.References
/-!
# What export clauses say

An export statement lists names in clauses. What a clause says is a relation between names, told by the
nodes of the clause; reading the clause decodes the texts of these nodes and gives the names that are so
related.

- `Tree.Specifies`: a clause lists a name under another.
- `Tree.Exports`: a statement exports a name of its own module.
- `Cursor.PassesOn`: a statement with a source exports what the source exports.
-/

namespace AffectedTests

namespace Tree

variable {t clause statement : Tree} {name exported : Text}

/-- The text of a node is what its bytes are the encoding of. -/
theorem text_eq_ok_iff : t.text = .ok name ↔ Utf8.encode name = some t.info.text := by
  rw [← Utf8.decode_eq_some_iff]
  unfold text
  cases Utf8.decode t.info.text with
  | none => simp
  | some decoded => simp

/-! ## Export clauses -/

/-- A specifier of an export clause lists a node under another one: its alias, or else the node itself. -/
def ListsUnder (clause node under : Tree) : Prop :=
  ∃ spec ∈ clause.children, spec.info.named = true ∧ spec.kind = .exportSpecifier ∧
    spec.child? .name = some node ∧ under = (spec.child? .alias).getD node

/-- An export clause lists a name under another one. -/
def Specifies (clause : Tree) (name exported : Text) : Prop :=
  ∃ node under, clause.ListsUnder node under ∧ node.text = .ok name ∧ under.text = .ok exported

/-- The nodes that an export clause lists. -/
def listed (clause : Tree) : List (Tree × Tree) :=
  (clause.children.filter fun c => c.info.named && c.kind = .exportSpecifier).filterMap fun spec =>
    (spec.child? .name).map fun name => (name, (spec.child? .alias).getD name)

/-- The texts of two nodes. -/
def spell (nodes : Tree × Tree) : Except Failure (Text × Text) := do
  return (← nodes.1.text, ← nodes.2.text)

theorem exportSpecifiers_eq (clause : Tree) : clause.exportSpecifiers = clause.listed.mapM spell :=
  rfl

theorem mem_listed_iff {node under : Tree} :
    (node, under) ∈ clause.listed ↔ clause.ListsUnder node under := by
  constructor
  · intro h
    rcases List.mem_filterMap.1 h with ⟨spec, hspec, hnodes⟩
    rcases List.mem_filter.1 hspec with ⟨hmem, hkind⟩
    rcases Option.map_eq_some_iff.1 hnodes with ⟨found, hfound, hpair⟩
    cases hpair
    rcases Bool.and_eq_true_iff.1 hkind with ⟨hnamed, hkind⟩
    exact ⟨spec, hmem, hnamed, of_decide_eq_true hkind, hfound, rfl⟩
  · rintro ⟨spec, hmem, hnamed, hkind, hname, rfl⟩
    refine List.mem_filterMap.2 ⟨spec, List.mem_filter.2 ⟨hmem, ?_⟩, ?_⟩
    · exact Bool.and_eq_true_iff.2 ⟨hnamed, decide_eq_true hkind⟩
    · exact Option.map_eq_some_iff.2 ⟨node, hname, rfl⟩

theorem spell_eq_ok_iff {node under : Tree} :
    spell (node, under) = .ok (name, exported) ↔ node.text = .ok name ∧ under.text = .ok exported := by
  unfold spell
  constructor
  · intro h
    rcases Fallible.bind_eq_ok.1 h with ⟨first, hfirst, h⟩
    rcases Fallible.bind_eq_ok.1 h with ⟨second, hsecond, h⟩
    cases h
    exact ⟨hfirst, hsecond⟩
  · rintro ⟨hfirst, hsecond⟩
    exact Fallible.bind_eq_ok.2 ⟨name, hfirst, Fallible.bind_eq_ok.2 ⟨exported, hsecond, rfl⟩⟩

/-- Reading a clause gives the names that it says. -/
theorem mem_exportSpecifiers_iff {pairs : List (Text × Text)} (h : clause.exportSpecifiers = .ok pairs) :
    (name, exported) ∈ pairs ↔ clause.Specifies name exported := by
  rw [exportSpecifiers_eq] at h
  constructor
  · intro hmem
    rcases Fallible.mem_of_mapM_eq_ok h hmem with ⟨⟨node, under⟩, hnodes, hspell⟩
    exact ⟨node, under, mem_listed_iff.1 hnodes, spell_eq_ok_iff.1 hspell⟩
  · rintro ⟨node, under, hlists, hspell⟩
    rcases Fallible.exists_of_mapM_eq_ok h (mem_listed_iff.2 hlists) with ⟨pair, hpair, hspell'⟩
    cases (spell_eq_ok_iff.2 hspell).symm.trans hspell'
    exact hpair

/-- The partners of one name in a list of pairs. -/
theorem mem_partners_iff {pairs : List (Text × Text)} :
    exported ∈ (pairs.filter fun s => s.1 = name).map (·.2) ↔ (name, exported) ∈ pairs := by
  constructor
  · intro hmem
    rcases List.mem_map.1 hmem with ⟨⟨first, second⟩, hpair, rfl⟩
    rcases List.mem_filter.1 hpair with ⟨hpair, hfirst⟩
    have hname : first = name := of_decide_eq_true hfirst
    exact hname ▸ hpair
  · intro hpair
    exact List.mem_map.2 ⟨_, List.mem_filter.2 ⟨hpair, decide_eq_true rfl⟩, rfl⟩

/-! ## Exports of a module's own names -/

/-- A statement that exports names of its own module. -/
def IsLocalExport (statement : Tree) : Prop :=
  statement.kind = .exportStatement ∧ statement.child? .source = none

/-- A clause of an export statement. -/
def HasClause (statement clause : Tree) : Prop :=
  clause ∈ statement.children ∧ clause.info.named = true ∧ clause.kind = .exportClause

/-- The identifier that an export statement exports as the default. -/
def HasDefaultValue (statement value : Tree) : Prop :=
  statement.hasDefault = true ∧ statement.child? .value = some value ∧ value.kind = .identifier

/-- A statement exports a name of its own module under a name: a clause lists it, or the statement makes
it the default. -/
inductive Exports (statement : Tree) (name : Text) : Text → Prop
  | listed {clause : Tree} {exported : Text} (hlocal : statement.IsLocalExport)
      (hclause : statement.HasClause clause) (hspecifies : clause.Specifies name exported) :
      Exports statement name exported
  | default {value : Tree} (hlocal : statement.IsLocalExport)
      (hvalue : statement.HasDefaultValue value) (htext : value.text = .ok name) :
      Exports statement name defaultName

/-- The names that a statement exports can be read. -/
def Legible (statement : Tree) : Prop :=
  statement.IsLocalExport →
    (∀ clause, statement.HasClause clause → ∃ pairs, clause.exportSpecifiers = .ok pairs) ∧
      ∀ value, statement.HasDefaultValue value → ∃ name, value.text = .ok name

/-- The clauses of a statement. -/
def clauses (statement : Tree) : List Tree :=
  statement.children.filter fun c => c.info.named && c.kind = .exportClause

theorem mem_clauses_iff : clause ∈ statement.clauses ↔ statement.HasClause clause := by
  unfold clauses HasClause
  rw [List.mem_filter, Bool.and_eq_true_iff, decide_eq_true_iff]

/-- The names that the clauses of a statement list for a name. -/
def listedAs (statement : Tree) (name : Text) : Except Failure (List Text) :=
  (statement.clauses.mapM exportSpecifiers).map fun specifiers =>
    (specifiers.flatten.filter fun s => s.1 = name).map (·.2)

/-- The default, if a statement makes a name the default. -/
def defaultOf (statement : Tree) (name : Text) : Except Failure (List Text) :=
  if statement.hasDefault then
    match statement.child? .value with
    | some value =>
      if value.kind = .identifier then
        value.text.map fun text => if text = name then [defaultName] else []
      else .ok []
    | none => .ok []
  else .ok []

/-- What the guard of the search for local exports asks. -/
theorem isLocalExport_iff : statement.IsLocalExport ↔
    (decide (statement.kind ≠ .exportStatement) || (statement.child? .source).isSome) = false := by
  unfold IsLocalExport
  simp

theorem localExports_of_not_local (h : ¬ statement.IsLocalExport) (name : Text) :
    statement.localExports name = .ok [] := by
  unfold localExports
  exact if_pos (eq_true_of_ne_false fun hno => h (isLocalExport_iff.2 hno))

theorem localExports_of_local (h : statement.IsLocalExport) (name : Text) :
    statement.localExports name = do
      return (← statement.listedAs name) ++ (← statement.defaultOf name) := by
  unfold localExports listedAs
  rw [if_neg (Bool.eq_false_iff.1 (isLocalExport_iff.1 h))]
  change (statement.clauses.mapM exportSpecifiers >>= _) = _
  cases statement.clauses.mapM exportSpecifiers with
  | error e => rfl
  | ok specifiers =>
    -- The clauses are read; what is left is the default, which is looked for in the same way.
    unfold defaultOf
    cases statement.hasDefault with
    | false => exact congrArg Except.ok (List.append_nil _).symm
    | true =>
      cases statement.child? .value with
      | none => exact congrArg Except.ok (List.append_nil _).symm
      | some value =>
        by_cases hkind : value.kind = .identifier
        · simp only [hkind, ↓reduceIte]
          cases value.text with
          | error e => rfl
          | ok text =>
            by_cases htext : text = name
            · simp [htext, bind, Except.bind, Except.map, pure, Except.pure]
            · simp [htext, bind, Except.bind, Except.map, pure, Except.pure]
        · simp [hkind, bind, Except.bind, Except.map, pure, Except.pure]

theorem mem_of_listedAs_iff {names : List Text} (h : statement.listedAs name = .ok names) :
    exported ∈ names ↔ ∃ clause, statement.HasClause clause ∧ clause.Specifies name exported := by
  rcases Fallible.map_eq_ok.1 h with ⟨specifiers, hspecifiers, rfl⟩
  rw [mem_partners_iff, Fallible.mem_flatten_of_mapM hspecifiers]
  constructor
  · rintro ⟨clause, hclause, pairs, hpairs, hpair⟩
    exact ⟨clause, mem_clauses_iff.1 hclause, (mem_exportSpecifiers_iff hpairs).1 hpair⟩
  · rintro ⟨clause, hclause, hspecifies⟩
    have hmem := mem_clauses_iff.2 hclause
    rcases Fallible.exists_of_mapM_eq_ok hspecifiers hmem with ⟨pairs, -, hpairs⟩
    exact ⟨clause, hmem, pairs, hpairs, (mem_exportSpecifiers_iff hpairs).2 hspecifies⟩

theorem exists_listedAs_iff : (∃ names, statement.listedAs name = .ok names) ↔
    ∀ clause, statement.HasClause clause → ∃ pairs, clause.exportSpecifiers = .ok pairs := by
  constructor
  · rintro ⟨names, h⟩ clause hclause
    rcases Fallible.map_eq_ok.1 h with ⟨specifiers, hspecifiers, -⟩
    rcases Fallible.exists_of_mapM_eq_ok hspecifiers (mem_clauses_iff.2 hclause) with ⟨pairs, -, h⟩
    exact ⟨pairs, h⟩
  · intro h
    rcases Fallible.mapM_eq_ok_of_forall fun clause hclause => h clause (mem_clauses_iff.1 hclause) with
      ⟨specifiers, hspecifiers⟩
    exact ⟨_, Fallible.map_eq_ok.2 ⟨specifiers, hspecifiers, rfl⟩⟩

/-- A statement that makes an identifier the default. -/
theorem defaultOf_of_value {value : Tree} (h : statement.HasDefaultValue value) (name : Text) :
    statement.defaultOf name = value.text.map fun text => if text = name then [defaultName] else [] := by
  rcases h with ⟨hdefault, hvalue, hkind⟩
  simp [defaultOf, hdefault, hvalue, hkind]

theorem defaultOf_of_no_value (h : ∀ value, ¬ statement.HasDefaultValue value) (name : Text) :
    statement.defaultOf name = .ok [] := by
  unfold defaultOf
  split
  · rename_i hdefault
    split
    · rename_i value hvalue
      exact if_neg fun hkind => h value ⟨hdefault, hvalue, hkind⟩
    · rfl
  · rfl

theorem mem_of_defaultOf_iff {names : List Text} (h : statement.defaultOf name = .ok names) :
    exported ∈ names ↔
      exported = defaultName ∧ ∃ value, statement.HasDefaultValue value ∧ value.text = .ok name := by
  by_cases hvalue : ∃ value, statement.HasDefaultValue value
  · rcases hvalue with ⟨value, hvalue⟩
    rw [defaultOf_of_value hvalue] at h
    rcases Fallible.map_eq_ok.1 h with ⟨text, htext, rfl⟩
    constructor
    · intro hmem
      split at hmem
      · rename_i hname
        exact ⟨List.mem_singleton.1 hmem, value, hvalue, hname ▸ htext⟩
      · cases hmem
    · rintro ⟨rfl, value', hvalue', hname⟩
      -- A statement has one value, so both are spelled in the same way.
      cases hvalue.2.1.symm.trans hvalue'.2.1
      cases htext.symm.trans hname
      simp
  · have hnone := fun value hvalue' => hvalue ⟨value, hvalue'⟩
    rw [defaultOf_of_no_value hnone] at h
    cases h
    refine iff_of_false List.not_mem_nil ?_
    rintro ⟨-, value, hvalue', -⟩
    exact absurd hvalue' (hnone value)

theorem exists_defaultOf_iff : (∃ names, statement.defaultOf name = .ok names) ↔
    ∀ value, statement.HasDefaultValue value → ∃ text, value.text = .ok text := by
  constructor
  · rintro ⟨names, h⟩ value hvalue
    rw [defaultOf_of_value hvalue] at h
    rcases Fallible.map_eq_ok.1 h with ⟨text, htext, -⟩
    exact ⟨text, htext⟩
  · intro h
    by_cases hvalue : ∃ value, statement.HasDefaultValue value
    · rcases hvalue with ⟨value, hvalue⟩
      rcases h value hvalue with ⟨text, htext⟩
      rw [defaultOf_of_value hvalue]
      exact ⟨_, Fallible.map_eq_ok.2 ⟨text, htext, rfl⟩⟩
    · exact ⟨[], defaultOf_of_no_value (fun value hvalue' => hvalue ⟨value, hvalue'⟩) name⟩

theorem localExports_eq_ok_iff (hlocal : statement.IsLocalExport) {names : List Text} :
    statement.localExports name = .ok names ↔ ∃ listed default,
      statement.listedAs name = .ok listed ∧ statement.defaultOf name = .ok default ∧
        names = listed ++ default := by
  rw [localExports_of_local hlocal]
  constructor
  · intro h
    rcases Fallible.bind_eq_ok.1 h with ⟨listed, hlisted, h⟩
    rcases Fallible.bind_eq_ok.1 h with ⟨default, hdefault, h⟩
    cases h
    exact ⟨listed, default, hlisted, hdefault, rfl⟩
  · rintro ⟨listed, default, hlisted, hdefault, rfl⟩
    exact Fallible.bind_eq_ok.2 ⟨listed, hlisted, Fallible.bind_eq_ok.2 ⟨default, hdefault, rfl⟩⟩

/-- Reading the exports of a statement gives the names under which it exports a name. -/
theorem mem_localExports_iff {names : List Text} (h : statement.localExports name = .ok names) :
    exported ∈ names ↔ statement.Exports name exported := by
  by_cases hlocal : statement.IsLocalExport
  · rcases (localExports_eq_ok_iff hlocal).1 h with ⟨listed, default, hlisted, hdefault, rfl⟩
    rw [List.mem_append, mem_of_listedAs_iff hlisted, mem_of_defaultOf_iff hdefault]
    constructor
    · rintro (⟨clause, hclause, hspecifies⟩ | ⟨rfl, value, hvalue, htext⟩)
      · exact .listed hlocal hclause hspecifies
      · exact .default hlocal hvalue htext
    · intro hexports
      cases hexports with
      | listed _ hclause hspecifies => exact .inl ⟨_, hclause, hspecifies⟩
      | default _ hvalue htext => exact .inr ⟨rfl, _, hvalue, htext⟩
  · rw [localExports_of_not_local hlocal] at h
    cases h
    refine iff_of_false List.not_mem_nil ?_
    intro hexports
    cases hexports with
    | listed hlocal' => exact absurd hlocal' hlocal
    | default hlocal' => exact absurd hlocal' hlocal

/-- The exports of a statement can be read for any name or for none. -/
theorem exists_localExports_iff :
    (∃ names, statement.localExports name = .ok names) ↔ statement.Legible := by
  by_cases hlocal : statement.IsLocalExport
  · have hlegible : statement.Legible ↔ (∃ names, statement.listedAs name = .ok names) ∧
        ∃ names, statement.defaultOf name = .ok names := by
      rw [exists_listedAs_iff, exists_defaultOf_iff]
      exact ⟨fun h => h hlocal, fun h _ => h⟩
    rw [hlegible]
    constructor
    · rintro ⟨names, h⟩
      rcases (localExports_eq_ok_iff hlocal).1 h with ⟨listed, default, hlisted, hdefault, -⟩
      exact ⟨⟨listed, hlisted⟩, ⟨default, hdefault⟩⟩
    · rintro ⟨⟨listed, hlisted⟩, ⟨default, hdefault⟩⟩
      exact ⟨_, (localExports_eq_ok_iff hlocal).2 ⟨listed, default, hlisted, hdefault, rfl⟩⟩
  · constructor
    · intro _ hlocal'
      exact absurd hlocal' hlocal
    · intro _
      exact ⟨[], localExports_of_not_local hlocal name⟩

end Tree

/-! ## Exports that are passed on -/

namespace Cursor

variable {statement : Cursor} {exported name : Text}

/-- The clause of an export statement with a source. There is at most one; of several the last one
counts. -/
def exportClause? (statement : Cursor) : Option Cursor :=
  (statement.namedChildren.filter fun c => c.kind = .exportClause).getLast?

/-- An export statement makes a namespace of what its source exports. -/
def MakesNamespace (statement : Cursor) : Prop :=
  ∃ c ∈ statement.namedChildren, c.kind = .namespaceExport

/-- An export statement passes an export of its source on under a name: everything but the default under
its own name if there is no clause, or else what the clause lists. -/
inductive PassesOn (statement : Cursor) (exported : Text) : Text → Prop
  | all (hnamespace : ¬ statement.MakesNamespace) (hclause : statement.exportClause? = none)
      (hdefault : exported ≠ Tree.defaultName) : PassesOn statement exported exported
  | listed {clause : Cursor} {name : Text} (hnamespace : ¬ statement.MakesNamespace)
      (hclause : statement.exportClause? = some clause)
      (hspecifies : clause.tree.Specifies exported name) : PassesOn statement exported name

theorem makesNamespace_iff : statement.MakesNamespace ↔
    (statement.namedChildren.any fun c => c.kind = .namespaceExport) = true := by
  simp [MakesNamespace]

theorem passedOn_of_makesNamespace (h : statement.MakesNamespace) :
    Query.passedOn exported statement = .ok [] :=
  if_pos (makesNamespace_iff.1 h)

theorem passedOn_of_not_makesNamespace (h : ¬ statement.MakesNamespace) :
    Query.passedOn exported statement =
      match statement.exportClause? with
      | none => .ok (if exported = Tree.defaultName then [] else [exported])
      | some clause => clause.tree.exportSpecifiers.map fun specifiers =>
          (specifiers.filter fun s => s.1 = exported).map (·.2) :=
  if_neg fun hany => h (makesNamespace_iff.2 hany)

/-- Reading what a statement passes on gives the names under which it does. -/
theorem mem_passedOn_iff {names : List Text} (h : Query.passedOn exported statement = .ok names) :
    name ∈ names ↔ statement.PassesOn exported name := by
  by_cases hnamespace : statement.MakesNamespace
  · rw [passedOn_of_makesNamespace hnamespace] at h
    cases h
    refine iff_of_false List.not_mem_nil ?_
    intro hpasses
    cases hpasses with
    | all hno => exact absurd hnamespace hno
    | listed hno => exact absurd hnamespace hno
  · rw [passedOn_of_not_makesNamespace hnamespace] at h
    cases hclause : statement.exportClause? with
    | none =>
      rw [hclause] at h
      cases h
      constructor
      · intro hmem
        split at hmem
        · cases hmem
        · rename_i hdefault
          rw [List.mem_singleton.1 hmem]
          exact .all hnamespace hclause hdefault
      · intro hpasses
        cases hpasses with
        | all _ _ hdefault =>
          rw [if_neg hdefault]
          exact List.mem_singleton_self _
        | listed _ hsome => cases hclause.symm.trans hsome
    | some clause =>
      rw [hclause] at h
      rcases Fallible.map_eq_ok.1 h with ⟨pairs, hpairs, rfl⟩
      rw [Tree.mem_partners_iff, Tree.mem_exportSpecifiers_iff hpairs]
      constructor
      · exact .listed hnamespace hclause
      · intro hpasses
        cases hpasses with
        | all _ hnone => cases hclause.symm.trans hnone
        | listed _ hsome hspecifies =>
          cases hclause.symm.trans hsome
          exact hspecifies

end Cursor

end AffectedTests
