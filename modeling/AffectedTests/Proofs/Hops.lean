import AffectedTests.Proofs.Declarations
/-!
# Hops between declarations

A hop leads from a declaration to the declaration around one of its uses, and a use inside a test touches
the test. Which uses there are is a matter of the views of a session, so hops and touched tests do not
depend on what was asked before.

- `Reach` counts the hops from the changed declarations.
- `Reach.declares`: every declaration that hops lead to is made by a node of a file in view.
-/

namespace AffectedTests

/-! ## Where a reference leads -/

namespace Reference

/-- The reference leads into a declaration. In a test file it stands outside every test, and the
declaration is the nearest one around it; in any other file it is the nearest visible one. -/
def EntersDeclaration (settings : Settings) (r : Reference) (d : Declaration) : Prop :=
  (settings.isTestFile r.file = true ∧
    r.node.enclosingTest? settings.testKeywords r.file = .ok none ∧
    r.node.enclosingDeclaration? r.file = .ok (some d)) ∨
  (settings.isTestFile r.file = false ∧ r.node.enclosingVisible? r.file = .ok (some d))

/-- The reference stands in a test file, inside a test: the innermost one around it. -/
def EntersTest (settings : Settings) (r : Reference) (t : TestDeclaration) : Prop :=
  settings.isTestFile r.file = true ∧
    r.node.enclosingTest? settings.testKeywords r.file = .ok (some t)

variable {settings : Settings} {r : Reference}

/-- An optional declaration as an arrival. -/
theorem getD_map_declaration {o : Option Declaration} {d : Declaration} :
    (o.map Arrival.declaration).getD .nowhere = .declaration d ↔ o = some d := by
  cases o <;> simp

theorem getD_map_declaration_ne_test {o : Option Declaration} {t : TestDeclaration} :
    (o.map Arrival.declaration).getD .nowhere ≠ .test t := by
  cases o <;> simp

theorem arrival_eq_declaration {d : Declaration} :
    r.arrival settings = .ok (.declaration d) ↔ r.EntersDeclaration settings d := by
  -- One case for each lookup that the arrival depends on, failed lookups included.
  unfold arrival EntersDeclaration
  cases hfile : settings.isTestFile r.file with
  | true =>
    cases htest : r.node.enclosingTest? settings.testKeywords r.file with
    | error e => simp [bind, Except.bind]
    | ok found =>
      cases found with
      | some t => simp [bind, Except.bind, pure, Except.pure]
      | none =>
        cases r.node.enclosingDeclaration? r.file with
        | error e => simp [bind, Except.bind]
        | ok o => simp [bind, Except.bind, pure, Except.pure, getD_map_declaration]
  | false =>
    cases r.node.enclosingVisible? r.file with
    | error e => simp [bind, Except.bind]
    | ok o => simp [bind, Except.bind, pure, Except.pure, getD_map_declaration]

theorem arrival_eq_test {t : TestDeclaration} :
    r.arrival settings = .ok (.test t) ↔ r.EntersTest settings t := by
  unfold arrival EntersTest
  cases hfile : settings.isTestFile r.file with
  | true =>
    cases htest : r.node.enclosingTest? settings.testKeywords r.file with
    | error e => simp [bind, Except.bind]
    | ok found =>
      cases found with
      | some t => simp [bind, Except.bind, pure, Except.pure]
      | none =>
        cases r.node.enclosingDeclaration? r.file with
        | error e => simp [bind, Except.bind]
        | ok o => simp [bind, Except.bind, pure, Except.pure, getD_map_declaration_ne_test]
  | false =>
    cases r.node.enclosingVisible? r.file with
    | error e => simp [bind, Except.bind]
    | ok o => simp [bind, Except.bind, pure, Except.pure, getD_map_declaration_ne_test]

/-- A reference leads into a declaration of its own file. -/
theorem EntersDeclaration.file {d : Declaration} (h : r.EntersDeclaration settings d) :
    d.file = r.file := by
  rcases h with ⟨-, -, hd⟩ | ⟨-, hd⟩
  · rcases Cursor.exists_of_enclosingDeclaration? hd with ⟨p, -, hmade⟩
    exact (Cursor.node_of_declaration? hmade).2
  · rcases Cursor.exists_of_enclosingVisible? hd with ⟨p, -, hmade⟩
    exact (Cursor.node_of_declaration? hmade).2

end Reference

/-! ## Hops -/

section Hops

variable (w : Workspace) (s : Session)

/-- A use of a declaration. A declaration whose references cannot be resolved has none. -/
def Use (d : Declaration) (r : Reference) : Prop :=
  ∃ rs, (Query.uses d).answer w s = .ok rs ∧ r ∈ rs

/-- A use of the first declaration leads into the second one. -/
def Hop (d d' : Declaration) : Prop :=
  ∃ r, Use w s d r ∧ r.EntersDeclaration w.settings d'

/-- A use of the declaration stands inside the test. -/
def Touches (d : Declaration) (t : TestDeclaration) : Prop :=
  ∃ r, Use w s d r ∧ r.EntersTest w.settings t

/-- So many hops lead from one of the given declarations to another one. -/
inductive Reach (seeds : List Declaration) : Nat → Declaration → Prop
  | seed {d : Declaration} : d ∈ seeds → Reach seeds 0 d
  | hop {k : Nat} {d d' : Declaration} : Reach seeds k d → Hop w s d d' → Reach seeds (k + 1) d'

/-- The lookups behind a declaration give answers: its uses are found, and so is what stands around
each of them. -/
def Resolves (d : Declaration) : Prop :=
  ∃ rs, (Query.uses d).answer w s = .ok rs ∧ ∀ r ∈ rs, ∃ a, r.arrival w.settings = .ok a

end Hops

/-- Whether a declaration resolves can be computed. -/
instance (w : Workspace) (s : Session) (d : Declaration) : Decidable (Resolves w s d) :=
  decidable_of_iff ((((Query.uses d).answer w s).toOption.map fun rs =>
    rs.all fun r => (r.arrival w.settings).toBool) = some true) (by
      unfold Resolves
      cases hrs : (Query.uses d).answer w s with
      | error e => simp [Except.toOption]
      | ok rs =>
        have hbool : ∀ r : Reference, (r.arrival w.settings).toBool = true ↔
            ∃ a, r.arrival w.settings = .ok a := by
          intro r
          cases r.arrival w.settings <;> simp [Except.toBool]
        simp [Except.toOption, List.all_eq_true, hbool])

variable {w : Workspace} {s : Session} {seeds : List Declaration} {k : Nat} {d d' : Declaration}

/-- The declarations that the uses of a declaration lead into, one after the other. -/
def Declaration.next (w : Workspace) (s : Session) (d : Declaration) : List Declaration :=
  (((Query.uses d).answer w s).toOption.getD []).filterMap fun r =>
    match r.arrival w.settings with
    | .ok (.declaration d') => some d'
    | _ => none

theorem Hop.mem_next (h : Hop w s d d') : d' ∈ d.next w s := by
  rcases h with ⟨r, ⟨rs, hrs, hr⟩, hinto⟩
  unfold Declaration.next
  rw [hrs]
  refine List.mem_filterMap.2 ⟨r, hr, ?_⟩
  rw [Reference.arrival_eq_declaration.2 hinto]

/-- The declarations that so many hops lead to from the given ones. -/
def reached (w : Workspace) (s : Session) (seeds : List Declaration) : Nat → List Declaration
  | 0 => seeds
  | k + 1 => (reached w s seeds k).flatMap (Declaration.next w s)

theorem Reach.mem_reached (h : Reach w s seeds k d) : d ∈ reached w s seeds k := by
  induction h with
  | seed hd => exact hd
  | hop _ hhop ih => exact List.mem_flatMap.2 ⟨_, ih, hhop.mem_next⟩

/-- A declaration around a use is in view. -/
theorem Hop.declares (hs : s.Coherent) (h : Hop w s d d') : s.Declares w d' := by
  rcases h with ⟨r, ⟨rs, hrs, hr⟩, hinto⟩
  have hshows := Query.shows_of_uses hs hrs r hr
  rcases hinto with ⟨-, -, hd⟩ | ⟨-, hd⟩
  · rcases Cursor.exists_of_enclosingDeclaration? hd with ⟨p, hp, hmade⟩
    exact s.declares_of_mem_enclosing hshows hp hmade
  · rcases Cursor.exists_of_enclosingVisible? hd with ⟨p, hp, hmade⟩
    exact s.declares_of_mem_enclosing hshows hp hmade

theorem Reach.declares (hs : s.Coherent) (hseeds : ∀ d ∈ seeds, s.Declares w d)
    (h : Reach w s seeds k d) : s.Declares w d := by
  cases h with
  | seed hd => exact hseeds d hd
  | hop _ hd => exact hd.declares hs

end AffectedTests
