import AffectedTests.Proofs.Clauses
import AffectedTests.Proofs.Trace
import AffectedTests.Proofs.Visits
import Mathlib.Data.List.Nodup
import Mathlib.Data.List.Perm.Subperm
import Mathlib.Data.List.ProdSigma
import Mathlib.Order.Bounds.Basic
/-!
# Exports of exports

A declaration can be imported from its own module and from every module that exports it again, under any
of the names that it is given on the way. The search for these exports keeps those that it knows and
those that still wait to be followed. It knows no export twice, and each of them is of a module and has a
name of which a project has only so many, so the search comes to its end, however the modules export each
other; then what it knows is the least set of exports that holds the declaration's own and is closed under
passing on.

- `Query.Searches`: the search without a bound on its steps.
- `Query.searches_followExports`: it ends, within the bound.
- `Session.ExportsClosed`, `Query.exports_least`: what it finds.
-/

namespace AffectedTests

/-- A statement of a file that passes the filter for a module passes an export of the module on. -/
def Session.Passes (s : Session) (w : Workspace) (e x : Query.Export) : Prop :=
  ∃ f, Query.Yields w s e.1 f ∧ ∃ statement, f.TakesBy w s e.1 .exportStatement statement ∧
    statement.PassesOn e.2 x.2 ∧ x.1 = f.path

/-- What passes an export on can be read: the word of the module has bytes, there is a list of the files of
the project, and in the files that pass the filter every export statement tells whether it names the module
and, if it does, what it passes on. -/
structure Session.Followable (s : Session) (w : Workspace) (e : Query.Export) : Prop where
  word : ∃ word, Utf8.encode (Query.moduleWord e.1) = some word
  listed : ∃ paths, s.listingOf w = .ok paths
  read : ∀ f, Query.Yields w s e.1 f → ∀ statement ∈ f.top.namedChildren,
    statement.kind = .exportStatement →
      ∃ named, (Query.hasSource f.path e.1 statement).answer w s = .ok named ∧
        (named = true → ∃ names, Query.passedOn e.2 statement = .ok names)

/-- A set of exports that holds those of a declaration in its own module and what is passed on of its
members. -/
structure Session.ExportsClosed (s : Session) (w : Workspace) (d : Declaration)
    (es : Set Query.Export) : Prop where
  own : ∀ names, d.exportNames = .ok names → ∀ n ∈ names, (d.file, n) ∈ es
  passed : ∀ e ∈ es, ∀ x, s.Passes w e x → x ∈ es

/-- An export of a declaration: one of its own module, or one that is passed on. -/
inductive Session.Exposes (s : Session) (w : Workspace) (d : Declaration) : Query.Export → Prop
  | own {names : List Text} {n : Text} (hnames : d.exportNames = .ok names) (hn : n ∈ names) :
      Exposes s w d (d.file, n)
  | passed {e x : Query.Export} (he : Exposes s w d e) (hx : s.Passes w e x) : Exposes s w d x

namespace Query

/-! ## The search -/

section Search

variable {next : Export → Except Failure (List Export)} {known waiting found : List Export}
  {e : Export}

/-- The search for exports without a bound. The export on top of those that wait is asked for those that
pass it on; the new ones among them are known from then on, and wait. -/
inductive Searches (next : Export → Except Failure (List Export)) :
    (known waiting : List Export) → Except Failure (List Export) → Prop
  | done {known : List Export} : Searches next known [] (.ok known)
  | fails {known waiting : List Export} {e : Export} {failure : Failure}
      (h : next e = .error failure) : Searches next known (e :: waiting) (.error failure)
  | step {known waiting found : List Export} {e : Export} {result : Except Failure (List Export)}
      (h : next e = .ok found)
      (hrest : Searches next (enterExports found known waiting).1 (enterExports found known waiting).2
        result) :
      Searches next known (e :: waiting) result

/-- Those that are new among the exports that were found are added once each. -/
theorem exists_enterExports (found known waiting : List Export) : ∃ new,
    enterExports found known waiting = (known ++ new, new.reverse ++ waiting) ∧ new.Nodup ∧
      ∀ x, x ∈ new ↔ x ∈ found ∧ x ∉ known := by
  induction found generalizing known waiting with
  | nil => exact ⟨[], by simp [enterExports], List.nodup_nil, by simp⟩
  | cons y found ih =>
    by_cases hy : y ∈ known
    · rcases ih known waiting with ⟨new, henter, hnodup, hmem⟩
      refine ⟨new, ?_, hnodup, ?_⟩
      · rw [← henter]
        simp [enterExports, hy]
      · intro x
        rw [hmem, List.mem_cons]
        constructor
        · rintro ⟨hx, hnew⟩
          exact ⟨.inr hx, hnew⟩
        · rintro ⟨rfl | hx, hnew⟩
          · exact absurd hy hnew
          · exact ⟨hx, hnew⟩
    · rcases ih (known ++ [y]) (y :: waiting) with ⟨new, henter, hnodup, hmem⟩
      refine ⟨y :: new, ?_, ?_, ?_⟩
      · have hstep : enterExports (y :: found) known waiting =
            enterExports found (known ++ [y]) (y :: waiting) := by
          simp [enterExports, hy]
        rw [hstep, henter]
        simp
      · refine List.nodup_cons.2 ⟨fun hnew => ?_, hnodup⟩
        exact ((hmem y).1 hnew).2 (by simp)
      · intro x
        rw [List.mem_cons, hmem, List.mem_cons, List.mem_append, List.mem_singleton]
        constructor
        · rintro (rfl | ⟨hx, hnew⟩)
          · exact ⟨.inl rfl, hy⟩
          · exact ⟨.inr hx, fun hknown => hnew (.inl hknown)⟩
        · rintro ⟨rfl | hx, hnew⟩
          · exact .inl rfl
          · by_cases hxy : x = y
            · exact .inl hxy
            · exact .inr ⟨hx, fun hknown => hknown.elim hnew hxy⟩

/-- What holds while the search is on: no export is known twice, those that wait are known, and of those
that do not wait all is known that passes them on. -/
structure Searching (next : Export → Except Failure (List Export)) (known waiting : List Export) :
    Prop where
  nodup : known.Nodup
  waits : ∀ e ∈ waiting, e ∈ known
  followed : ∀ e ∈ known, e ∈ waiting ∨ ∃ found, next e = .ok found ∧ ∀ x ∈ found, x ∈ known

/-- Following an export keeps it so. -/
theorem Searching.step (h : Searching next known (e :: waiting)) (hnext : next e = .ok found) :
    Searching next (enterExports found known waiting).1 (enterExports found known waiting).2 := by
  rcases exists_enterExports found known waiting with ⟨new, henter, hnodup, hmem⟩
  have hfound : ∀ x ∈ found, x ∈ known ++ new := by
    intro x hx
    by_cases hknown : x ∈ known
    · exact List.mem_append_left _ hknown
    · exact List.mem_append_right _ ((hmem x).2 ⟨hx, hknown⟩)
  rw [henter]
  constructor
  · refine List.nodup_append.2 ⟨h.nodup, hnodup, ?_⟩
    rintro a ha b hb rfl
    exact ((hmem a).1 hb).2 ha
  · intro x hx
    rcases List.mem_append.1 hx with hx | hx
    · exact List.mem_append_right _ (List.mem_reverse.1 hx)
    · exact List.mem_append_left _ (h.waits x (by simp [hx]))
  · intro x hx
    rcases List.mem_append.1 hx with hx | hx
    · rcases h.followed x hx with hwaits | ⟨more, hmore, hall⟩
      · rcases List.mem_cons.1 hwaits with rfl | hwaits
        · exact .inr ⟨found, hnext, hfound⟩
        · exact .inl (List.mem_append_right _ hwaits)
      · exact .inr ⟨more, hmore, fun y hy => List.mem_append_left _ (hall y hy)⟩
    · exact .inl (List.mem_append_left _ (List.mem_reverse.2 hx))

/-- At the end nothing waits, and what was known is known. -/
theorem Searches.finishes {result : Except Failure (List Export)} (h : Searches next known waiting result)
    (hs : Searching next known waiting) {all : List Export} (hresult : result = .ok all) :
    Searching next all [] ∧ ∀ x ∈ known, x ∈ all := by
  induction h with
  | done =>
    cases hresult
    exact ⟨hs, fun _ hx => hx⟩
  | fails => cases hresult
  | @step known waiting found e result hnext _ ih =>
    rcases ih (hs.step hnext) hresult with ⟨hend, hkept⟩
    rcases exists_enterExports found known waiting with ⟨new, henter, -, -⟩
    rw [henter] at hkept
    exact ⟨hend, fun x hx => hkept x (List.mem_append_left _ hx)⟩

/-- A property that is passed on is one of all that is found, and of an export that the search fails at. -/
theorem Searches.keeps {result : Except Failure (List Export)} {P : Export → Prop}
    (h : Searches next known waiting result) (hwaits : ∀ x ∈ waiting, x ∈ known)
    (hnext : ∀ e found, P e → next e = .ok found → ∀ x ∈ found, P x) (hknown : ∀ x ∈ known, P x) :
    (∀ all, result = .ok all → ∀ x ∈ all, P x) ∧
      ∀ failure, result = .error failure → ∃ e, P e ∧ next e = .error failure := by
  induction h with
  | done =>
    constructor
    · rintro all ⟨⟩
      exact hknown
    · rintro failure ⟨⟩
  | @fails known waiting e failure hfails =>
    constructor
    · rintro all ⟨⟩
    · rintro _ ⟨⟩
      exact ⟨e, hknown e (hwaits e (by simp)), hfails⟩
  | @step known waiting found e result hfound _ ih =>
    rcases exists_enterExports found known waiting with ⟨new, henter, -, hmem⟩
    rw [henter] at ih
    refine ih ?_ ?_
    · intro x hx
      rcases List.mem_append.1 hx with hx | hx
      · exact List.mem_append_right _ (List.mem_reverse.1 hx)
      · exact List.mem_append_left _ (hwaits x (by simp [hx]))
    · intro x hx
      rcases List.mem_append.1 hx with hx | hx
      · exact hknown x hx
      · exact hnext e found (hknown e (hwaits e (by simp))) hfound x ((hmem x).1 hx).1

end Search

variable {w : Workspace} {s : Session} {d : Declaration} {e x : Export}

/-- What passes an export on. -/
theorem mem_of_exportsOf_iff (hs : s.Coherent) {found : List Export}
    (h : (exportsOf e).answer w s = .ok found) : x ∈ found ↔ s.Passes w e x := by
  have hgives : ∀ f, Yields w s e.1 f → ∀ statement ys,
      (takenExports e.2 f statement).answer w s = .ok ys →
        ∀ y, y ∈ ys ↔ statement.PassesOn e.2 y.2 ∧ y.1 = f.path := by
    intro f _ statement ys hys y
    rcases ((steady_ofExcept _).answer_bind_eq_ok (fun _ => steady_pure _) hs).1 hys with
      ⟨names, hnames, hys⟩
    rw [answer_ofExcept] at hnames
    cases hys
    rw [List.mem_map, ← Cursor.mem_passedOn_iff hnames]
    constructor
    · rintro ⟨name, hname, rfl⟩
      exact ⟨hname, rfl⟩
    · rintro ⟨hname, hfile⟩
      exact ⟨y.2, hname, Prod.ext hfile.symm rfl⟩
  rw [exportsOf_eq] at h
  exact mem_of_visit_taken_iff hs (steady_takenExports e.2) hgives h

/-- The lookup of what passes an export on answers if that can be read. -/
theorem exists_exportsOf_iff (hs : s.Coherent) (hlists : s.ListsResolved w) :
    (∃ found, (exportsOf e).answer w s = .ok found) ↔ s.Followable w e := by
  have hact := steady_takenExports e.2
  have hgives : ∀ f statement, (∃ ys, (takenExports e.2 f statement).answer w s = .ok ys) ↔
      ∃ names, passedOn e.2 statement = .ok names := by
    intro f statement
    have hanswer : (takenExports e.2 f statement).answer w s =
        (passedOn e.2 statement).map fun names => names.map (f.path, ·) := by
      unfold takenExports
      rw [(steady_ofExcept _).answer_bind (fun _ => steady_pure _) hs, answer_ofExcept]
      rfl
    rw [hanswer]
    cases passedOn e.2 statement <;> simp [Except.map]
  rw [exportsOf_eq, exists_visitMentioning_iff (steady_takenFrom hact) hs,
    exists_mentioning_iff hs hlists]
  simp only [exists_takenFrom_iff hs hact, hgives]
  exact ⟨fun h => ⟨h.1.1, h.1.2, h.2⟩, fun h => ⟨⟨h.word, h.listed⟩, h.read⟩⟩

/-! ## The search ends -/

/-- The files of the project that can be loaded. -/
def filesOf (w : Workspace) (s : Session) : List SourceFile :=
  ((s.listingOf w).toOption.getD []).filterMap fun path => (s.fileOf w path).toOption

/-- The name that an export specifier gives. -/
def givenName? (spec : Cursor) : Option Text :=
  (spec.tree.child? .name).bind fun name => ((spec.tree.child? .alias).getD name).text.toOption

/-- All exports that can come up: of the files of the project and the modules at the start, under the
names at the start and those that specifiers give. -/
def candidates (w : Workspace) (s : Session) (start : List Export) : List Export :=
  ((filesOf w s).map (·.path) ++ start.map (·.1)) ×ˢ
    (start.map (·.2) ++ ((filesOf w s).flatMap specifiers).filterMap givenName?)

theorem length_candidates (w : Workspace) (s : Session) (start : List Export) :
    (candidates w s start).length < exportBound w s start := by
  have hnames : (((filesOf w s).flatMap specifiers).filterMap givenName?).length ≤
      ((filesOf w s).flatMap specifiers).length := List.length_filterMap_le _ _
  unfold candidates exportBound
  rw [List.length_product]
  simp only [List.length_append, List.length_map]
  exact Nat.lt_succ_of_le (Nat.mul_le_mul_left _ (Nat.add_le_add_left hnames _))

theorem mem_candidates_of_mem {start : List Export} (h : e ∈ start) : e ∈ candidates w s start := by
  refine List.mem_product.2 ⟨?_, ?_⟩
  · exact List.mem_append_right _ (List.mem_map.2 ⟨e, h, rfl⟩)
  · exact List.mem_append_left _ (List.mem_map.2 ⟨e, h, rfl⟩)

/-- Passing on gives no export that is no candidate: it is of a file of the project, and its name stays
or comes from a specifier of that file. -/
theorem mem_candidates_of_passes (hs : s.Coherent) (hlists : s.ListsResolved w) {start : List Export}
    (he : e ∈ candidates w s start) (h : s.Passes w e x) : x ∈ candidates w s start := by
  rcases h with ⟨f, hf, statement, hstatement, hpasses, hfile⟩
  rcases lists_of_yields hs hlists hf with ⟨⟨paths, hpaths, hlisted⟩, hloaded⟩
  have hmem : f ∈ filesOf w s :=
    List.mem_filterMap.2 ⟨f.path, by rw [hpaths]; exact hlisted, by rw [hloaded]; rfl⟩
  refine List.mem_product.2 ⟨?_, ?_⟩
  · exact List.mem_append_left _ (List.mem_map.2 ⟨f, hmem, hfile.symm⟩)
  · rcases x with ⟨file, name⟩
    cases hpasses with
    | all => exact (List.mem_product.1 he).2
    | @listed clause _ _ hclause hspecifies =>
      rcases hspecifies with ⟨node, under, ⟨spec, hspec, -, hkind, hname, rfl⟩, -, hunder⟩
      -- The specifier is a node of the file, so it is one of those that were counted.
      have hchild : clause ∈ statement.namedChildren :=
        (List.mem_filter.1 (List.mem_of_getLast? hclause)).1
      have hwithin : Cursor.Within f.tree ⟨spec, clause.tree :: clause.above⟩ :=
        ((Cursor.Within.root.of_mem_namedChildren hstatement.mem).of_mem_namedChildren hchild).child
          hspec
      have hcounted : ⟨spec, clause.tree :: clause.above⟩ ∈ specifiers f :=
        List.mem_filter.2 ⟨Tree.mem_preorder_iff.2 hwithin, decide_eq_true hkind⟩
      refine List.mem_append_right _ (List.mem_filterMap.2
        ⟨_, List.mem_flatMap.2 ⟨f, hmem, hcounted⟩, ?_⟩)
      unfold givenName?
      rw [hname, Option.bind_some, hunder]
      rfl

/-- The answers of the lookup that the search asks. -/
def passing (w : Workspace) (s : Session) (e : Export) : Except Failure (List Export) :=
  (exportsOf e).answer w s

/-- With enough steps the bounded search is the unbounded one. Every step takes one export off those that
wait, and each one that it adds is new, so fewer candidates are left for it. -/
theorem searches_followExports (hs : s.Coherent) (hlists : s.ListsResolved w) {start : List Export}
    (fuel : Nat) (known waiting : List Export) (hsearching : Searching (passing w s) known waiting)
    (hknown : ∀ x ∈ known, x ∈ candidates w s start)
    (hfuel : ((candidates w s start).length - known.length) + waiting.length ≤ fuel) :
    Searches (passing w s) known waiting ((followExports fuel known waiting).answer w s) := by
  induction fuel generalizing known waiting with
  | zero =>
    have hnone : waiting = [] := List.eq_nil_of_length_eq_zero (by omega)
    rw [hnone]
    exact .done
  | succ fuel ih =>
    cases waiting with
    | nil => exact .done
    | cons e waiting =>
      have hanswer : (followExports (fuel + 1) known (e :: waiting)).answer w s =
          (passing w s e).bind fun found =>
            (followExports fuel (enterExports found known waiting).1
              (enterExports found known waiting).2).answer w s :=
        (steady_exportsOf e).answer_bind (fun _ => steady_followExports _ _ _) hs
      rw [hanswer]
      cases hfound : passing w s e with
      | error failure => exact .fails hfound
      | ok found =>
        have hnext := hsearching.step hfound
        rcases exists_enterExports found known waiting with ⟨new, henter, -, hmem⟩
        have hall : ∀ x ∈ (enterExports found known waiting).1, x ∈ candidates w s start := by
          rw [henter]
          intro x hx
          rcases List.mem_append.1 hx with hx | hx
          · exact hknown x hx
          · have he := hknown e (hsearching.waits e (by simp))
            exact mem_candidates_of_passes hs hlists he
              ((mem_of_exportsOf_iff hs hfound).1 ((hmem x).1 hx).1)
        have hroom := (hnext.nodup.subperm hall).length_le
        refine .step hfound (ih _ _ hnext hall ?_)
        rw [henter] at hroom ⊢
        simp only [List.length_append, List.length_reverse, List.length_cons] at hroom hfuel ⊢
        omega

/-! ## What the search finds -/

theorem nodup_exportNames {names : List Text} (h : d.exportNames = .ok names) : names.Nodup := by
  unfold Declaration.exportNames at h
  split at h
  · cases h
    exact List.nodup_nil
  · split at h
    · cases h
      exact List.nodup_singleton _
    · split at h
      · rcases Fallible.bind_eq_ok.1 h with ⟨found, -, h⟩
        cases h
        exact nodup_distinct
      · cases h
        exact List.nodup_nil

/-- The exports of a declaration in its own module. -/
def ownExports (d : Declaration) (names : List Text) : List Export :=
  names.map (d.file, ·)

theorem searching_ownExports {next : Export → Except Failure (List Export)} {names : List Text}
    (h : d.exportNames = .ok names) :
    Searching next (ownExports d names) (ownExports d names).reverse := by
  constructor
  · exact (nodup_exportNames h).map fun _ _ hsame => congrArg Prod.snd hsame
  · intro e he
    exact List.mem_reverse.1 he
  · intro e he
    exact .inl (List.mem_reverse.2 he)

/-- The search from some exports, with the bound that it is given. -/
def exportsFrom (start : List Export) : Query (List Export) := do
  let bound := exportBound (← read) (← get) start
  return (← followExports bound start start.reverse).mergeSort exports.precedes

theorem exports_eq (d : Declaration) :
    exports d = ofExcept d.exportNames >>= fun names => exportsFrom (ownExports d names) :=
  rfl

theorem steady_exportsFrom (start : List Export) : Steady (exportsFrom start) := by
  refine Steady.ofViews ?_ ?_
  · intro w s s' h
    simp only [exportBound_eq h]
  · intro w s
    exact (steady_followExports _ _ _).bind fun _ => steady_pure _

theorem answer_exports (hs : s.Coherent) (d : Declaration) :
    (exports d).answer w s = d.exportNames.bind fun names =>
      (exportsFrom (ownExports d names)).answer w s := by
  rw [exports_eq, (steady_ofExcept _).answer_bind (fun _ => steady_exportsFrom _) hs,
    answer_ofExcept]

/-- The bound is taken from the session that the search starts in. -/
theorem ask_exportsFrom (start : List Export) :
    (exportsFrom start).ask w s = (followExports (exportBound w s start) start start.reverse >>=
      fun known => pure (known.mergeSort exports.precedes)).ask w s := by
  unfold exportsFrom
  exact ask_bind _ _ _ _

theorem answer_exportsFrom (hs : s.Coherent) (start : List Export) :
    (exportsFrom start).answer w s =
      ((followExports (exportBound w s start) start start.reverse).answer w s).map
        fun known => known.mergeSort exports.precedes := by
  have hsearch := (steady_followExports (exportBound w s start) start start.reverse).answer_bind
    (fun known => steady_pure (known.mergeSort exports.precedes)) (w := w) hs
  unfold answer at hsearch ⊢
  rw [ask_exportsFrom, hsearch]
  rfl

/-- What is known stays known, with any number of steps. -/
theorem mem_of_followExports (hs : s.Coherent) {fuel : Nat} {known waiting all : List Export}
    (h : (followExports fuel known waiting).answer w s = .ok all) (hx : x ∈ known) : x ∈ all := by
  induction fuel generalizing known waiting with
  | zero =>
    cases h
    exact hx
  | succ fuel ih =>
    cases waiting with
    | nil =>
      cases h
      exact hx
    | cons e waiting =>
      rcases ((steady_exportsOf e).answer_bind_eq_ok (fun _ => steady_followExports _ _ _) hs).1 h with
        ⟨found, -, hrest⟩
      rcases exists_enterExports found known waiting with ⟨new, henter, -, -⟩
      have hkept : x ∈ (enterExports found known waiting).1 := by
        rw [henter]
        exact List.mem_append_left _ hx
      exact ih hrest hkept

/-- The exports of a declaration in its own module are among its exports. -/
theorem mem_exports_of_mem_exportNames (hs : s.Coherent) {es : List Export}
    (h : (exports d).answer w s = .ok es) {names : List Text} (hnames : d.exportNames = .ok names)
    {n : Text} (hn : n ∈ names) : (d.file, n) ∈ es := by
  rw [answer_exports hs, hnames] at h
  rcases Fallible.map_eq_ok.1 ((answer_exportsFrom hs _).symm.trans h) with ⟨all, hall, rfl⟩
  have hown : (d.file, n) ∈ ownExports d names := List.mem_map.2 ⟨n, hn, rfl⟩
  exact List.mem_mergeSort.2 (mem_of_followExports hs hall hown)

/-- The exports of a declaration are what the search from its own exports finds, in order. -/
theorem exists_searches_exports (hs : s.Coherent) (hlists : s.ListsResolved w) {names : List Text}
    (h : d.exportNames = .ok names) : ∃ result,
      Searches (passing w s) (ownExports d names) (ownExports d names).reverse result ∧
        (exports d).answer w s = result.map fun known => known.mergeSort exports.precedes := by
  have hsearching : Searching (passing w s) (ownExports d names) (ownExports d names).reverse :=
    searching_ownExports h
  have hstart : ∀ x ∈ ownExports d names, x ∈ candidates w s (ownExports d names) :=
    fun _ hx => mem_candidates_of_mem hx
  refine ⟨_, searches_followExports hs hlists (exportBound w s (ownExports d names)) _ _
    hsearching hstart ?_, ?_⟩
  · have hbound := length_candidates w s (ownExports d names)
    have hroom := (hsearching.nodup.subperm hstart).length_le
    rw [List.length_reverse]
    omega
  · rw [answer_exports hs, h]
    exact answer_exportsFrom hs _

theorem exposes_of_mem_ownExports {names : List Text} (h : d.exportNames = .ok names)
    (hx : x ∈ ownExports d names) : s.Exposes w d x := by
  rcases List.mem_map.1 hx with ⟨n, hn, rfl⟩
  exact .own h hn

/-- What the search finds are the exports of the declaration, and it fails at none but these. -/
theorem exposes_of_searches (hs : s.Coherent) {names : List Text} (h : d.exportNames = .ok names)
    {result : Except Failure (List Export)}
    (hsearches : Searches (passing w s) (ownExports d names) (ownExports d names).reverse result) :
    (∀ all, result = .ok all → ∀ x ∈ all, s.Exposes w d x) ∧
      ∀ failure, result = .error failure →
        ∃ e, s.Exposes w d e ∧ (exportsOf e).answer w s = .error failure := by
  refine hsearches.keeps (fun _ hx => List.mem_reverse.1 hx) ?_
    (fun _ hx => exposes_of_mem_ownExports h hx)
  intro e found he hfound x hx
  exact .passed he ((mem_of_exportsOf_iff hs hfound).1 hx)

/-- When the search has found all, that is closed under passing on. -/
theorem exportsClosed_of_searching {names : List Text} (hs : s.Coherent)
    (h : d.exportNames = .ok names) {all : List Export} (hend : Searching (passing w s) all [])
    (hown : ∀ x ∈ ownExports d names, x ∈ all) : s.ExportsClosed w d {e | e ∈ all} := by
  constructor
  · intro names' h' n hn
    cases h.symm.trans h'
    exact hown _ (List.mem_map.2 ⟨n, hn, rfl⟩)
  · intro e he x hx
    rcases hend.followed e he with hwaits | ⟨found, hfound, hall⟩
    · cases hwaits
    · exact hall x ((mem_of_exportsOf_iff hs hfound).2 hx)

/-- Every closed set of exports holds the exports of the declaration. -/
theorem mem_of_exposes {es : Set Export} (hclosed : s.ExportsClosed w d es) (h : s.Exposes w d x) :
    x ∈ es := by
  induction h with
  | own hnames hn => exact hclosed.own _ hnames _ hn
  | passed _ hx ih => exact hclosed.passed _ ih _ hx

/-- Exports that are found are all that the search knows when nothing waits. -/
theorem exists_searching_of_exports (hs : s.Coherent) (hlists : s.ListsResolved w) {es : List Export}
    (h : (exports d).answer w s = .ok es) : ∃ names all,
      d.exportNames = .ok names ∧
      Searches (passing w s) (ownExports d names) (ownExports d names).reverse (.ok all) ∧
      Searching (passing w s) all [] ∧ s.ExportsClosed w d {e | e ∈ all} ∧
      es = all.mergeSort exports.precedes := by
  have hbind := (answer_exports hs d).symm.trans h
  rcases Fallible.bind_eq_ok.1 hbind with ⟨names, hnames, -⟩
  rcases exists_searches_exports hs hlists hnames with ⟨result, hsearches, hanswer⟩
  rw [h] at hanswer
  rcases Fallible.map_eq_ok.1 hanswer.symm with ⟨all, rfl, hes⟩
  rcases hsearches.finishes (searching_ownExports hnames) rfl with ⟨hend, hown⟩
  exact ⟨names, all, hnames, hsearches, hend, exportsClosed_of_searching hs hnames hend hown, hes.symm⟩

/-- The exports of a declaration, if they are found. -/
theorem isLeast_of_exports (hs : s.Coherent) (hlists : s.ListsResolved w) {es : List Export}
    (h : (exports d).answer w s = .ok es) :
    es.Nodup ∧ IsLeast {S | s.ExportsClosed w d S} {e | e ∈ es} := by
  rcases exists_searching_of_exports hs hlists h with
    ⟨names, all, hnames, hsearches, hend, hclosed, rfl⟩
  have hmem : {e | e ∈ all.mergeSort exports.precedes} = {e | e ∈ all} :=
    Set.ext fun e => List.mem_mergeSort
  rw [hmem]
  refine ⟨(List.mergeSort_perm all _).nodup_iff.2 hend.nodup, hclosed, ?_⟩
  intro S hS e he
  exact mem_of_exposes hS ((exposes_of_searches hs hnames hsearches).1 all rfl e he)

theorem exists_exports_iff (hs : s.Coherent) (hlists : s.ListsResolved w) (d : Declaration) :
    (∃ es, (exports d).answer w s = .ok es) ↔ (∃ names, d.exportNames = .ok names) ∧
      ∀ e, s.Exposes w d e → s.Followable w e := by
  constructor
  · rintro ⟨es, h⟩
    rcases exists_searching_of_exports hs hlists h with ⟨names, all, hnames, -, hend, hclosed, -⟩
    refine ⟨⟨names, hnames⟩, fun e he => ?_⟩
    -- The search has followed all that it knows at its end.
    rcases hend.followed e (mem_of_exposes hclosed he) with hwaits | ⟨found, hfound, -⟩
    · cases hwaits
    · exact (exists_exportsOf_iff hs hlists).1 ⟨found, hfound⟩
  · rintro ⟨⟨names, hnames⟩, hall⟩
    rcases exists_searches_exports hs hlists hnames with ⟨result, hsearches, hanswer⟩
    cases result with
    | ok all => exact ⟨_, hanswer⟩
    | error failure =>
      rcases (exposes_of_searches hs hnames hsearches).2 failure rfl with ⟨e, he, hfails⟩
      rcases (exists_exportsOf_iff hs hlists).2 (hall e he) with ⟨found, hfound⟩
      cases hfails.symm.trans hfound

/-- The search for the exports of a declaration ends for every project. It gives them unless its own
exports cannot be read or what passes one of its exports on; and what it gives is the least set that holds
its own exports and is closed under passing on. -/
theorem exports_least (hs : s.Coherent) (hlists : s.ListsResolved w) (d : Declaration) :
    (∀ names, d.exportNames = .ok names → ∃ result,
      Searches (fun e => (exportsOf e).answer w s) (ownExports d names) (ownExports d names).reverse
          result ∧
        (exports d).answer w s = result.map fun known => known.mergeSort exports.precedes) ∧
    ((∃ es, (exports d).answer w s = .ok es) ↔ (∃ names, d.exportNames = .ok names) ∧
      ∀ e, s.Exposes w d e → s.Followable w e) ∧
    (∀ es, (exports d).answer w s = .ok es →
      es.Nodup ∧ IsLeast {S | s.ExportsClosed w d S} {e | e ∈ es}) :=
  ⟨fun _ h => exists_searches_exports hs hlists h, exists_exports_iff hs hlists d,
    fun _ h => isLeast_of_exports hs hlists h⟩

end Query

/-! ## Modules that export each other -/

namespace Ring

open Sample (leaf branch function statement)

/-- A statement on one line that exports from the module in a literal. -/
def reexport (first last row : Nat) (clauses : List Tree) (literal : Bytes) : Tree :=
  branch .exportStatement none first last row
    (clauses ++ [leaf .string (some .source) (last - literal.length - 1) (last - 1) row literal])

/-- An export clause that exports `f` as `g`. -/
def clause : Tree :=
  branch .exportClause none 7 17 0 [branch .exportSpecifier none 9 15 0 [
    leaf .identifier (some .name) 9 10 0 [102], leaf .identifier (some .alias) 14 15 0 [103]]]

def sourceA : Bytes :=
  (Utf8.encode "export function f() {}\nexport * from './b';\n").getD []

def sourceB : Bytes :=
  (Utf8.encode "export { f as g } from './a';\nexport * from './c';\n").getD []

def sourceC : Bytes :=
  (Utf8.encode "export * from './b';\n").getD []

/-- The module `a` declares a function `f` and exports everything of `b`. -/
def treeA : Tree :=
  .node ⟨.program, true, none, 0, 44, 0, 2, []⟩
    [statement, reexport 23 43 1 [] [39, 46, 47, 98, 39]]

/-- The module `b` exports the function of `a` as `g`, and everything of `c`. -/
def treeB : Tree :=
  .node ⟨.program, true, none, 0, 51, 0, 2, []⟩
    [reexport 0 29 0 [clause] [39, 46, 47, 97, 39], reexport 30 50 1 [] [39, 46, 47, 99, 39]]

/-- The module `c` exports everything of `b`. -/
def treeC : Tree :=
  .node ⟨.program, true, none, 0, 21, 0, 1, []⟩ [reexport 0 20 0 [] [39, 46, 47, 98, 39]]

/-- A directory with the three modules. -/
def disk (b : Bytes) : Disk :=
  [.directory [112] [.file [97, 46, 106, 115] sourceA, .file [98, 46, 106, 115] b,
    .file [99, 46, 106, 115] sourceC]]

/-- A project in which `a` and `b` export each other, and `b` and `c`. -/
def workspace : Workspace where
  root := "/p"
  settings := {}
  grammars _ source :=
    if source = sourceA then treeA else if source = sourceB then treeB else treeC
  disk := disk sourceB

/-- A session in which the project was listed. -/
def session : Session :=
  { listing := some ["/p/a.js", "/p/b.js", "/p/c.js"] }

def declared : Declaration :=
  ⟨"f", .function, "/p/a.js", ⟨function, [statement, treeA]⟩⟩

theorem coherent : session.Coherent := by
  intro path f h
  simp [session, Table.get?] at h

theorem listsResolved {w : Workspace} : session.ListsResolved w := by
  rintro path ⟨_, ⟨⟩, hpath⟩
  have hall : ∀ path ∈ [("/p/a.js" : Text), ("/p/b.js" : Text), ("/p/c.js" : Text)],
      Path.resolve path = .ok path := by
    decide
  exact hall path hpath

/-- The function can be imported from each of the modules, from that of its own under two names. -/
theorem exports_least_ring : ∃ es,
    (Query.exports declared).answer workspace session = .ok es ∧
    es.Perm [("/p/a.js", "f"), ("/p/b.js", "g"), ("/p/a.js", "g"), ("/p/c.js", "g")] ∧
    IsLeast {S | session.ExportsClosed workspace declared S} {e | e ∈ es} := by
  have hnames : declared.exportNames = .ok ["f"] := by rfl
  have hfollowed : (Query.followExports
        (Query.exportBound workspace session (Query.ownExports declared ["f"]))
        (Query.ownExports declared ["f"]) (Query.ownExports declared ["f"]).reverse).answer
          workspace session =
      .ok [("/p/a.js", "f"), ("/p/b.js", "g"), ("/p/a.js", "g"), ("/p/c.js", "g")] := by
    rfl
  have hanswer := Query.answer_exports (w := workspace) coherent declared
  rw [hnames, Except.bind, Query.answer_exportsFrom coherent, hfollowed] at hanswer
  exact ⟨_, hanswer, List.mergeSort_perm _ _,
    ((Query.exports_least coherent listsResolved declared).2.2 _ hanswer).2⟩

def unnamedSource : Bytes :=
  (Utf8.encode "export { f as g } from './a';\nexport * from '\\u\x7b110000\x7d';\n").getD []

/-- The module `b` exports the function of `a`, and everything of a module whose name has an escape that
denotes no code point. -/
def unnamedTree : Tree :=
  .node ⟨.program, true, none, 0, 58, 0, 2, []⟩
    [reexport 0 29 0 [clause] [39, 46, 47, 97, 39],
      reexport 30 57 1 [] [39, 92, 117, 123, 49, 49, 48, 48, 48, 48, 125, 39]]

/-- The project with such a module `b`. -/
def broken : Workspace where
  root := "/p"
  settings := {}
  grammars language source :=
    if source = unnamedSource then unnamedTree else workspace.grammars language source
  disk := disk unnamedSource

/-- The exports of a declaration need not be found, although there are some. -/
theorem not_exports_least_unnamed :
    (Query.exports declared).answer broken session = .error (.noSuchCodePoint 0x110000) ∧
    ¬ ∀ (w : Workspace) (s : Session) (d : Declaration), s.Coherent → s.ListsResolved w →
      ∃ es, (Query.exports d).answer w s = .ok es ∧
        IsLeast {S | s.ExportsClosed w d S} {e | e ∈ es} := by
  have herror : (Query.exports declared).answer broken session =
      .error (.noSuchCodePoint 0x110000) := by rfl
  refine ⟨herror, fun hall => ?_⟩
  rcases hall broken session declared coherent listsResolved with ⟨es, hes, -⟩
  rw [herror] at hes
  cases hes

end Ring

end AffectedTests
