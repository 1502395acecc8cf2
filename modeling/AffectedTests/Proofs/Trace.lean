import AffectedTests.Proofs.Impacts
import AffectedTests.Proofs.Walk
/-!
# The tests that a trace reports

A trace walks depth first, with one record of depths for all changed declarations, and passes over a
declaration that was reached at the same depth or a smaller one. None of this shows in what it reports:
a test is reported exactly if so many hops as the settings allow lead from a changed declaration to a
declaration that is used in the test.

- `Advances.mem_keys_iff`: the impacts of a walk that reached every changed declaration.
- `Tracer.trace_reports_iff`: the tests of a trace.
-/

namespace AffectedTests

section Reported

variable (w : Workspace) (s : Session) (seeds : List Declaration)

/-- A test is within reach: at most so many hops lead from one of the given declarations to one that is
used inside a test of this file and name. -/
def WithinReach (limit : Nat) (file name : Text) : Prop :=
  ∃ k d t, k ≤ limit ∧ Reach w s seeds k d ∧ Touches w s d t ∧ t.file = file ∧ t.name = name

end Reported

variable {w : Workspace} {s : Session} {seeds : List Declaration} {related : Text} {limit : Nat}
  {walk walk' : Walk}

/-- After a walk from all changed declarations every declaration was reached at its least depth: the
depths noted on the way are settled, so no hop that shortens a path is left out. -/
theorem Advances.reachedBy (h : Advances w s seeds related limit walk walk')
    (hstart : walk.depths = []) (hseeds : ∀ d ∈ seeds, walk'.ReachedBy d 0) {k : Nat}
    {d : Declaration} (hreach : Reach w s seeds k d) (hk : k ≤ limit) : walk'.ReachedBy d k := by
  induction hreach with
  | seed hd => exact hseeds _ hd
  | @hop k x d hx hhop ih =>
    -- The depth noted for `x` is settled, whatever it is, so the hop was taken from there.
    rcases ih (by omega) with ⟨depth, hget, hdepth⟩
    rcases h.settled k x depth hx (by omega) hget with hold | hsettled
    · simp [hstart, Table.get?] at hold
    · rcases hsettled.hops (by omega) d hhop with ⟨i, hi, hle⟩
      exact ⟨i, hi, by omega⟩

/-- The impacts of such a walk are those of the tests within reach. -/
theorem Advances.mem_keys_iff (h : Advances w s seeds related limit walk walk')
    (hstart : walk.depths = []) (hnone : walk.impacts = [])
    (hseeds : ∀ d ∈ seeds, walk'.ReachedBy d 0) {file name : Text} :
    (file, name) ∈ walk'.impacts.map Impact.key ↔ WithinReach w s seeds limit file name := by
  constructor
  · intro hmem
    rcases List.mem_map.1 hmem with ⟨i, hi, hkey⟩
    rcases h.justified i hi with hold | ⟨k, d, t, hk, hreach, ht, rfl⟩
    · simp [hnone] at hold
    · cases hkey
      exact ⟨k, d, t, hk, hreach, ht, rfl, rfl⟩
  · rintro ⟨k, d, t, hk, hreach, ht, rfl, rfl⟩
    -- The declaration was reached, and since the walk began without depths it is settled.
    rcases h.reachedBy hstart hseeds hreach hk with ⟨depth, hget, -⟩
    rcases h.settled k d depth hreach hk hget with hold | hsettled
    · simp [hstart, Table.get?] at hold
    · exact List.mem_map.2 ⟨_, hsettled.tests t ht, rfl⟩

namespace Tracing

/-- The walk of a whole diff succeeds and reaches every changed declaration. -/
theorem exec_walkAll {d : FileDiff} {path : Text} (hs : s.Coherent)
    (happart : ∀ path f, s.fileOf w path = .ok f → f.StartsApart)
    (hseeds : (changed d path).answer w s = .ok seeds)
    (hok : ∀ k x, k ≤ w.settings.maxDepth.toNat → Reach w s seeds k x → Resolves w s x)
    (t : Tracer) :
    ∃ walk', (walkAll d path).exec w ⟨s, t, [], []⟩ = (.ok (), walk') ∧
      Advances w s seeds d.path w.settings.maxDepth.toNat
        ⟨((changed d path).ask w s).2, t, [], []⟩ walk' ∧
      ∀ x ∈ seeds, walk'.ReachedBy x 0 := by
  have hkeys := keysApart hs happart (declares_of_changed hs hseeds) w.settings.maxDepth.toNat
  have hsteady := Query.steady_changed d path
  have hin : Walk.InSession w s ⟨((changed d path).ask w s).2, t, [], []⟩ :=
    ⟨hsteady.coherent hs, hsteady.alike hs⟩
  have hquery : (ofQuery (changed d path)).exec w ⟨s, t, [], []⟩ =
      (.ok seeds, ⟨((changed d path).ask w s).2, t, [], []⟩) := by
    rw [exec_ofQuery]
    exact congrArg (·, _) hseeds
  -- One changed declaration: the tracer gets to know it, and the walk from it starts at depth 0.
  have hseed : ∀ x ∈ seeds, ∀ start : Walk, start.InSession w s → ∃ walk',
      (do
        modify fun walk : Walk => { walk with tracer := walk.tracer.addDeclaration w.root x }
        Tracing.walk d.path x.nodeId w.settings.maxDepth.toNat 0 x : Tracing Unit).exec w start =
          (.ok (), walk') ∧
        Advances w s seeds d.path w.settings.maxDepth.toNat start walk' ∧ walk'.ReachedBy x 0 := by
    intro x hx start hstart
    have hadded : Advances w s seeds d.path w.settings.maxDepth.toNat start
        { start with tracer := start.tracer.addDeclaration w.root x } := .setTracer hstart _
    rcases exec_walk hs hkeys hok w.settings.maxDepth.toNat 0 x (Nat.zero_add _) (.seed hx) _
      hadded.session with ⟨walk', hexec, hadv, hreached⟩
    refine ⟨walk', ?_, hadded.trans hadv, hreached⟩
    rw [exec_bind_ok (exec_modify _ w start), hexec]
  rcases exec_forM hseed _ hin with ⟨walk', hexec, hadv, hreached⟩
  refine ⟨walk', ?_, hadv, hreached⟩
  rw [walkAll, exec_bind_ok (exec_read w _), exec_bind_ok hquery, hexec]

end Tracing

/-- What a trace reports: it succeeds, and it reports exactly the tests within reach. The order of the
walk and the depths that the changed declarations share make no difference, whatever cycles the hops
form. -/
theorem Tracer.trace_reports_iff {d : FileDiff} {path : Text} (hs : s.Coherent)
    (happart : ∀ path f, s.fileOf w path = .ok f → f.StartsApart)
    (hseeds : (Tracing.changed d path).answer w s = .ok seeds)
    (hok : ∀ k x, k ≤ w.settings.maxDepth.toNat → Reach w s seeds k x → Resolves w s x)
    (t : Tracer) :
    ∃ impacts, (t.trace d path w s).1 = .ok impacts ∧ ∀ file name,
      (file, name) ∈ impacts.map Impact.key ↔
        WithinReach w s seeds w.settings.maxDepth.toNat file name := by
  rcases Tracing.exec_walkAll hs happart hseeds hok t with ⟨walk', hexec, hadv, hreached⟩
  refine ⟨Impact.merge walk'.impacts, ?_, ?_⟩
  · have hrun : (((Tracing.walkAll d path).run w).run).run ⟨s, t, [], []⟩ = (.ok (), walk') := hexec
    rw [Tracer.trace, hrun]
    rfl
  · intro file name
    rw [Impact.mem_keys_merge]
    exact hadv.mem_keys_iff rfl rfl hreached

/-! ## An example -/

namespace Sample

/-- A node on one line whose text is looked at. -/
def leaf (kind : Kind) (field : Option Field) (first last row : Nat) (text : Bytes) : Tree :=
  .node ⟨kind, true, field, first, last, row, row, text⟩ []

/-- A node on one line whose text is not looked at. -/
def branch (kind : Kind) (field : Option Field) (first last row : Nat) (children : List Tree) : Tree :=
  .node ⟨kind, true, field, first, last, row, row, []⟩ children

/-- A node over several lines whose text is not looked at. -/
def block (kind : Kind) (field : Option Field) (first last firstRow lastRow : Nat)
    (children : List Tree) : Tree :=
  .node ⟨kind, true, field, first, last, firstRow, lastRow, []⟩ children

/-- An expression on one line that is a statement. -/
def expression (first last row : Nat) (children : List Tree) : Tree :=
  branch (.other "expression_statement") none first last row children

/-- A call on one line of a function with a name of one letter. -/
def call (first last row : Nat) (name : UInt8) (arguments : List Tree) : Tree :=
  branch .callExpression none first last row [
    leaf .identifier (some .function) first (first + 1) row [name],
    branch .arguments (some .arguments) (first + 1) last row arguments]

/-- A test on one line whose name and function are letters. -/
def testCall (first row : Nat) (name function : UInt8) : Tree :=
  branch .callExpression none first (first + 12) row [
    leaf .identifier (some .function) first (first + 4) row [116, 101, 115, 116],
    branch .arguments (some .arguments) (first + 4) (first + 12) row [
      leaf .string none (first + 5) (first + 8) row [34, name, 34],
      leaf .identifier none (first + 10) (first + 11) row [function]]]

/-- The declaration of a function on one line, with the statements of its body. -/
def declaration (field : Option Field) (first last row : Nat) (name : UInt8) (body : List Tree) : Tree :=
  branch .functionDeclaration field first last row [
    leaf .identifier (some .name) (first + 9) (first + 10) row [name],
    branch .formalParameters (some (.other "parameters")) (first + 10) (first + 12) row [],
    branch (.other "statement_block") (some (.other "body")) (first + 13) last row body]

/-- A function that does nothing. -/
def function : Tree :=
  declaration (some (.other "declaration")) 7 22 0 102 []

/-- The function is exported. -/
def statement : Tree :=
  branch .exportStatement none 0 22 0 [function]

/-- A function on one line that calls another one. -/
def caller (field : Option Field) (first row : Nat) (name callee : UInt8) : Tree :=
  declaration field first (first + 21) row name
    [expression (first + 15) (first + 19) row [call (first + 15) (first + 18) row callee []]]

def source : Bytes :=
  (Utf8.encode ("export function f() \x7b\x7d\nexport function g() \x7b f(); \x7d\n" ++
    "function h() \x7b g(); \x7d\ntest(\"x\", h);\n")).getD []

/-- The tree of a file with a function `f`, a function `g` that calls it, a function `h` that calls `g`, and
a test `x` of `h`. -/
def tree : Tree :=
  .node ⟨.program, true, none, 0, 88, 0, 4, []⟩ [statement,
    branch .exportStatement none 23 51 1 [caller (some (.other "declaration")) 30 1 103 102],
    caller none 52 2 104 103, expression 74 87 3 [testCall 74 3 120 104]]

def path : Text := "/p/a.test.js"

/-- A project with one file. -/
def workspace : Workspace where
  root := "/p"
  settings := {}
  grammars _ _ := tree
  disk := [.directory [112] [.file [97, 46, 116, 101, 115, 116, 46, 106, 115] source]]

/-- A session in which the project was listed. -/
def session : Session :=
  { listing := some [path] }

/-- A change of the first line. -/
def diff : FileDiff :=
  ⟨"a.test.js", .modified, [⟨1, "export function f() {}", false⟩], []⟩

/-- The function `f`. -/
def changed : Declaration :=
  ⟨"f", .function, path, ⟨function, [statement, tree]⟩⟩

theorem coherent : session.Coherent := by
  intro p f h
  simp [session, Table.get?] at h

theorem tree_of_fileOf {p : Text} {f : SourceFile} (h : session.fileOf workspace p = .ok f) :
    f.tree = tree :=
  Session.tree_of_fileOf rfl h

theorem startsApart {p : Text} {f : SourceFile} (h : session.fileOf workspace p = .ok f) :
    f.StartsApart := by
  refine SourceFile.startsApart_of_nodup ?_
  unfold SourceFile.top
  rw [tree_of_fileOf h]
  decide

theorem resolves {k : Nat} {d : Declaration} (hk : k ≤ workspace.settings.maxDepth.toNat)
    (h : Reach workspace session [changed] k d) : Resolves workspace session d := by
  have hall : ∀ k ≤ 5, ∀ d ∈ reached workspace session [changed] k, Resolves workspace session d := by
    decide +kernel
  exact hall k hk d h.mem_reached

/-- No test uses the function itself. -/
theorem not_touches_changed (t : TestDeclaration) : ¬ Touches workspace session changed t := by
  rintro ⟨r, ⟨rs, hrs, hr⟩, hinto⟩
  have hall : (((Query.uses changed).answer workspace session).toOption.getD []).all
      (fun r => (r.reports workspace.settings []).isEmpty) = true := by decide +kernel
  rw [hrs] at hall
  have hnone := List.all_eq_true.1 hall r hr
  simp [Reference.reports, Reference.arrival_eq_test.2 hinto] at hnone

/-- The changed function reaches the test by hops only, and the test is reported. -/
theorem trace_reports_test : ∃ impacts,
    (({} : Tracer).trace diff path workspace session).1 = .ok impacts ∧
    impacts.map Impact.key = [(path, Text.ofString "x")] ∧
    WithinReach workspace session [changed] 5 path "x" ∧ ∀ t, ¬ Touches workspace session changed t := by
  have hseeds : (Tracing.changed diff path).answer workspace session = .ok [changed] := by rfl
  rcases Tracer.trace_reports_iff coherent (fun _ _ => startsApart) hseeds
    (fun _ _ hk h => resolves hk h) {} with ⟨impacts, himpacts, hiff⟩
  have hkeys : (({} : Tracer).trace diff path workspace session).1.toOption.map (List.map Impact.key) =
      some [(path, Text.ofString "x")] := by
    decide +kernel
  rw [himpacts] at hkeys
  have hkeys : impacts.map Impact.key = [(path, Text.ofString "x")] := Option.some.inj hkeys
  refine ⟨impacts, himpacts, hkeys, (hiff path "x").1 ?_, not_touches_changed⟩
  rw [hkeys]
  exact List.mem_singleton_self _

end Sample

end AffectedTests
