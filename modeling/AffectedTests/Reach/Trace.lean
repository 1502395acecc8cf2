import AffectedTests.Diff.Basic
import AffectedTests.Reach.Graph
import AffectedTests.Source.References
/-!
# Tracing changes to tests

A change of a declaration reaches a test when a chain of uses leads from one to the other: the
declaration is used inside a second one, that one inside a third, and the last one inside the test. The
walk goes along these hops, depth first and down to the greatest depth that the settings allow; a
declaration is walked again only when it is reached at a smaller depth.

Every hop is kept in a graph, so that the chain behind an impact can be shown.
-/

namespace AffectedTests

/-! ## Hops -/

/-- Where a use of a declaration leads. -/
inductive Arrival
  /-- Into a test, where the walk ends. -/
  | test (t : TestDeclaration)
  /-- Into another declaration, from where it goes on. -/
  | declaration (d : Declaration)
  | nowhere

/-- Where a reference leads. In a test file it leads into the test around it or, outside every test,
into the nearest declaration; in any other file into the nearest declaration that is visible. -/
def Reference.arrival (s : Settings) (r : Reference) : Except Failure Arrival := do
  if s.isTestFile r.file then
    match ← r.node.enclosingTest? s.testKeywords r.file with
    | some t => return .test t
    | none => return ((← r.node.enclosingDeclaration? r.file).map Arrival.declaration).getD .nowhere
  else
    return ((← r.node.enclosingVisible? r.file).map Arrival.declaration).getD .nowhere

namespace Query

/-- The uses that one reference stands for: itself or, for an import, the uses of the name that it
binds. -/
def usesOf (r : Reference) : Query (List Reference) :=
  match r.binding with
  | some name => localReferences r.file name
  | none => return [r]

/-- All uses of a declaration. Unresolved references are passed over with a warning. -/
def uses (d : Declaration) : Query (List Reference) := do
  let found ← tryCatch (references d) fun failure =>
    match failure with
    | .unresolved _ _ _ => do
      warn (.notFollowed failure)
      return []
    | failure => throw failure
  return (← found.mapM usesOf).flatten

end Query

/-! ## The state of a walk -/

/-- What a tracer keeps from one change to the next: the graph of hops and, for each test, the changed
declarations that reached it. -/
structure Tracer where
  graph : Graph := {}
  origins : Table Text (List Text) := []

/-- The state of a walk: the session, the tracer, the least depth at which each declaration was
reached, and the impacts found so far. -/
structure Walk where
  session : Session
  tracer : Tracer
  depths : Table (Text × Nat) Nat
  impacts : List Impact

/-- A step of a walk. -/
abbrev Tracing := ReaderT Workspace (ExceptT Failure (StateM Walk))

namespace Tracing

/-- A query in the session of the walk. -/
def ofQuery {α : Type} (q : Query α) : Tracing α := fun w => ExceptT.mk do
  let walk ← get
  let (answer, session) := q.ask w walk.session
  set { walk with session := session }
  return answer

end Tracing

namespace Declaration

/-- The identity of a declaration in the graph. -/
def nodeId (d : Declaration) : Text :=
  d.file ++ ("::" : Text) ++ d.name ++ ("@" : Text) ++ Text.ofNat d.startByte

/-- The label of a declaration in the graph. -/
def label (root : Text) (d : Declaration) : Text :=
  d.name ++ (" (" : Text) ++ Path.relativeTo root d.file ++ (")" : Text)

end Declaration

namespace TestDeclaration

/-- The identity of a test in the graph. -/
def nodeIdOf (file name : Text) : Text :=
  file ++ ("::test:" : Text) ++ name

def nodeId (t : TestDeclaration) : Text :=
  nodeIdOf t.file t.name

/-- The label of a test in the graph. -/
def label (root : Text) (t : TestDeclaration) : Text :=
  t.name ++ (" (" : Text) ++ Path.relativeTo root t.file ++ (")" : Text)

end TestDeclaration

namespace Tracer

/-- Adds a declaration to the graph. -/
def addDeclaration (root : Text) (d : Declaration) (t : Tracer) : Tracer :=
  { t with graph := t.graph.addNode d.nodeId (d.label root) }

/-- Adds a hop between two declarations. -/
def addHop (root : Text) (source target : Declaration) (t : Tracer) : Tracer :=
  let t := (t.addDeclaration root source).addDeclaration root target
  { t with graph := t.graph.addEdge source.nodeId target.nodeId }

/-- Notes that a changed declaration reached a test. -/
def addOrigin (test origin : Text) (t : Tracer) : Tracer :=
  let origins := (t.origins.get? test).getD []
  if origins.contains origin then t
  else { t with origins := t.origins.put test (origins ++ [origin]) }

/-- Adds a use of a declaration inside a test, on the way from a changed declaration. -/
def addTest (root : Text) (source : Declaration) (test : TestDeclaration) (origin : Text) (t : Tracer) :
    Tracer :=
  let t := { t with graph := t.graph.addNode test.nodeId (test.label root) }
  let t := t.addDeclaration root source
  addOrigin test.nodeId origin { t with graph := t.graph.addEdge source.nodeId test.nodeId }

end Tracer

/-! ## The walk -/

namespace Tracing

/-- Follows one use of a declaration: notes the test that it leads into, or gives the declaration that
it leads into, provided that the walk may descend and has not been there at that depth or a smaller
one. -/
def follow (related origin : Text) (source : Declaration) (depth : Nat) (mayDescend : Bool)
    (r : Reference) : Tracing (List Declaration) := do
  let w ← read
  match r.arrival w.settings with
  | .error e => throw e
  | .ok .nowhere => return []
  | .ok (.test t) =>
    modify fun walk => { walk with
      tracer := walk.tracer.addTest w.root source t origin
      impacts := walk.impacts ++ [⟨t.name, t.file, .indirect, some related⟩] }
    return []
  | .ok (.declaration d) =>
    let best := ((← get).depths.get? d.key).getD (depth + 2)
    if mayDescend && depth + 1 < best then
      modify fun walk => { walk with tracer := walk.tracer.addHop w.root source d }
      return [d]
    else return []

/-- Walks from a declaration that is reached at a depth, with so many hops to go. All uses of the
declaration are followed before any of the declarations that they lead into, and of these the last one
is walked first. -/
def walk (related origin : Text) : (remaining depth : Nat) → Declaration → Tracing Unit
  | remaining, depth, d => do
    if (((← get).depths.get? d.key).getD (depth + 1)) ≤ depth then return
    modify fun walk => { walk with depths := walk.depths.put d.key depth }
    let uses ← ofQuery (Query.uses d)
    let next ← uses.mapM (follow related origin d depth (remaining ≠ 0))
    match remaining with
    | 0 => return
    | remaining + 1 => next.flatten.reverse.forM (walk related origin remaining (depth + 1))

/-- The declarations that the added lines of a diff change, each once. -/
def changed (d : FileDiff) (path : Text) : Query (List Declaration) := do
  let found ← d.addedLines.mapM fun line => Query.changedAt? path line.number
  return (found.filterMap id).foldl (fun known d =>
    if known.any fun k => k.key = d.key then known else known ++ [d]) []

/-- Walks from every declaration that a diff changes. -/
def walkAll (d : FileDiff) (path : Text) : Tracing Unit := do
  let w ← read
  let seeds ← ofQuery (changed d path)
  seeds.forM fun seed => do
    modify fun walk => { walk with tracer := walk.tracer.addDeclaration w.root seed }
    walk d.path seed.nodeId w.settings.maxDepth.toNat 0 seed

end Tracing

/-- The impacts of a changed source file at a path, with the session and the tracer after the walk. Each
change has depths of its own; the graph of hops is shared by all. -/
def Tracer.trace (t : Tracer) (d : FileDiff) (path : Text) (w : Workspace) (s : Session) :
    Except Failure (List Impact) × Session × Tracer :=
  let (answer, walk) := (((Tracing.walkAll d path).run w).run).run ⟨s, t, [], []⟩
  (answer.map fun _ => Impact.merge walk.impacts, walk.session, walk.tracer)

/-- The labels of a shortest chain of hops from a changed declaration to a test: of the chains from all
the declarations that reached the test the first of those that are shortest. -/
def Tracer.chain (t : Tracer) (file name : Text) : List Text :=
  let target := TestDeclaration.nodeIdOf file name
  let origins := (t.origins.get? target).getD []
  let paths := origins.filterMap fun origin => t.graph.shortestPath? origin target
  match paths with
  | [] => []
  | first :: rest =>
    (rest.foldl (fun best p => if p.length < best.length then p else best) first).map t.graph.label

end AffectedTests
