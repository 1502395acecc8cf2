import AffectedTests.Table
import AffectedTests.Text.Basic
/-!
# Graphs of hops

A directed graph whose nodes have labels. Nodes and edges keep the order in which they were first added,
and so do the successors and the predecessors of a node.

A shortest path is searched from both ends at once, level by level, always from the end that has the
smaller level; the order of the edges decides between paths of one length.
-/

namespace AffectedTests

/-- A directed graph: labels by node, and edges. -/
structure Graph where
  labels : Table Text Text := []
  edges : List (Text × Text) := []

namespace Graph

/-- Adds a node; a node that is there keeps its label. -/
def addNode (g : Graph) (node label : Text) : Graph :=
  if g.labels.has node then g else { g with labels := g.labels.put node label }

/-- Adds an edge between nodes of the graph, once. -/
def addEdge (g : Graph) (source target : Text) : Graph :=
  if g.edges.contains (source, target) then g else { g with edges := g.edges ++ [(source, target)] }

def successors (g : Graph) (node : Text) : List Text :=
  (g.edges.filter fun e => e.1 = node).map (·.2)

def predecessors (g : Graph) (node : Text) : List Text :=
  (g.edges.filter fun e => e.2 = node).map (·.1)

/-- The label of a node; a node that is not there has an empty one. -/
def label (g : Graph) (node : Text) : Text :=
  (g.labels.get? node).getD []

/-- The edges by source, in the order of the nodes. -/
def edgesBySource (g : Graph) : List (Text × Text) :=
  g.labels.flatMap fun (node, _) => (g.successors node).map fun target => (node, target)

/-! ## Shortest paths -/

/-- The search from one end: the nodes of the last level and, for each node reached, the node that it
was reached from; the end itself was reached from nowhere. -/
structure Front where
  level : List Text
  via : Table Text (Option Text)

def Front.start (node : Text) : Front :=
  ⟨[node], [(node, none)]⟩

/-- Takes the edges that leave the last level. A node met for the first time joins the next level. The
search ends at the first node that the other end has reached too. -/
def Front.advance (other : Table Text (Option Text)) (next : Front) :
    List (Text × Text) → Front × Option Text
  | [] => (next, none)
  | (source, target) :: rest =>
    let next :=
      if next.via.has target then next
      else ⟨next.level ++ [target], next.via.put target (some source)⟩
    if other.has target then (next, some target) else advance other next rest

/-- The steps from a level, along edges in one direction. -/
def steps (neighbours : Text → List Text) (level : List Text) : List (Text × Text) :=
  level.flatMap fun node => (neighbours node).map fun target => (node, target)

/-- Searches from both ends until they meet or one of them has nothing left. `fuel` bounds the number
of levels. -/
def meet (g : Graph) : (fuel : Nat) → (front back : Front) → Option (Front × Front × Text)
  | 0, _, _ => none
  | fuel + 1, front, back =>
    if front.level = [] ∨ back.level = [] then none
    else if front.level.length ≤ back.level.length then
      match Front.advance back.via ⟨[], front.via⟩ (steps g.successors front.level) with
      | (front, some node) => some (front, back, node)
      | (front, none) => meet g fuel front back
    else
      match Front.advance front.via ⟨[], back.via⟩ (steps g.predecessors back.level) with
      | (back, some node) => some (front, back, node)
      | (back, none) => meet g fuel front back

/-- The way from a node back to the end of its search, without the node itself. -/
def trail (via : Table Text (Option Text)) : (fuel : Nat) → Text → List Text
  | 0, _ => []
  | fuel + 1, node =>
    match via.get? node with
    | some (some before) => before :: trail via fuel before
    | _ => []

/-- A shortest path from one node to another. Every level but the last adds a node to one of the two
searches, so twice the number of nodes bounds the number of levels. -/
def shortestPath? (g : Graph) (source target : Text) : Option (List Text) :=
  if source = target then some [source]
  else
    (meet g (2 * g.labels.length + 2) (.start source) (.start target)).map fun (front, back, node) =>
      (trail front.via front.via.length node).reverse ++ node :: trail back.via back.via.length node

end Graph

end AffectedTests
