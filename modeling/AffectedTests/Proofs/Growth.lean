import AffectedTests.Proofs.Identities
import AffectedTests.Proofs.ShortestPaths
import AffectedTests.Proofs.Walk
/-!
# How a tracer grows

Every edge that a walk adds to the graph stands for a hop or for a use inside a test, every node has the
label of what it stands for, and a changed declaration is noted for a test only if the walk that started
from it has reached the test. Nothing is ever taken back. All of this holds of a walk that fails on the way
too: what it has added until then stays.

- `Tracer.Sound` is what the graph of a tracer keeps.
- `Tracer.Grows` compares a tracer before and after, `Walk.Extends` the walk around it.
- `Tracing.extends_walk`: a walk, whatever comes of it.
-/

namespace AffectedTests

/-! ## Nodes and edges -/

namespace Graph

variable {g : Graph} {a b v node label : Text}

@[simp]
theorem edges_addNode : (g.addNode node label).edges = g.edges := by
  unfold addNode
  split <;> rfl

@[simp]
theorem labels_addEdge : (g.addEdge a b).labels = g.labels := by
  unfold addEdge
  split <;> rfl

theorem mem_edges_addEdge {e : Text × Text} :
    e ∈ (g.addEdge a b).edges ↔ e ∈ g.edges ∨ e = (a, b) := by
  unfold addEdge
  split
  · rename_i hknown
    rw [List.contains_iff_mem] at hknown
    exact ⟨.inl, fun h => h.elim id fun heq => heq ▸ hknown⟩
  · simp

theorem has_addNode :
    (g.addNode node label).labels.has v = true ↔ g.labels.has v = true ∨ v = node := by
  unfold addNode
  split
  · rename_i hknown
    exact ⟨.inl, fun h => h.elim id fun heq => heq ▸ hknown⟩
  · exact Table.has_put.trans (or_comm.trans (or_congr_right eq_comm))

theorem of_get?_addNode {x : Text} (h : (g.addNode node label).labels.get? v = some x) :
    g.labels.get? v = some x ∨ (v = node ∧ x = label) := by
  unfold addNode at h
  split at h
  · exact .inl h
  · rw [Table.get?_put] at h
    split at h
    · rename_i heq
      exact .inr ⟨heq.symm, (Option.some.inj h).symm⟩
    · exact .inl h

end Graph

/-! ## What the graph stands for -/

section Graphs

variable (w : Workspace) (s : Session)

/-- An edge stands for a hop between declarations in view or for a use inside a test. -/
inductive Stands : Text → Text → Prop
  | hop {d d' : Declaration} : s.Declares w d → Hop w s d d' → Stands d.nodeId d'.nodeId
  | test {d : Declaration} {t : TestDeclaration} :
      s.Declares w d → Touches w s d t → Stands d.nodeId t.nodeId

/-- A node has the label of the declaration or the test that it stands for. -/
inductive Names : Text → Text → Prop
  | declaration {d : Declaration} : s.Declares w d → Names d.nodeId (d.label w.root)
  | test {d : Declaration} {t : TestDeclaration} :
      Touches w s d t → Names t.nodeId (t.label w.root)

/-- The graph of a tracer: its edges and its labels stand for something, and the ends of its edges are
labelled. -/
structure Tracer.Sound (t : Tracer) : Prop where
  edges : ∀ e ∈ t.graph.edges, Stands w s e.1 e.2
  labels : ∀ node label, t.graph.labels.get? node = some label → Names w s node label
  closed : t.graph.Closed

end Graphs

/-- The changed declarations that reached a test, in the order in which they did. -/
def Tracer.originsOf (t : Tracer) (test : Text) : List Text :=
  (t.origins.get? test).getD []

/-- A tracer before and after some walks from the given declarations that noted the given impacts. -/
structure Tracer.Grows (w : Workspace) (s : Session) (seeds : List Declaration) (impacts : List Impact)
    (t t' : Tracer) : Prop where
  sound : t.Sound w s → t'.Sound w s
  edges : ∀ e ∈ t.graph.edges, e ∈ t'.graph.edges
  origins : ∀ test, ∃ new, t'.originsOf test = t.originsOf test ++ new ∧ ∀ origin ∈ new,
    (∃ seed ∈ seeds, origin = seed.nodeId) ∧
      ∃ i ∈ impacts, test = TestDeclaration.nodeIdOf i.file i.testName

namespace Tracer

variable {w : Workspace} {s : Session} {seeds : List Declaration} {impacts : List Impact}
  {t t' t'' : Tracer} {d d' : Declaration} {test : TestDeclaration} {node label : Text}

theorem sound_empty : Sound w s {} :=
  ⟨by simp, by simp [Table.get?], by simp [Graph.Closed]⟩

theorem Sound.addNode (h : t.Sound w s) (hname : Names w s node label) :
    Sound w s { t with graph := t.graph.addNode node label } := by
  refine ⟨by simpa using h.edges, ?_, ?_⟩
  · intro v x hv
    rcases Graph.of_get?_addNode hv with hv | ⟨rfl, rfl⟩
    · exact h.labels v x hv
    · exact hname
  · intro e he
    rw [Graph.edges_addNode] at he
    exact ⟨Graph.has_addNode.2 (.inl (h.closed e he).1), Graph.has_addNode.2 (.inl (h.closed e he).2)⟩

theorem Sound.addEdge {a b : Text} (h : t.Sound w s) (hstands : Stands w s a b)
    (ha : t.graph.labels.has a = true) (hb : t.graph.labels.has b = true) :
    Sound w s { t with graph := t.graph.addEdge a b } := by
  refine ⟨?_, by simpa using h.labels, ?_⟩
  · intro e he
    rcases Graph.mem_edges_addEdge.1 he with he | rfl
    · exact h.edges e he
    · exact hstands
  · intro e he
    rw [Graph.labels_addEdge]
    rcases Graph.mem_edges_addEdge.1 he with he | rfl
    · exact h.closed e he
    · exact ⟨ha, hb⟩

theorem Grows.refl (w : Workspace) (s : Session) (seeds : List Declaration) (impacts : List Impact)
    (t : Tracer) : Grows w s seeds impacts t t :=
  ⟨id, fun _ he => he, fun _ => ⟨[], by simp⟩⟩

theorem Grows.trans (h : Grows w s seeds impacts t t') (h' : Grows w s seeds impacts t' t'') :
    Grows w s seeds impacts t t'' := by
  refine ⟨fun hsound => h'.sound (h.sound hsound), fun e he => h'.edges e (h.edges e he), ?_⟩
  intro test
  rcases h.origins test with ⟨new, hnew, hold⟩
  rcases h'.origins test with ⟨new', hnew', hold'⟩
  refine ⟨new ++ new', by rw [hnew', hnew, List.append_assoc], ?_⟩
  intro origin horigin
  exact (List.mem_append.1 horigin).elim (hold origin) (hold' origin)

theorem Grows.mono {seeds' : List Declaration} {impacts' : List Impact}
    (h : Grows w s seeds impacts t t') (hseeds : ∀ d ∈ seeds, d ∈ seeds')
    (himpacts : ∀ i ∈ impacts, i ∈ impacts') : Grows w s seeds' impacts' t t' := by
  refine ⟨h.sound, h.edges, ?_⟩
  intro test
  rcases h.origins test with ⟨new, hnew, hold⟩
  refine ⟨new, hnew, ?_⟩
  intro origin horigin
  rcases hold origin horigin with ⟨⟨seed, hseed, hid⟩, i, hi, htest⟩
  exact ⟨⟨seed, hseeds seed hseed, hid⟩, i, himpacts i hi, htest⟩

theorem Grows.mem_originsOf (h : Grows w s seeds impacts t t') {target origin : Text}
    (horigin : origin ∈ t.originsOf target) : origin ∈ t'.originsOf target := by
  rcases h.origins target with ⟨new, hnew, -⟩
  rw [hnew]
  exact List.mem_append_left _ horigin

/-- A tracer that was empty knows nothing but what was noted since. -/
theorem Grows.of_mem_originsOf (h : Grows w s seeds impacts {} t) {target origin : Text}
    (horigin : origin ∈ t.originsOf target) : (∃ seed ∈ seeds, origin = seed.nodeId) ∧
      ∃ i ∈ impacts, target = TestDeclaration.nodeIdOf i.file i.testName := by
  rcases h.origins target with ⟨new, hnew, hnoted⟩
  rw [hnew] at horigin
  exact hnoted origin ((List.mem_append.1 horigin).resolve_left (by simp [originsOf, Table.get?]))

/-- What led somewhere in the graph still does. -/
theorem Grows.leads (h : Grows w s seeds impacts t t') {n : Nat} {a b : Text}
    (hlead : Leads t.graph.successors n a b) : Leads t'.graph.successors n a b := by
  induction hlead with
  | here => exact .here
  | on _ hc ih => exact ih.on (Graph.mem_successors.2 (h.edges _ (Graph.mem_successors.1 hc)))

/-! ## What a walk adds -/

theorem grows_of_graph {g : Graph} (hsound : t.Sound w s → Sound w s { t with graph := g })
    (hedges : ∀ e ∈ t.graph.edges, e ∈ g.edges) :
    Grows w s seeds impacts t { t with graph := g } :=
  ⟨hsound, hedges, fun _ => ⟨[], by simp [originsOf]⟩⟩

theorem grows_addDeclaration (hd : s.Declares w d) :
    Grows w s seeds impacts t (t.addDeclaration w.root d) :=
  grows_of_graph (fun h => h.addNode (.declaration hd)) (by simp)

theorem has_addDeclaration {v : Text} {root : Text} :
    (t.addDeclaration root d).graph.labels.has v = true ↔
      t.graph.labels.has v = true ∨ v = d.nodeId :=
  Graph.has_addNode

theorem grows_addHop (hd : s.Declares w d) (hd' : s.Declares w d') (h : Hop w s d d') :
    Grows w s seeds impacts t (t.addHop w.root d d') := by
  refine (grows_addDeclaration hd).trans ((grows_addDeclaration hd').trans ?_)
  refine grows_of_graph (fun hsound => hsound.addEdge (.hop hd h) ?_ ?_) ?_
  · rw [has_addDeclaration, has_addDeclaration]
    exact .inl (.inr rfl)
  · rw [has_addDeclaration]
    exact .inr rfl
  · exact fun e he => Graph.mem_edges_addEdge.2 (.inl he)

theorem edge_mem_addHop (root : Text) : (d.nodeId, d'.nodeId) ∈ (t.addHop root d d').graph.edges :=
  Graph.mem_edges_addEdge.2 (.inr rfl)

/-- A changed declaration is noted for one test, at the end, if it was not noted before. -/
theorem originsOf_addOrigin (target origin v : Text) :
    ((t.addOrigin target origin).originsOf v = t.originsOf v ∧
      (v = target → origin ∈ t.originsOf target)) ∨
    (v = target ∧ (t.addOrigin target origin).originsOf v = t.originsOf v ++ [origin]) := by
  unfold addOrigin
  dsimp only
  split
  · rename_i hknown
    exact .inl ⟨rfl, fun _ => List.contains_iff_mem.1 hknown⟩
  · by_cases hv : target = v
    · subst hv
      exact .inr ⟨rfl, by simp [originsOf, Table.get?_put]⟩
    · exact .inl ⟨by simp [originsOf, Table.get?_put, hv], fun h => absurd h.symm hv⟩

theorem mem_originsOf_addOrigin (target origin : Text) :
    origin ∈ (t.addOrigin target origin).originsOf target := by
  rcases t.originsOf_addOrigin target origin target with ⟨hsame, hknown⟩ | ⟨-, hnew⟩
  · rw [hsame]
    exact hknown rfl
  · simp [hnew]

theorem graph_addOrigin (target origin : Text) : (t.addOrigin target origin).graph = t.graph := by
  unfold addOrigin
  dsimp only
  split <;> rfl

theorem grows_addOrigin {target origin : Text} (hseed : ∃ seed ∈ seeds, origin = seed.nodeId)
    (himpact : ∃ i ∈ impacts, target = TestDeclaration.nodeIdOf i.file i.testName) :
    Grows w s seeds impacts t (t.addOrigin target origin) := by
  have hgraph := t.graph_addOrigin target origin
  refine ⟨?_, by simp [hgraph], ?_⟩
  · exact fun h => ⟨hgraph ▸ h.edges, hgraph ▸ h.labels, hgraph ▸ h.closed⟩
  · intro v
    rcases t.originsOf_addOrigin target origin v with ⟨hsame, -⟩ | ⟨rfl, hnew⟩
    · exact ⟨[], by simp [hsame]⟩
    · refine ⟨[origin], hnew, ?_⟩
      intro o ho
      rw [List.mem_singleton.1 ho]
      exact ⟨hseed, himpact⟩

theorem grows_addTest (hd : s.Declares w d) (h : Touches w s d test) {origin : Text}
    (hseed : ∃ seed ∈ seeds, origin = seed.nodeId)
    (himpact : ∃ i ∈ impacts, test.nodeId = TestDeclaration.nodeIdOf i.file i.testName) :
    Grows w s seeds impacts t (t.addTest w.root d test origin) := by
  have hnamed : Grows w s seeds impacts t
      { t with graph := t.graph.addNode test.nodeId (test.label w.root) } :=
    grows_of_graph (fun hsound => hsound.addNode (.test h)) (by simp)
  refine hnamed.trans ((grows_addDeclaration hd).trans (.trans ?_ (grows_addOrigin hseed himpact)))
  refine grows_of_graph (fun hsound => hsound.addEdge (.test hd h) ?_ ?_) ?_
  · rw [has_addDeclaration]
    exact .inr rfl
  · rw [has_addDeclaration]
    exact .inl (Graph.has_addNode.2 (.inr rfl))
  · exact fun e he => Graph.mem_edges_addEdge.2 (.inl he)

theorem edge_mem_addTest (root origin : Text) :
    (d.nodeId, test.nodeId) ∈ (t.addTest root d test origin).graph.edges := by
  unfold addTest
  rw [graph_addOrigin]
  exact Graph.mem_edges_addEdge.2 (.inr rfl)

theorem origin_mem_addTest (root origin : Text) :
    origin ∈ (t.addTest root d test origin).originsOf test.nodeId :=
  mem_originsOf_addOrigin _ _

end Tracer

/-! ## Following uses -/

section Uses

variable {w : Workspace} {s : Session} {seeds : List Declaration} {impacts : List Impact}
  {related origin : Text} {d : Declaration} {depth : Nat} {mayDescend : Bool}

/-- What following a use adds. -/
theorem Reference.grows_traced {depths : Table (Text × Nat) Nat} {r : Reference} (hs : s.Coherent)
    (hd : s.Declares w d) (hr : Use w s d r) (hseed : ∃ seed ∈ seeds, origin = seed.nodeId)
    (himpacts : ∀ i ∈ r.reports w.settings related, i ∈ impacts) (t : Tracer) :
    Tracer.Grows w s seeds impacts t
      (r.traced w origin d (r.descends w.settings depths depth mayDescend) t) := by
  unfold traced
  split
  · rename_i test htest
    have henters := arrival_eq_test.1 htest
    exact Tracer.grows_addTest hd ⟨r, hr, henters⟩ hseed ⟨_, himpacts _ (mem_reports henters), rfl⟩
  · have hhops : ∀ d' ∈ r.descends w.settings depths depth mayDescend, Hop w s d d' :=
      fun d' hd' => hop_of_mem_descends hr hd'
    generalize r.descends w.settings depths depth mayDescend = next at hhops ⊢
    -- At most one hop is added, but each would be as good.
    induction next generalizing t with
    | nil => exact .refl w s seeds impacts t
    | cons d' next ih =>
      have hhop := hhops d' (by simp)
      exact (Tracer.grows_addHop hd (hhop.declares hs) hhop).trans
        (ih _ fun x hx => hhops x (by simp [hx]))

/-- Following all uses adds what each of them adds. -/
theorem Tracer.grows_foldl_traced {depths : Table (Text × Nat) Nat} {rs : List Reference}
    (hs : s.Coherent) (hd : s.Declares w d) (hrs : ∀ r ∈ rs, Use w s d r)
    (hseed : ∃ seed ∈ seeds, origin = seed.nodeId)
    (himpacts : ∀ i ∈ rs.flatMap (Reference.reports w.settings related), i ∈ impacts) (t : Tracer) :
    Tracer.Grows w s seeds impacts t (rs.foldl (fun t r =>
      r.traced w origin d (r.descends w.settings depths depth mayDescend) t) t) := by
  induction rs generalizing t with
  | nil => exact .refl w s seeds impacts t
  | cons r rs ih =>
    have hfirst : ∀ i ∈ r.reports w.settings related, i ∈ impacts :=
      fun i hi => himpacts i (List.mem_flatMap.2 ⟨r, by simp, hi⟩)
    refine (Reference.grows_traced hs hd (hrs r (by simp)) hseed hfirst t).trans
      (ih (fun r' hr' => hrs r' (by simp [hr'])) ?_ _)
    intro i hi
    rcases List.mem_flatMap.1 hi with ⟨r', hr', hi⟩
    exact himpacts i (List.mem_flatMap.2 ⟨r', by simp [hr'], hi⟩)

/-- The tracer passes through a state right after each of the uses. -/
theorem Tracer.exists_traced {depths : Table (Text × Nat) Nat} {rs : List Reference}
    (hs : s.Coherent) (hd : s.Declares w d) (hrs : ∀ r ∈ rs, Use w s d r)
    (hseed : ∃ seed ∈ seeds, origin = seed.nodeId)
    (himpacts : ∀ i ∈ rs.flatMap (Reference.reports w.settings related), i ∈ impacts) (t : Tracer)
    {r : Reference} (hr : r ∈ rs) : ∃ before, Tracer.Grows w s seeds impacts
      (r.traced w origin d (r.descends w.settings depths depth mayDescend) before)
      (rs.foldl (fun t r =>
        r.traced w origin d (r.descends w.settings depths depth mayDescend) t) t) := by
  rcases List.mem_iff_append.1 hr with ⟨earlier, later, rfl⟩
  rw [List.foldl_append, List.foldl_cons]
  have hlater : ∀ i ∈ later.flatMap (Reference.reports w.settings related), i ∈ impacts := by
    intro i hi
    rcases List.mem_flatMap.1 hi with ⟨r', hr', hi⟩
    exact himpacts i (List.mem_flatMap.2 ⟨r', by simp [hr'], hi⟩)
  exact ⟨_, Tracer.grows_foldl_traced hs hd (fun r' hr' => hrs r' (by simp [hr'])) hseed hlater _⟩

end Uses

/-! ## Walks, whatever comes of them -/

/-- A walk before and after some steps. -/
structure Walk.Extends (w : Workspace) (s : Session) (seeds : List Declaration) (related : Text)
    (walk walk' : Walk) : Prop where
  session : walk'.InSession w s
  impacts : ∀ i ∈ walk.impacts, i ∈ walk'.impacts
  noted : ∀ i ∈ walk'.impacts, i ∈ walk.impacts ∨ ∃ limit, Justified w s seeds related limit i
  tracer : Tracer.Grows w s seeds walk'.impacts walk.tracer walk'.tracer

section Walks

variable {w : Workspace} {s : Session} {seeds : List Declaration} {related : Text}
  {walk walk' walk'' : Walk}

theorem Walk.Extends.refl (h : walk.InSession w s) : Walk.Extends w s seeds related walk walk :=
  ⟨h, fun _ hi => hi, fun _ hi => .inl hi, .refl w s seeds _ _⟩

theorem Walk.Extends.trans (h : Walk.Extends w s seeds related walk walk')
    (h' : Walk.Extends w s seeds related walk' walk'') : Walk.Extends w s seeds related walk walk'' :=
  ⟨h'.session, fun i hi => h'.impacts i (h.impacts i hi),
    fun i hi => (h'.noted i hi).elim (h.noted i) .inr,
    (h.tracer.mono (fun _ hd => hd) h'.impacts).trans h'.tracer⟩

namespace Tracing

variable {α β : Type}

theorem extends_bind {m : Tracing α} {k : α → Tracing β}
    (hm : Walk.Extends w s seeds related walk (m.exec w walk).2)
    (hk : ∀ a walk', m.exec w walk = (.ok a, walk') →
      Walk.Extends w s seeds related walk' ((k a).exec w walk').2) :
    Walk.Extends w s seeds related walk ((m >>= k).exec w walk).2 := by
  rw [exec_bind]
  rcases hexec : m.exec w walk with ⟨e | a, walk'⟩
  · rw [hexec] at hm
    exact hm
  · rw [hexec] at hm
    exact hm.trans (hk a walk' hexec)

theorem extends_mapM {m : α → Tracing β} {xs : List α}
    (h : ∀ x ∈ xs, ∀ walk : Walk, walk.InSession w s →
      Walk.Extends w s seeds related walk ((m x).exec w walk).2) (hin : walk.InSession w s) :
    Walk.Extends w s seeds related walk ((xs.mapM m).exec w walk).2 := by
  induction xs generalizing walk with
  | nil => exact .refl hin
  | cons x xs ih =>
    have hx := h x (by simp) walk hin
    rw [List.mapM_cons]
    refine extends_bind hx ?_
    intro b next hnext
    rw [hnext] at hx
    have hrest := ih (fun x' hx' => h x' (by simp [hx'])) hx.session
    refine extends_bind hrest ?_
    intro bs last hlast
    rw [hlast] at hrest
    exact .refl hrest.session

theorem extends_forM {m : α → Tracing Unit} {xs : List α}
    (h : ∀ x ∈ xs, ∀ walk : Walk, walk.InSession w s →
      Walk.Extends w s seeds related walk ((m x).exec w walk).2) (hin : walk.InSession w s) :
    Walk.Extends w s seeds related walk ((xs.forM m).exec w walk).2 := by
  induction xs generalizing walk with
  | nil => exact .refl hin
  | cons x xs ih =>
    have hx := h x (by simp) walk hin
    have hcons : (x :: xs).forM m = m x >>= fun _ => xs.forM m := rfl
    rw [hcons]
    refine extends_bind hx ?_
    intro _ next hnext
    rw [hnext] at hx
    exact ih (fun x' hx' => h x' (by simp [hx'])) hx.session

theorem extends_ofQuery {q : Query α} (hq : Query.Steady q) (hin : walk.InSession w s) :
    Walk.Extends w s seeds related walk ((ofQuery q).exec w walk).2 :=
  ⟨⟨hq.coherent hin.1, hin.2.trans (hq.alike hin.1)⟩, fun _ hi => hi, fun _ hi => .inl hi,
    .refl w s seeds _ _⟩

variable {origin : Text} {d : Declaration} {depth : Nat} {mayDescend : Bool}

/-- A use whose arrival cannot be told adds nothing. -/
theorem exec_follow_error {r : Reference} {e : Failure} (h : r.arrival w.settings = .error e)
    (walk : Walk) : (follow related origin d depth mayDescend r).exec w walk = (.error e, walk) := by
  rw [follow, exec_bind_ok (exec_read w walk)]
  simp only [h]
  rfl

theorem extends_follow {r : Reference} (hs : s.Coherent) (hd : s.Declares w d) {k : Nat}
    (hreach : Reach w s seeds k d) (hseed : ∃ seed ∈ seeds, origin = seed.nodeId)
    (hr : Use w s d r) (hin : walk.InSession w s) :
    Walk.Extends w s seeds related walk ((follow related origin d depth mayDescend r).exec w walk).2 := by
  cases harrive : r.arrival w.settings with
  | error e =>
    rw [exec_follow_error harrive]
    exact .refl hin
  | ok a =>
    rw [exec_follow harrive]
    refine ⟨hin, fun i hi => List.mem_append_left _ hi, ?_,
      Reference.grows_traced hs hd hr hseed (fun i hi => List.mem_append_right _ hi) _⟩
    exact fun i hi => (List.mem_append.1 hi).imp_right
      fun hi => ⟨k, justified_of_mem_report hr hreach (Nat.le_refl k) hi⟩

/-- If all uses were followed, it could be told where each of them leads. -/
theorem arrival_of_exec_mapM_follow {rs : List Reference} {next : List (List Declaration)}
    (h : (rs.mapM (follow related origin d depth mayDescend)).exec w walk = (.ok next, walk')) :
    ∀ r ∈ rs, ∃ a, r.arrival w.settings = .ok a := by
  induction rs generalizing walk walk' next with
  | nil => simp
  | cons r rs ih =>
    rw [List.mapM_cons] at h
    cases harrive : r.arrival w.settings with
    | error e =>
      rw [exec_bind, exec_follow_error harrive] at h
      cases h
    | ok a =>
      rw [exec_bind_ok (exec_follow harrive walk), exec_bind] at h
      rcases hrest : (rs.mapM (follow related origin d depth mayDescend)).exec w _ with ⟨e | b, last⟩
      · rw [hrest] at h
        cases h
      · intro r' hr'
        rcases List.mem_cons.1 hr' with rfl | hr'
        · exact ⟨a, harrive⟩
        · exact ih hrest r' hr'

/-- Expanding a declaration only adds, if what comes after it does. -/
theorem extends_expand (hs : s.Coherent) (hd : s.Declares w d) {reached : Nat}
    (hreach : Reach w s seeds reached d) (hseed : ∃ seed ∈ seeds, origin = seed.nodeId)
    (hin : walk.InSession w s)
    {k : List (List Declaration) → Tracing α}
    (hk : ∀ next walk', (∀ d' ∈ next.flatten, Hop w s d d') → walk'.InSession w s →
      Walk.Extends w s seeds related walk' ((k next).exec w walk').2) :
    Walk.Extends w s seeds related walk ((do
      modify fun walk => { walk with depths := walk.depths.put d.key depth }
      let uses ← ofQuery (Query.uses d)
      let next ← uses.mapM (follow related origin d depth mayDescend)
      k next : Tracing α).exec w walk).2 := by
  have hnoted : Walk.Extends w s seeds related walk { walk with depths := walk.depths.put d.key depth } :=
    ⟨hin, fun _ hi => hi, fun _ hi => .inl hi, .refl w s seeds _ _⟩
  refine extends_bind hnoted ?_
  rintro _ _ ⟨⟩
  refine extends_bind (extends_ofQuery (Query.steady_uses d) hnoted.session) ?_
  intro rs asked hasked
  -- The uses are those that the first session shows.
  have hanswer : (Query.uses d).answer w s = .ok rs := by
    rw [← (Query.steady_uses d).answer_eq hs hin.1 hin.2]
    exact congrArg Prod.fst hasked
  have huses : ∀ r ∈ rs, Use w s d r := fun r hr => ⟨rs, hanswer, hr⟩
  have hasked' : asked.InSession w s := by
    have hext : Walk.Extends w s seeds related _ _ := extends_ofQuery (Query.steady_uses d) hnoted.session
    rw [hasked] at hext
    exact hext.session
  have hfollow : Walk.Extends w s seeds related asked
      ((rs.mapM (follow related origin d depth mayDescend)).exec w asked).2 :=
    extends_mapM (fun r hr start hstart => extends_follow hs hd hreach hseed (huses r hr) hstart) hasked'
  refine extends_bind hfollow ?_
  intro next followed hfollowed
  rw [hfollowed] at hfollow
  refine hk next followed ?_ hfollow.session
  rw [exec_mapM_follow (arrival_of_exec_mapM_follow hfollowed)] at hfollowed
  cases hfollowed
  intro d' hd'
  rcases List.mem_flatten.1 hd' with ⟨ds, hds, hmem⟩
  rcases List.mem_map.1 hds with ⟨r, hr, rfl⟩
  exact hop_of_mem_descends (huses r hr) hmem

/-- The run lemma: a walk from a declaration that hops lead to only adds, whatever comes of it. -/
theorem extends_walk (hs : s.Coherent) (hdeclares : ∀ d ∈ seeds, s.Declares w d)
    (hseed : ∃ seed ∈ seeds, origin = seed.nodeId) :
    ∀ (remaining depth : Nat) (d : Declaration), Reach w s seeds depth d → ∀ start : Walk,
      start.InSession w s → Walk.Extends w s seeds related start
        ((Tracing.walk related origin remaining depth d).exec w start).2 := by
  intro remaining
  induction remaining with
  | zero =>
    intro depth d hreach start hin
    rw [Tracing.walk, exec_bind_ok (exec_get w start)]
    split
    · exact .refl hin
    · exact extends_expand hs (hreach.declares hs hdeclares) hreach hseed hin
        fun _ _ _ hwalk => .refl hwalk
  | succ remaining ih =>
    intro depth d hreach start hin
    rw [Tracing.walk, exec_bind_ok (exec_get w start)]
    split
    · exact .refl hin
    · refine extends_expand hs (hreach.declares hs hdeclares) hreach hseed hin ?_
      intro next walk' hnext hwalk
      refine extends_forM (fun d' hd' => ih (depth + 1) d' ?_) hwalk
      exact .hop hreach (hnext d' (List.mem_reverse.1 hd'))

/-- The changed declarations of a diff; there are none if they cannot be told. -/
def seedsOf (w : Workspace) (s : Session) (diff : FileDiff) (path : Text) : List Declaration :=
  ((changed diff path).answer w s).toOption.getD []

theorem seedsOf_eq {diff : FileDiff} {path : Text} {found : List Declaration}
    (h : (changed diff path).answer w s = .ok found) : seedsOf w s diff path = found := by
  simp [seedsOf, h, Except.toOption]

/-- The changed declarations are in view, in the changed file. -/
theorem declares_and_resolve_of_mem_seedsOf (hs : s.Coherent) {diff : FileDiff} {path : Text}
    {d : Declaration} (hd : d ∈ seedsOf w s diff path) :
    s.Declares w d ∧ Path.resolve path = .ok d.file := by
  unfold seedsOf at hd
  cases hfound : (changed diff path).answer w s with
  | error e => simp [hfound, Except.toOption] at hd
  | ok found =>
    rw [hfound] at hd
    exact declares_and_resolve_of_changed hs hfound d hd

/-- The walk of a whole diff only adds, whatever comes of it. -/
theorem extends_walkAll (diff : FileDiff) (path : Text) (hs : s.Coherent) (hin : walk.InSession w s) :
    Walk.Extends w s (seedsOf w s diff path) diff.path walk
      ((walkAll diff path).exec w walk).2 := by
  have hsteady := Query.steady_changed diff path
  rw [walkAll, exec_bind_ok (exec_read w walk)]
  refine extends_bind (extends_ofQuery hsteady hin) ?_
  intro found asked hasked
  have hext : Walk.Extends w s found diff.path _ _ := extends_ofQuery hsteady hin
  rw [hasked] at hext
  have hanswer : (changed diff path).answer w s = .ok found := by
    rw [← hsteady.answer_eq hs hin.1 hin.2]
    exact congrArg Prod.fst hasked
  rw [seedsOf_eq hanswer]
  have hdeclares := declares_of_changed hs hanswer
  refine extends_forM ?_ hext.session
  intro seed hseed start hstart
  have hadded : Walk.Extends w s found diff.path start
      { start with tracer := start.tracer.addDeclaration w.root seed } :=
    ⟨hstart, fun _ hi => hi, fun _ hi => .inl hi, Tracer.grows_addDeclaration (hdeclares seed hseed)⟩
  refine extends_bind hadded ?_
  rintro _ _ ⟨⟩
  exact extends_walk hs hdeclares ⟨seed, hseed, rfl⟩ _ 0 seed (.seed hseed) _ hadded.session

end Tracing

end Walks

end AffectedTests
