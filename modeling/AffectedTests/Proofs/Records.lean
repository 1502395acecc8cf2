import AffectedTests.Proofs.Growth
import AffectedTests.Proofs.Trace
/-!
# What a walk leaves behind

A walk that ends without a failure has explored all that is within its limit. Every declaration that it
noted at a depth resolves, and every test that such a declaration touches knows a changed declaration from
which the graph leads to it in as many hops as the depth, and into the test. Each of these hops was really
taken, so no test is further from its changed declarations in the graph than it was for the walk.

- `Explores.of_expanded`: the step lemma, one declaration.
- `Tracing.explores_of_exec_walk`: the run lemma, a walk.
- `Tracer.of_trace_eq_ok`: a whole trace.
-/

namespace AffectedTests

section Recorded

variable (w : Workspace) (s : Session)

/-- A declaration that was expanded at a depth. -/
structure Recorded (t : Tracer) (d : Declaration) (depth : Nat) : Prop where
  resolves : Resolves w s d
  origin : ∀ test, Touches w s d test → ∃ origin ∈ t.originsOf test.nodeId,
    Leads t.graph.successors (depth + 1) origin test.nodeId

/-- What a part of a walk does that ends without a failure. -/
structure Explores (seeds : List Declaration) (related : Text) (limit : Nat) (walk walk' : Walk) :
    Prop where
  advances : Advances w s seeds related limit walk walk'
  extends_ : Walk.Extends w s seeds related walk walk'
  recorded : ∀ k d depth, Reach w s seeds k d → k ≤ limit → walk'.depths.get? d.key = some depth →
    walk.depths.get? d.key = some depth ∨ Recorded w s walk'.tracer d depth

end Recorded

variable {w : Workspace} {s : Session} {seeds : List Declaration} {related : Text} {limit : Nat}
  {walk walk' walk'' : Walk}

theorem Recorded.mono {t t' : Tracer} {impacts : List Impact} {d : Declaration} {depth : Nat}
    (h : Recorded w s t d depth) (hgrows : Tracer.Grows w s seeds impacts t t') :
    Recorded w s t' d depth := by
  refine ⟨h.resolves, ?_⟩
  intro test htest
  rcases h.origin test htest with ⟨origin, horigin, hlead⟩
  exact ⟨origin, hgrows.mem_originsOf horigin, hgrows.leads hlead⟩

namespace Explores

theorem refl (h : walk.InSession w s) : Explores w s seeds related limit walk walk :=
  ⟨.refl h, .refl h, fun _ _ _ _ _ hd => .inl hd⟩

theorem trans (h : Explores w s seeds related limit walk walk')
    (h' : Explores w s seeds related limit walk' walk'') :
    Explores w s seeds related limit walk walk'' := by
  refine ⟨h.advances.trans h'.advances, h.extends_.trans h'.extends_, ?_⟩
  intro k d depth hreach hk hd
  rcases h'.recorded k d depth hreach hk hd with hd | hd
  · exact (h.recorded k d depth hreach hk hd).imp_right fun hold => hold.mono h'.extends_.tracer
  · exact .inr hd

/-- A look-up explores nothing. -/
theorem setSession {session : Session} (h : Walk.InSession w s { walk with session }) :
    Explores w s seeds related limit walk { walk with session } :=
  ⟨⟨h, fun _ _ hd => hd, fun _ hi => hi, fun _ _ _ _ _ hd => .inl hd, fun _ hi => .inl hi⟩,
    ⟨h, fun _ hi => hi, fun _ hi => .inl hi, .refl w s seeds _ _⟩, fun _ _ _ _ _ hd => .inl hd⟩

theorem setTracer {tracer : Tracer} (h : walk.InSession w s)
    (hgrows : Tracer.Grows w s seeds walk.impacts walk.tracer tracer) :
    Explores w s seeds related limit walk { walk with tracer } :=
  ⟨.setTracer h _, ⟨h, fun _ hi => hi, fun _ hi => .inl hi, hgrows⟩, fun _ _ _ _ _ hd => .inl hd⟩

end Explores

/-! ## One declaration -/

section Expand

variable {origin : Text} {depth : Nat} {d : Declaration} {rs : List Reference} {mayDescend : Bool}
  {session : Session}

variable (related walk depth mayDescend session) in
theorem Walk.grows_expanded (hs : s.Coherent) (hd : s.Declares w d)
    (hseed : ∃ seed ∈ seeds, origin = seed.nodeId) (hrs : (Query.uses d).answer w s = .ok rs) :
    Tracer.Grows w s seeds (walk.expanded w related origin depth mayDescend d rs session).impacts
      walk.tracer (walk.expanded w related origin depth mayDescend d rs session).tracer :=
  Tracer.grows_foldl_traced hs hd (fun _ hr => ⟨rs, hrs, hr⟩) hseed
    (fun _ hi => List.mem_append_right _ hi) _

theorem Walk.extends_expanded (hs : s.Coherent) (hin : Walk.InSession w s { walk with session })
    (hd : s.Declares w d) (hreach : Reach w s seeds depth d)
    (hseed : ∃ seed ∈ seeds, origin = seed.nodeId) (hrs : (Query.uses d).answer w s = .ok rs) :
    Walk.Extends w s seeds related walk
      (walk.expanded w related origin depth mayDescend d rs session) :=
  ⟨hin, fun _ hi => List.mem_append_left _ hi, fun _ hi => (List.mem_append.1 hi).imp_right
    fun hi => ⟨depth, justified_of_mem_reports hrs hreach (Nat.le_refl depth) hi⟩,
    Walk.grows_expanded related walk depth mayDescend session hs hd hseed hrs⟩

variable (related walk depth mayDescend session) in
/-- What one of the uses adds is there after all of them were followed. -/
theorem Walk.exists_traced (hs : s.Coherent) (hd : s.Declares w d)
    (hseed : ∃ seed ∈ seeds, origin = seed.nodeId) (hrs : (Query.uses d).answer w s = .ok rs)
    {r : Reference} (hr : r ∈ rs) :
    ∃ before, Tracer.Grows w s seeds
      (walk.expanded w related origin depth mayDescend d rs session).impacts
      (r.traced w origin d (r.descends w.settings (walk.depths.put d.key depth) depth mayDescend)
        before)
      (walk.expanded w related origin depth mayDescend d rs session).tracer :=
  Tracer.exists_traced hs hd (fun _ hr => ⟨rs, hrs, hr⟩) hseed
    (fun _ hi => List.mem_append_right walk.impacts hi) walk.tracer hr

/-- After the uses of a declaration were followed, each test around one of them knows where the walk
came from. -/
theorem recorded_expanded (hs : s.Coherent) (hd : s.Declares w d)
    (hseed : ∃ seed ∈ seeds, origin = seed.nodeId) (hrs : (Query.uses d).answer w s = .ok rs)
    (hresolves : Resolves w s d)
    (hlead : Leads walk.tracer.graph.successors depth origin d.nodeId) :
    Recorded w s (walk.expanded w related origin depth mayDescend d rs session).tracer d depth := by
  refine ⟨hresolves, ?_⟩
  rintro test ⟨r, ⟨rs', hrs', hr⟩, htest⟩
  rw [hrs] at hrs'
  cases hrs'
  rcases Walk.exists_traced related walk depth mayDescend session hs hd hseed hrs hr with
    ⟨before, hgrows⟩
  have htraced : r.traced w origin d
      (r.descends w.settings (walk.depths.put d.key depth) depth mayDescend) before =
        before.addTest w.root d test origin := by
    unfold Reference.traced
    rw [Reference.arrival_eq_test.2 htest]
  rw [htraced] at hgrows
  have hgrown := Walk.grows_expanded related walk depth mayDescend session hs hd hseed hrs
  refine ⟨origin, hgrows.mem_originsOf (Tracer.origin_mem_addTest _ _), ?_⟩
  exact (hgrown.leads hlead).on
    (Graph.mem_successors.2 (hgrows.edges _ (Tracer.edge_mem_addTest _ _)))

/-- The walk goes on over edges of the graph. -/
theorem leads_of_mem_descends (hs : s.Coherent) (hd : s.Declares w d)
    (hseed : ∃ seed ∈ seeds, origin = seed.nodeId) (hrs : (Query.uses d).answer w s = .ok rs)
    (hlead : Leads walk.tracer.graph.successors depth origin d.nodeId) {r : Reference} (hr : r ∈ rs)
    {d' : Declaration}
    (hd' : d' ∈ r.descends w.settings (walk.depths.put d.key depth) depth mayDescend) :
    Leads (walk.expanded w related origin depth mayDescend d rs session).tracer.graph.successors
      (depth + 1) origin d'.nodeId := by
  rcases Walk.exists_traced related walk depth mayDescend session hs hd hseed hrs hr with
    ⟨before, hgrows⟩
  have htraced : r.traced w origin d
      (r.descends w.settings (walk.depths.put d.key depth) depth mayDescend) before =
        before.addHop w.root d d' := by
    unfold Reference.descends at hd' ⊢
    unfold Reference.traced
    split at hd'
    · split at hd'
      · rcases List.mem_singleton.1 hd' with rfl
        simp_all
      · cases hd'
    · cases hd'
  rw [htraced] at hgrows
  have hgrown := Walk.grows_expanded related walk depth mayDescend session hs hd hseed hrs
  exact (hgrown.leads hlead).on
    (Graph.mem_successors.2 (hgrows.edges _ (Tracer.edge_mem_addHop _)))

/-- The step lemma: expanding a declaration and then exploring what comes next explores the
declaration. -/
theorem Explores.of_expanded (hs : s.Coherent) (happart : KeysApart w s seeds limit)
    (hd : s.Declares w d) (hseed : ∃ seed ∈ seeds, origin = seed.nodeId)
    (hrs : (Query.uses d).answer w s = .ok rs) (hresolves : Resolves w s d)
    (hreach : Reach w s seeds depth d) (hdepth : depth ≤ limit)
    (hmay : depth < limit → mayDescend = true) (hnew : ¬ walk.ReachedBy d depth)
    (hlead : Leads walk.tracer.graph.successors depth origin d.nodeId)
    (hin : Walk.InSession w s { walk with session })
    (hrest : Explores w s seeds related limit
      (walk.expanded w related origin depth mayDescend d rs session) walk')
    (hnext : ∀ r ∈ rs, ∀ d' ∈ r.descends w.settings (walk.depths.put d.key depth) depth mayDescend,
      walk'.ReachedBy d' (depth + 1)) :
    Explores w s seeds related limit walk walk' := by
  refine ⟨.of_expanded happart hrs hreach hdepth hmay hnew hrest.advances hnext,
    (Walk.extends_expanded hs hin hd hreach hseed hrs).trans hrest.extends_, ?_⟩
  intro k x depth' hx hk hget
  rcases hrest.recorded k x depth' hx hk hget with hget | hrecorded
  · -- Only the depth of this declaration was noted anew, and keys tell declarations apart.
    by_cases hkey : d.key = x.key
    · have hsame : d = x := happart depth k d x hdepth hk hreach hx hkey
      have hnoted : depth = depth' := by
        simpa [Walk.expanded, Table.get?_put, hkey] using hget
      subst hsame hnoted
      exact .inr ((recorded_expanded hs hd hseed hrs hresolves hlead).mono
        hrest.extends_.tracer)
    · exact .inl (by simpa [Walk.expanded, Table.get?_put, hkey] using hget)
  · exact .inr hrecorded

end Expand

/-! ## Whole walks -/

namespace Tracing

/-- A list of walks that all end. -/
theorem explores_of_exec_forM {m : Declaration → Tracing Unit} {ds : List Declaration} {depth : Nat}
    (h : ∀ d ∈ ds, ∀ start last : Walk, Walk.Extends w s seeds related walk start →
      (m d).exec w start = (.ok (), last) →
        Explores w s seeds related limit start last ∧ last.ReachedBy d depth)
    (hin : walk.InSession w s) (hexec : (ds.forM m).exec w walk = (.ok (), walk')) :
    Explores w s seeds related limit walk walk' ∧ ∀ d ∈ ds, walk'.ReachedBy d depth := by
  induction ds generalizing walk with
  | nil =>
    cases hexec
    exact ⟨.refl hin, by simp⟩
  | cons d ds ih =>
    have hcons : (d :: ds).forM m = m d >>= fun _ => ds.forM m := rfl
    rw [hcons, exec_bind] at hexec
    rcases hfirst : (m d).exec w walk with ⟨e | u, next⟩
    · rw [hfirst] at hexec
      cases hexec
    · rw [hfirst] at hexec
      rcases h d (by simp) walk next (.refl hin) hfirst with ⟨hexplores, hreached⟩
      -- The later walks start from what the first one extended.
      have hrest := ih (fun d' hd' start last hstart =>
        h d' (by simp [hd']) start last (hexplores.extends_.trans hstart))
        hexplores.extends_.session hexec
      refine ⟨hexplores.trans hrest.1, ?_⟩
      intro d' hd'
      rcases List.mem_cons.1 hd' with rfl | hd'
      · exact hrest.1.advances.depths _ _ hreached
      · exact hrest.2 d' hd'

/-- A look-up after which the walk went on has given what the session shows. -/
theorem exists_of_exec_ofQuery {α β : Type} {q : Query α} {k : α → Tracing β} {b : β} (hq : q.Steady)
    (hs : s.Coherent) (hin : walk.InSession w s)
    (hexec : (ofQuery q >>= k).exec w walk = (.ok b, walk')) :
    ∃ a session, q.answer w s = .ok a ∧ Walk.InSession w s { walk with session } ∧
      (k a).exec w { walk with session } = (.ok b, walk') := by
  have hanswer := hq.answer_eq hs hin.1 hin.2
  have hcoherent : (q.ask w walk.session).2.Coherent := hq.coherent hin.1
  have halike : s.Alike w (q.ask w walk.session).2 := hin.2.trans (hq.alike hin.1)
  rw [exec_bind, exec_ofQuery] at hexec
  unfold Query.answer at hanswer ⊢
  rcases hask : q.ask w walk.session with ⟨e | a, session⟩
  · simp only [hask] at hexec
    cases hexec
  · simp only [hask] at hexec hanswer hcoherent halike
    exact ⟨a, session, hanswer.symm, ⟨hcoherent, halike⟩, hexec⟩

/-- A declaration whose expansion did not fail resolves. -/
theorem exists_of_exec_expand {origin : Text} {depth : Nat} {mayDescend : Bool} {d : Declaration}
    (hin : walk.InSession w s) (hs : s.Coherent) {α : Type} {k : List (List Declaration) → Tracing α}
    {a : α} (hexec : (do
      modify fun walk => { walk with depths := walk.depths.put d.key depth }
      let uses ← ofQuery (Query.uses d)
      let next ← uses.mapM (follow related origin d depth mayDescend)
      k next : Tracing α).exec w walk = (.ok a, walk')) :
    ∃ rs, (Query.uses d).answer w s = .ok rs ∧ ∀ r ∈ rs, ∃ a, r.arrival w.settings = .ok a := by
  rw [exec_bind_ok (exec_modify _ w walk)] at hexec
  have hnoted : Walk.InSession w s { walk with depths := walk.depths.put d.key depth } := hin
  rcases exists_of_exec_ofQuery (Query.steady_uses d) hs hnoted hexec with ⟨rs, session, hrs, -, hexec⟩
  rw [exec_bind] at hexec
  rcases hfollow : (rs.mapM (follow related origin d depth mayDescend)).exec w _ with ⟨e | next, last⟩
  · rw [hfollow] at hexec
    cases hexec
  · exact ⟨rs, hrs, arrival_of_exec_mapM_follow hfollow⟩

/-- Expanding a declaration explores it, if what comes after that explores all that it leads to. -/
theorem explores_of_exec_expand (hs : s.Coherent) (happart : KeysApart w s seeds limit)
    (hdeclares : ∀ d ∈ seeds, s.Declares w d) {origin : Text}
    (hseed : ∃ seed ∈ seeds, origin = seed.nodeId) {depth : Nat} {d : Declaration} {mayDescend : Bool}
    (hreach : Reach w s seeds depth d) (hdepth : depth ≤ limit)
    (hmay : depth < limit → mayDescend = true) (hin : walk.InSession w s)
    (hnew : ¬ walk.ReachedBy d depth)
    (hlead : Leads walk.tracer.graph.successors depth origin d.nodeId)
    {k : List (List Declaration) → Tracing Unit}
    (hk : ∀ (next : List (List Declaration)) (start : Walk), start.InSession w s →
      (∀ d' ∈ next.flatten, mayDescend = true ∧ Hop w s d d' ∧
        Leads start.tracer.graph.successors (depth + 1) origin d'.nodeId) →
      (k next).exec w start = (.ok (), walk') →
        Explores w s seeds related limit start walk' ∧
          ∀ d' ∈ next.flatten, walk'.ReachedBy d' (depth + 1))
    (hexec : (do
      modify fun walk => { walk with depths := walk.depths.put d.key depth }
      let uses ← ofQuery (Query.uses d)
      let next ← uses.mapM (follow related origin d depth mayDescend)
      k next : Tracing Unit).exec w walk = (.ok (), walk')) :
    Explores w s seeds related limit walk walk' ∧ walk'.ReachedBy d depth := by
  have hd := hreach.declares hs hdeclares
  rcases exists_of_exec_expand hin hs hexec with ⟨rs, hrs, harrive⟩
  rcases exec_expand hin hs hrs harrive k with ⟨session, hcoherent, halike, hexpand⟩
  have hin' : Walk.InSession w s { walk with session } := ⟨hcoherent, halike⟩
  -- Every declaration that comes next is one hop further, in the graph too.
  have hnext : ∀ d' ∈ (rs.map (Reference.descends w.settings (walk.depths.put d.key depth) depth
      mayDescend)).flatten, mayDescend = true ∧ Hop w s d d' ∧
        Leads (walk.expanded w related origin depth mayDescend d rs
          session).tracer.graph.successors (depth + 1) origin d'.nodeId := by
    intro d' hd'
    rcases List.mem_flatten.1 hd' with ⟨ds, hds, hmem⟩
    rcases List.mem_map.1 hds with ⟨r, hr, rfl⟩
    refine ⟨?_, hop_of_mem_descends ⟨rs, hrs, hr⟩ hmem,
      leads_of_mem_descends hs hd hseed hrs hlead hr hmem⟩
    cases mayDescend with
    | true => rfl
    | false => exact absurd hmem (not_mem_descends r d')
  rcases hk _ _ ⟨hcoherent, halike⟩ hnext (hexpand.symm.trans hexec) with ⟨hexplores, hreached⟩
  refine ⟨.of_expanded hs happart hd hseed hrs ⟨rs, hrs, harrive⟩ hreach hdepth hmay hnew hlead hin'
    hexplores ?_, hexplores.advances.depths d depth reachedBy_expanded_self⟩
  intro r hr d' hd'
  exact hreached d' (List.mem_flatten.2 ⟨_, List.mem_map.2 ⟨r, hr, rfl⟩, hd'⟩)

/-- The run lemma: a walk that ends explores its declaration. The induction is on the hops that are
left. -/
theorem explores_of_exec_walk (hs : s.Coherent) (happart : KeysApart w s seeds limit)
    (hdeclares : ∀ d ∈ seeds, s.Declares w d) {origin : Text}
    (hseed : ∃ seed ∈ seeds, origin = seed.nodeId) :
    ∀ (remaining depth : Nat) (d : Declaration), depth + remaining = limit →
      Reach w s seeds depth d → ∀ start last : Walk, start.InSession w s →
        Leads start.tracer.graph.successors depth origin d.nodeId →
          (Tracing.walk related origin remaining depth d).exec w start = (.ok (), last) →
            Explores w s seeds related limit start last ∧ last.ReachedBy d depth := by
  intro remaining
  induction remaining with
  | zero =>
    intro depth d hlimit hreach start last hin hlead hexec
    rw [Tracing.walk, exec_bind_ok (exec_get w start)] at hexec
    by_cases hseen : (start.depths.get? d.key).getD (depth + 1) ≤ depth
    · rw [if_pos hseen] at hexec
      cases hexec
      exact ⟨.refl hin, Walk.reachedBy_iff.2 hseen⟩
    · rw [if_neg hseen] at hexec
      have hnew : ¬ start.ReachedBy d depth := fun h => hseen (Walk.reachedBy_iff.1 h)
      refine explores_of_exec_expand hs happart hdeclares hseed hreach (by omega) (by omega) hin hnew
        hlead ?_ hexec
      -- No hop is left, so nothing comes next.
      intro next mid hmid hnext hend
      cases hend
      exact ⟨.refl hmid, fun d' hd' => absurd (hnext d' hd').1 (by simp)⟩
  | succ remaining ih =>
    intro depth d hlimit hreach start last hin hlead hexec
    rw [Tracing.walk, exec_bind_ok (exec_get w start)] at hexec
    by_cases hseen : (start.depths.get? d.key).getD (depth + 1) ≤ depth
    · rw [if_pos hseen] at hexec
      cases hexec
      exact ⟨.refl hin, Walk.reachedBy_iff.2 hseen⟩
    · rw [if_neg hseen] at hexec
      have hnew : ¬ start.ReachedBy d depth := fun h => hseen (Walk.reachedBy_iff.1 h)
      refine explores_of_exec_expand hs happart hdeclares hseed hreach (by omega) (fun _ => by simp)
        hin hnew hlead ?_ hexec
      intro next mid hmid hnext hwalks
      have heach : ∀ d' ∈ next.flatten.reverse, ∀ first later : Walk,
          Walk.Extends w s seeds related mid first →
            (Tracing.walk related origin remaining (depth + 1) d').exec w first = (.ok (), later) →
              Explores w s seeds related limit first later ∧ later.ReachedBy d' (depth + 1) := by
        intro d' hd' first later hfirst hexec'
        rcases hnext d' (List.mem_reverse.1 hd') with ⟨-, hhop, hlead'⟩
        exact ih (depth + 1) d' (by omega) (.hop hreach hhop) first later hfirst.session
          (hfirst.tracer.leads hlead') hexec'
      rcases explores_of_exec_forM heach hmid hwalks with ⟨hexplores, hreached⟩
      exact ⟨hexplores, fun d' hd' => hreached d' (List.mem_reverse.2 hd')⟩

/-- The walk of a whole diff: if it ends, the changed declarations were found and explored. -/
theorem explores_of_exec_walkAll {diff : FileDiff} {path : Text} (hs : s.Coherent)
    (happart : ∀ path f, s.fileOf w path = .ok f → f.StartsApart) (hin : walk.InSession w s)
    (hexec : (walkAll diff path).exec w walk = (.ok (), walk')) :
    ∃ seeds, (changed diff path).answer w s = .ok seeds ∧
      Explores w s seeds diff.path w.settings.maxDepth.toNat walk walk' ∧
        ∀ d ∈ seeds, walk'.ReachedBy d 0 := by
  rw [walkAll, exec_bind_ok (exec_read w walk)] at hexec
  rcases exists_of_exec_ofQuery (Query.steady_changed diff path) hs hin hexec with
    ⟨seeds, session, hseeds, hasked, hexec⟩
  have hdeclares := declares_of_changed hs hseeds
  have hkeys := keysApart hs happart hdeclares w.settings.maxDepth.toNat
  have heach : ∀ seed ∈ seeds, ∀ start last : Walk,
      Walk.Extends w s seeds diff.path { walk with session } start →
        (do
          modify fun walk : Walk => { walk with tracer := walk.tracer.addDeclaration w.root seed }
          Tracing.walk diff.path seed.nodeId w.settings.maxDepth.toNat 0 seed :
          Tracing Unit).exec w start = (.ok (), last) →
        Explores w s seeds diff.path w.settings.maxDepth.toNat start last ∧ last.ReachedBy seed 0 := by
    intro seed hseed start last hext hexec'
    have hadded : Explores w s seeds diff.path w.settings.maxDepth.toNat start
        { start with tracer := start.tracer.addDeclaration w.root seed } :=
      .setTracer hext.session (Tracer.grows_addDeclaration (hdeclares seed hseed))
    rw [exec_bind_ok (exec_modify _ w start)] at hexec'
    rcases explores_of_exec_walk hs hkeys hdeclares ⟨seed, hseed, rfl⟩ _ 0 seed (Nat.zero_add _)
      (.seed hseed) _ last hadded.extends_.session .here hexec' with ⟨hexplores, hreached⟩
    exact ⟨hadded.trans hexplores, hreached⟩
  rcases explores_of_exec_forM heach hasked hexec with ⟨hexplores, hreached⟩
  exact ⟨seeds, hseeds, (Explores.setSession hasked).trans hexplores, hreached⟩

end Tracing

/-! ## Whole traces -/

/-- Each test within reach knows a changed declaration that is no further from it in the graph than the
hops tell. -/
def Tracer.Records (w : Workspace) (s : Session) (seeds : List Declaration) (t : Tracer) : Prop :=
  ∀ k d test, k ≤ w.settings.maxDepth.toNat → Reach w s seeds k d → Touches w s d test →
    ∃ origin ∈ t.originsOf test.nodeId, ∃ n ≤ k + 1,
      Leads t.graph.successors n origin test.nodeId

namespace Tracer

variable {t t' : Tracer} {diff : FileDiff} {path : Text} {s' : Session} {impacts : List Impact}

theorem Records.mono (h : t.Records w s seeds) {seeds' : List Declaration}
    (hgrows : Grows w s seeds' impacts t t') : t'.Records w s seeds := by
  intro k d test hk hreach htest
  rcases h k d test hk hreach htest with ⟨origin, horigin, n, hn, hlead⟩
  exact ⟨origin, hgrows.mem_originsOf horigin, n, hn, hgrows.leads hlead⟩

/-- What a trace that gives an answer leaves behind: all that is within reach resolves, the tests there
are reported, and each of them is recorded. -/
theorem of_trace_eq_ok (hs : s.Coherent)
    (happart : ∀ path f, s.fileOf w path = .ok f → f.StartsApart) (hs' : s'.Coherent)
    (halike : s.Alike w s') (h : (t.trace diff path w s').1 = .ok impacts) :
    ∃ seeds, (Tracing.changed diff path).answer w s = .ok seeds ∧
      (∀ k d, k ≤ w.settings.maxDepth.toNat → Reach w s seeds k d → Resolves w s d) ∧
      (t.trace diff path w s').2.2.Records w s seeds ∧
      ∀ file name, (file, name) ∈ impacts.map Impact.key ↔
        WithinReach w s seeds w.settings.maxDepth.toNat file name := by
  have htrace : t.trace diff path w s' =
      (((Tracing.walkAll diff path).exec w ⟨s', t, [], []⟩).1.map fun _ =>
        Impact.merge ((Tracing.walkAll diff path).exec w ⟨s', t, [], []⟩).2.impacts,
        ((Tracing.walkAll diff path).exec w ⟨s', t, [], []⟩).2.session,
        ((Tracing.walkAll diff path).exec w ⟨s', t, [], []⟩).2.tracer) := rfl
  rw [htrace] at h ⊢
  rcases hexec : (Tracing.walkAll diff path).exec w ⟨s', t, [], []⟩ with ⟨e | u, walk'⟩
  · rw [hexec] at h
    cases h
  · rw [hexec] at h
    cases h
    rcases Tracing.explores_of_exec_walkAll hs happart ⟨hs', halike⟩ hexec with
      ⟨seeds, hseeds, hexplores, hreached⟩
    -- The walk began without depths, so every depth was recorded.
    have hrecorded : ∀ k d, k ≤ w.settings.maxDepth.toNat → Reach w s seeds k d →
        ∃ depth ≤ k, Recorded w s walk'.tracer d depth := by
      intro k d hk hreach
      rcases hexplores.advances.reachedBy rfl hreached hreach hk with ⟨depth, hget, hle⟩
      rcases hexplores.recorded k d depth hreach hk hget with hold | hnew
      · simp [Table.get?] at hold
      · exact ⟨depth, hle, hnew⟩
    refine ⟨seeds, hseeds, ?_, ?_, ?_⟩
    · intro k d hk hreach
      rcases hrecorded k d hk hreach with ⟨depth, -, hd⟩
      exact hd.resolves
    · intro k d test hk hreach htest
      rcases hrecorded k d hk hreach with ⟨depth, hle, hd⟩
      rcases hd.origin test htest with ⟨origin, horigin, hlead⟩
      exact ⟨origin, horigin, depth + 1, by omega, hlead⟩
    · intro file name
      rw [Impact.mem_keys_merge]
      exact hexplores.advances.mem_keys_iff rfl rfl hreached

/-- What a trace adds, whatever comes of it. -/
theorem grows_trace (t : Tracer) (diff : FileDiff) (path : Text) (hs : s.Coherent) (hs' : s'.Coherent)
    (halike : s.Alike w s') :
    ∃ noted, Grows w s (Tracing.seedsOf w s diff path) noted t (t.trace diff path w s').2.2 ∧
      (∀ i ∈ noted, ∃ limit, Justified w s (Tracing.seedsOf w s diff path) diff.path limit i) ∧
      ∀ impacts, (t.trace diff path w s').1 = .ok impacts → impacts = Impact.merge noted := by
  have hstart : Walk.InSession w s ⟨s', t, [], []⟩ := ⟨hs', halike⟩
  have hext := Tracing.extends_walkAll diff path hs hstart
  refine ⟨_, hext.tracer, fun i hi => (hext.noted i hi).resolve_left (by simp), ?_⟩
  intro impacts h
  rcases Fallible.map_eq_ok.1 h with ⟨-, -, h⟩
  exact h.symm

end Tracer

end AffectedTests
