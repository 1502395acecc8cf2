import AffectedTests.Proofs.Hops
/-!
# The walk

What a walk does to its state. Following the uses of a declaration is described exactly: which impacts
are noted, which declarations come next and what the tracer keeps. For the walk as a whole the invariant
is the one of a search that expands a declaration again when a smaller depth turns up: a depth that is
noted is either older than the walk or settled, which means that the tests around are noted and every
hop leads to a depth that is at most one greater.
-/

namespace AffectedTests

namespace Tracing

variable {α β : Type}

/-- The outcome of a step and the walk after it. -/
def exec (m : Tracing α) (w : Workspace) (walk : Walk) : Except Failure α × Walk :=
  ((m.run w).run).run walk

theorem exec_bind (m : Tracing α) (k : α → Tracing β) (w : Workspace) (walk : Walk) :
    (m >>= k).exec w walk =
      match m.exec w walk with
      | (.ok a, walk') => (k a).exec w walk'
      | (.error e, walk') => (.error e, walk') := by
  simp only [exec, ReaderT.run_bind, ExceptT.run_bind, StateT.run_bind]
  rcases (m.run w).run.run walk with ⟨e | a, walk'⟩ <;> rfl

/-- A step after another one that succeeds. -/
theorem exec_bind_ok {m : Tracing α} {k : α → Tracing β} {w : Workspace} {walk walk' : Walk} {a : α}
    (h : m.exec w walk = (.ok a, walk')) : (m >>= k).exec w walk = (k a).exec w walk' := by
  rw [exec_bind, h]

@[simp]
theorem exec_pure (a : α) (w : Workspace) (walk : Walk) :
    (pure a : Tracing α).exec w walk = (.ok a, walk) :=
  rfl

theorem exec_get (w : Workspace) (walk : Walk) :
    (get : Tracing Walk).exec w walk = (.ok walk, walk) :=
  rfl

theorem exec_read (w : Workspace) (walk : Walk) :
    (read : Tracing Workspace).exec w walk = (.ok w, walk) :=
  rfl

@[simp]
theorem exec_modify (f : Walk → Walk) (w : Workspace) (walk : Walk) :
    (modify f : Tracing Unit).exec w walk = (.ok (), f walk) :=
  rfl

theorem exec_ofQuery (q : Query α) (w : Workspace) (walk : Walk) :
    (ofQuery q).exec w walk =
      ((q.ask w walk.session).1, { walk with session := (q.ask w walk.session).2 }) :=
  rfl

end Tracing

/-! ## Following uses -/

namespace Reference

/-- The impact of a use inside a test. -/
def reports (settings : Settings) (related : Text) (r : Reference) : List Impact :=
  match r.arrival settings with
  | .ok (.test t) => [⟨t.name, t.file, .indirect, some related⟩]
  | _ => []

/-- The declaration that a walk goes on to from a use at a depth. -/
def descends (settings : Settings) (depths : Table (Text × Nat) Nat) (depth : Nat)
    (mayDescend : Bool) (r : Reference) : List Declaration :=
  match r.arrival settings with
  | .ok (.declaration d) =>
    if mayDescend && depth + 1 < (depths.get? d.key).getD (depth + 2) then [d] else []
  | _ => []

/-- What a tracer keeps of a use: the test that it stands in, or the hop that the walk takes. -/
def traced (w : Workspace) (origin : Text) (source : Declaration) (next : List Declaration)
    (t : Tracer) (r : Reference) : Tracer :=
  match r.arrival w.settings with
  | .ok (.test test) => t.addTest w.root source test origin
  | _ => next.foldl (fun t d => t.addHop w.root source d) t

end Reference

namespace Tracing

variable {w : Workspace} {related origin : Text} {source : Declaration} {depth : Nat}
  {mayDescend : Bool}

/-- Following one use, described exactly. -/
theorem exec_follow {r : Reference} {a : Arrival} (h : r.arrival w.settings = .ok a) (walk : Walk) :
    (follow related origin source depth mayDescend r).exec w walk =
      (.ok (r.descends w.settings walk.depths depth mayDescend),
        { walk with
          tracer := r.traced w origin source (r.descends w.settings walk.depths depth mayDescend)
            walk.tracer
          impacts := walk.impacts ++ r.reports w.settings related }) := by
  -- The arrival is known, so each of the three descriptions is its branch for it.
  rw [follow, exec_bind_ok (exec_read w walk)]
  unfold Reference.descends Reference.traced Reference.reports
  simp only [h]
  cases a with
  | nowhere =>
    simp only [List.append_nil, List.foldl_nil]
    rfl
  | test t => rfl
  | declaration d =>
    -- Whether the walk goes on is decided by the depths that it has at this point.
    simp only [List.append_nil]
    rw [exec_bind_ok (exec_get w walk)]
    split <;> rfl

/-- Following all uses: no depth changes, so each use is judged by the depths from before. -/
theorem exec_mapM_follow {rs : List Reference}
    (h : ∀ r ∈ rs, ∃ a, r.arrival w.settings = .ok a) (walk : Walk) :
    (rs.mapM (follow related origin source depth mayDescend)).exec w walk =
      (.ok (rs.map (Reference.descends w.settings walk.depths depth mayDescend)),
        { walk with
          tracer := rs.foldl (fun t r => r.traced w origin source
            (r.descends w.settings walk.depths depth mayDescend) t) walk.tracer
          impacts := walk.impacts ++ rs.flatMap (Reference.reports w.settings related) }) := by
  induction rs generalizing walk with
  | nil => simp
  | cons r rs ih =>
    -- The first use changes the tracer and the impacts only, so the rest is judged alike.
    rcases h r (by simp) with ⟨a, ha⟩
    rw [List.mapM_cons, exec_bind_ok (exec_follow ha walk),
      exec_bind_ok (ih (fun r' hr' => h r' (by simp [hr'])) _)]
    simp

end Tracing

/-! ## The state of a walk -/

namespace Walk

/-- The declaration was reached at this depth or a smaller one. -/
def ReachedBy (walk : Walk) (d : Declaration) (depth : Nat) : Prop :=
  ∃ i, walk.depths.get? d.key = some i ∧ i ≤ depth

theorem reachedBy_iff {walk : Walk} {d : Declaration} {depth : Nat} :
    walk.ReachedBy d depth ↔ (walk.depths.get? d.key).getD (depth + 1) ≤ depth := by
  unfold ReachedBy
  cases walk.depths.get? d.key <;> simp

/-- The walk goes on in a session like the one that it started from. -/
def InSession (w : Workspace) (s : Session) (walk : Walk) : Prop :=
  walk.session.Coherent ∧ s.Alike w walk.session

end Walk

section Walks

variable (w : Workspace) (s : Session) (seeds : List Declaration) (related : Text) (limit : Nat)

/-- An impact on a test that a declaration within the limit touches. -/
def Justified (i : Impact) : Prop :=
  ∃ k d t, k ≤ limit ∧ Reach w s seeds k d ∧ Touches w s d t ∧
    i = ⟨t.name, t.file, .indirect, some related⟩

/-- All that follows from a declaration at a depth is done: the tests that it touches are noted, and
if another hop is allowed, all hops were taken. -/
structure Settled (walk : Walk) (d : Declaration) (depth : Nat) : Prop where
  tests : ∀ t, Touches w s d t → ⟨t.name, t.file, .indirect, some related⟩ ∈ walk.impacts
  hops : depth < limit → ∀ d', Hop w s d d' → walk.ReachedBy d' (depth + 1)

/-- What a part of a walk does. -/
structure Advances (walk walk' : Walk) : Prop where
  session : walk'.InSession w s
  depths : ∀ d depth, walk.ReachedBy d depth → walk'.ReachedBy d depth
  impacts : ∀ i ∈ walk.impacts, i ∈ walk'.impacts
  settled : ∀ k d depth, Reach w s seeds k d → k ≤ limit →
    walk'.depths.get? d.key = some depth →
      walk.depths.get? d.key = some depth ∨ Settled w s related limit walk' d depth
  justified : ∀ i ∈ walk'.impacts, i ∈ walk.impacts ∨ Justified w s seeds related limit i

end Walks

variable {w : Workspace} {s : Session} {seeds : List Declaration} {related : Text} {limit : Nat}
  {walk walk' walk'' : Walk}

/-- What is settled stays settled. -/
theorem Settled.mono {d : Declaration} {depth : Nat} (h : Settled w s related limit walk d depth)
    (hdepths : ∀ d depth, walk.ReachedBy d depth → walk'.ReachedBy d depth)
    (himpacts : ∀ i ∈ walk.impacts, i ∈ walk'.impacts) :
    Settled w s related limit walk' d depth :=
  ⟨fun t ht => himpacts _ (h.tests t ht), fun hlt d' hd' => hdepths d' _ (h.hops hlt d' hd')⟩

theorem Advances.refl (h : walk.InSession w s) : Advances w s seeds related limit walk walk :=
  ⟨h, fun _ _ hd => hd, fun _ hi => hi, fun _ _ _ _ _ hd => .inl hd, fun _ hi => .inl hi⟩

theorem Advances.trans (h : Advances w s seeds related limit walk walk')
    (h' : Advances w s seeds related limit walk' walk'') :
    Advances w s seeds related limit walk walk'' := by
  refine ⟨h'.session, fun d k hd => h'.depths d k (h.depths d k hd),
    fun i hi => h'.impacts i (h.impacts i hi), ?_, ?_⟩
  · intro k d depth hreach hk hd
    rcases h'.settled k d depth hreach hk hd with hd | hd
    · rcases h.settled k d depth hreach hk hd with hd | hd
      · exact .inl hd
      · -- What the first part settled, the second one leaves settled.
        exact .inr (hd.mono h'.depths h'.impacts)
    · exact .inr hd
  · intro i hi
    rcases h'.justified i hi with hi | hi
    · exact h.justified i hi
    · exact .inr hi

/-- What a tracer keeps is no concern of the walk. -/
theorem Advances.setTracer (h : walk.InSession w s) (t : Tracer) :
    Advances w s seeds related limit walk { walk with tracer := t } :=
  ⟨h, fun _ _ hd => hd, fun _ hi => hi, fun _ _ _ _ _ hd => .inl hd, fun _ hi => .inl hi⟩

/-! ## One declaration -/

section Expand

variable (w s seeds) in
/-- Declarations within the limit are known by their keys. -/
def KeysApart (limit : Nat) : Prop :=
  ∀ k k' d d', k ≤ limit → k' ≤ limit → Reach w s seeds k d → Reach w s seeds k' d' →
    d.key = d'.key → d = d'

/-- Hops from changed declarations in view lead to declarations in view, and keys tell those apart. -/
theorem keysApart (hs : s.Coherent) (happart : ∀ path f, s.fileOf w path = .ok f → f.StartsApart)
    (hdeclares : ∀ d ∈ seeds, s.Declares w d) (limit : Nat) : KeysApart w s seeds limit :=
  fun _ _ _ _ _ _ hd hd' hkey =>
    Session.eq_of_key_eq happart (hd.declares hs hdeclares) (hd'.declares hs hdeclares) hkey

/-- The walk after the uses of a declaration at a depth were followed. -/
def Walk.expanded (walk : Walk) (w : Workspace) (related origin : Text) (depth : Nat)
    (mayDescend : Bool) (d : Declaration) (rs : List Reference) (session : Session) : Walk :=
  let depths := walk.depths.put d.key depth
  { session := session
    tracer := rs.foldl (fun t r => r.traced w origin d
      (r.descends w.settings depths depth mayDescend) t) walk.tracer
    depths := depths
    impacts := walk.impacts ++ rs.flatMap (Reference.reports w.settings related) }

variable {origin : Text} {depth remaining : Nat} {d : Declaration} {rs : List Reference}

theorem reachedBy_expanded_self {mayDescend : Bool} {session : Session} :
    (walk.expanded w related origin depth mayDescend d rs session).ReachedBy d depth :=
  ⟨depth, by simp [Walk.expanded, Table.get?_put], Nat.le_refl depth⟩

/-- Noting a smaller depth keeps what was reached. -/
theorem reachedBy_expanded {mayDescend : Bool} {session : Session} {d' : Declaration} {k : Nat}
    (hnew : ¬ walk.ReachedBy d depth) (h : walk.ReachedBy d' k) :
    (walk.expanded w related origin depth mayDescend d rs session).ReachedBy d' k := by
  rcases h with ⟨i, hi, hik⟩
  by_cases hkey : d.key = d'.key
  · have hgt : depth < i := Nat.lt_of_not_le fun hle => hnew ⟨i, hkey ▸ hi, hle⟩
    exact ⟨depth, by simp [Walk.expanded, Table.get?_put, hkey], by omega⟩
  · exact ⟨i, by simp [Walk.expanded, Table.get?_put, hkey, hi], hik⟩

theorem mem_reports {r : Reference} {t : TestDeclaration} (h : r.EntersTest w.settings t) :
    (⟨t.name, t.file, .indirect, some related⟩ : Impact) ∈ r.reports w.settings related := by
  simp [Reference.reports, Reference.arrival_eq_test.2 h]

/-- The impact of a use of a declaration is one on a test that the declaration touches. -/
theorem justified_of_mem_report {r : Reference} (hr : Use w s d r) (hreach : Reach w s seeds depth d)
    (hdepth : depth ≤ limit) {i : Impact} (hi : i ∈ r.reports w.settings related) :
    Justified w s seeds related limit i := by
  unfold Reference.reports at hi
  split at hi
  · rename_i t ht
    have ht' := Reference.arrival_eq_test.1 ht
    exact ⟨depth, d, t, hdepth, hreach, ⟨r, hr, ht'⟩, List.mem_singleton.1 hi⟩
  · cases hi

/-- The impacts of the uses of a declaration are those of the tests that it touches. -/
theorem justified_of_mem_reports (hrs : (Query.uses d).answer w s = .ok rs)
    (hreach : Reach w s seeds depth d) (hdepth : depth ≤ limit) {i : Impact}
    (hi : i ∈ rs.flatMap (Reference.reports w.settings related)) :
    Justified w s seeds related limit i := by
  rcases List.mem_flatMap.1 hi with ⟨r, hr, hi⟩
  exact justified_of_mem_report ⟨rs, hrs, hr⟩ hreach hdepth hi

/-- A declaration that the walk does not go on to was reached before, unless no hop is left. -/
theorem mem_descends_or_reachedBy {mayDescend : Bool} {session : Session} {r : Reference}
    {d' : Declaration} (hr : r.EntersDeclaration w.settings d') (hmay : mayDescend = true) :
    d' ∈ r.descends w.settings (walk.depths.put d.key depth) depth mayDescend ∨
      (walk.expanded w related origin depth mayDescend d rs session).ReachedBy d' (depth + 1) := by
  unfold Reference.descends
  simp only [Reference.arrival_eq_declaration.2 hr, hmay, Bool.true_and, decide_eq_true_eq]
  split
  · exact .inl (by simp)
  · rename_i hle
    cases hget : (walk.depths.put d.key depth).get? d'.key with
    | none =>
      rw [hget] at hle
      simp at hle
    | some i =>
      rw [hget] at hle
      exact .inr ⟨i, hget, by simpa using hle⟩

theorem hop_of_mem_descends {mayDescend : Bool} {r : Reference} {d' : Declaration}
    {depths : Table (Text × Nat) Nat} (hr : Use w s d r)
    (h : d' ∈ r.descends w.settings depths depth mayDescend) : Hop w s d d' := by
  unfold Reference.descends at h
  split at h
  · rename_i found hfound
    split at h
    · rcases List.mem_singleton.1 h with rfl
      exact ⟨r, hr, Reference.arrival_eq_declaration.1 hfound⟩
    · cases h
  · cases h

theorem not_mem_descends (r : Reference) (d' : Declaration) {settings : Settings}
    {depths : Table (Text × Nat) Nat} : d' ∉ r.descends settings depths depth false := by
  unfold Reference.descends
  split <;> simp

/-- The step lemma: expanding a declaration and then walking on, so that every declaration that the
walk goes on to is reached in time, settles the declaration. -/
theorem Advances.of_expanded {mayDescend : Bool} {session : Session}
    (happart : KeysApart w s seeds limit) (hrs : (Query.uses d).answer w s = .ok rs)
    (hreach : Reach w s seeds depth d) (hdepth : depth ≤ limit)
    (hmay : depth < limit → mayDescend = true) (hnew : ¬ walk.ReachedBy d depth)
    (hrest : Advances w s seeds related limit
      (walk.expanded w related origin depth mayDescend d rs session) walk')
    (hnext : ∀ r ∈ rs, ∀ d' ∈ r.descends w.settings (walk.depths.put d.key depth) depth mayDescend,
      walk'.ReachedBy d' (depth + 1)) :
    Advances w s seeds related limit walk walk' := by
  have hdone : Settled w s related limit walk' d depth := by
    refine ⟨?_, ?_⟩
    · -- The tests around the uses were noted when the declaration was expanded.
      rintro t ⟨r, ⟨rs', hrs', hr⟩, ht⟩
      rw [hrs] at hrs'
      cases hrs'
      refine hrest.impacts _ (List.mem_append_right _ ?_)
      exact List.mem_flatMap.2 ⟨r, hr, mem_reports ht⟩
    · -- A hop was taken, or what it leads to had been reached in time before.
      rintro hlt d' ⟨r, ⟨rs', hrs', hr⟩, hd'⟩
      rw [hrs] at hrs'
      cases hrs'
      have hcases : d' ∈ r.descends w.settings (walk.depths.put d.key depth) depth mayDescend ∨
          (walk.expanded w related origin depth mayDescend d rs session).ReachedBy d' (depth + 1) :=
        mem_descends_or_reachedBy hd' (hmay hlt)
      rcases hcases with hmem | hbefore
      · exact hnext r hr d' hmem
      · exact hrest.depths d' _ hbefore
  refine ⟨hrest.session, fun d' k hd' => hrest.depths d' k (reachedBy_expanded hnew hd'),
    fun i hi => hrest.impacts i (List.mem_append_left _ hi), ?_, ?_⟩
  · intro k x depth' hx hk hget
    rcases hrest.settled k x depth' hx hk hget with hget | hsettled
    · -- Only the depth of this declaration was noted anew, and keys tell declarations apart.
      by_cases hkey : d.key = x.key
      · have hsame : d = x := happart depth k d x hdepth hk hreach hx hkey
        have hnoted : depth = depth' := by
          simpa [Walk.expanded, Table.get?_put, hkey] using hget
        subst hsame hnoted
        exact .inr hdone
      · exact .inl (by simpa [Walk.expanded, Table.get?_put, hkey] using hget)
    · exact .inr hsettled
  · intro i hi
    rcases hrest.justified i hi with hi | hi
    · rcases List.mem_append.1 hi with hi | hi
      · exact .inl hi
      · exact .inr (justified_of_mem_reports hrs hreach hdepth hi)
    · exact .inr hi

end Expand

/-! ## Whole walks -/

namespace Tracing

/-- A list of walks, each of which advances and reaches its declaration. -/
theorem exec_forM {m : Declaration → Tracing Unit} {ds : List Declaration} {depth : Nat}
    (h : ∀ d ∈ ds, ∀ walk : Walk, walk.InSession w s → ∃ walk',
      (m d).exec w walk = (.ok (), walk') ∧ Advances w s seeds related limit walk walk' ∧
        walk'.ReachedBy d depth)
    (walk : Walk) (hin : walk.InSession w s) :
    ∃ walk', (ds.forM m).exec w walk = (.ok (), walk') ∧
      Advances w s seeds related limit walk walk' ∧ ∀ d ∈ ds, walk'.ReachedBy d depth := by
  induction ds generalizing walk with
  | nil => exact ⟨walk, rfl, .refl hin, by simp⟩
  | cons d ds ih =>
    rcases h d (by simp) walk hin with ⟨next, hexec, hadv, hreached⟩
    rcases ih (fun d' hd' => h d' (by simp [hd'])) next hadv.session with
      ⟨walk', hexec', hadv', hreached'⟩
    -- What the first walk reached stays reached during the others.
    refine ⟨walk', ?_, hadv.trans hadv', ?_⟩
    · have hcons : (d :: ds).forM m = m d >>= fun _ => ds.forM m := rfl
      rw [hcons, exec_bind_ok hexec, hexec']
    · intro d' hd'
      rcases List.mem_cons.1 hd' with rfl | hd'
      · exact hadv'.depths _ _ hreached
      · exact hreached' d' hd'

/-- The start of a walk from a declaration that was not reached in time: its depth is noted and its
uses are followed. -/
theorem exec_expand {origin : Text} {depth : Nat} {mayDescend : Bool} {d : Declaration}
    {rs : List Reference} (hin : walk.InSession w s) (hs : s.Coherent)
    (hrs : (Query.uses d).answer w s = .ok rs)
    (harrive : ∀ r ∈ rs, ∃ a, r.arrival w.settings = .ok a) {α : Type}
    (k : List (List Declaration) → Tracing α) :
    ∃ session, session.Coherent ∧ s.Alike w session ∧
      (do
        modify fun walk => { walk with depths := walk.depths.put d.key depth }
        let uses ← ofQuery (Query.uses d)
        let next ← uses.mapM (follow related origin d depth mayDescend)
        k next : Tracing α).exec w walk =
      (k (rs.map (Reference.descends w.settings (walk.depths.put d.key depth) depth
        mayDescend))).exec w (walk.expanded w related origin depth mayDescend d rs session) := by
  have hsteady := Query.steady_uses d
  -- The walk asks a later session, which answers as the first one does.
  have huses : (Query.uses d).answer w walk.session = .ok rs := by
    rw [hsteady.answer_eq hs hin.1 hin.2, hrs]
  have hquery : (ofQuery (Query.uses d)).exec w
      { walk with depths := walk.depths.put d.key depth } =
      (.ok rs, { walk with
        depths := walk.depths.put d.key depth
        session := ((Query.uses d).ask w walk.session).2 }) := by
    rw [exec_ofQuery]
    exact congrArg (·, _) huses
  refine ⟨((Query.uses d).ask w walk.session).2, hsteady.coherent hin.1,
    hin.2.trans (hsteady.alike hin.1), ?_⟩
  rw [exec_bind_ok (exec_modify _ w walk), exec_bind_ok hquery,
    exec_bind_ok (exec_mapM_follow harrive _)]
  rfl

/-- The run lemma: within the limit a walk succeeds, advances and reaches its declaration. The induction
is on the hops that are left; what one declaration contributes is the step lemma. -/
theorem exec_walk (hs : s.Coherent) (happart : KeysApart w s seeds limit)
    (hok : ∀ k d, k ≤ limit → Reach w s seeds k d → Resolves w s d) {origin : Text} :
    ∀ (remaining depth : Nat) (d : Declaration), depth + remaining = limit →
      Reach w s seeds depth d → ∀ start : Walk, start.InSession w s →
        ∃ walk', (Tracing.walk related origin remaining depth d).exec w start = (.ok (), walk') ∧
          Advances w s seeds related limit start walk' ∧ walk'.ReachedBy d depth := by
  intro remaining
  induction remaining with
  | zero =>
    intro depth d hlimit hreach start hin
    rw [Tracing.walk, exec_bind_ok (exec_get w start)]
    by_cases hseen : (start.depths.get? d.key).getD (depth + 1) ≤ depth
    · rw [if_pos hseen]
      exact ⟨start, rfl, .refl hin, Walk.reachedBy_iff.2 hseen⟩
    · rw [if_neg hseen]
      have hnew : ¬ start.ReachedBy d depth := fun h => hseen (Walk.reachedBy_iff.1 h)
      rcases hok depth d (by omega) hreach with ⟨rs, hrs, harrive⟩
      rcases exec_expand hin hs hrs harrive (fun _ => pure ()) with
        ⟨session, hcoherent, halike, hexec⟩
      -- No hop is left: the impacts are noted and the walk ends here.
      refine ⟨start.expanded w related origin depth (decide (0 ≠ 0)) d rs session, hexec, ?_,
        reachedBy_expanded_self⟩
      refine .of_expanded happart hrs hreach (by omega) (by omega) hnew
        (.refl ⟨hcoherent, halike⟩) ?_
      intro r _ d' hd'
      exact absurd hd' (not_mem_descends r d')
  | succ remaining ih =>
    intro depth d hlimit hreach start hin
    rw [Tracing.walk, exec_bind_ok (exec_get w start)]
    by_cases hseen : (start.depths.get? d.key).getD (depth + 1) ≤ depth
    · rw [if_pos hseen]
      exact ⟨start, rfl, .refl hin, Walk.reachedBy_iff.2 hseen⟩
    · rw [if_neg hseen]
      have hnew : ¬ start.ReachedBy d depth := fun h => hseen (Walk.reachedBy_iff.1 h)
      rcases hok depth d (by omega) hreach with ⟨rs, hrs, harrive⟩
      rcases exec_expand hin hs hrs harrive
          (fun next => next.flatten.reverse.forM (Tracing.walk related origin remaining (depth + 1)))
        with ⟨session, hcoherent, halike, hexec⟩
      -- Every declaration that comes next is one hop further, so the hypothesis applies to it.
      have hnext : ∀ d' ∈ ((rs.map (Reference.descends w.settings
          (start.depths.put d.key depth) depth (decide (remaining + 1 ≠ 0)))).flatten.reverse),
          Reach w s seeds (depth + 1) d' := by
        intro d' hd'
        rcases List.mem_flatten.1 (List.mem_reverse.1 hd') with ⟨ds, hds, hmem⟩
        rcases List.mem_map.1 hds with ⟨r, hr, rfl⟩
        exact .hop hreach (hop_of_mem_descends ⟨rs, hrs, hr⟩ hmem)
      rcases exec_forM (fun d' hd' => ih (depth + 1) d' (by omega) (hnext d' hd'))
          (start.expanded w related origin depth (decide (remaining + 1 ≠ 0)) d rs session)
          ⟨hcoherent, halike⟩ with ⟨walk', hwalk', hadv, hreached⟩
      refine ⟨walk', hexec.trans hwalk', ?_, hadv.depths d depth reachedBy_expanded_self⟩
      refine .of_expanded happart hrs hreach (by omega) (fun _ => by simp) hnew hadv ?_
      intro r hr d' hd'
      refine hreached d' (List.mem_reverse.2 (List.mem_flatten.2 ⟨_, ?_, hd'⟩))
      exact List.mem_map.2 ⟨r, hr, rfl⟩

end Tracing

end AffectedTests
