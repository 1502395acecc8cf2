import AffectedTests.Proofs.Growth
import Mathlib.Data.List.Perm.Subperm
/-!
# The turns of a walk

A walk can be seen as a loop over a stack. Each turn takes one declaration from the stack, which was reached
at some depth. If the walk has been there at that depth or a smaller one, nothing happens; otherwise the
depth is noted, the uses of the declaration are asked for, and what they lead into comes on the stack. A
declaration may be met any number of times, so what ends the walk is the depth: it grows from a declaration
to those that it leads into, and falls from one visit of a declaration to the next one.

- `Tour`, `Tour.turn`: the loop.
- `Tour.walks_walk`: its turns do what the walk from one declaration does.
- `Tour.exists_finished`: its turns come to an end and tell what the trace tells.
- `Tour.Descending`: what every turn keeps.
- `Tracer.trace_ends`: a trace ends, and how often it looks at one declaration.
-/

namespace AffectedTests

/-! ## One declaration -/

namespace Tracing

variable {w : Workspace} {related origin : Text} {d : Declaration} {depth : Nat} {mayDescend : Bool}

/-- Notes the depth of a declaration and follows all its uses. -/
def expand (related origin : Text) (depth : Nat) (mayDescend : Bool) (d : Declaration) :
    Tracing (List Declaration) := do
  modify fun walk => { walk with depths := walk.depths.put d.key depth }
  let uses ← ofQuery (Query.uses d)
  let next ← uses.mapM (follow related origin d depth mayDescend)
  return next.flatten

/-- A step that leaves the depths as they are, whatever comes of it. -/
def KeepsDepths {α : Type} (w : Workspace) (m : Tracing α) : Prop :=
  ∀ walk : Walk, (m.exec w walk).2.depths = walk.depths

theorem KeepsDepths.bind {α β : Type} {m : Tracing α} {k : α → Tracing β} (hm : KeepsDepths w m)
    (hk : ∀ a, KeepsDepths w (k a)) : KeepsDepths w (m >>= k) := by
  intro walk
  have hfirst := hm walk
  rw [exec_bind]
  rcases hrun : m.exec w walk with ⟨e | a, next⟩
  · rwa [hrun] at hfirst
  · rw [hrun] at hfirst
    exact (hk a next).trans hfirst

theorem keepsDepths_mapM {α β : Type} {m : α → Tracing β} (h : ∀ x, KeepsDepths w (m x)) (xs : List α) :
    KeepsDepths w (xs.mapM m) := by
  induction xs with
  | nil => exact fun _ => rfl
  | cons x xs ih =>
    rw [List.mapM_cons]
    exact (h x).bind fun _ => ih.bind fun _ => fun _ => rfl

theorem keepsDepths_follow (r : Reference) :
    KeepsDepths w (follow related origin d depth mayDescend r) := by
  intro walk
  cases harrive : r.arrival w.settings with
  | error e => rw [exec_follow_error harrive]
  | ok a => rw [exec_follow harrive]

/-- The depth of the declaration is noted and no other one, whatever comes of it. -/
theorem depths_expand (walk : Walk) :
    ((expand related origin depth mayDescend d).exec w walk).2.depths = walk.depths.put d.key depth := by
  rw [expand, exec_bind_ok (exec_modify _ w walk)]
  have hasks : KeepsDepths w (ofQuery (Query.uses d)) := fun _ => rfl
  exact (hasks.bind fun rs => (keepsDepths_mapM keepsDepths_follow rs).bind fun _ => fun _ => rfl) _

/-- Where no hop is left, nothing comes next. -/
theorem eq_nil_of_expand {next : List Declaration} {walk walk' : Walk}
    (h : (expand related origin depth false d).exec w walk = (.ok next, walk')) : next = [] := by
  rw [expand, exec_bind_ok (exec_modify _ w walk), exec_bind] at h
  rcases hasked : (ofQuery (Query.uses d)).exec w _ with ⟨e | rs, asked⟩
  · rw [hasked] at h
    cases h
  · rw [hasked] at h
    simp only [exec_bind] at h
    rcases hfollowed : (rs.mapM (follow related origin d depth false)).exec w asked with ⟨e | found, last⟩
    · rw [hfollowed] at h
      cases h
    · rw [hfollowed] at h
      cases h
      -- All uses were followed, so it is known what each of them gave.
      rw [exec_mapM_follow (arrival_of_exec_mapM_follow hfollowed)] at hfollowed
      cases hfollowed
      refine List.flatten_eq_nil_iff.2 fun ds hds => ?_
      rcases List.mem_map.1 hds with ⟨r, -, rfl⟩
      exact List.eq_nil_iff_forall_not_mem.2 fun d' => not_mem_descends r d'

end Tracing

/-! ## The loop -/

/-- A trace on its way. -/
structure Tour where
  /-- The changed declarations from which it has not started yet. -/
  seeds : List Declaration := []
  /-- The identity of the changed declaration from which it started last. -/
  origin : Text := []
  /-- The declarations that wait, each with the depth at which it was reached. -/
  stack : List (Declaration × Nat) := []
  /-- The declarations whose uses were asked for, each with its depth, in the order in which they were. -/
  visits : List (Declaration × Nat) := []
  walk : Walk
  /-- What has ended it before its time. -/
  failure : Option Failure := none

namespace Tour

/-- A tour that fails drops what waits. -/
def failed (tour : Tour) (e : Failure) (walk : Walk) : Tour :=
  { tour with seeds := [], stack := [], walk := walk, failure := some e }

/-- One turn: takes the declaration on top of the stack or, where none waits, starts from the next
changed declaration. -/
def turn (w : Workspace) (related : Text) (tour : Tour) : Tour :=
  match tour.stack, tour.seeds with
  | [], [] => tour
  | [], seed :: seeds =>
    { tour with
      seeds := seeds
      origin := seed.nodeId
      stack := [(seed, 0)]
      walk := { tour.walk with tracer := tour.walk.tracer.addDeclaration w.root seed } }
  | (d, depth) :: rest, _ =>
    if (tour.walk.depths.get? d.key).getD (depth + 1) ≤ depth then { tour with stack := rest }
    else
      let tour := { tour with visits := tour.visits ++ [(d, depth)] }
      match (Tracing.expand related tour.origin depth (depth < w.settings.maxDepth.toNat) d).exec w
          tour.walk with
      | (.ok next, walk) =>
        { tour with stack := next.reverse.map (·, depth + 1) ++ rest, walk := walk }
      | (.error e, walk) => tour.failed e walk

/-- The tour before its first turn. -/
def start (t : Tracer) (d : FileDiff) (path : Text) (w : Workspace) (s : Session) : Tour :=
  match (Tracing.changed d path).ask w s with
  | (.ok seeds, session) => { seeds := seeds, walk := ⟨session, t, [], []⟩ }
  | (.error e, session) => { walk := ⟨session, t, [], []⟩, failure := some e }

/-- Nothing is left to do. -/
def Finished (tour : Tour) : Prop :=
  tour.stack = [] ∧ tour.seeds = []

/-- Whether the tour failed, and the walk so far. -/
def outcome (tour : Tour) : Except Failure Unit × Walk :=
  (tour.failure.elim (.ok ()) .error, tour.walk)

/-- What a tour tells at its end. -/
def answer (tour : Tour) : Except Failure (List Impact) × Session × Tracer :=
  (tour.outcome.1.map fun _ => Impact.merge tour.walk.impacts, tour.walk.session, tour.walk.tracer)

/-- The depths at which the uses of a declaration were asked for, in the order in which they were. -/
def depthsOf (tour : Tour) (key : Text × Nat) : List Nat :=
  (tour.visits.filter fun x => x.1.key = key).map (·.2)

/-! ## The turns do what the walk does -/

/-- Some turns lead from one tour to another. -/
def Becomes (w : Workspace) (related : Text) (tour tour' : Tour) : Prop :=
  ∃ n, (turn w related)^[n] tour = tour'

/-- The tour that has done a part of the walk: what the part was about is taken from the stack. -/
def after (tour : Tour) (rest : List (Declaration × Nat)) (visits : List (Declaration × Nat)) :
    Except Failure Unit × Walk → Tour
  | (.ok (), walk) => { tour with stack := rest, visits := visits, walk := walk }
  | (.error e, walk) => { tour with visits := visits }.failed e walk

section Simulation

variable {w : Workspace} {related : Text} {tour tour' tour'' : Tour}

theorem Becomes.refl : Becomes w related tour tour :=
  ⟨0, rfl⟩

theorem Becomes.trans (h : Becomes w related tour tour') (h' : Becomes w related tour' tour'') :
    Becomes w related tour tour'' := by
  rcases h with ⟨n, rfl⟩
  rcases h' with ⟨m, rfl⟩
  exact ⟨m + n, Function.iterate_add_apply _ m n tour⟩

theorem Becomes.of_turn (h : tour.turn w related = tour') : Becomes w related tour tour' :=
  ⟨1, h⟩

/-- Of two parts only the second one shows, unless the first one fails. -/
theorem after_after {rest rest' visits visits' : List (Declaration × Nat)} {walk : Walk}
    (result : Except Failure Unit × Walk) :
    (tour.after rest visits (.ok (), walk)).after rest' visits' result =
      tour.after rest' visits' result := by
  rcases result with ⟨e | ⟨⟩, walk'⟩ <;> rfl

/-- The turns do what a walk from the declaration on top of the stack does, whatever is below. -/
def Walks (w : Workspace) (related origin : Text) (depth : Nat) (d : Declaration) (m : Tracing Unit) :
    Prop :=
  ∀ (tour : Tour) (rest : List (Declaration × Nat)), tour.origin = origin →
    tour.stack = (d, depth) :: rest →
      ∃ visits, Becomes w related tour (tour.after rest visits (m.exec w tour.walk))

/-- If they do so for each declaration of a list, then they do for all of them in turn. -/
theorem exists_becomes_forM {origin : Text} {depth : Nat} {step : Declaration → Tracing Unit}
    (hstep : ∀ d, Walks w related origin depth d (step d)) (ds : List Declaration) (tour : Tour)
    (rest : List (Declaration × Nat)) (horigin : tour.origin = origin)
    (hstack : tour.stack = ds.map (·, depth) ++ rest) :
    ∃ visits, Becomes w related tour (tour.after rest visits ((ds.forM step).exec w tour.walk)) := by
  induction ds generalizing tour with
  | nil =>
    rcases tour with ⟨seeds, o, stack, visits, walk, failure⟩
    cases hstack
    exact ⟨visits, .refl⟩
  | cons d ds ih =>
    have hcons : (d :: ds).forM step = step d >>= fun _ => ds.forM step := rfl
    rcases hstep d tour (ds.map (·, depth) ++ rest) horigin hstack with ⟨visits, hfirst⟩
    rw [hcons, Tracing.exec_bind]
    rcases hexec : (step d).exec w tour.walk with ⟨e | ⟨⟩, walk⟩
    · rw [hexec] at hfirst
      exact ⟨visits, hfirst⟩
    · rw [hexec] at hfirst
      rcases ih (tour.after (ds.map (·, depth) ++ rest) visits (.ok (), walk)) horigin rfl with
        ⟨visits', hrest⟩
      rw [after_after] at hrest
      exact ⟨visits', hfirst.trans hrest⟩

/-- A declaration that was reached in time is dropped. -/
theorem turn_of_reached {d : Declaration} {depth : Nat} {rest : List (Declaration × Nat)}
    (hstack : tour.stack = (d, depth) :: rest)
    (h : (tour.walk.depths.get? d.key).getD (depth + 1) ≤ depth) :
    tour.turn w related = { tour with stack := rest } := by
  simp only [turn, hstack]
  exact if_pos h

/-- Any other declaration is looked at. -/
theorem turn_of_not_reached {d : Declaration} {depth : Nat} {rest : List (Declaration × Nat)}
    (hstack : tour.stack = (d, depth) :: rest)
    (h : ¬ (tour.walk.depths.get? d.key).getD (depth + 1) ≤ depth) :
    tour.turn w related =
      match (Tracing.expand related tour.origin depth (depth < w.settings.maxDepth.toNat) d).exec w
          tour.walk with
      | (.ok next, walk) =>
        tour.after (next.reverse.map (·, depth + 1) ++ rest) (tour.visits ++ [(d, depth)]) (.ok (), walk)
      | (.error e, walk) => tour.after rest (tour.visits ++ [(d, depth)]) (.error e, walk) := by
  simp only [turn, hstack]
  exact if_neg h

/-- What a walk does when a declaration was looked at. -/
def descend (related origin : Text) (depth : Nat) (next : List Declaration) : Nat → Tracing Unit
  | 0 => return
  | remaining + 1 => next.reverse.forM (Tracing.walk related origin remaining (depth + 1))

/-- A walk looks at a declaration that was not reached in time, and then it descends. -/
theorem exec_walk_eq {origin : Text} {remaining depth : Nat} {d : Declaration} (walk : Walk) :
    (Tracing.walk related origin remaining depth d).exec w walk =
      if (walk.depths.get? d.key).getD (depth + 1) ≤ depth then (.ok (), walk)
      else (Tracing.expand related origin depth (remaining ≠ 0) d >>= fun next =>
        descend related origin depth next remaining).exec w walk := by
  cases remaining <;>
  · rw [Tracing.walk, Tracing.exec_bind_ok (Tracing.exec_get w walk)]
    split
    · rfl
    · simp only [Tracing.expand, descend, bind_assoc, pure_bind]

/-- The turns do what a walk does from one declaration, if they do what it does when it descends. -/
theorem walks_of_descend {origin : Text} {remaining depth : Nat} {d : Declaration}
    (hlimit : depth + remaining = w.settings.maxDepth.toNat)
    (hdescend : ∀ (next : List Declaration) (tour : Tour) (rest : List (Declaration × Nat)),
      (remaining = 0 → next = []) → tour.origin = origin →
        tour.stack = next.reverse.map (·, depth + 1) ++ rest → ∃ visits, Becomes w related tour
          (tour.after rest visits ((descend related origin depth next remaining).exec w tour.walk))) :
    Walks w related origin depth d (Tracing.walk related origin remaining depth d) := by
  intro tour rest horigin hstack
  rw [exec_walk_eq]
  by_cases hseen : (tour.walk.depths.get? d.key).getD (depth + 1) ≤ depth
  · rw [if_pos hseen]
    exact ⟨tour.visits, .of_turn (turn_of_reached hstack hseen)⟩
  · have hturn : tour.turn w related = _ := turn_of_not_reached hstack hseen
    have hmay : decide (depth < w.settings.maxDepth.toNat) = decide (remaining ≠ 0) :=
      decide_eq_decide.2 (by omega)
    rw [hmay, horigin] at hturn
    rw [if_neg hseen, Tracing.exec_bind]
    rcases hexec : (Tracing.expand related origin depth (remaining ≠ 0) d).exec w tour.walk with
      ⟨e | next, walk⟩
    · rw [hexec] at hturn
      exact ⟨_, .of_turn hturn⟩
    · rw [hexec] at hturn
      have hnil : remaining = 0 → next = [] := by
        rintro rfl
        exact Tracing.eq_nil_of_expand hexec
      rcases hdescend next (tour.after _ _ (.ok (), walk)) rest hnil horigin rfl with ⟨visits, hrest⟩
      rw [after_after] at hrest
      exact ⟨visits, .trans (.of_turn hturn) hrest⟩

/-- The turns do what the walk does: the next declarations come on the stack in the order in which the
walk takes them, and each is walked to its end before the next one is looked at. -/
theorem walks_walk {origin : Text} (remaining depth : Nat) (d : Declaration)
    (hlimit : depth + remaining = w.settings.maxDepth.toNat) :
    Walks w related origin depth d (Tracing.walk related origin remaining depth d) := by
  induction remaining generalizing depth d with
  | zero =>
    refine walks_of_descend hlimit fun next tour rest hnil _ hstack => ?_
    rw [hnil rfl] at hstack
    rcases tour with ⟨seeds, o, stack, visits, walk, failure⟩
    cases hstack
    exact ⟨visits, .refl⟩
  | succ remaining ih =>
    refine walks_of_descend hlimit fun next tour rest _ horigin hstack => ?_
    exact exists_becomes_forM (fun d' => ih (depth + 1) d' (by omega)) next.reverse tour rest horigin
      hstack

/-- The turns start from one changed declaration after the other, as the walk of a whole diff does. -/
theorem exists_finished_forM (seeds : List Declaration) (tour : Tour) (hfailure : tour.failure = none)
    (hstack : tour.stack = []) (hseeds : tour.seeds = seeds) :
    ∃ tour', Becomes w related tour tour' ∧ tour'.Finished ∧
      tour'.outcome = (seeds.forM fun seed => do
        modify fun walk : Walk => { walk with tracer := walk.tracer.addDeclaration w.root seed }
        Tracing.walk related seed.nodeId w.settings.maxDepth.toNat 0 seed :
          Tracing Unit).exec w tour.walk := by
  induction seeds generalizing tour with
  | nil =>
    refine ⟨tour, .refl, ⟨hstack, hseeds⟩, ?_⟩
    rw [outcome, hfailure]
    rfl
  | cons seed seeds ih =>
    have hcons (step : Declaration → Tracing Unit) :
        (seed :: seeds).forM step = step seed >>= fun _ => seeds.forM step := rfl
    rw [hcons, bind_assoc, Tracing.exec_bind_ok (Tracing.exec_modify _ w tour.walk), Tracing.exec_bind]
    -- The next changed declaration comes on the stack, and its walk begins.
    let started : Tour := { tour with
      seeds := seeds
      origin := seed.nodeId
      stack := [(seed, 0)]
      walk := { tour.walk with tracer := tour.walk.tracer.addDeclaration w.root seed } }
    have hstarted : Becomes w related tour started := .of_turn (by simp only [turn, hstack, hseeds]; rfl)
    rcases walks_walk w.settings.maxDepth.toNat 0 seed (Nat.zero_add _) started [] rfl rfl with
      ⟨visits, hwalked⟩
    rcases hexec : (Tracing.walk related seed.nodeId w.settings.maxDepth.toNat 0 seed).exec w
      started.walk with ⟨e | ⟨⟩, walk⟩
    · rw [hexec] at hwalked
      exact ⟨_, hstarted.trans hwalked, ⟨rfl, rfl⟩, rfl⟩
    · rw [hexec] at hwalked
      rcases ih (started.after [] visits (.ok (), walk)) hfailure rfl rfl with
        ⟨tour', hrest, hfinished, houtcome⟩
      exact ⟨tour', (hstarted.trans hwalked).trans hrest, hfinished, houtcome⟩

/-- The turns come to an end, and then they tell what the trace tells. -/
theorem exists_finished (t : Tracer) (d : FileDiff) (path : Text) (w : Workspace) (s : Session) :
    ∃ tour, Becomes w d.path (start t d path w s) tour ∧ tour.Finished ∧
      tour.answer = t.trace d path w s := by
  have htrace : t.trace d path w s =
      let result := (Tracing.walkAll d path).exec w ⟨s, t, [], []⟩
      (result.1.map fun _ => Impact.merge result.2.impacts, result.2.session, result.2.tracer) := rfl
  rw [htrace, Tracing.walkAll, Tracing.exec_bind_ok (Tracing.exec_read w _), Tracing.exec_bind,
    Tracing.exec_ofQuery]
  rcases hchanged : (Tracing.changed d path).ask w s with ⟨e | seeds, session⟩
  · have hstart : start t d path w s = { walk := ⟨session, t, [], []⟩, failure := some e } := by
      rw [start, hchanged]
    rw [hstart]
    exact ⟨_, .refl, ⟨rfl, rfl⟩, rfl⟩
  · have hstart : start t d path w s = { seeds := seeds, walk := ⟨session, t, [], []⟩ } := by
      rw [start, hchanged]
    rw [hstart]
    let started : Tour := { seeds := seeds, walk := ⟨session, t, [], []⟩ }
    have hends : ∃ tour, Becomes w d.path started tour ∧ _ :=
      exists_finished_forM seeds started rfl rfl rfl
    rcases hends with ⟨tour, hturns, hfinished, houtcome⟩
    refine ⟨tour, hturns, hfinished, ?_⟩
    dsimp only
    rw [← houtcome]
    rfl

end Simulation

/-! ## What every turn keeps -/

/-- What waits and what was looked at is within the limit, and a declaration is looked at again only at a
depth smaller than all those before: the least of them is noted in the walk. -/
structure Descending (limit : Nat) (tour : Tour) : Prop where
  waiting : ∀ x ∈ tour.stack, x.2 ≤ limit
  within : ∀ key, ∀ depth ∈ tour.depthsOf key, depth ≤ limit
  falling : ∀ key, (tour.depthsOf key).Pairwise (· > ·)
  noted : ∀ key, ∀ depth ∈ tour.depthsOf key, ∃ least, tour.walk.depths.get? key = some least ∧
    least ≤ depth

namespace Descending

variable {w : Workspace} {related : Text} {limit : Nat} {tour : Tour}

theorem start (t : Tracer) (d : FileDiff) (path : Text) (w : Workspace) (s : Session) (limit : Nat) :
    Descending limit (Tour.start t d path w s) := by
  unfold Tour.start
  split
  · exact ⟨by simp, by simp [depthsOf], by simp [depthsOf], by simp [depthsOf]⟩
  · exact ⟨by simp, by simp [depthsOf], by simp [depthsOf], by simp [depthsOf]⟩

/-- Only what waits and what the walk noted matters, apart from the visits. -/
theorem of_visits_eq {tour' : Tour} (h : Descending limit tour) (hvisits : tour'.visits = tour.visits)
    (hdepths : tour'.walk.depths = tour.walk.depths) (hwaiting : ∀ x ∈ tour'.stack, x.2 ≤ limit) :
    Descending limit tour' := by
  have hsame (key : Text × Nat) : tour'.depthsOf key = tour.depthsOf key := by
    rw [depthsOf, hvisits, depthsOf]
  refine ⟨hwaiting, fun key => ?_, fun key => ?_, fun key => ?_⟩
  · exact hsame key ▸ h.within key
  · exact hsame key ▸ h.falling key
  · rw [hsame key, hdepths]
    exact h.noted key

/-- A visit at a depth that was not reached is at a smaller depth than all those before. -/
theorem visit {tour' : Tour} {d : Declaration} {depth : Nat} (h : Descending limit tour)
    (hdepth : depth ≤ limit) (hnew : ¬ (tour.walk.depths.get? d.key).getD (depth + 1) ≤ depth)
    (hvisits : tour'.visits = tour.visits ++ [(d, depth)])
    (hdepths : tour'.walk.depths = tour.walk.depths.put d.key depth)
    (hwaiting : ∀ x ∈ tour'.stack, x.2 ≤ limit) : Descending limit tour' := by
  have hsame {key : Text × Nat} (hkey : d.key ≠ key) : tour'.depthsOf key = tour.depthsOf key := by
    simp [depthsOf, hvisits, hkey]
  have hlast : tour'.depthsOf d.key = tour.depthsOf d.key ++ [depth] := by
    simp [depthsOf, hvisits]
  have hsmaller : ∀ k ∈ tour.depthsOf d.key, depth < k := by
    intro k hk
    rcases h.noted d.key k hk with ⟨least, hleast, hle⟩
    rw [hleast] at hnew
    exact Nat.lt_of_lt_of_le (Nat.lt_of_not_le hnew) hle
  refine ⟨hwaiting, fun key => ?_, fun key => ?_, fun key => ?_⟩
  · intro k hk
    by_cases hkey : d.key = key
    · rw [← hkey, hlast] at hk
      rcases List.mem_append.1 hk with hk | hk
      · exact h.within d.key k hk
      · exact List.mem_singleton.1 hk ▸ hdepth
    · exact h.within key k (hsame hkey ▸ hk)
  · by_cases hkey : d.key = key
    · rw [← hkey, hlast, List.pairwise_append]
      refine ⟨h.falling d.key, List.pairwise_singleton _ _, ?_⟩
      intro k hk k' hk'
      exact List.mem_singleton.1 hk' ▸ hsmaller k hk
    · exact hsame hkey ▸ h.falling key
  · intro k hk
    rw [hdepths, Table.get?_put]
    by_cases hkey : d.key = key
    · rw [if_pos hkey]
      refine ⟨depth, rfl, ?_⟩
      rw [← hkey, hlast] at hk
      rcases List.mem_append.1 hk with hk | hk
      · exact (hsmaller k hk).le
      · exact (List.mem_singleton.1 hk).ge
    · rw [if_neg hkey]
      exact h.noted key k (hsame hkey ▸ hk)

/-- One turn keeps all of it. A declaration comes on the stack only from a smaller depth than the limit. -/
theorem turn (h : Descending w.settings.maxDepth.toNat tour) :
    Descending w.settings.maxDepth.toNat (tour.turn w related) := by
  match hstack : tour.stack, hseeds : tour.seeds with
  | [], [] =>
    have hturn : tour.turn w related = tour := by simp only [Tour.turn, hstack, hseeds]
    rwa [hturn]
  | [], seed :: seeds =>
    simp only [Tour.turn, hstack, hseeds]
    exact h.of_visits_eq rfl rfl (by simp)
  | (d, depth) :: rest, _ =>
    have hdepth : depth ≤ w.settings.maxDepth.toNat := h.waiting (d, depth) (by simp [hstack])
    have hrest : ∀ x ∈ rest, x.2 ≤ w.settings.maxDepth.toNat :=
      fun x hx => h.waiting x (by simp [hstack, hx])
    by_cases hseen : (tour.walk.depths.get? d.key).getD (depth + 1) ≤ depth
    · rw [turn_of_reached hstack hseen]
      exact h.of_visits_eq rfl rfl hrest
    · rw [turn_of_not_reached hstack hseen]
      have hdepths : ((Tracing.expand related tour.origin depth (depth < w.settings.maxDepth.toNat) d).exec
          w tour.walk).2.depths = tour.walk.depths.put d.key depth := Tracing.depths_expand tour.walk
      rcases hexec : (Tracing.expand related tour.origin depth (depth < w.settings.maxDepth.toNat) d).exec
        w tour.walk with ⟨e | next, walk⟩
      · rw [hexec] at hdepths
        exact h.visit hdepth hseen rfl hdepths (by simp [Tour.after, failed])
      · rw [hexec] at hdepths
        refine h.visit hdepth hseen rfl hdepths fun x hx => ?_
        rcases List.mem_append.1 hx with hx | hx
        · rcases List.mem_map.1 hx with ⟨d', hd', rfl⟩
          -- At the limit nothing would have come next.
          by_contra hbeyond
          have hlast : decide (depth < w.settings.maxDepth.toNat) = false := by
            simp only [decide_eq_false_iff_not]
            exact fun hlt => hbeyond hlt
          rw [hlast] at hexec
          rw [Tracing.eq_nil_of_expand hexec] at hd'
          cases hd'
        · exact hrest x hx

/-- All turns keep it. -/
theorem becomes {tour' : Tour} (h : Descending w.settings.maxDepth.toNat tour)
    (hturns : Becomes w related tour tour') : Descending w.settings.maxDepth.toNat tour' := by
  rcases hturns with ⟨n, rfl⟩
  induction n with
  | zero => exact h
  | succ n ih =>
    rw [Function.iterate_succ_apply']
    exact ih.turn

/-- Depths that fall within a limit are not many. -/
theorem length_depthsOf_le (h : Descending limit tour) (key : Text × Nat) :
    (tour.depthsOf key).length ≤ limit + 1 := by
  have hnodup : (tour.depthsOf key).Nodup := (h.falling key).imp fun hlt => (Nat.ne_of_lt hlt).symm
  have hsubset : tour.depthsOf key ⊆ List.range (limit + 1) :=
    fun depth hdepth => List.mem_range.2 (Nat.lt_succ_of_le (h.within key depth hdepth))
  simpa using (List.Nodup.subperm hnodup hsubset).length_le

end Descending

end Tour

/-- A trace ends, with its impacts or with a failure: as a loop over a stack it comes to its end after
finitely many turns, whatever cycles the uses form. After any number of turns no declaration waits at a
depth beyond the limit, and the depths at which the uses of one declaration were asked for, over all changed
declarations, fall from one time to the next, lie within the limit and so are not more than the depths that
there are. -/
theorem Tracer.trace_ends (t : Tracer) (d : FileDiff) (path : Text) (w : Workspace) (s : Session) :
    (∃ tour, Tour.Becomes w d.path (.start t d path w s) tour ∧ tour.Finished ∧
      tour.answer = t.trace d path w s) ∧
    ∀ tour, Tour.Becomes w d.path (.start t d path w s) tour →
      (∀ x ∈ tour.stack, x.2 ≤ w.settings.maxDepth.toNat) ∧
      ∀ key, (tour.depthsOf key).Pairwise (· > ·) ∧
        (∀ depth ∈ tour.depthsOf key, depth ≤ w.settings.maxDepth.toNat) ∧
        (tour.depthsOf key).length ≤ w.settings.maxDepth.toNat + 1 := by
  refine ⟨Tour.exists_finished t d path w s, fun tour hturns => ?_⟩
  have h := (Tour.Descending.start t d path w s w.settings.maxDepth.toNat).becomes hturns
  exact ⟨h.waiting, fun key => ⟨h.falling key, h.within key, h.length_depthsOf_le key⟩⟩

end AffectedTests
