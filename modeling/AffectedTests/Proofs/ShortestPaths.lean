import AffectedTests.Reach.Graph
import Mathlib.Data.List.Chain
import Mathlib.Data.List.Nodup
/-!
# Shortest paths

The search from both ends finds a path if there is one, and no path is shorter. Each of the two searches
has seen exactly the nodes up to some distance from its end, and until they meet they have seen no node in
common; so every path is longer than both distances together, and the one through the first common node
is as long as that allows.

- `Front.Reaches` is what holds of one search between two levels.
- `Graph.isPath_of_shortestPath?`, `Graph.exists_shortestPath?`: the path that is found.
-/

namespace AffectedTests

/-! ## Keys of a table -/

namespace Table

variable {κ α : Type} [DecidableEq κ] {t : Table κ α} {key key' : κ} {value : α}

theorem has_put : (t.put key value).has key' = true ↔ key = key' ∨ t.has key' = true := by
  unfold has
  rw [get?_put]
  by_cases h : key = key' <;> simp [h]

theorem length_put (h : t.has key = false) : (t.put key value).length = t.length + 1 := by
  induction t with
  | nil => rfl
  | cons entry t ih =>
    rcases entry with ⟨k, a⟩
    by_cases hk : k = key
    · simp [has, get?, hk] at h
    · have hrest : has key t = false := by simpa [has, get?, hk] using h
      simp [put, hk, ih hrest]

theorem mem_of_get? (h : t.get? key = some value) : (key, value) ∈ t := by
  induction t with
  | nil => cases h
  | cons entry t ih =>
    rcases entry with ⟨k, a⟩
    by_cases hk : k = key
    · have ha : a = value := by simpa [get?, hk] using h
      simp [hk, ha]
    · have hrest : get? key t = some value := by simpa [get?, hk] using h
      exact List.mem_cons_of_mem _ (ih hrest)

end Table

/-! ## Distances -/

/-- So many steps lead from one node to another. -/
inductive Leads (next : Text → List Text) : Nat → Text → Text → Prop
  | here {a : Text} : Leads next 0 a a
  | on {n : Nat} {a b c : Text} : Leads next n a b → c ∈ next b → Leads next (n + 1) a c

/-- So many steps lead from one node to another, and no fewer. -/
def Apart (next : Text → List Text) (n : Nat) (a b : Text) : Prop :=
  Leads next n a b ∧ ∀ m < n, ¬ Leads next m a b

/-- The neighbours in the other direction. -/
def Converse (next prev : Text → List Text) : Prop :=
  ∀ a b, b ∈ next a ↔ a ∈ prev b

section Distances

variable {next prev : Text → List Text} {m n : Nat} {a b c : Text}

theorem Converse.symm (h : Converse next prev) : Converse prev next :=
  fun a b => (h b a).symm

theorem Leads.trans (h : Leads next m a b) (h' : Leads next n b c) : Leads next (m + n) a c := by
  induction h' with
  | here => exact h
  | on _ hc ih => exact (ih h).on hc

theorem Leads.split (h : Leads next (m + n) a c) : ∃ b, Leads next m a b ∧ Leads next n b c := by
  induction n generalizing c with
  | zero => exact ⟨c, h, .here⟩
  | succ n ih =>
    cases h with
    | on h hc =>
      rcases ih h with ⟨b, hab, hbc⟩
      exact ⟨b, hab, hbc.on hc⟩

theorem Leads.reverse (hconv : Converse next prev) (h : Leads next n a b) : Leads prev n b a := by
  induction h with
  | here => exact .here
  | @on n a b c _ hc ih =>
    have hstep : Leads prev 1 c b := .on .here ((hconv b c).1 hc)
    exact Nat.add_comm 1 n ▸ hstep.trans ih

/-- The least number of steps. -/
theorem Leads.exists_apart (h : Leads next n a b) : ∃ m ≤ n, Apart next m a b := by
  induction n using Nat.strongRecOn with
  | _ n ih =>
    by_cases hless : ∃ m < n, Leads next m a b
    · rcases hless with ⟨m, hm, hlead⟩
      rcases ih m hm hlead with ⟨k, hk, hapart⟩
      exact ⟨k, by omega, hapart⟩
    · exact ⟨n, Nat.le_refl n, h, fun m hm hlead => hless ⟨m, hm, hlead⟩⟩

theorem Apart.reverse (hconv : Converse next prev) (h : Apart next n a b) : Apart prev n b a :=
  ⟨h.1.reverse hconv, fun m hm hlead => h.2 m hm (hlead.reverse hconv.symm)⟩

theorem Apart.le (h : Apart next m a b) (h' : Leads next n a b) : m ≤ n :=
  Nat.le_of_not_lt fun hlt => h.2 n hlt h'

theorem Apart.unique (h : Apart next m a b) (h' : Apart next n a b) : m = n :=
  Nat.le_antisymm (h.le h'.1) (h'.le h.1)

/-- On the way to a node there is one at every smaller distance. -/
theorem Apart.between (h : Apart next (m + n) a c) : ∃ b, Apart next m a b ∧ Leads next n b c := by
  rcases h.1.split with ⟨b, hab, hbc⟩
  refine ⟨b, ⟨hab, ?_⟩, hbc⟩
  intro k hk hlead
  exact h.2 (k + n) (by omega) (hlead.trans hbc)

theorem Apart.before (h : Apart next (n + 1) a c) : ∃ b, Apart next n a b ∧ c ∈ next b := by
  rcases h.between with ⟨b, hab, hbc⟩
  cases hbc with
  | on hbb hc =>
    cases hbb
    exact ⟨b, hab, hc⟩

end Distances

namespace Graph

/-! ## One search -/

/-- Taking one edge: the node that it leads to is reached, if it was not before. -/
def Front.visit (f : Front) (e : Text × Text) : Front :=
  if f.via.has e.2 then f else ⟨f.level ++ [e.2], f.via.put e.2 (some e.1)⟩

theorem Front.advance_cons (other : Table Text (Option Text)) (f : Front) (e : Text × Text)
    (es : List (Text × Text)) :
    Front.advance other f (e :: es) =
      if other.has e.2 then (f.visit e, some e.2) else Front.advance other (f.visit e) es :=
  rfl

/-- A level without a common node is taken as a whole. -/
theorem Front.advance_eq_none {other : Table Text (Option Text)} {f f' : Front}
    {es : List (Text × Text)} (h : Front.advance other f es = (f', none)) :
    f' = es.foldl Front.visit f ∧ ∀ e ∈ es, other.has e.2 = false := by
  induction es generalizing f with
  | nil => exact ⟨(congrArg Prod.fst h).symm, by simp⟩
  | cons e es ih =>
    rw [advance_cons] at h
    split at h
    · cases h
    · rename_i hnew
      rcases ih h with ⟨hf, hes⟩
      refine ⟨hf, ?_⟩
      intro e' he'
      rcases List.mem_cons.1 he' with rfl | he'
      · exact Bool.eq_false_iff.2 hnew
      · exact hes e' he'

/-- Otherwise it is taken up to the first common node. -/
theorem Front.advance_eq_some {other : Table Text (Option Text)} {f f' : Front}
    {es : List (Text × Text)} {v : Text} (h : Front.advance other f es = (f', some v)) :
    other.has v = true ∧ ∃ taken, taken <+: es ∧ f' = taken.foldl Front.visit f ∧
      v ∈ taken.map (·.2) := by
  induction es generalizing f with
  | nil => cases h
  | cons e es ih =>
    rw [advance_cons] at h
    split at h
    · rename_i hmet
      cases h
      exact ⟨hmet, [e], by simp, rfl, by simp⟩
    · rcases ih h with ⟨hmet, taken, hfront, hf, hv⟩
      exact ⟨hmet, e :: taken, List.cons_prefix_cons.2 ⟨rfl, hfront⟩, hf, by simp [hv]⟩

variable {next prev : Text → List Text} {root : Text}

theorem mem_steps {level : List Text} {e : Text × Text} :
    e ∈ steps next level ↔ e.1 ∈ level ∧ e.2 ∈ next e.1 := by
  rcases e with ⟨u, v⟩
  simp [steps]

/-- Every node that was reached, but for the root, was reached from one that is a step nearer. -/
structure Linked (next : Text → List Text) (root : Text) (via : Table Text (Option Text)) : Prop where
  ended : ∀ v, via.get? v = some none → v = root
  parent : ∀ v u, via.get? v = some (some u) → v ∈ next u ∧ via.has u = true ∧
    ∃ k, Apart next k root u ∧ Apart next (k + 1) root v

/-- The search has reached the nodes up to a distance, and its last level are those at that distance. -/
structure Front.Reaches (next : Text → List Text) (root : Text) (n : Nat) (f : Front) : Prop where
  linked : Linked next root f.via
  reached : ∀ v, f.via.has v = true ↔ ∃ m ≤ n, Apart next m root v
  level : ∀ v, v ∈ f.level ↔ Apart next n root v
  size : f.level ≠ [] → n < f.via.length

/-- The search has reached what it had reached before, and the targets of some edges that leave the last
level; those that are new are the next level. -/
structure Front.Passes (next : Text → List Text) (root : Text) (via : Table Text (Option Text))
    (es : List (Text × Text)) (f : Front) : Prop where
  linked : Linked next root f.via
  reached : ∀ v, f.via.has v = true ↔ via.has v = true ∨ v ∈ es.map (·.2)
  level : ∀ v, v ∈ f.level ↔ via.has v = false ∧ v ∈ es.map (·.2)
  size : f.via.length = via.length + f.level.length

theorem Front.reaches_start (next : Text → List Text) (root : Text) :
    (Front.start root).Reaches next root 0 := by
  have hzero : ∀ v, Apart next 0 root v ↔ v = root := by
    intro v
    constructor
    · rintro ⟨hlead, -⟩
      cases hlead
      rfl
    · rintro rfl
      exact ⟨.here, by simp⟩
  have hvia : ∀ v, (Front.start root).via.get? v = if root = v then some none else none := by
    intro v
    rfl
  refine ⟨⟨?_, ?_⟩, ?_, ?_, fun _ => Nat.zero_lt_one⟩
  · intro v hv
    rw [hvia] at hv
    by_cases h : root = v
    · exact h.symm
    · simp [h] at hv
  · intro v u hv
    rw [hvia] at hv
    by_cases h : root = v <;> simp [h] at hv
  · intro v
    unfold Table.has
    rw [hvia]
    by_cases h : root = v
    · simp [← h, hzero]
    · have hne : ¬ v = root := fun hv => h hv.symm
      simp [h, hzero, hne]
  · intro v
    rw [hzero]
    exact List.mem_singleton

/-- A node that was not reached but is next to the last level is one step further away. -/
theorem Front.Reaches.apart_of_new {n : Nat} {f : Front} (h : f.Reaches next root n) {u v : Text}
    (hu : Apart next n root u) (hv : v ∈ next u) (hnew : f.via.has v = false) :
    Apart next (n + 1) root v := by
  refine ⟨hu.1.on hv, ?_⟩
  intro m hm hlead
  rcases hlead.exists_apart with ⟨k, hk, hapart⟩
  have hold := (h.reached v).2 ⟨k, by omega, hapart⟩
  rw [hnew] at hold
  cases hold

/-- A link to a node that is one step nearer. -/
theorem Linked.put {n : Nat} {via : Table Text (Option Text)} (h : Linked next root via) {u v : Text}
    (hu : via.has u = true) (hv : v ∈ next u) (hat : Apart next n root u)
    (hfar : Apart next (n + 1) root v) : Linked next root (via.put v (some u)) := by
  constructor
  · intro x hx
    rw [Table.get?_put] at hx
    split at hx
    · cases hx
    · exact h.ended x hx
  · intro x y hx
    rw [Table.get?_put] at hx
    split at hx
    · rename_i heq
      cases hx
      rw [← heq]
      exact ⟨hv, Table.has_put.2 (.inr hu), n, hat, hfar⟩
    · rcases h.parent x y hx with ⟨hxy, hy, hk⟩
      exact ⟨hxy, Table.has_put.2 (.inr hy), hk⟩

/-- One edge that leaves the last level. -/
theorem Front.Passes.visit {n : Nat} {f₀ f : Front} {es : List (Text × Text)} {e : Text × Text}
    (h₀ : f₀.Reaches next root n) (hf : f.Passes next root f₀.via es) (hsource : e.1 ∈ f₀.level)
    (htarget : e.2 ∈ next e.1) : (f.visit e).Passes next root f₀.via (es ++ [e]) := by
  have hmem : ∀ v, v ∈ (es ++ [e]).map (·.2) ↔ v ∈ es.map (·.2) ∨ v = e.2 := by
    intro v
    simp
  unfold Front.visit
  split
  · rename_i hknown
    -- The target was reached before, so nothing is new.
    have hold := (hf.reached e.2).1 hknown
    refine ⟨hf.linked, ?_, ?_, hf.size⟩
    · intro v
      rw [hmem, hf.reached]
      by_cases hv : v = e.2
      · exact iff_of_true (hv ▸ hold) (.inr (.inr hv))
      · simp [hv]
    · intro v
      rw [hmem, hf.level]
      by_cases hv : v = e.2
      · rcases hold with hold | hold <;> simp [hv, hold]
      · simp [hv]
  · rename_i hunknown
    have hnew : f.via.has e.2 = false := Bool.eq_false_iff.2 hunknown
    have hold : f₀.via.has e.2 = false :=
      Bool.eq_false_iff.2 fun h => hunknown ((hf.reached e.2).2 (.inl h))
    have hat := (h₀.level e.1).1 hsource
    have hlinked : f.via.has e.1 = true :=
      (hf.reached e.1).2 (.inl ((h₀.reached e.1).2 ⟨n, Nat.le_refl n, hat⟩))
    refine ⟨hf.linked.put hlinked htarget hat (h₀.apart_of_new hat htarget hold), ?_, ?_, ?_⟩
    · intro v
      rw [Table.has_put, hf.reached, hmem, eq_comm]
      tauto
    · intro v
      rw [hmem, List.mem_append, List.mem_singleton, hf.level]
      by_cases hv : v = e.2
      · simp [hv, hold]
      · simp [hv]
    · rw [Table.length_put hnew, hf.size, List.length_append]
      rfl

/-- A part of the edges that leave the last level. -/
theorem Front.passes_foldl {n : Nat} {f₀ : Front} (h₀ : f₀.Reaches next root n)
    {es : List (Text × Text)} (hes : es <+: steps next f₀.level) :
    (es.foldl Front.visit ⟨[], f₀.via⟩).Passes next root f₀.via es := by
  have hrun : ∀ (rest done : List (Text × Text)) (f : Front), (∀ e ∈ rest, e ∈ es) →
      f.Passes next root f₀.via done →
        (rest.foldl Front.visit f).Passes next root f₀.via (done ++ rest) := by
    intro rest
    induction rest with
    | nil =>
      intro done f _ hf
      rw [List.append_nil]
      exact hf
    | cons e rest ih =>
      intro done f hrest hf
      rcases mem_steps.1 (hes.subset (hrest e (by simp))) with ⟨hsource, htarget⟩
      have hstep := ih (done ++ [e]) (f.visit e) (fun e' he' => hrest e' (by simp [he']))
        (hf.visit h₀ hsource htarget)
      rwa [List.append_assoc, List.singleton_append] at hstep
  exact hrun es [] _ (fun _ he => he) ⟨h₀.linked, by simp, by simp, rfl⟩

/-- A whole level takes the search one step further. -/
theorem Front.Reaches.advance {n : Nat} {f₀ f : Front} (h₀ : f₀.Reaches next root n)
    (h : f = (steps next f₀.level).foldl Front.visit ⟨[], f₀.via⟩) :
    f.Reaches next root (n + 1) := by
  have hf := Front.passes_foldl h₀ (List.prefix_refl (steps next f₀.level))
  rw [← h] at hf
  have htargets : ∀ v, v ∈ (steps next f₀.level).map (·.2) ↔
      ∃ u, Apart next n root u ∧ v ∈ next u := by
    intro v
    simp [mem_steps, h₀.level]
  -- The new nodes are exactly those that are `n + 1` steps away.
  have hlevel : ∀ v, v ∈ f.level ↔ Apart next (n + 1) root v := by
    intro v
    rw [hf.level, htargets]
    constructor
    · rintro ⟨hnew, u, hu, hv⟩
      exact h₀.apart_of_new hu hv hnew
    · intro hv
      refine ⟨Bool.eq_false_iff.2 fun hold => ?_, hv.before⟩
      rcases (h₀.reached v).1 hold with ⟨k, hk, hapart⟩
      have hsame := hapart.unique hv
      omega
  refine ⟨hf.linked, ?_, hlevel, ?_⟩
  · intro v
    rw [hf.reached, h₀.reached, htargets]
    constructor
    · rintro (⟨m, hm, hv⟩ | ⟨u, hu, hv⟩)
      · exact ⟨m, by omega, hv⟩
      · rcases (hu.1.on hv).exists_apart with ⟨k, hk, hapart⟩
        exact ⟨k, hk, hapart⟩
    · rintro ⟨m, hm, hv⟩
      by_cases hlast : m = n + 1
      · subst hlast
        exact .inr hv.before
      · exact .inl ⟨m, by omega, hv⟩
  · intro hne
    -- A level that is not empty was entered from one that is not empty.
    have hne₀ : f₀.level ≠ [] := by
      rcases List.exists_mem_of_ne_nil _ hne with ⟨v, hv⟩
      rcases ((hlevel v).1 hv).before with ⟨u, hu, -⟩
      exact List.ne_nil_of_mem ((h₀.level u).2 hu)
    have hpos : 0 < f.level.length := List.length_pos_iff.2 hne
    have hsize := h₀.size hne₀
    rw [hf.size]
    omega

/-- Following the links from a node that was reached leads to the root, one step nearer each time. -/
theorem Linked.trail {via : Table Text (Option Text)} (h : Linked next root via) :
    ∀ (fuel k : Nat) (v : Text), k ≤ fuel → Apart next k root v → via.has v = true →
      (Graph.trail via fuel v).length = k ∧
        (v :: Graph.trail via fuel v).IsChain (fun x y => x ∈ next y) ∧
        (v :: Graph.trail via fuel v).getLast? = some root := by
  intro fuel
  induction fuel with
  | zero =>
    intro k v hk hv _
    have hzero : k = 0 := by omega
    subst hzero
    cases hv.1
    exact ⟨rfl, .singleton _, rfl⟩
  | succ fuel ih =>
    intro k v hk hv hhas
    rcases Option.isSome_iff_exists.1 hhas with ⟨o, ho⟩
    cases o with
    | none =>
      have hroot := h.ended v ho
      subst hroot
      have hzero : k = 0 := Nat.le_zero.1 (hv.le .here)
      have htrail : Graph.trail via (fuel + 1) v = [] := by simp [Graph.trail, ho]
      rw [htrail]
      exact ⟨hzero.symm, .singleton _, rfl⟩
    | some u =>
      rcases h.parent v u ho with ⟨hvu, hu, i, hi, hi'⟩
      have hk' : k = i + 1 := hv.unique hi'
      have htrail : Graph.trail via (fuel + 1) v = u :: Graph.trail via fuel u := by
        simp [Graph.trail, ho]
      rcases ih i u (by omega) hi hu with ⟨hlength, hchain, hlast⟩
      rw [htrail]
      refine ⟨by rw [List.length_cons, hlength, hk'], .cons_cons hvu hchain, ?_⟩
      rw [List.getLast?_cons_cons, hlast]

/-! ## Both searches -/

/-- The searches from two nodes have met in a third one, and no path is shorter than the one through
it. -/
structure Met (next prev : Text → List Text) (source target : Text) (front back : Front) (v : Text) :
    Prop where
  linkedFront : Linked next source front.via
  linkedBack : Linked prev target back.via
  inFront : front.via.has v = true
  inBack : back.via.has v = true
  least : ∃ i j, Apart next i source v ∧ Apart prev j target v ∧ i ≤ front.via.length ∧
    j ≤ back.via.length ∧ ∀ n, Leads next n source target → i + j ≤ n

theorem Met.symm {source target v : Text} {front back : Front} (hconv : Converse next prev)
    (h : Met next prev source target front back v) : Met prev next target source back front v := by
  rcases h.least with ⟨i, j, hi, hj, hfront, hback, hleast⟩
  refine ⟨h.linkedBack, h.linkedFront, h.inBack, h.inFront, j, i, hj, hi, hback, hfront, ?_⟩
  intro n hlead
  have hle := hleast n (hlead.reverse hconv.symm)
  omega

section Search

variable {source target v : Text} {i j : Nat} {front back f : Front}

/-- As long as no node was reached from both ends, the ends are further apart than both searches have
come. -/
theorem lt_of_leads (hconv : Converse next prev) (hfront : front.Reaches next source i)
    (hback : back.Reaches prev target j)
    (hapart : ∀ v, front.via.has v = true → back.via.has v = false) {n : Nat}
    (h : Leads next n source target) : i + j < n := by
  refine Nat.lt_of_not_le fun hle => ?_
  -- A path that is so short has a node within reach of both ends.
  have hsplit : Leads next (min i n + (n - min i n)) source target := by
    rwa [Nat.add_sub_cancel' (Nat.min_le_right i n)]
  rcases hsplit.split with ⟨v, hsv, hvt⟩
  rcases hsv.exists_apart with ⟨k, hk, hapart₁⟩
  rcases (hvt.reverse hconv).exists_apart with ⟨l, hl, hapart₂⟩
  have hin := (hfront.reached v).2 ⟨k, by omega, hapart₁⟩
  have hout := (hback.reached v).2 ⟨l, by omega, hapart₂⟩
  rw [hapart v hin] at hout
  cases hout

/-- The search from one end meets the other one. -/
theorem met_of_advance (hconv : Converse next prev) (hfront : front.Reaches next source i)
    (hback : back.Reaches prev target j)
    (hapart : ∀ v, front.via.has v = true → back.via.has v = false)
    (h : Front.advance back.via ⟨[], front.via⟩ (steps next front.level) = (f, some v)) :
    Met next prev source target f back v := by
  rcases Front.advance_eq_some h with ⟨hmet, taken, htaken, rfl, hv⟩
  have hpasses := Front.passes_foldl hfront htaken
  have hnew : front.via.has v = false :=
    Bool.eq_false_iff.2 fun hold => by
      rw [hapart v hold] at hmet
      cases hmet
  have hlevel := (hpasses.level v).2 ⟨hnew, hv⟩
  -- The node is one step beyond the last level, and at the far end of the other search.
  rcases List.mem_map.1 hv with ⟨e, he, rfl⟩
  rcases mem_steps.1 (htaken.subset he) with ⟨hu, hvu⟩
  have hlead : Leads next (i + 1) source e.2 := ((hfront.level e.1).1 hu).1.on hvu
  rcases hlead.exists_apart with ⟨k, hk, hk'⟩
  rcases (hback.reached e.2).1 hmet with ⟨l, hl, hl'⟩
  have hfar := lt_of_leads hconv hfront hback hapart (hk'.1.trans (hl'.1.reverse hconv.symm))
  have hsizeFront : i < front.via.length := hfront.size (List.ne_nil_of_mem hu)
  have hsizeBack : l ≤ back.via.length := by
    by_cases hl0 : l = 0
    · omega
    · have hlj : l = j := by omega
      have hne : back.level ≠ [] := List.ne_nil_of_mem ((hback.level e.2).2 (hlj ▸ hl'))
      have hsize := hback.size hne
      omega
  refine ⟨hpasses.linked, hback.linked, (hpasses.reached e.2).2 (.inr hv), hmet, k, l, hk', hl', ?_,
    hsizeBack, ?_⟩
  · rw [hpasses.size]
    omega
  · intro n hn
    have hlt := lt_of_leads hconv hfront hback hapart hn
    omega

/-- A level that meets no node of the other search leaves the searches apart. -/
theorem apart_of_advance (hfront : front.Reaches next source i)
    (hapart : ∀ v, front.via.has v = true → back.via.has v = false)
    (h : Front.advance back.via ⟨[], front.via⟩ (steps next front.level) = (f, none)) :
    f.Reaches next source (i + 1) ∧ ∀ v, f.via.has v = true → back.via.has v = false := by
  rcases Front.advance_eq_none h with ⟨rfl, hfree⟩
  refine ⟨hfront.advance rfl, ?_⟩
  intro v hv
  rcases ((Front.passes_foldl hfront (List.prefix_refl _)).reached v).1 hv with hold | hnew
  · exact hapart v hold
  · rcases List.mem_map.1 hnew with ⟨e, he, rfl⟩
    exact hfree e he

theorem apart_symm (h : ∀ v, front.via.has v = true → back.via.has v = false) :
    ∀ v, back.via.has v = true → front.via.has v = false := by
  intro v hback
  refine Bool.eq_false_iff.2 fun hfront => ?_
  rw [h v hfront] at hback
  cases hback

end Search

variable {g : Graph} {source target : Text}

theorem mem_successors {a b : Text} : b ∈ g.successors a ↔ (a, b) ∈ g.edges := by
  simp [successors]

theorem mem_predecessors {a b : Text} : a ∈ g.predecessors b ↔ (a, b) ∈ g.edges := by
  simp [predecessors]

theorem converse_successors (g : Graph) : Converse g.successors g.predecessors :=
  fun _ _ => mem_successors.trans mem_predecessors.symm

/-- The run lemma for the search: where it ends, the two searches have met. The induction is on the
fuel; every level keeps the searches apart or ends them. -/
theorem met_of_meet : ∀ (fuel i j : Nat) (front back : Front),
    front.Reaches g.successors source i → back.Reaches g.predecessors target j →
      (∀ v, front.via.has v = true → back.via.has v = false) → ∀ {f b v},
        meet g fuel front back = some (f, b, v) →
          Met g.successors g.predecessors source target f b v := by
  intro fuel
  induction fuel with
  | zero =>
    intro i j front back _ _ _ f b v h
    cases h
  | succ fuel ih =>
    intro i j front back hfront hback hapart f b v h
    rw [meet] at h
    split at h
    · cases h
    · split at h
      · split at h
        · rename_i hadvance
          cases h
          exact met_of_advance (converse_successors g) hfront hback hapart hadvance
        · rename_i hadvance
          rcases apart_of_advance hfront hapart hadvance with ⟨hfront', hapart'⟩
          exact ih (i + 1) j _ _ hfront' hback hapart' h
      · split at h
        · rename_i hadvance
          cases h
          exact (met_of_advance (converse_successors g).symm hback hfront (apart_symm hapart)
            hadvance).symm (converse_successors g).symm
        · rename_i hadvance
          rcases apart_of_advance hback (apart_symm hapart) hadvance with ⟨hback', hapart'⟩
          exact ih i (j + 1) _ _ hfront hback' (apart_symm hapart') h

/-- If there is a path, the searches meet before the fuel runs out. -/
theorem exists_meet {n : Nat} (hpath : Apart g.successors n source target) :
    ∀ (fuel i j : Nat) (front back : Front), n ≤ fuel + (i + j) →
      front.Reaches g.successors source i → back.Reaches g.predecessors target j →
        (∀ v, front.via.has v = true → back.via.has v = false) →
          ∃ met, meet g fuel front back = some met := by
  intro fuel
  induction fuel with
  | zero =>
    intro i j front back hfuel hfront hback hapart
    have hlt := lt_of_leads (converse_successors g) hfront hback hapart hpath.1
    omega
  | succ fuel ih =>
    intro i j front back hfuel hfront hback hapart
    have hlt := lt_of_leads (converse_successors g) hfront hback hapart hpath.1
    -- On the path there is a node at the last level of either search.
    have hlevels : ¬ (front.level = [] ∨ back.level = []) := by
      rintro (hnil | hnil)
      · have hsplit : Apart g.successors (i + (n - i)) source target := by
          rwa [Nat.add_sub_cancel' (by omega)]
        rcases hsplit.between with ⟨v, hv, -⟩
        exact List.ne_nil_of_mem ((hfront.level v).2 hv) hnil
      · have hsplit : Apart g.predecessors (j + (n - j)) target source := by
          rw [Nat.add_sub_cancel' (by omega)]
          exact hpath.reverse (converse_successors g)
        rcases hsplit.between with ⟨v, hv, -⟩
        exact List.ne_nil_of_mem ((hback.level v).2 hv) hnil
    rw [meet, if_neg hlevels]
    split
    · split
      · exact ⟨_, rfl⟩
      · rename_i hadvance
        rcases apart_of_advance hfront hapart hadvance with ⟨hfront', hapart'⟩
        exact ih (i + 1) j _ _ (by omega) hfront' hback hapart'
    · split
      · exact ⟨_, rfl⟩
      · rename_i hadvance
        rcases apart_of_advance hback (apart_symm hapart) hadvance with ⟨hback', hapart'⟩
        exact ih i (j + 1) _ _ (by omega) hfront hback' (apart_symm hapart')

/-! ## The path that is found -/

/-- A path between two nodes: an edge leads from each node to the next one. -/
structure IsPath (g : Graph) (source target : Text) (p : List Text) : Prop where
  first : p.head? = some source
  last : p.getLast? = some target
  edges : p.IsChain fun a b => (a, b) ∈ g.edges

/-- All ends of edges are nodes of the graph. -/
def Closed (g : Graph) : Prop :=
  ∀ e ∈ g.edges, g.labels.has e.1 = true ∧ g.labels.has e.2 = true

theorem start_apart (h : source ≠ target) (v : Text) (hv : (Front.start source).via.has v = true) :
    (Front.start target).via.has v = false := by
  have hsource : v = source := by
    by_cases hne : source = v
    · exact hne.symm
    · simp [Front.start, Table.has, Table.get?, hne] at hv
  have hother : ¬ target = v := fun heq => h (hsource.symm.trans heq.symm)
  simp [Front.start, Table.has, Table.get?, hother]

/-- The path that is found is a path, and none is shorter. -/
theorem isPath_of_shortestPath? {p : List Text} (h : g.shortestPath? source target = some p) :
    g.IsPath source target p ∧ ∀ n, Leads g.successors n source target → p.length ≤ n + 1 := by
  unfold shortestPath? at h
  split at h
  · rename_i hsame
    cases h
    exact ⟨⟨rfl, by simp [hsame], .singleton _⟩, fun n _ => by simp⟩
  · rename_i hne
    rcases Option.map_eq_some_iff.1 h with ⟨⟨f, b, v⟩, hmeet, rfl⟩
    have hmet := met_of_meet _ 0 0 _ _ (Front.reaches_start g.successors source)
      (Front.reaches_start g.predecessors target) (start_apart hne) hmeet
    rcases hmet.least with ⟨i, j, hi, hj, hfront, hback, hleast⟩
    dsimp only
    rcases hmet.linkedFront.trail _ i v hfront hi hmet.inFront with ⟨hlength₁, hchain₁, hlast₁⟩
    rcases hmet.linkedBack.trail _ j v hback hj hmet.inBack with ⟨hlength₂, hchain₂, hlast₂⟩
    -- One trail leads from the common node back to the source, the other one on to the target.
    refine ⟨⟨?_, ?_, ?_⟩, ?_⟩
    · have hreverse : (trail f.via f.via.length v).reverse ++ v :: trail b.via b.via.length v =
          (v :: trail f.via f.via.length v).reverse ++ trail b.via b.via.length v := by simp
      rw [hreverse, List.head?_append, List.head?_reverse, hlast₁]
      rfl
    · rw [List.getLast?_append, hlast₂]
      rfl
    · refine List.isChain_split.2 ⟨?_, ?_⟩
      · have hreverse : (trail f.via f.via.length v).reverse ++ [v] =
            (v :: trail f.via f.via.length v).reverse := by simp
        rw [hreverse, List.isChain_reverse]
        exact hchain₁.imp fun _ _ h => mem_successors.1 h
      · exact hchain₂.imp fun _ _ h => mem_predecessors.1 h
    · intro n hn
      have hle := hleast n hn
      simp only [List.length_append, List.length_reverse, List.length_cons]
      omega

/-- The nodes of a path are nodes of the graph, so there are at least as many of these as the distance
of two nodes. -/
theorem le_length_labels {n : Nat} (hclosed : g.Closed) (h : Apart g.successors n source target) :
    n ≤ g.labels.length := by
  have hnodes : ∀ i ∈ List.range n, ∃ v, Apart g.successors (i + 1) source v := by
    intro i hi
    have hlt := List.mem_range.1 hi
    have hsplit : Apart g.successors (i + 1 + (n - (i + 1))) source target := by
      rwa [Nat.add_sub_cancel' (by omega)]
    rcases hsplit.between with ⟨v, hv, -⟩
    exact ⟨v, hv⟩
  choose node hnode using hnodes
  let nodes := (List.range n).attach.map fun i => node i.1 i.2
  have hnodup : nodes.Nodup := by
    refine List.Nodup.map_on ?_ (List.nodup_attach.2 List.nodup_range)
    intro i _ k _ hsame
    have hi := hnode i.1 i.2
    have hk := hnode k.1 k.2
    rw [hsame] at hi
    exact Subtype.ext (Nat.succ.inj (hi.unique hk))
  have hsubset : nodes ⊆ g.labels.map (·.1) := by
    intro v hv
    rcases List.mem_map.1 hv with ⟨i, -, rfl⟩
    rcases (hnode i.1 i.2).before with ⟨u, -, hedge⟩
    rcases Option.isSome_iff_exists.1 (hclosed _ (mem_successors.1 hedge)).2 with ⟨label, hlabel⟩
    exact List.mem_map.2 ⟨_, Table.mem_of_get? hlabel, rfl⟩
  simpa [nodes] using hnodup.length_le_of_subset hsubset

/-- A path is found if there is one. -/
theorem exists_shortestPath? {n : Nat} (hclosed : g.Closed)
    (h : Leads g.successors n source target) : ∃ p, g.shortestPath? source target = some p := by
  unfold shortestPath?
  split
  · exact ⟨_, rfl⟩
  · rename_i hne
    rcases h.exists_apart with ⟨k, -, hapart⟩
    have hfuel := le_length_labels hclosed hapart
    rcases exists_meet hapart (2 * g.labels.length + 2) 0 0 _ _ (by omega)
      (Front.reaches_start g.successors source) (Front.reaches_start g.predecessors target)
      (start_apart hne) with ⟨met, hmet⟩
    rw [hmet]
    exact ⟨_, rfl⟩

end Graph

end AffectedTests
