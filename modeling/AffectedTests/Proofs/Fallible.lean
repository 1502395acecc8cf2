/-!
# Computations that may fail

What a computation that succeeded has gone through: the steps of a sequence succeeded, and every result
of a list of computations comes from one of them.
-/

namespace AffectedTests

namespace Fallible

variable {ε α β : Type}

theorem bind_eq_ok {x : Except ε α} {f : α → Except ε β} {b : β} :
    x >>= f = .ok b ↔ ∃ a, x = .ok a ∧ f a = .ok b := by
  cases x with
  | error e => simp [bind, Except.bind]
  | ok a => simp [bind, Except.bind]

/-- Two steps give a result if the first one does and the second one does after it. -/
theorem exists_bind_iff {x : Except ε α} {f : α → Except ε β} {P : Prop}
    (h : ∀ a, x = .ok a → ((∃ b, f a = .ok b) ↔ P)) :
    (∃ b, x >>= f = .ok b) ↔ (∃ a, x = .ok a) ∧ P := by
  simp only [bind_eq_ok]
  constructor
  · rintro ⟨b, a, ha, hb⟩
    exact ⟨⟨a, ha⟩, (h a ha).1 ⟨b, hb⟩⟩
  · rintro ⟨⟨a, ha⟩, hp⟩
    rcases (h a ha).2 hp with ⟨b, hb⟩
    exact ⟨b, a, ha, hb⟩

theorem toOption_eq_some {x : Except ε α} {a : α} : x.toOption = some a ↔ x = .ok a := by
  cases x <;> simp [Except.toOption]

theorem map_eq_ok {x : Except ε α} {f : α → β} {b : β} :
    x.map f = .ok b ↔ ∃ a, x = .ok a ∧ f a = b := by
  cases x with
  | error e => simp [Except.map]
  | ok a => simp [Except.map]

/-- A list of computations succeeds when each of them does. -/
theorem mapM_cons_eq_ok {f : α → Except ε β} {x : α} {xs : List α} {ys : List β} :
    (x :: xs).mapM f = .ok ys ↔ ∃ b bs, f x = .ok b ∧ xs.mapM f = .ok bs ∧ ys = b :: bs := by
  rw [List.mapM_cons]
  constructor
  · intro h
    rcases bind_eq_ok.1 h with ⟨b, hb, h⟩
    rcases bind_eq_ok.1 h with ⟨bs, hbs, h⟩
    exact ⟨b, bs, hb, hbs, (Except.ok.inj h).symm⟩
  · rintro ⟨b, bs, hb, hbs, rfl⟩
    exact bind_eq_ok.2 ⟨b, hb, bind_eq_ok.2 ⟨bs, hbs, rfl⟩⟩

/-- A list of checks is passed when each of them is. -/
theorem forM_eq_ok {f : α → Except ε Unit} {xs : List α} :
    xs.forM f = .ok () ↔ ∀ x ∈ xs, f x = .ok () := by
  induction xs with
  | nil => simp [pure, Except.pure]
  | cons x xs ih =>
    have hcons : (x :: xs).forM f = (f x >>= fun _ => xs.forM f) := rfl
    rw [hcons, bind_eq_ok, List.forall_mem_cons, ih]
    constructor
    · rintro ⟨⟨⟩, hx, hxs⟩
      exact ⟨hx, hxs⟩
    · rintro ⟨hx, hxs⟩
      exact ⟨(), hx, hxs⟩

theorem mem_of_mapM_eq_ok {f : α → Except ε β} {xs : List α} {ys : List β}
    (h : xs.mapM f = .ok ys) {y : β} (hy : y ∈ ys) : ∃ x ∈ xs, f x = .ok y := by
  induction xs generalizing ys with
  | nil =>
    have hnil : ys = [] := (Except.ok.inj h).symm
    rw [hnil] at hy
    cases hy
  | cons x xs ih =>
    -- A list that succeeds is a first result and the results of a list that succeeds.
    rcases mapM_cons_eq_ok.1 h with ⟨b, bs, hb, hbs, rfl⟩
    rcases List.mem_cons.1 hy with rfl | hy
    · exact ⟨x, by simp, hb⟩
    · rcases ih hbs hy with ⟨x', hx', hf⟩
      exact ⟨x', by simp [hx'], hf⟩

theorem exists_of_mapM_eq_ok {f : α → Except ε β} {xs : List α} {ys : List β}
    (h : xs.mapM f = .ok ys) {x : α} (hx : x ∈ xs) : ∃ y ∈ ys, f x = .ok y := by
  induction xs generalizing ys with
  | nil => cases hx
  | cons x' xs ih =>
    rcases mapM_cons_eq_ok.1 h with ⟨b, bs, hb, hbs, rfl⟩
    rcases List.mem_cons.1 hx with rfl | hx
    · exact ⟨b, by simp, hb⟩
    · rcases ih hbs hx with ⟨y, hy, hf⟩
      exact ⟨y, by simp [hy], hf⟩

/-- What a list of computations gives, taken together. -/
theorem mem_flatten_of_mapM {f : α → Except ε (List β)} {xs : List α} {yss : List (List β)}
    (h : xs.mapM f = .ok yss) {y : β} :
    y ∈ yss.flatten ↔ ∃ x ∈ xs, ∃ ys, f x = .ok ys ∧ y ∈ ys := by
  rw [List.mem_flatten]
  constructor
  · rintro ⟨ys, hys, hy⟩
    rcases mem_of_mapM_eq_ok h hys with ⟨x, hx, hf⟩
    exact ⟨x, hx, ys, hf, hy⟩
  · rintro ⟨x, hx, ys, hf, hy⟩
    rcases exists_of_mapM_eq_ok h hx with ⟨ys', hys', hf'⟩
    cases hf.symm.trans hf'
    exact ⟨ys, hys', hy⟩

/-- If each computation of a list succeeds, so do all together. -/
theorem mapM_eq_ok_of_forall {f : α → Except ε β} {xs : List α}
    (h : ∀ x ∈ xs, ∃ y, f x = .ok y) : ∃ ys, xs.mapM f = .ok ys := by
  induction xs with
  | nil => exact ⟨[], rfl⟩
  | cons x xs ih =>
    rcases h x (by simp) with ⟨y, hy⟩
    rcases ih (fun x' hx' => h x' (by simp [hx'])) with ⟨ys, hys⟩
    exact ⟨y :: ys, mapM_cons_eq_ok.2 ⟨y, ys, hy, hys, rfl⟩⟩

theorem exists_mapM_eq_ok_iff {f : α → Except ε β} {xs : List α} :
    (∃ ys, xs.mapM f = .ok ys) ↔ ∀ x ∈ xs, ∃ y, f x = .ok y := by
  refine ⟨?_, mapM_eq_ok_of_forall⟩
  rintro ⟨ys, hys⟩ x hx
  rcases exists_of_mapM_eq_ok hys hx with ⟨y, -, hy⟩
  exact ⟨y, hy⟩

/-- A list of computations gives the same as another one that succeeds, if each of them does. -/
theorem mapM_eq_ok_of_refines {f g : α → Except ε β} {xs : List α} {ys : List β}
    (h : ∀ x ∈ xs, ∀ y, f x = .ok y → g x = .ok y) (hf : xs.mapM f = .ok ys) :
    xs.mapM g = .ok ys := by
  induction xs generalizing ys with
  | nil => exact hf
  | cons x xs ih =>
    rcases mapM_cons_eq_ok.1 hf with ⟨b, bs, hb, hbs, rfl⟩
    exact mapM_cons_eq_ok.2
      ⟨b, bs, h x (by simp) b hb, ih (fun x' hx' => h x' (by simp [hx'])) hbs, rfl⟩

/-- Where a member of what a list of computations gives comes from, and what stands before it. -/
theorem exists_of_mapM_of_map_flatten {γ : Type} {f : α → Except ε (List β)} {g : β → γ} {xs : List α}
    {found : List (List β)} (h : xs.mapM f = .ok found) {before after : List γ} {r : γ}
    (hsplit : found.flatten.map g = before ++ r :: after) :
    ∃ earlier x later ys y, xs = earlier ++ x :: later ∧ f x = .ok ys ∧ y ∈ ys ∧ g y = r ∧
      ∀ x' ∈ earlier, ∀ ys', f x' = .ok ys' → ∀ y' ∈ ys', g y' ∈ before := by
  induction xs generalizing found before with
  | nil =>
    cases (Except.ok.inj h)
    simp at hsplit
  | cons x xs ih =>
    rcases mapM_cons_eq_ok.1 h with ⟨ys, rest, hys, hrest, rfl⟩
    rw [List.flatten_cons, List.map_append] at hsplit
    have hcases : (∃ more, before = ys.map g ++ more ∧ rest.flatten.map g = more ++ r :: after) ∨
        r ∈ ys.map g := by
      rcases List.append_eq_append_iff.1 hsplit with hlater | ⟨more, hmore, htail⟩
      · exact .inl hlater
      · cases more with
        | nil => exact .inl ⟨[], by simpa using hmore.symm, htail.symm⟩
        | cons first more =>
          cases htail
          exact .inr (by simp [hmore])
    rcases hcases with ⟨more, rfl, hmore⟩ | hmem
    · rcases ih hrest hmore with ⟨earlier, x', later, ys', y, rfl, hx', hy, hgy, hearlier⟩
      refine ⟨x :: earlier, x', later, ys', y, rfl, hx', hy, hgy, ?_⟩
      intro x'' hx'' ys'' hys'' y'' hy''
      rcases List.mem_cons.1 hx'' with rfl | hx''
      · rw [hys] at hys''
        cases hys''
        exact List.mem_append_left _ (List.mem_map.2 ⟨y'', hy'', rfl⟩)
      · exact List.mem_append_right _ (hearlier x'' hx'' ys'' hys'' y'' hy'')
    · rcases List.mem_map.1 hmem with ⟨y, hy, hgy⟩
      exact ⟨[], x, xs, ys, y, rfl, hys, hy, hgy, by simp⟩

/-- Where each value has a place of its own, the results that are there can be listed with the places of
the values they were made from. -/
theorem exists_listed_of_mapM {ι : Type} {f : α → Except ε (Option β)}
    {node : ι → Option α} {xs : List α} {places : List ι} {ys : List (Option β)}
    (h : xs.mapM f = .ok ys) (hnode : places.map node = xs.map some) :
    ∃ listed : List (ι × β), ys.filterMap id = listed.map Prod.snd ∧
      (listed.map Prod.fst).Sublist places ∧
      ∀ place y, (place, y) ∈ listed ↔ place ∈ places ∧ ∃ x, node place = some x ∧ f x = .ok (some y) := by
  induction xs generalizing places ys with
  | nil =>
    cases Except.ok.inj h
    rw [List.map_nil, List.map_eq_nil_iff] at hnode
    subst hnode
    exact ⟨[], rfl, List.Sublist.refl [], by simp⟩
  | cons x xs ih =>
    rcases mapM_cons_eq_ok.1 h with ⟨o, os, ho, hos, rfl⟩
    rcases List.map_eq_cons_iff.1 hnode with ⟨place, places, rfl, hplace, hrest⟩
    rcases ih hos hrest with ⟨listed, hlisted, hsub, hmem⟩
    -- At the first place is one value, so what is made there is what the first step gave.
    have hfirst : ∀ y, (∃ x', node place = some x' ∧ f x' = .ok (some y)) ↔ o = some y := by
      intro y
      constructor
      · rintro ⟨x', hx', hy⟩
        cases hplace.symm.trans hx'
        exact Except.ok.inj (ho.symm.trans hy)
      · rintro rfl
        exact ⟨x, hplace, ho⟩
    cases o with
    | none =>
      refine ⟨listed, hlisted, hsub.cons place, fun place' y => ?_⟩
      rw [hmem, List.mem_cons]
      refine ⟨fun ⟨hin, hy⟩ => ⟨.inr hin, hy⟩, ?_⟩
      rintro ⟨rfl | hin, hy⟩
      · cases (hfirst y).1 hy
      · exact ⟨hin, hy⟩
    | some b =>
      refine ⟨(place, b) :: listed, congrArg (b :: ·) hlisted, hsub.cons_cons place, fun place' y => ?_⟩
      rw [List.mem_cons, hmem, List.mem_cons, Prod.mk.injEq]
      constructor
      · rintro (⟨rfl, rfl⟩ | ⟨hin, hy⟩)
        · exact ⟨.inl rfl, (hfirst y).2 rfl⟩
        · exact ⟨.inr hin, hy⟩
      · rintro ⟨rfl | hin, hy⟩
        · exact .inl ⟨rfl, (Option.some.inj ((hfirst y).1 hy)).symm⟩
        · exact .inr ⟨hin, hy⟩

theorem findSomeM?_eq_ok_some {f : α → Except ε (Option β)} {xs : List α} {b : β}
    (h : xs.findSomeM? f = .ok (some b)) : ∃ x ∈ xs, f x = .ok (some b) := by
  induction xs with
  | nil => cases h
  | cons x xs ih =>
    rw [List.findSomeM?_cons] at h
    rcases bind_eq_ok.1 h with ⟨found, hx, h⟩
    cases found with
    | some b' =>
      have hb : some b' = some b := Except.ok.inj h
      exact ⟨x, by simp, hb ▸ hx⟩
    | none =>
      rcases ih h with ⟨x', hx', hf⟩
      exact ⟨x', by simp [hx'], hf⟩

/-- A search finds nothing if none of its steps does. -/
theorem findSomeM?_eq_ok_none_iff {f : α → Except ε (Option β)} {xs : List α} :
    xs.findSomeM? f = .ok none ↔ ∀ x ∈ xs, f x = .ok none := by
  induction xs with
  | nil => simp [pure, Except.pure]
  | cons x xs ih =>
    rw [List.findSomeM?_cons, bind_eq_ok, List.forall_mem_cons, ← ih]
    constructor
    · rintro ⟨found, hx, h⟩
      cases found with
      | some b => cases h
      | none => exact ⟨hx, h⟩
    · rintro ⟨hx, h⟩
      exact ⟨none, hx, h⟩

/-- A search stops at the first step that finds something. -/
theorem exists_append_of_findSomeM? {f : α → Except ε (Option β)} {xs : List α} {b : β}
    (h : xs.findSomeM? f = .ok (some b)) :
    ∃ before x after, xs = before ++ x :: after ∧ (∀ y ∈ before, f y = .ok none) ∧
      f x = .ok (some b) := by
  induction xs with
  | nil => cases h
  | cons x xs ih =>
    rw [List.findSomeM?_cons] at h
    rcases bind_eq_ok.1 h with ⟨found, hx, h⟩
    cases found with
    | some b' =>
      have hb : some b' = some b := Except.ok.inj h
      exact ⟨[], x, xs, rfl, by simp, hb ▸ hx⟩
    | none =>
      rcases ih h with ⟨before, x', after, rfl, hbefore, hx'⟩
      exact ⟨x :: before, x', after, rfl, List.forall_mem_cons.2 ⟨hx, hbefore⟩, hx'⟩

/-- A search answers if each of its steps does. -/
theorem findSomeM?_eq_ok_of_forall {f : α → Except ε (Option β)} {xs : List α}
    (h : ∀ x ∈ xs, ∃ o, f x = .ok o) : ∃ o, xs.findSomeM? f = .ok o := by
  induction xs with
  | nil => exact ⟨none, rfl⟩
  | cons x xs ih =>
    rcases h x (by simp) with ⟨found, hx⟩
    rw [List.findSomeM?_cons, hx]
    cases found with
    | some b => exact ⟨some b, rfl⟩
    | none => exact ih fun x' hx' => h x' (by simp [hx'])

/-- Of some checks one is passed. -/
theorem eq_true_iff_of_anyM {p : α → Except ε Bool} {xs : List α} {b : Bool}
    (h : xs.anyM p = .ok b) : b = true ↔ ∃ x ∈ xs, p x = .ok true := by
  induction xs with
  | nil =>
    cases h
    simp
  | cons x xs ih =>
    rcases bind_eq_ok.1 h with ⟨found, hx, h⟩
    cases found with
    | true =>
      cases h
      exact iff_of_true rfl ⟨x, by simp, hx⟩
    | false =>
      simp only [ih h, List.mem_cons, exists_eq_or_imp, hx, Except.ok.injEq, Bool.false_eq_true,
        false_or]

theorem mem_filterAuxM_iff {p : α → Except ε Bool} {xs kept ys : List α}
    (h : xs.filterAuxM p kept = .ok ys) {y : α} : y ∈ ys ↔ (y ∈ xs ∧ p y = .ok true) ∨ y ∈ kept := by
  induction xs generalizing kept with
  | nil =>
    have hk : kept = ys := Except.ok.inj h
    simp [hk]
  | cons x xs ih =>
    rcases bind_eq_ok.1 h with ⟨b, hb, h⟩
    rw [ih h, List.mem_cons]
    -- The first element has been put aside exactly if it passes.
    cases b with
    | true =>
      rw [cond_true, List.mem_cons]
      constructor
      · rintro (⟨hy, hp⟩ | rfl | hy)
        · exact .inl ⟨.inr hy, hp⟩
        · exact .inl ⟨.inl rfl, hb⟩
        · exact .inr hy
      · rintro (⟨rfl | hy, hp⟩ | hy)
        · exact .inr (.inl rfl)
        · exact .inl ⟨hy, hp⟩
        · exact .inr (.inr hy)
    | false =>
      rw [cond_false]
      constructor
      · rintro (⟨hy, hp⟩ | hy)
        · exact .inl ⟨.inr hy, hp⟩
        · exact .inr hy
      · rintro (⟨rfl | hy, hp⟩ | hy)
        · cases hb.symm.trans hp
        · exact .inl ⟨hy, hp⟩
        · exact .inr hy

/-- A filter keeps what passes. -/
theorem mem_filterM_iff {p : α → Except ε Bool} {xs ys : List α} (h : xs.filterM p = .ok ys) {y : α} :
    y ∈ ys ↔ y ∈ xs ∧ p y = .ok true := by
  rcases bind_eq_ok.1 h with ⟨kept, hk, h⟩
  have hr : kept.reverse = ys := Except.ok.inj h
  rw [← hr, List.mem_reverse, mem_filterAuxM_iff hk]
  simp

/-- What every step of a fold keeps holds at its end. -/
theorem foldlM_keeps {f : β → α → Except ε β} {P : β → Prop} {xs : List α} {b b' : β}
    (hstep : ∀ x ∈ xs, ∀ c c', P c → f c x = .ok c' → P c')
    (hb : P b) (h : xs.foldlM f b = .ok b') : P b' := by
  induction xs generalizing b with
  | nil => exact Except.ok.inj h ▸ hb
  | cons x xs ih =>
    -- The step is given for members of the list only, so the hypothesis is cut down with it.
    rw [List.foldlM_cons] at h
    rcases bind_eq_ok.1 h with ⟨c, hc, h⟩
    exact ih (fun x' hx' => hstep x' (by simp [hx'])) (hstep x (by simp) b c hb hc) h

/-- A fold answers if each of its steps does. -/
theorem foldlM_eq_ok_of_forall {f : β → α → Except ε β} {xs : List α}
    (h : ∀ x ∈ xs, ∀ b, ∃ b', f b x = .ok b') (b : β) : ∃ b', xs.foldlM f b = .ok b' := by
  induction xs generalizing b with
  | nil => exact ⟨b, rfl⟩
  | cons x xs ih =>
    rcases h x (by simp) b with ⟨c, hc⟩
    rcases ih (fun x' hx' => h x' (by simp [hx'])) c with ⟨b', hb'⟩
    rw [List.foldlM_cons]
    exact ⟨b', bind_eq_ok.2 ⟨c, hc, hb'⟩⟩

/-- A fold whose steps do not care for what was found before answers if each of its steps does. -/
theorem exists_foldlM_iff {f : β → α → Except ε β} {P : α → Prop}
    (h : ∀ x b, (∃ b', f b x = .ok b') ↔ P x) {xs : List α} {b : β} :
    (∃ b', xs.foldlM f b = .ok b') ↔ ∀ x ∈ xs, P x := by
  induction xs generalizing b with
  | nil => exact iff_of_true ⟨b, rfl⟩ (by simp)
  | cons x xs ih =>
    rw [List.foldlM_cons, exists_bind_iff fun c _ => ih, h, List.forall_mem_cons]

/-- Whether some check is passed can be told if each check can. -/
theorem anyM_eq_ok_of_forall {p : α → Except ε Bool} {xs : List α} (h : ∀ x ∈ xs, ∃ b, p x = .ok b) :
    ∃ b, xs.anyM p = .ok b := by
  induction xs with
  | nil => exact ⟨false, rfl⟩
  | cons x xs ih =>
    rcases h x (by simp) with ⟨b, hb⟩
    cases b with
    | true => exact ⟨true, bind_eq_ok.2 ⟨true, hb, rfl⟩⟩
    | false =>
      rcases ih (fun x' hx' => h x' (by simp [hx'])) with ⟨b', hb'⟩
      exact ⟨b', bind_eq_ok.2 ⟨false, hb, hb'⟩⟩

end Fallible

end AffectedTests
