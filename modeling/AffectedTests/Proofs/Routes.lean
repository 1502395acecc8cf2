import AffectedTests.Proofs.Fallible
import AffectedTests.Proofs.Names
/-!
# There and back

A resolved path consists of names that lead down and that a disk can keep, so resolving it again changes
nothing. The way from one resolved path to another one, read from the first, leads to the second; and a
path below the root, once it is resolved, is shown from the root as it was written.

- `Path.resolve_resolve`: resolved paths stay as they are.
- `Path.resolve_join_relativeTo`, `Path.relativeTo_place_join`: there and back.
-/

namespace AffectedTests

/-- A text that is put together from two lists of pieces. -/
theorem Text.join_append {sep : Text} {pieces pieces' : List Text} (hne : pieces ≠ [])
    (hne' : pieces' ≠ []) : join sep (pieces ++ pieces') = join sep pieces ++ sep ++ join sep pieces' := by
  induction pieces with
  | nil => exact absurd rfl hne
  | cons piece rest ih =>
    cases rest with
    | nil =>
      cases pieces' with
      | nil => exact absurd rfl hne'
      | cons piece' rest' => simp [join, List.intercalate_cons_cons]
    | cons next rest =>
      have hrest := ih (by simp)
      simp only [join, List.cons_append, List.intercalate_cons_cons] at hrest ⊢
      simp [hrest]

namespace Path

variable {p q root t base name : Text} {parts stack : List Text} {rooted : Bool}

/-! ## Resolved paths -/

theorem splitOn_cons (p : Text) :
    Text.splitOn separator (separator :: p) = [] :: Text.splitOn separator p :=
  Text.splitOn_append [] p

theorem enter_nil (rooted : Bool) (stack : List Text) : enter rooted stack [] = stack := by
  simp [enter]

theorem foldl_enter_join_names (h : ∀ name ∈ parts, Plain name) :
    ((Text.join [separator] parts).splitOn separator).foldl (enter rooted) stack =
      parts.reverse ++ stack := by
  cases parts with
  | nil => exact enter_nil rooted stack
  | cons name rest =>
    rw [Text.splitOn_join (by simp) fun n hn => (h n hn).separator, foldl_enter h]

theorem names_ofNames (h : ∀ name ∈ parts, Plain name) : names (ofNames parts) = parts := by
  unfold names ofNames
  rw [splitOn_cons, List.foldl_cons, enter_nil, foldl_enter_join_names h, List.append_nil,
    List.reverse_reverse]

theorem isAbsolute_ofNames (parts : List Text) : isAbsolute (ofNames parts) = true := by
  simp [isAbsolute, ofNames]

/-- One more separator in front of an absolute path changes no name. -/
theorem names_cons (h : isAbsolute p = true) : names (separator :: p) = names p := by
  have hrooted : isAbsolute (separator :: p) = true := by simp [isAbsolute]
  unfold names
  rw [splitOn_cons, List.foldl_cons, enter_nil, hrooted, h]

/-- Below a root, only a name that leads down joins the others. -/
theorem mem_enter {piece : Text} (hstack : ∀ n ∈ stack, n ≠ above) (h : name ∈ enter true stack piece) :
    name ∈ stack ∨ (name = piece ∧ piece ≠ [] ∧ piece ≠ here ∧ piece ≠ above) := by
  unfold enter at h
  split at h
  · exact .inl h
  · rename_i hnowhere
    split at h
    · -- There is nothing above the root, and no name of the stack leads up.
      cases stack with
      | nil => cases h
      | cons top below =>
        dsimp only at h
        rw [if_neg (hstack top (by simp))] at h
        exact .inl (List.mem_cons_of_mem _ h)
    · rename_i hup
      rcases List.mem_cons.1 h with rfl | h
      · exact .inr ⟨rfl, fun h => hnowhere (.inl h), fun h => hnowhere (.inr h), hup⟩
      · exact .inl h

theorem plain_of_mem_foldl_enter {pieces : List Text} (hpieces : ∀ n ∈ pieces, separator ∉ n)
    (hstack : ∀ n ∈ stack, Plain n) :
    ∀ n ∈ pieces.foldl (enter true) stack, Plain n ∧ (n ∈ stack ∨ n ∈ pieces) := by
  induction pieces generalizing stack with
  | nil => exact fun n hn => ⟨hstack n hn, .inl hn⟩
  | cons piece pieces ih =>
    rcases List.forall_mem_cons.1 hpieces with ⟨hpiece, hpieces⟩
    have henter : ∀ n ∈ enter true stack piece, Plain n ∧ (n ∈ stack ∨ n = piece) := by
      intro n hn
      rcases mem_enter (fun n hn => (hstack n hn).ne_above) hn with hn | ⟨rfl, hne, hhere, habove⟩
      · exact ⟨hstack n hn, .inl hn⟩
      · exact ⟨⟨hpiece, hne, hhere, habove⟩, .inr rfl⟩
    intro n hn
    rcases ih hpieces (fun n hn => (henter n hn).1) n hn with ⟨hplain, hn | hn⟩
    · refine ⟨hplain, (henter n hn).2.imp_right ?_⟩
      rintro rfl
      exact List.mem_cons_self
    · exact ⟨hplain, .inr (List.mem_cons_of_mem _ hn)⟩

/-- The names of an absolute path are pieces of it and lead down. -/
theorem plain_of_mem_names (h : isAbsolute p = true) (hname : name ∈ names p) :
    Plain name ∧ name ∈ p.splitOn separator := by
  unfold names at hname
  rw [h] at hname
  have hpieces : ∀ n ∈ p.splitOn separator, separator ∉ n := fun n hn => Text.not_mem_of_mem_splitOn hn
  rcases plain_of_mem_foldl_enter hpieces (by simp) name (List.mem_reverse.1 hname) with
    ⟨hplain, hnone | hpiece⟩
  · cases hnone
  · exact ⟨hplain, hpiece⟩

/-- The names of a path that leads down are checked. -/
theorem checkNames_eq_ok :
    checkNames p = .ok () ↔ ∀ name ∈ p.splitOn separator, name = [] ∨ name = here ∨ name = above ∨
      ∃ bytes, storedName name = .ok bytes := by
  unfold checkNames
  rw [Fallible.forM_eq_ok]
  refine forall_congr' fun name => imp_congr_right fun _ => ?_
  by_cases hdown : name = [] ∨ name = here ∨ name = above
  · rw [if_pos hdown]
    rcases hdown with h | h | h <;> simp [h]
  · rw [if_neg hdown, Fallible.map_eq_ok]
    simp only [not_or] at hdown
    simp [hdown]

/-- A path whose names are checked leads to what its names lead to. -/
theorem resolve_eq_ok :
    resolve p = .ok q ↔ checkNames p = .ok () ∧ q = ofNames (names (separator :: p)) := by
  unfold resolve
  cases checkNames p with
  | error fault => simp [Except.map]
  | ok u => simp [Except.map, eq_comm]

/-- A resolved path consists of names that lead down and that a disk can keep. -/
theorem exists_ofNames_of_resolve (h : resolve p = .ok q) :
    ∃ parts, q = ofNames parts ∧ ∀ name ∈ parts, Plain name ∧ ∃ bytes, storedName name = .ok bytes := by
  rcases resolve_eq_ok.1 h with ⟨hcheck, rfl⟩
  refine ⟨names (separator :: p), rfl, ?_⟩
  intro name hname
  rcases plain_of_mem_names (by simp [isAbsolute]) hname with ⟨hplain, hpiece⟩
  rw [splitOn_cons] at hpiece
  rcases List.mem_cons.1 hpiece with hnil | hpiece
  · exact absurd hnil hplain.ne_nil
  · rcases checkNames_eq_ok.1 hcheck name hpiece with h | h | h | h
    · exact absurd h hplain.ne_nil
    · exact absurd h hplain.ne_here
    · exact absurd h hplain.ne_above
    · exact ⟨hplain, h⟩

theorem isAbsolute_of_resolve (h : resolve p = .ok q) : isAbsolute q = true := by
  rcases exists_ofNames_of_resolve h with ⟨parts, rfl, -⟩
  exact isAbsolute_ofNames parts

/-- What a path of such names is cut into. -/
theorem mem_splitOn_ofNames (h : ∀ name ∈ parts, Plain name)
    (hname : name ∈ Text.splitOn separator (ofNames parts)) : name = [] ∨ name ∈ parts := by
  unfold ofNames at hname
  rw [splitOn_cons] at hname
  rcases List.mem_cons.1 hname with hnil | hname
  · exact .inl hnil
  · cases parts with
    | nil => exact .inl (List.mem_singleton.1 hname)
    | cons first rest =>
      rw [Text.splitOn_join (by simp) fun n hn => (h n hn).separator] at hname
      exact .inr hname

/-- A path of names that lead down and that a disk can keep is resolved. -/
theorem resolve_ofNames (h : ∀ name ∈ parts, Plain name ∧ ∃ bytes, storedName name = .ok bytes) :
    resolve (ofNames parts) = .ok (ofNames parts) := by
  have hplain := fun name hname => (h name hname).1
  refine resolve_eq_ok.2 ⟨checkNames_eq_ok.2 ?_, ?_⟩
  · intro name hname
    rcases mem_splitOn_ofNames hplain hname with hnil | hname
    · exact .inl hnil
    · exact .inr (.inr (.inr (h name hname).2))
  · rw [names_cons (isAbsolute_ofNames parts), names_ofNames hplain]

/-- A resolved path stays as it is. -/
theorem resolve_resolve (h : resolve p = .ok q) : resolve q = .ok q := by
  rcases exists_ofNames_of_resolve h with ⟨parts, rfl, hparts⟩
  exact resolve_ofNames hparts

/-! ## Joined paths -/

theorem isAbsolute_join (h : isAbsolute base = true) : isAbsolute (join base t) = true := by
  unfold join
  split
  · assumption
  · have hhead : base.head? = some separator := eq_of_beq h
    rcases List.head?_eq_some_iff.1 hhead with ⟨rest, rfl⟩
    split <;> simp [isAbsolute]

/-- A path that begins with no separator has no empty first name. -/
theorem isAbsolute_eq_false (h : [] ∉ Text.splitOn separator t) : isAbsolute t = false := by
  cases habsolute : isAbsolute t with
  | false => rfl
  | true =>
    have hhead : t.head? = some separator := eq_of_beq habsolute
    rcases List.head?_eq_some_iff.1 hhead with ⟨rest, rfl⟩
    exact absurd (by rw [splitOn_cons]; simp) h

/-- The names of a joined path are those of the base and then those of the path. -/
theorem splitOn_join_path (h : isAbsolute t = false) :
    ∃ pieces, Text.splitOn separator (join base t) = pieces ++ Text.splitOn separator t ∧
      (Text.splitOn separator base = pieces ∨ Text.splitOn separator base = pieces ++ [[]]) := by
  unfold join
  rw [h, if_neg (by simp)]
  split
  · rename_i hbase
    rcases Bool.or_eq_true_iff.1 hbase with hempty | hlast
    · rw [List.isEmpty_iff.1 hempty]
      exact ⟨[], rfl, .inr rfl⟩
    · rcases List.getLast?_eq_some_iff.1 (eq_of_beq hlast) with ⟨front, rfl⟩
      have happend : front ++ [separator] ++ t = front ++ separator :: t := by simp
      rw [happend]
      exact ⟨_, Text.splitOn_append front t, .inr (Text.splitOn_append front [])⟩
  · exact ⟨_, Text.splitOn_append base t, .inl rfl⟩

theorem mem_splitOn_join_path (h : isAbsolute t = false)
    (hname : name ∈ Text.splitOn separator (join base t)) :
    name ∈ Text.splitOn separator base ∨ name ∈ Text.splitOn separator t := by
  rcases splitOn_join_path h with ⟨pieces, hjoin, hbase⟩
  rw [hjoin] at hname
  rcases List.mem_append.1 hname with hname | hname
  · rcases hbase with hbase | hbase <;> simp [hbase, hname]
  · exact .inr hname

theorem foldl_enter_join (h : isAbsolute t = false) :
    (Text.splitOn separator (join base t)).foldl (enter rooted) stack =
      (Text.splitOn separator t).foldl (enter rooted)
        ((Text.splitOn separator base).foldl (enter rooted) stack) := by
  rcases splitOn_join_path h with ⟨pieces, hjoin, hbase⟩
  rw [hjoin, List.foldl_append]
  rcases hbase with hbase | hbase
  · rw [hbase]
  · rw [hbase, List.foldl_append, List.foldl_cons, enter_nil, List.foldl_nil]

/-- The names that a path from a resolved base leads to. -/
theorem names_join (hparts : ∀ name ∈ parts, Plain name) (h : isAbsolute t = false) :
    names (separator :: join (ofNames parts) t) =
      ((Text.splitOn separator t).foldl (enter true) parts.reverse).reverse := by
  have habsolute : isAbsolute (join (ofNames parts) t) = true :=
    isAbsolute_join (isAbsolute_ofNames parts)
  rw [names_cons habsolute]
  unfold names
  rw [habsolute, foldl_enter_join h]
  unfold ofNames
  rw [splitOn_cons, List.foldl_cons, enter_nil, foldl_enter_join_names hparts, List.append_nil]

/-! ## The way from one path to another one -/

theorem exists_shorten (ups downs : List Text) :
    ∃ common up down, ups = common ++ up ∧ downs = common ++ down ∧
      relativeTo.shorten ups downs = relativeTo.steps up down := by
  induction ups generalizing downs with
  | nil => exact ⟨[], [], downs, rfl, rfl, by cases downs <;> rfl⟩
  | cons a ups ih =>
    cases downs with
    | nil => exact ⟨[], a :: ups, [], rfl, rfl, rfl⟩
    | cons b downs =>
      unfold relativeTo.shorten
      by_cases heq : a = b
      · subst heq
        rcases ih downs with ⟨common, up, down, rfl, rfl, hsteps⟩
        exact ⟨a :: common, up, down, rfl, rfl, by rw [if_pos rfl, hsteps]⟩
      · exact ⟨[], a :: ups, b :: downs, rfl, rfl, by rw [if_neg heq]⟩

theorem shorten_append (ups downs : List Text) :
    relativeTo.shorten ups (ups ++ downs) = relativeTo.steps [] downs := by
  induction ups with
  | nil => cases downs <;> rfl
  | cons name ups ih => rw [List.cons_append, relativeTo.shorten, if_pos rfl, ih]

/-- The names of the way up and down; a way that leads nowhere is a single dot. -/
theorem splitOn_steps {up down : List Text} (hdown : ∀ name ∈ down, Plain name) :
    Text.splitOn separator (relativeTo.steps up down) =
      if up.map (fun _ => above) ++ down = [] then [here]
      else up.map (fun _ => above) ++ down := by
  unfold relativeTo.steps
  simp only [List.isEmpty_iff]
  split
  · rfl
  · rename_i hne
    refine Text.splitOn_join hne fun name hname => ?_
    rcases List.mem_append.1 hname with hname | hname
    · rcases List.mem_map.1 hname with ⟨-, -, rfl⟩
      decide
    · exact (hdown name hname).separator

theorem of_mem_splitOn_steps {up down : List Text} (hdown : ∀ name ∈ down, Plain name)
    (hname : name ∈ Text.splitOn separator (relativeTo.steps up down)) :
    name = here ∨ name = above ∨ name ∈ down := by
  rw [splitOn_steps hdown] at hname
  split at hname
  · exact .inl (List.mem_singleton.1 hname)
  · rcases List.mem_append.1 hname with hname | hname
    · rcases List.mem_map.1 hname with ⟨-, -, rfl⟩
      exact .inr (.inl rfl)
    · exact .inr (.inr hname)

theorem isAbsolute_steps {up down : List Text} (hdown : ∀ name ∈ down, Plain name) :
    isAbsolute (relativeTo.steps up down) = false := by
  refine isAbsolute_eq_false fun hnil => ?_
  rcases of_mem_splitOn_steps hdown hnil with h | h | h
  · exact absurd h (by decide)
  · exact absurd h (by decide)
  · exact (hdown [] h).ne_nil rfl

/-- So many steps up leave what is below so many names. -/
theorem foldl_enter_above {up : List Text} (hup : ∀ name ∈ up, Plain name) :
    (up.map fun _ => above).foldl (enter true) (up ++ stack) = stack := by
  induction up with
  | nil => rfl
  | cons name up ih =>
    have henter : enter true (name :: (up ++ stack)) above = up ++ stack := by
      have hne : ¬(above = ([] : Text) ∨ above = here) := by decide
      unfold enter
      rw [if_neg hne, if_pos rfl]
      dsimp only
      rw [if_neg (hup name (by simp)).ne_above]
    rw [List.map_cons, List.cons_append, List.foldl_cons, henter]
    exact ih fun n hn => hup n (by simp [hn])

/-- The way from one list of names to another one, read from the first, leads to the second. -/
theorem names_join_steps {common up down : List Text} (hplain : ∀ name ∈ common ++ up, Plain name)
    (hdown : ∀ name ∈ down, Plain name) :
    names (separator :: join (ofNames (common ++ up)) (relativeTo.steps up down)) = common ++ down := by
  have hup : ∀ name ∈ up.reverse, Plain name := fun name hname =>
    hplain name (by simp [List.mem_reverse.1 hname])
  rw [names_join hplain (isAbsolute_steps hdown), splitOn_steps hdown]
  split
  · rename_i hnone
    rcases List.append_eq_nil_iff.1 hnone with ⟨hmap, rfl⟩
    rw [List.map_eq_nil_iff.1 hmap]
    simp [enter]
  · -- The steps up take the names that are left away, and the names below come in their place.
    have hmap : (up.map fun _ => above) = up.reverse.map fun _ => above := by
      rw [List.map_const', List.map_const', List.length_reverse]
    rw [List.foldl_append, List.reverse_append, hmap, foldl_enter_above hup, foldl_enter hdown]
    simp

/-- The way from one resolved path to another one, read from the first, leads to the second. -/
theorem resolve_join_relativeTo (hroot : resolve root = .ok root) (hp : resolve p = .ok p) :
    resolve (join root (relativeTo root p)) = .ok p ∧ isAbsolute (relativeTo root p) = false := by
  rcases exists_ofNames_of_resolve hroot with ⟨rs, rfl, hrs⟩
  rcases exists_ofNames_of_resolve hp with ⟨ps, rfl, hps⟩
  have hplain := fun name hname => (hrs name hname).1
  unfold relativeTo
  rw [names_ofNames hplain, names_ofNames fun name hname => (hps name hname).1]
  rcases exists_shorten rs ps with ⟨common, up, down, rfl, rfl, hsteps⟩
  rw [hsteps]
  have hdown : ∀ name ∈ down, Plain name := fun name hname => (hps name (by simp [hname])).1
  have hrelative : isAbsolute (relativeTo.steps up down) = false := isAbsolute_steps hdown
  refine ⟨resolve_eq_ok.2 ⟨checkNames_eq_ok.2 ?_, ?_⟩, hrelative⟩
  · -- No name on the way is new: it is one of the root or of the path, or it is made of dots.
    intro name hname
    rcases mem_splitOn_join_path hrelative hname with hname | hname
    · rcases mem_splitOn_ofNames hplain hname with hnil | hname
      · exact .inl hnil
      · exact .inr (.inr (.inr (hrs name hname).2))
    · rcases of_mem_splitOn_steps hdown hname with h | h | h
      · exact .inr (.inl h)
      · exact .inr (.inr (.inl h))
      · exact .inr (.inr (.inr (hps name (by simp [h])).2))
  · exact congrArg ofNames (names_join_steps hplain hdown).symm

instance : DecidablePred Plain := fun name =>
  decidable_of_iff (separator ∉ name ∧ name ≠ [] ∧ name ≠ here ∧ name ≠ above)
    ⟨fun h => ⟨h.1, h.2.1, h.2.2.1, h.2.2.2⟩, fun h => ⟨h.1, h.2, h.3, h.4⟩⟩

/-- A path that leads down from where it is read, in normal form. -/
def Tidy (p : Text) : Prop :=
  ∃ parts, parts ≠ [] ∧ (∀ name ∈ parts, Plain name) ∧ p = Text.join [separator] parts

theorem Tidy.splitOn (hne : parts ≠ []) (hparts : ∀ name ∈ parts, Plain name) :
    Text.splitOn separator (Text.join [separator] parts) = parts :=
  Text.splitOn_join hne fun name hname => (hparts name hname).separator

theorem Tidy.isAbsolute (hp : Tidy p) : isAbsolute p = false := by
  rcases hp with ⟨parts, hne, hparts, rfl⟩
  refine isAbsolute_eq_false fun hnil => ?_
  rw [Tidy.splitOn hne hparts] at hnil
  exact (hparts [] hnil).ne_nil rfl

/-- The absolute, normalised path that a path leads to, whether or not its names can exist. -/
def place (p : Text) : Text :=
  ofNames (names (separator :: p))

theorem place_of_resolve (h : resolve p = .ok q) : place p = q :=
  (resolve_eq_ok.1 h).2.symm

theorem place_ofNames (hparts : ∀ name ∈ parts, Plain name) :
    place (ofNames parts) = ofNames parts := by
  rw [place, names_cons (isAbsolute_ofNames parts), names_ofNames hparts]

/-- Only the root itself ends with a separator. -/
theorem getLast?_ofNames_ne (hne : parts ≠ []) (hparts : ∀ name ∈ parts, Plain name) :
    (ofNames parts).getLast? ≠ some separator := by
  intro hlast
  rcases List.getLast?_eq_some_iff.1 hlast with ⟨front, hfront⟩
  have hpieces : [] :: parts = Text.splitOn separator front ++ [[]] := by
    rw [← Tidy.splitOn hne hparts, ← splitOn_cons]
    exact (congrArg (Text.splitOn separator) hfront).trans (Text.splitOn_append front [])
  -- The last piece would be an empty name.
  have hempty : ([] :: parts).getLast? = some [] := by
    rw [hpieces, List.getLast?_concat]
  rw [List.getLast?_cons, List.getLast?_eq_some_getLast hne, Option.getD_some,
    Option.some_inj] at hempty
  exact (hparts _ (List.getLast_mem hne)).ne_nil hempty

/-- Names that are read from an absolute path are added to its own. -/
theorem join_ofNames (hplain : ∀ name ∈ parts, Plain name) {names : List Text} (hne : names ≠ [])
    (hnames : ∀ name ∈ names, Plain name) :
    join (ofNames parts) (Text.join [separator] names) = ofNames (parts ++ names) := by
  have hrelative := Tidy.isAbsolute ⟨names, hne, hnames, rfl⟩
  unfold join
  rw [if_neg (by simp [hrelative])]
  cases parts with
  | nil => rfl
  | cons name rest =>
    have hlast := getLast?_ofNames_ne (by simp) hplain
    rw [if_neg (by simpa [ofNames] using hlast), ofNames, ofNames,
      Text.join_append (List.cons_ne_nil name rest) hne]
    simp

theorem join_ofNames_name (hplain : ∀ name ∈ parts, Plain name) (hname : Plain name) :
    join (ofNames parts) name = ofNames (parts ++ [name]) := by
  have hjoin := join_ofNames hplain (List.cons_ne_nil name []) (List.forall_mem_singleton.2 hname)
  simpa [Text.join] using hjoin

/-- A path below the root leads to the names of the root and its own names. -/
theorem place_join (hplain : ∀ name ∈ parts, Plain name) {names : List Text} (hne : names ≠ [])
    (hnames : ∀ name ∈ names, Plain name) :
    place (join (ofNames parts) (Text.join [separator] names)) = ofNames (parts ++ names) := by
  rw [join_ofNames hplain hne hnames]
  exact place_ofNames (List.forall_mem_append.2 ⟨hplain, hnames⟩)

/-- A path below the root is shown from the root as it was written. -/
theorem relativeTo_place_join (hroot : resolve root = .ok root) (hp : Tidy p) :
    relativeTo root (place (join root p)) = p := by
  rcases hp with ⟨parts, hne, hparts, rfl⟩
  rcases exists_ofNames_of_resolve hroot with ⟨rs, rfl, hrs⟩
  have hplain := fun name hname => (hrs name hname).1
  have hboth : ∀ name ∈ rs ++ parts, Plain name := List.forall_mem_append.2 ⟨hplain, hparts⟩
  rw [place_join hplain hne hparts]
  unfold relativeTo
  rw [names_ofNames hplain, names_ofNames hboth, shorten_append]
  simp [relativeTo.steps, hne]

theorem relativeTo_of_resolve_join (hroot : resolve root = .ok root) (hp : Tidy p)
    (h : resolve (join root p) = .ok q) : relativeTo root q = p := by
  rw [← place_of_resolve h]
  exact relativeTo_place_join hroot hp

end Path

end AffectedTests
