import AffectedTests.Source.Import
import Mathlib.Data.List.TakeWhile
/-!
# The names of a path

A path is a list of names with separators between them. Joining and cutting a path only concern its last
names, and normalising it leaves its last names alone if they are names of files.

- `Path.Ends` says which names a path ends in.
- `Path.ends_normalize`: names that are no dots survive normalisation.
-/

namespace AffectedTests

namespace Text

variable {sep : CodePoint} {t u : Text}

theorem splitOn_of_not_mem (h : sep ∉ t) : splitOn sep t = [t] := by
  induction t with
  | nil => rfl
  | cons c rest ih =>
    rw [List.mem_cons, not_or] at h
    have hne : ¬ c = sep := fun hc => h.1 hc.symm
    simp [splitOn, hne, ih h.2]

theorem splitOn_append (t u : Text) :
    splitOn sep (t ++ sep :: u) = splitOn sep t ++ splitOn sep u := by
  induction t with
  | nil => simp [splitOn]
  | cons c rest ih =>
    by_cases hc : c = sep
    · simp [splitOn, hc, ih]
    · cases hrest : splitOn sep rest with
      | nil => exact absurd hrest (splitOn_ne_nil sep rest)
      | cons piece pieces => simp [splitOn, hc, ih, hrest]

theorem not_mem_of_mem_splitOn {piece : Text} (h : piece ∈ splitOn sep t) : sep ∉ piece := by
  induction t generalizing piece with
  | nil =>
    have hnil : piece = [] := by simpa [splitOn] using h
    simp [hnil]
  | cons c rest ih =>
    by_cases hc : c = sep
    · rcases List.mem_cons.1 (by simpa [splitOn, hc] using h) with rfl | h
      · simp
      · exact ih h
    · cases hrest : splitOn sep rest with
      | nil => exact absurd hrest (splitOn_ne_nil sep rest)
      | cons first pieces =>
        have hfirst : sep ∉ first := ih (by simp [hrest])
        rcases List.mem_cons.1 (by simpa [splitOn, hc, hrest] using h) with rfl | h
        · simpa [hfirst] using fun hs => hc hs.symm
        · exact ih (by simp [hrest, h])

/-- Pieces without separators are what a text of them is cut into. -/
theorem splitOn_join {pieces : List Text} (hne : pieces ≠ []) (h : ∀ piece ∈ pieces, sep ∉ piece) :
    splitOn sep (join [sep] pieces) = pieces := by
  induction pieces with
  | nil => exact absurd rfl hne
  | cons piece rest ih =>
    have hpiece : sep ∉ piece := h piece (by simp)
    cases rest with
    | nil => simpa [join] using splitOn_of_not_mem hpiece
    | cons next rest =>
      have hjoin : join [sep] (piece :: next :: rest) = piece ++ sep :: join [sep] (next :: rest) := by
        simp [join, List.intercalate_cons_cons]
      rw [hjoin, splitOn_append, splitOn_of_not_mem hpiece,
        ih (by simp) fun p hp => h p (by simp [hp])]
      rfl

end Text

namespace Path

/-- The last names of a path. -/
def Ends (t : Text) (last : List Text) : Prop :=
  last <:+ t.splitOn separator

/-- A name that leads down, to what a directory holds. -/
structure Plain (name : Text) : Prop where
  separator : separator ∉ name
  ne_nil : name ≠ []
  ne_here : name ≠ here
  ne_above : name ≠ above

/-- A name that is made of more than dots, as names of files are. -/
structure Proper (name : Text) : Prop where
  separator : separator ∉ name
  more : ∃ c ∈ name, c ≠ ('.' : CodePoint)

namespace Proper

variable {name : Text}

theorem ne_nil (h : Proper name) : name ≠ [] := by
  rcases h.more with ⟨c, hc, -⟩
  exact List.ne_nil_of_mem hc

theorem ne_here (h : Proper name) : name ≠ here := by
  rintro rfl
  rcases h.more with ⟨c, hc, hdot⟩
  exact hdot (List.mem_singleton.1 hc)

theorem ne_above (h : Proper name) : name ≠ above := by
  rintro rfl
  rcases h.more with ⟨c, hc, hdot⟩
  have hboth : c = '.' ∨ c = '.' := by simpa [Path.above, Text.ofString] using hc
  exact hdot (hboth.elim id id)

theorem plain (h : Proper name) : Plain name :=
  ⟨h.separator, h.ne_nil, h.ne_here, h.ne_above⟩

/-- What is added to a name leaves it proper, if it holds no separator. -/
theorem append (h : Proper name) {tail : Text} (htail : Path.separator ∉ tail) :
    Proper (name ++ tail) := by
  rcases h.more with ⟨c, hc, hdot⟩
  exact ⟨by simp [h.separator, htail], c, by simp [hc], hdot⟩

end Proper

variable {t base : Text} {last : List Text} {name : Text}

theorem ne_of_mem_reverse {c : CodePoint} (h : c ∉ name) : ∀ x ∈ name.reverse, (x != c) = true := by
  intro x hx
  refine bne_iff_ne.2 ?_
  rintro rfl
  exact h (List.mem_reverse.1 hx)

/-! ## Joining -/

theorem ends_join (h : Ends t last) : Ends (join base t) last := by
  unfold join
  split
  · exact h
  · split
    · rename_i hbase
      rcases Bool.or_eq_true_iff.1 hbase with hempty | hlast
      · rw [List.isEmpty_iff.1 hempty]
        exact h
      · rcases List.getLast?_eq_some_iff.1 (eq_of_beq hlast) with ⟨front, rfl⟩
        have happend : front ++ [separator] ++ t = front ++ separator :: t := by simp
        unfold Ends
        rw [happend, Text.splitOn_append]
        exact h.trans (List.suffix_append _ _)
    · unfold Ends
      rw [Text.splitOn_append]
      exact h.trans (List.suffix_append _ _)

/-! ## Normalising -/

/-- Names that lead down are entered one after the other. -/
theorem foldl_enter {rooted : Bool} {stack : List Text} (h : ∀ name ∈ last, Plain name) :
    last.foldl (enter rooted) stack = last.reverse ++ stack := by
  induction last generalizing stack with
  | nil => rfl
  | cons name rest ih =>
    have hname : Plain name := h name (by simp)
    have henter : enter rooted stack name = name :: stack := by
      simp [enter, hname.ne_nil, hname.ne_here, hname.ne_above]
    rw [List.foldl_cons, henter, ih fun n hn => h n (by simp [hn])]
    simp

theorem ends_names (h : Ends t last) (hproper : ∀ name ∈ last, Proper name) : last <:+ names t := by
  rcases h with ⟨front, hsplit⟩
  unfold names
  rw [← hsplit, List.foldl_append, foldl_enter fun n hn => (hproper n hn).plain,
    List.reverse_append, List.reverse_reverse]
  exact List.suffix_append _ _

/-- No name of a path holds a separator. -/
theorem not_mem_of_mem_names (h : name ∈ names t) : separator ∉ name := by
  -- Entering a name pushes it, drops one or pushes the name of the directory above.
  have hfold : ∀ (pieces stack : List Text), (∀ n ∈ pieces, separator ∉ n) →
      (∀ n ∈ stack, separator ∉ n) →
        ∀ n ∈ pieces.foldl (enter (isAbsolute t)) stack, separator ∉ n := by
    intro pieces
    induction pieces with
    | nil => exact fun _ _ hstack => hstack
    | cons piece pieces ih =>
      intro stack hpieces hstack
      refine ih _ (fun n hn => hpieces n (by simp [hn])) ?_
      have habove : separator ∉ above := by decide
      intro n hn
      unfold enter at hn
      split at hn
      · exact hstack n hn
      · split at hn
        · cases stack with
          | nil =>
            dsimp only at hn
            split at hn
            · cases hn
            · rw [List.mem_singleton.1 hn]
              exact habove
          | cons top below =>
            dsimp only at hn
            split at hn
            · rcases List.mem_cons.1 hn with rfl | hn
              · exact habove
              · exact hstack n hn
            · exact hstack n (by simp [hn])
        · rcases List.mem_cons.1 hn with rfl | hn
          · exact hpieces n (by simp)
          · exact hstack n hn
  exact hfold _ [] (fun n hn => Text.not_mem_of_mem_splitOn hn) (by simp) name
    (List.mem_reverse.1 h)

theorem ends_cons (h : Ends t last) : Ends (separator :: t) last := by
  have happend : separator :: t = [] ++ separator :: t := rfl
  unfold Ends
  rw [happend, Text.splitOn_append]
  exact h.trans (List.suffix_append _ _)

/-- The names of a path are what it ends in when they are written one after the other. -/
theorem ends_join_names (hne : last ≠ []) (h : last <:+ names t) :
    Ends (Text.join [separator] (names t)) last := by
  have hnames : names t ≠ [] := by
    rintro hnil
    rw [hnil, List.suffix_nil] at h
    exact hne h
  unfold Ends
  rw [Text.splitOn_join hnames fun name hname => not_mem_of_mem_names hname]
  exact h

theorem ends_normalize (hne : last ≠ []) (h : Ends t last) (hproper : ∀ name ∈ last, Proper name) :
    Ends (normalize t) last := by
  have hjoin := ends_join_names hne (ends_names h hproper)
  -- The mark of the root consists of separators, so it adds empty names at the front only.
  have hmark : Ends (rootMark t ++ Text.join [separator] (names t)) last := by
    unfold rootMark
    split
    · exact hjoin
    · exact ends_cons (ends_cons hjoin)
    · exact ends_cons hjoin
  unfold normalize
  dsimp only
  split
  · rename_i hempty
    rw [List.isEmpty_iff.1 hempty] at hmark
    rcases last.eq_nil_or_concat with rfl | ⟨front, name, rfl⟩
    · exact absurd rfl hne
    · rcases hmark with ⟨above, habove⟩
      have hsingle : above ++ (front ++ [name]) = [[]] := by simpa [Text.splitOn] using habove
      have hname : name = [] := by
        have hlast := congrArg List.getLast? hsingle
        simpa using hlast
      exact absurd hname (hproper name (by simp)).ne_nil
  · exact hmark

theorem ends_resolve (hne : last ≠ []) (h : Ends t last) (hproper : ∀ name ∈ last, Proper name)
    {m : Text} (hm : resolve t = .ok m) : Ends m last := by
  unfold resolve at hm
  cases hcheck : checkNames t with
  | error fault => simp [hcheck, Except.map] at hm
  | ok u =>
    have hofNames : ofNames (names (separator :: t)) = m := by simpa [hcheck, Except.map] using hm
    rw [← hofNames]
    exact ends_cons (ends_join_names hne (ends_names (ends_cons h) hproper))

/-! ## Cutting -/

/-- A path is its last name, or a directory and its last name. -/
theorem eq_or_eq_of_ends (h : Ends t [name]) :
    separator ∉ name ∧ (t = name ∨ ∃ directory, t = directory ++ separator :: name) := by
  have hname : separator ∉ name := Text.not_mem_of_mem_splitOn (h.subset (by simp))
  refine ⟨hname, ?_⟩
  by_cases hmem : separator ∈ t
  · -- The last separator is the first one of the reversed path.
    rcases List.eq_append_cons_of_mem (List.mem_reverse.2 hmem) with ⟨back, front, hsplit, hback⟩
    have ht : t = front.reverse ++ separator :: back.reverse := by
      have hrev := congrArg List.reverse hsplit
      simpa using hrev
    refine .inr ⟨front.reverse, ?_⟩
    have hback' : separator ∉ back.reverse := by simpa using hback
    unfold Ends at h
    rw [ht, Text.splitOn_append, Text.splitOn_of_not_mem hback'] at h
    have hlast : name = back.reverse := by
      rcases h with ⟨above, habove⟩
      have hget := congrArg List.getLast? habove
      simpa using hget
    rw [hlast, ht]
  · unfold Ends at h
    rw [Text.splitOn_of_not_mem hmem] at h
    rcases h with ⟨above, habove⟩
    have hget := congrArg List.getLast? habove
    exact .inl (by simpa using hget.symm)

/-- A path that ends in two names has a directory that ends in the first of them. -/
theorem eq_of_ends_pair {outer : Text} (h : Ends t [outer, name]) :
    separator ∉ name ∧ ∃ directory, t = directory ++ separator :: name ∧ Ends directory [outer] := by
  have hlast : Ends t [name] := (List.suffix_cons outer [name]).trans h
  rcases eq_or_eq_of_ends hlast with ⟨hname, rfl | ⟨directory, rfl⟩⟩
  · unfold Ends at h
    rw [Text.splitOn_of_not_mem hname] at h
    have hlength := h.length_le
    simp at hlength
  · refine ⟨hname, directory, rfl, ?_⟩
    unfold Ends at h ⊢
    rw [Text.splitOn_append, Text.splitOn_of_not_mem hname] at h
    rcases h with ⟨above, habove⟩
    have hfront : (above ++ [outer]) ++ [name] = Text.splitOn separator directory ++ [name] := by
      simpa using habove
    exact ⟨above, List.append_cancel_right hfront⟩

/-- The last name of a path stands at its end. -/
theorem suffix_of_ends (h : Ends t [name]) : name <:+ t := by
  rcases eq_or_eq_of_ends h with ⟨-, rfl | ⟨directory, rfl⟩⟩
  · exact List.suffix_refl _
  · exact (List.suffix_cons _ _).trans (List.suffix_append _ _)

theorem infix_of_ends_pair {outer : Text} (h : Ends t [outer, name]) : outer <:+: t := by
  rcases eq_of_ends_pair h with ⟨-, directory, rfl, hdirectory⟩
  exact (suffix_of_ends hdirectory).isInfix.trans (List.prefix_append _ _).isInfix

theorem fileName_append {directory : Text} (h : separator ∉ name) :
    fileName (directory ++ separator :: name) = name := by
  unfold fileName
  rw [List.reverse_append, List.reverse_cons, List.append_assoc,
    List.takeWhile_append_of_pos (ne_of_mem_reverse h)]
  simp

theorem fileName_of_not_mem (h : separator ∉ name) : fileName name = name := by
  unfold fileName
  rw [List.takeWhile_eq_self_iff.2 (ne_of_mem_reverse h), List.reverse_reverse]

theorem fileName_of_ends (h : Ends t [name]) : fileName t = name := by
  rcases eq_or_eq_of_ends h with ⟨hname, rfl | ⟨directory, rfl⟩⟩
  · exact fileName_of_not_mem hname
  · exact fileName_append hname

/-- A path that ends in a name does not end in a separator. -/
theorem last_ne_separator (h : Ends t [name]) (hne : name ≠ []) :
    ∃ front c, t = front ++ [c] ∧ c ≠ separator := by
  rcases List.eq_nil_or_concat name with rfl | ⟨init, c, hname⟩
  · exact absurd rfl hne
  · rw [hname, List.concat_eq_append] at h
    rcases eq_or_eq_of_ends h with ⟨hsep, rfl | ⟨further, rfl⟩⟩
    · exact ⟨init, c, rfl, fun hc => hsep (by simp [hc])⟩
    · exact ⟨further ++ separator :: init, c, by simp, fun hc => hsep (by simp [hc])⟩

/-- The directory of a path, unless that is the root. -/
theorem directory_append {above : Text} (h : separator ∉ name) {outer : Text}
    (hends : Ends above [outer]) (houter : outer ≠ []) :
    directory (above ++ separator :: name) = above := by
  have hlead : (above ++ separator :: name).reverse.dropWhile (· != separator) =
      separator :: above.reverse := by
    rw [List.reverse_append, List.reverse_cons, List.append_assoc,
      List.dropWhile_append_of_pos (ne_of_mem_reverse h)]
    simp
  -- The directory ends in a name, so only the separator after it is trimmed.
  rcases last_ne_separator hends houter with ⟨front, c, rfl, hc⟩
  unfold directory
  rw [hlead]
  simp [Text.trimEnd, hc]

/-! ## Extensions -/

theorem splitExtension_append {above : Text} (h : separator ∉ name) :
    splitExtension (above ++ separator :: name) =
      (above ++ separator :: stem name, extension name) := by
  unfold stem extension splitExtension
  rw [fileName_append h, fileName_of_not_mem h]
  dsimp only
  split
  · rename_i hcut
    have hcount : ∀ k < name.length, (above ++ separator :: name).length - (k + 1) =
        above.length + (name.length - (k + 1) + 1) := by
      intro k hk
      simp only [List.length_append, List.length_cons]
      omega
    rw [hcount _ hcut.1, List.take_length_add_append, List.take_succ_cons]
  · rfl

theorem stem_append {above : Text} (h : separator ∉ name) :
    stem (above ++ separator :: name) = above ++ separator :: stem name :=
  congrArg Prod.fst (splitExtension_append h)

/-- The stem of a name is a part of it at its front. -/
theorem stem_prefix_self (name : Text) : stem name <+: name := by
  unfold stem splitExtension
  dsimp only
  split
  · exact List.take_prefix _ _
  · exact List.prefix_refl name

theorem not_mem_stem (h : separator ∉ name) : separator ∉ stem name :=
  fun hmem => h ((stem_prefix_self name).subset hmem)

/-- A name is its own stem, or something other than dots is left of it. -/
theorem stem_eq_or_proper (h : separator ∉ name) : stem name = name ∨ Proper (stem name) := by
  have hseparator := not_mem_stem h
  unfold stem splitExtension at hseparator ⊢
  rw [fileName_of_not_mem h] at hseparator ⊢
  dsimp only at hseparator ⊢
  split
  · rename_i hcut
    rw [if_pos hcut] at hseparator
    rcases List.any_eq_true.1 hcut.2 with ⟨c, hc, hdot⟩
    exact .inr ⟨hseparator, c, hc, bne_iff_ne.1 hdot⟩
  · exact .inl rfl

/-- The stem of a proper name is proper. -/
theorem Proper.stem (h : Proper name) : Proper (stem name) := by
  rcases stem_eq_or_proper h.separator with heq | hproper
  · rwa [heq]
  · exact hproper

/-- The stem of a name that leads down leads down. -/
theorem Plain.stem (h : Plain name) : Plain (stem name) := by
  rcases stem_eq_or_proper h.separator with heq | hproper
  · rwa [heq]
  · exact hproper.plain

/-- An extension begins with a dot and has no other. -/
def IsExtension (e : Text) : Prop :=
  separator ∉ e ∧ e.head? = some ('.' : CodePoint) ∧ ('.' : CodePoint) ∉ e.tail

instance (e : Text) : Decidable (IsExtension e) :=
  inferInstanceAs (Decidable (_ ∧ _))

/-- A name that gets an extension is its stem. -/
theorem stem_append_extension {e : Text} (h : Proper name) (he : IsExtension e) :
    stem (name ++ e) = name := by
  rcases he with ⟨hesep, hdot, hrest⟩
  rcases List.head?_eq_some_iff.1 hdot with ⟨rest, rfl⟩
  rw [List.tail_cons] at hrest
  have htake : (name ++ ('.' : CodePoint) :: rest).reverse.takeWhile (· != ('.' : CodePoint)) =
      rest.reverse := by
    rw [List.reverse_append, List.reverse_cons, List.append_assoc,
      List.takeWhile_append_of_pos (ne_of_mem_reverse hrest)]
    simp
  have hsep : Path.separator ∉ name ++ ('.' : CodePoint) :: rest := by
    simpa [h.separator] using hesep
  have hcount : (name ++ ('.' : CodePoint) :: rest).length - (rest.length + 1) = name.length := by
    simp
  have hany : name.any (· != ('.' : CodePoint)) = true := by
    rcases h.more with ⟨c, hc, hdot⟩
    exact List.any_eq_true.2 ⟨c, hc, bne_iff_ne.2 hdot⟩
  unfold stem splitExtension
  rw [fileName_of_not_mem hsep]
  dsimp only
  rw [htake, List.reverse_reverse, hcount, List.take_left, if_pos ⟨by simp; omega, hany⟩]

/-! ## Changing the last name -/

variable {front : List Text} {t' name' : Text}

/-- A path whose last name is replaced. -/
theorem ends_replace (h : Ends t (front ++ [name])) (hname' : separator ∉ name')
    (halone : t = name → t' = name')
    (hbelow : ∀ above, t = above ++ separator :: name → t' = above ++ separator :: name') :
    Ends t' (front ++ [name']) := by
  have hlast : Ends t [name] := (List.suffix_append front [name]).trans h
  rcases eq_or_eq_of_ends hlast with ⟨hname, halone' | ⟨above, hbelow'⟩⟩
  · unfold Ends at h ⊢
    rw [halone', Text.splitOn_of_not_mem hname] at h
    have hfront : front = [] := by
      have hlength := h.length_le
      simpa using hlength
    rw [hfront, halone halone', Text.splitOn_of_not_mem hname']
    exact List.suffix_refl _
  · unfold Ends at h ⊢
    rw [hbelow', Text.splitOn_append, Text.splitOn_of_not_mem hname] at h
    rw [hbelow above hbelow', Text.splitOn_append, Text.splitOn_of_not_mem hname']
    rcases h with ⟨rest, hrest⟩
    rw [← List.append_assoc] at hrest
    rw [← List.append_cancel_right hrest]
    exact ⟨rest, by simp⟩

theorem ends_append {e : Text} (h : Ends t (front ++ [name])) (he : separator ∉ e) :
    Ends (t ++ e) (front ++ [name ++ e]) := by
  have hname : separator ∉ name := Text.not_mem_of_mem_splitOn (h.subset (by simp))
  refine ends_replace h (by simp [hname, he]) ?_ ?_
  · rintro rfl
    rfl
  · rintro above rfl
    simp

theorem ends_stem (h : Ends t (front ++ [name])) : Ends (stem t) (front ++ [stem name]) := by
  have hname : separator ∉ name := Text.not_mem_of_mem_splitOn (h.subset (by simp))
  refine ends_replace h (not_mem_stem hname) ?_ ?_
  · rintro rfl
    rfl
  · rintro above rfl
    exact stem_append hname

/-- A name below a path that ends in a name. -/
theorem ends_below (h : Ends t (front ++ [name])) (hne : name ≠ []) (hname' : separator ∉ name') :
    Ends (join t name') (front ++ [name, name']) := by
  have hlast : Ends t [name] := (List.suffix_append front [name]).trans h
  rcases last_ne_separator hlast hne with ⟨init, c, ht, hc⟩
  have hrelative : isAbsolute name' = false := by
    cases name' with
    | nil => rfl
    | cons first rest =>
      have hfirst : first ≠ separator := fun heq => hname' (by simp [heq])
      simpa [isAbsolute] using hfirst
  have hjoin : join t name' = t ++ separator :: name' := by
    unfold join
    rw [hrelative, ht]
    simp [hc]
  unfold Ends at h ⊢
  rw [hjoin, Text.splitOn_append, Text.splitOn_of_not_mem hname']
  rcases h with ⟨rest, hrest⟩
  exact ⟨rest, by rw [← hrest]; simp⟩

end Path

end AffectedTests
