import AffectedTests.Proofs.Following
/-!
# Directories, extensions and normal forms

What is read off the text of a path agrees with its names: the directory of a path has all names but the
last one, the extension is that of the last name, and a path that is read from a directory is normalised to
the place that it leads to.

- `Path.stem_append_extension_self`: a name falls into its stem and its extension.
- `Path.directory_ofNames`, `Path.extension_ofNames`: directory and extension by names.
- `Path.normalize_join`: normalising a path that is read from a directory.
-/

namespace AffectedTests

theorem Text.exists_eq_takeWhile_append {c : CodePoint} {t : Text}
    (h : (t.takeWhile (· != c)).length < t.length) : ∃ rest, t = t.takeWhile (· != c) ++ c :: rest := by
  induction t with
  | nil => cases h
  | cons x rest ih =>
    by_cases hx : x = c
    · exact ⟨rest, by simp [hx]⟩
    · have hne : (x != c) = true := bne_iff_ne.2 hx
      rw [List.takeWhile_cons, if_pos hne] at h ⊢
      rcases ih (Nat.lt_of_succ_lt_succ h) with ⟨after, hafter⟩
      exact ⟨after, congrArg (x :: ·) hafter⟩

namespace Path

variable {p t name : Text} {parts : List Text}

/-! ## Extensions and directories -/

/-- A name is its stem and its extension. -/
theorem stem_append_extension_self (h : separator ∉ name) : stem name ++ extension name = name := by
  unfold stem extension splitExtension
  rw [fileName_of_not_mem h]
  dsimp only
  split
  · -- The name is cut at its last dot, the first one from its end.
    rename_i hcut
    rw [List.length_reverse] at hcut ⊢
    have hlast := Text.exists_eq_takeWhile_append
      (c := ('.' : CodePoint)) (t := name.reverse) (by rw [List.length_reverse]; exact hcut.1)
    rcases hlast with ⟨rest, hrest⟩
    have hname := congrArg List.reverse hrest
    rw [List.reverse_reverse, List.reverse_append, List.reverse_cons, List.append_assoc,
      List.singleton_append] at hname
    have hlength := congrArg List.length hname
    rw [List.length_append, List.length_cons, List.length_reverse, List.length_reverse] at hlength
    have htake : name.take (name.length - ((name.reverse.takeWhile (· != ('.' : CodePoint))).length + 1)) =
        rest.reverse := by
      rw [hlength, Nat.add_sub_cancel]
      conv => lhs; rw [hname]
      rw [List.take_left' (List.length_reverse)]
    rw [htake]
    exact hname.symm
  · rw [List.append_nil]

theorem ofNames_append {parts' : List Text} (hne : parts ≠ []) (hne' : parts' ≠ []) :
    ofNames (parts ++ parts') = ofNames parts ++ separator :: Text.join [separator] parts' := by
  rw [ofNames, Text.join_append hne hne', ofNames]
  simp

/-- What stands before the last name of a path. -/
theorem exists_ofNames_append (parts : List Text) :
    ∃ above, ∀ name, ofNames (parts ++ [name]) = above ++ separator :: name := by
  cases parts with
  | nil => exact ⟨[], fun name => by simp [ofNames, Text.join]⟩
  | cons part rest =>
    refine ⟨ofNames (part :: rest), fun name => ?_⟩
    rw [ofNames_append (List.cons_ne_nil part rest) (List.cons_ne_nil name [])]
    simp [Text.join]

theorem extension_ofNames (h : separator ∉ name) :
    extension (ofNames (parts ++ [name])) = extension name := by
  rcases exists_ofNames_append parts with ⟨above, habove⟩
  rw [habove, extension, splitExtension_append h]

theorem splitOn_ofNames (hne : parts ≠ []) (h : ∀ name ∈ parts, Plain name) :
    (ofNames parts).splitOn separator = [] :: parts := by
  rw [ofNames, splitOn_cons, Text.splitOn_join hne fun name hname => (h name hname).separator]

/-- The directory of a path is the path without its last name. -/
theorem directory_ofNames (h : ∀ name ∈ parts, Plain name) :
    directory (ofNames parts) = ofNames parts.dropLast := by
  rcases List.eq_nil_or_concat parts with rfl | ⟨front, name, rfl⟩
  · rfl
  · rw [List.concat_eq_append] at h ⊢
    rw [List.dropLast_concat]
    rcases List.forall_mem_append.1 h with ⟨hfront, hname⟩
    have hseparator : separator ∉ name := (hname name (List.mem_singleton_self name)).separator
    rcases List.eq_nil_or_concat front with rfl | ⟨outers, outer, rfl⟩
    · -- The name stands behind the separator of the root, which is kept.
      have hlead : (separator :: name).reverse.dropWhile (· != separator) = [separator] := by
        rw [List.reverse_cons, List.dropWhile_append_of_pos (ne_of_mem_reverse hseparator)]
        rfl
      have hname : ofNames ([] ++ [name]) = separator :: name := by simp [ofNames, Text.join]
      rw [hname]
      unfold directory
      rw [hlead]
      rfl
    · rw [List.concat_eq_append] at hfront ⊢
      have hends : Ends (ofNames (outers ++ [outer])) [outer] := by
        rw [Ends, splitOn_ofNames (by simp) hfront]
        exact (List.suffix_append outers [outer]).trans (List.suffix_cons [] _)
      have houter : outer ≠ [] := (hfront outer (by simp)).ne_nil
      have hname : Text.join [separator] [name] = name := by simp [Text.join]
      rw [ofNames_append (by simp) (List.cons_ne_nil name []), hname,
        directory_append hseparator hends houter]

/-! ## Normalising a path read from a directory -/

theorem rootMark_cons {rest : Text} (h : rest.head? ≠ some separator) :
    rootMark (separator :: rest) = [separator] := by
  have hrest : rest.takeWhile (· == separator) = [] := by
    cases rest with
    | nil => rfl
    | cons c rest =>
      rw [List.takeWhile_cons, if_neg]
      exact fun hc => h (congrArg some (eq_of_beq hc))
  unfold rootMark
  rw [List.takeWhile_cons, if_pos (beq_self_eq_true separator), hrest]
  rfl

theorem exists_join_ofNames (hparts : ∀ name ∈ parts, Plain name) (h : isAbsolute t = false) :
    ∃ rest, join (ofNames parts) t = separator :: rest ∧ rest.head? ≠ some separator := by
  have ht : t.head? ≠ some separator := fun hhead => by simp [isAbsolute, hhead] at h
  unfold join
  rw [h, if_neg (by decide)]
  cases parts with
  | nil => exact ⟨t, rfl, ht⟩
  | cons part rest =>
    have hpart := hparts part List.mem_cons_self
    have hjoin : ∃ c tail, Text.join [separator] (part :: rest) = c :: tail ∧ c ≠ separator := by
      cases part with
      | nil => exact absurd rfl hpart.ne_nil
      | cons c name =>
        have hc : c ≠ separator := fun heq => hpart.separator (heq ▸ List.mem_cons_self)
        cases rest with
        | nil => exact ⟨c, name, by simp [Text.join], hc⟩
        | cons next rest =>
          rw [Text.join_cons (List.cons_ne_nil next rest)]
          exact ⟨c, _, rfl, hc⟩
    -- The first name is not empty, so only the separator of the root is in front.
    rcases hjoin with ⟨c, tail, hjoin, hc⟩
    rw [ofNames, hjoin]
    split
    · exact ⟨_, rfl, by simpa using hc⟩
    · exact ⟨_, rfl, by simpa using hc⟩

/-- A path read from a directory is normalised to the place that it leads to. -/
theorem normalize_join (hparts : ∀ name ∈ parts, Plain name) (h : isAbsolute t = false) :
    normalize (join (ofNames parts) t) = place (join (ofNames parts) t) := by
  have habsolute : isAbsolute (join (ofNames parts) t) = true := isAbsolute_join (isAbsolute_ofNames parts)
  rcases exists_join_ofNames hparts h with ⟨rest, hjoin, hrest⟩
  rw [place, names_cons habsolute, normalize, hjoin, rootMark_cons hrest]
  rfl

theorem isAbsolute_normalize (h : isAbsolute p = true) : isAbsolute (normalize p) = true := by
  rcases isAbsolute_iff.1 h with ⟨rest, rfl⟩
  have hmark : ∃ more, rootMark (separator :: rest) = separator :: more := by
    unfold rootMark
    split
    · rename_i hnone
      simp at hnone
    · exact ⟨_, rfl⟩
    · exact ⟨_, rfl⟩
  rcases hmark with ⟨more, hmark⟩
  unfold normalize
  rw [hmark]
  rfl

theorem isAbsolute_append (h : isAbsolute p = true) : isAbsolute (p ++ t) = true := by
  rcases isAbsolute_iff.1 h with ⟨rest, rfl⟩
  rfl

theorem exists_ends (p : Text) : ∃ name, Ends p [name] := by
  rcases List.eq_nil_or_concat (p.splitOn separator) with hnil | ⟨front, name, hsplit⟩
  · exact absurd hnil (Text.splitOn_ne_nil separator p)
  · exact ⟨name, front, by rw [hsplit, List.concat_eq_append]⟩

theorem isAbsolute_stem (h : isAbsolute p = true) : isAbsolute (stem p) = true := by
  rcases isAbsolute_iff.1 h with ⟨rest, hrest⟩
  rcases exists_ends p with ⟨name, hends⟩
  rcases eq_or_eq_of_ends hends with ⟨hname, rfl | ⟨above, rfl⟩⟩
  · rw [hrest] at hname
    exact absurd List.mem_cons_self hname
  · -- Only the last name is cut, and it stands behind a separator.
    rw [stem_append hname]
    cases above with
    | nil => rfl
    | cons c above => exact h

/-- A single dot in front changes nothing of where a path leads. -/
theorem place_join_here (hparts : ∀ name ∈ parts, Plain name) (h : isAbsolute t = false) :
    place (join (ofNames parts) (("./" : Text) ++ t)) = place (join (ofNames parts) t) := by
  have hsplit : (("./" : Text) ++ t).splitOn separator = Path.here :: t.splitOn separator :=
    Text.splitOn_append Path.here t
  rw [place, place, names_join hparts rfl, names_join hparts h, hsplit]
  rfl

end Path

end AffectedTests
