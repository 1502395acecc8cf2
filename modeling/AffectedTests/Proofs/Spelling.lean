import AffectedTests.Proofs.Names
import AffectedTests.Source.Session
import AffectedTests.Tree.Literal
/-!
# What a specifier spells

A specifier that ends in the name of a file or a directory spells the word of the module that it is
resolved to, whichever of the candidates is the file: with or without its extension, under the extension
of its compiled form, or as a directory with an index file. An index file is known by its directory, so
its own name is not enough: the name before it has to be spelled too.
-/

namespace AffectedTests

/-- A literal without a backslash denotes what it is written as. -/
theorem Literal.value_of_not_mem {t : Tree} {text : Text} (h : t.text = .ok text)
    (hplain : ('\\' : CodePoint) ∉ text) : Literal.value t = .ok (Literal.body text) := by
  -- The decoder copies characters up to a backslash, and there is none.
  have hdecode : ∀ body : Text, ('\\' : CodePoint) ∉ body → decodeFrom 0 body = .ok body := by
    intro body
    induction body with
    | nil => exact fun _ => rfl
    | cons c rest ih =>
      intro hbody
      rw [List.mem_cons, not_or] at hbody
      have hc : ¬ c = ('\\' : CodePoint) := fun heq => hbody.1 heq.symm
      cases rest with
      | nil => rfl
      | cons first after => rw [decodeFrom, if_neg hc, ih hbody.2]; rfl
  have hbody : ('\\' : CodePoint) ∉ Literal.body text := fun hmem =>
    hplain (List.mem_of_mem_drop (List.dropLast_subset _ hmem))
  unfold Literal.value
  rw [h]
  dsimp only
  split
  · exact hdecode _ hbody
  · rfl

namespace Import

/-- A specifier that ends in a proper name; if that is the name of an index, in another one before it. -/
def Plain (specifier : Text) : Prop :=
  ∃ name, Path.Ends specifier [name] ∧ Path.Proper name ∧
    (Path.stem name = "index" →
      ∃ outer, Path.Ends specifier [outer, name] ∧ Path.Proper outer)

variable {m t name outer e : Text} {front : List Text}

/-! ## The word of a module -/

theorem moduleWord_of_stem_ne (h : Path.Ends m [name]) (hstem : Path.stem name ≠ "index") :
    Query.moduleWord m = Path.stem name := by
  unfold Query.moduleWord
  rw [Path.fileName_of_ends h]
  exact if_neg hstem

theorem moduleWord_of_stem_eq (h : Path.Ends m [outer, name]) (houter : outer ≠ [])
    (hstem : Path.stem name = "index") : Query.moduleWord m = outer := by
  rcases Path.eq_of_ends_pair h with ⟨hname, above, rfl, habove⟩
  unfold Query.moduleWord
  rw [Path.fileName_append hname, Path.directory_append hname habove houter,
    Path.fileName_of_ends habove]
  exact if_pos hstem

/-! ## Candidates -/

theorem isExtension_of_sourcesOf {compiled : Text} (h : e ∈ ((sourcesOf.lookup compiled).getD [])) :
    Path.IsExtension e := by
  have hall : ∀ entry ∈ sourcesOf, ∀ e ∈ entry.2, Path.IsExtension e := by decide
  cases hfound : sourcesOf.lookup compiled with
  | none => simp [hfound] at h
  | some sources =>
    rw [hfound] at h
    rcases List.lookup_eq_some_iff.1 hfound with ⟨before, after, hsplit, -⟩
    exact hall (compiled, sources) (by simp [hsplit]) e h

theorem index_proper : Path.Proper "index" :=
  ⟨by decide, (CodePoint.ofChar 'i'), by decide, by decide⟩

theorem ends_base {root directory specifier : Text} {last : List Text} (hne : last ≠ [])
    (h : Path.Ends specifier last) (hproper : ∀ name ∈ last, Path.Proper name) :
    Path.Ends (base root directory specifier) last := by
  unfold base
  refine Path.ends_normalize hne ?_ hproper
  split
  · exact Path.ends_join h
  · split
    · exact h
    · exact Path.ends_join h

/-- The last names of the file that a candidate for a base is. Its own name goes back to the name that
the base ends in: it is that name, that name with another extension, or the name of an index below. -/
theorem ends_of_mem_candidates {extensions : List Text} {candidate : Text}
    (hext : ∀ e ∈ extensions, Path.IsExtension e) (hbase : Path.Ends t (front ++ [name]))
    (hfront : ∀ n ∈ front, Path.Proper n) (hname : Path.Proper name)
    (hmem : candidate ∈ candidates extensions t) (hm : Path.resolve candidate = .ok m) :
    (∃ file, Path.Ends m (front ++ [file]) ∧
        (Path.stem file = Path.stem name ∨ Path.stem file = name)) ∨
      ∃ file, Path.Ends m (front ++ [name, file]) ∧ Path.stem file = "index" := by
  have hresolve : ∀ last, last ≠ [] → Path.Ends candidate (front ++ last) →
      (∀ n ∈ last, Path.Proper n) → Path.Ends m (front ++ last) := by
    intro last hne hends hproper
    refine Path.ends_resolve (by simp [hne]) hends ?_ hm
    intro n hn
    rcases List.mem_append.1 hn with hn | hn
    · exact hfront n hn
    · exact hproper n hn
  -- The four kinds of candidates: the base itself, its sources, an extension added, an index below.
  unfold candidates at hmem
  dsimp only at hmem
  rcases List.mem_append.1 hmem with hmem | hmem
  · rcases List.mem_append.1 hmem with hmem | hmem
    · rcases List.mem_append.1 hmem with hmem | hmem
      · split at hmem
        · rw [List.mem_singleton.1 hmem] at hresolve
          exact .inl ⟨name, hresolve [name] (by simp) hbase (by simpa using hname), .inl rfl⟩
        · cases hmem
      · rcases List.mem_map.1 hmem with ⟨e, he, rfl⟩
        have hextension := isExtension_of_sourcesOf he
        refine .inl ⟨Path.stem name ++ e, ?_, .inl (Path.stem_append_extension hname.stem hextension)⟩
        refine hresolve [Path.stem name ++ e] (by simp)
          (Path.ends_append (Path.ends_stem hbase) hextension.1) ?_
        simpa using hname.stem.append hextension.1
    · rcases List.mem_map.1 hmem with ⟨e, he, rfl⟩
      have hextension := hext e he
      refine .inl ⟨name ++ e, ?_, .inr (Path.stem_append_extension hname hextension)⟩
      refine hresolve [name ++ e] (by simp) (Path.ends_append hbase hextension.1) ?_
      simpa using hname.append hextension.1
  · rcases List.mem_map.1 hmem with ⟨e, he, rfl⟩
    have hextension := hext e he
    have hindex := index_proper.append hextension.1
    refine .inr ⟨"index" ++ e, ?_, Path.stem_append_extension index_proper hextension⟩
    refine hresolve [name, "index" ++ e] (by simp)
      (Path.ends_below hbase hname.ne_nil hindex.separator) ?_
    intro n hn
    rcases List.mem_cons.1 hn with rfl | hn
    · exact hname
    · rw [List.mem_singleton.1 hn]
      exact hindex

theorem resolveImport_eq_some {w : Workspace} {directory specifier : Text} :
    w.resolveImport directory specifier = some m ↔ specifier ≠ [] ∧ ∃ candidate,
      (candidates w.settings.sourceExtensions (base w.root directory specifier)).find? w.disk.isFile =
        some candidate ∧ Path.resolve candidate = .ok m ∧ w.holds m = true := by
  unfold Workspace.resolveImport
  by_cases hnil : specifier = []
  · simp [hnil]
  · rw [if_neg hnil]
    cases (candidates w.settings.sourceExtensions (base w.root directory specifier)).find?
        w.disk.isFile with
    | none => simp
    | some candidate =>
      dsimp only
      constructor
      · intro h
        split at h
        · rename_i path hpath
          split at h
          · rename_i hholds
            cases h
            exact ⟨hnil, candidate, rfl, hpath, hholds⟩
          · cases h
        · cases h
      · rintro ⟨-, _, ⟨⟩, hpath, hholds⟩
        rw [hpath]
        exact if_pos hholds

theorem exists_candidate {w : Workspace} {directory specifier : Text}
    (h : w.resolveImport directory specifier = some m) :
    ∃ candidate ∈ candidates w.settings.sourceExtensions (base w.root directory specifier),
      Path.resolve candidate = .ok m := by
  rcases resolveImport_eq_some.1 h with ⟨-, candidate, hfound, hpath, -⟩
  exact ⟨candidate, List.mem_of_find?_eq_some hfound, hpath⟩

theorem stem_index : Path.stem "index" = "index" := by decide

/-- A specifier that ends in a proper name spells the word of the module that it is resolved to. -/
theorem moduleWord_spelled {w : Workspace} {directory specifier : Text}
    (hext : ∀ e ∈ w.settings.sourceExtensions, Path.IsExtension e) (hplain : Plain specifier)
    (h : w.resolveImport directory specifier = some m) : Query.moduleWord m <:+: specifier := by
  rcases hplain with ⟨name, hname, hproper, houter⟩
  rcases exists_candidate h with ⟨candidate, hmem, hm⟩
  have hspelled : name <:+: specifier := (Path.suffix_of_ends hname).isInfix
  by_cases hindex : Path.stem name = "index"
  · -- The name is that of an index, so the word is the name before it, or the name of a directory.
    rcases houter hindex with ⟨outer, hpair, hproper'⟩
    have hbase : Path.Ends (base w.root directory specifier) ([outer] ++ [name]) :=
      ends_base (by simp) hpair (by simp [hproper, hproper'])
    rcases ends_of_mem_candidates hext hbase (by simpa using hproper') hproper hmem hm with
      ⟨file, hfile, hstem⟩ | ⟨file, hfile, hstem⟩
    · by_cases hfileIndex : Path.stem file = "index"
      · rw [moduleWord_of_stem_eq hfile hproper'.ne_nil hfileIndex]
        exact Path.infix_of_ends_pair hpair
      · have hlast : Path.Ends m [file] := (List.suffix_cons outer [file]).trans hfile
        rw [moduleWord_of_stem_ne hlast hfileIndex]
        rcases hstem with hstem | hstem
        · exact absurd (hstem.trans hindex) hfileIndex
        · rw [hstem]
          exact hspelled
    · have hlast : Path.Ends m [name, file] := (List.suffix_cons outer [name, file]).trans hfile
      rw [moduleWord_of_stem_eq hlast hproper.ne_nil hstem]
      exact hspelled
  · have hbase : Path.Ends (base w.root directory specifier) ([] ++ [name]) :=
      ends_base (by simp) hname (by simpa using hproper)
    rcases ends_of_mem_candidates hext hbase (by simp) hproper hmem hm with
      ⟨file, hfile, hstem | hstem⟩ | ⟨file, hfile, hstem⟩
    · rw [moduleWord_of_stem_ne hfile (by rw [hstem]; exact hindex), hstem]
      exact (Path.stem_prefix_self name).isInfix.trans hspelled
    · have hother : name ≠ "index" := by
        rintro rfl
        exact hindex stem_index
      rw [moduleWord_of_stem_ne hfile (by rw [hstem]; exact hother), hstem]
      exact hspelled
    · rw [moduleWord_of_stem_eq hfile hproper.ne_nil hstem]
      exact hspelled

end Import

end AffectedTests
