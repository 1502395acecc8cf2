import AffectedTests.Proofs.Listings
import AffectedTests.Proofs.Lookups
import AffectedTests.Proofs.Normalizing
import AffectedTests.Proofs.Spelling
/-!
# Every project file can be imported

A file of the project is named in an import by the way to it from the importing directory, and resolving
that specifier gives the file back: the way there is undone by joining and normalising, and the file is the
first candidate. Without its extension it is found too, unless another candidate comes first. Whatever is
resolved is a file below the root.

- `Import.base_dotted_steps`: what the way to a path is read as.
- `Workspace.resolveImport_specifier`, `Workspace.resolveImport_short`: how a file is found.
- `Workspace.inside_of_resolveImport`: what is resolved is a file below the root.
- `Query.resolve_exact`: the three together, for every session.
-/

namespace AffectedTests

/-! ## Below a directory -/

namespace Path

variable {root file : Text} {parts : List Text}

theorem Inside.exists_names (hroot : resolve root = .ok root) (h : Inside root file) :
    ∃ parts, file = ofNames parts ∧ ∀ name ∈ parts, Plain name := by
  rcases h with ⟨parts, -, hparts, rfl⟩
  exact ⟨_, rfl, List.forall_mem_append.2 ⟨(ofNames_names_of_resolve hroot).2, hparts⟩⟩

theorem Inside.names_ne_nil (hroot : resolve root = .ok root) (h : Inside root file) : names file ≠ [] := by
  rcases h with ⟨parts, hne, hparts, rfl⟩
  rw [names_ofNames (List.forall_mem_append.2 ⟨(ofNames_names_of_resolve hroot).2, hparts⟩)]
  exact List.append_ne_nil_of_right_ne_nil _ hne

/-- Whoever is in a directory that lies on the way of a path, or below it, is below that path. -/
theorem inside_of_dropLast (hparts : ∀ name ∈ parts, Plain name) (hfile : names file ≠ [])
    {tail : List Text}
    (h : parts.dropLast = names file ++ tail) : Inside file (ofNames parts) := by
  rcases List.eq_nil_or_concat parts with rfl | ⟨front, name, rfl⟩
  · exact absurd (List.append_eq_nil_iff.1 h.symm).1 hfile
  · rw [List.concat_eq_append] at h hparts ⊢
    rw [List.dropLast_concat] at h
    refine ⟨tail ++ [name], by simp, fun n hn => hparts n ?_, by rw [h, List.append_assoc]⟩
    rw [h, List.append_assoc]
    exact List.mem_append_right _ hn

end Path

namespace Text

/-- What is appended to the last piece is appended to the text. -/
theorem join_concat_append {sep : Text} (pieces : List Text) (piece tail : Text) :
    join sep (pieces ++ [piece ++ tail]) = join sep (pieces ++ [piece]) ++ tail := by
  cases pieces with
  | nil => simp [join]
  | cons first rest =>
    rw [join_append (List.cons_ne_nil first rest) (List.cons_ne_nil _ []),
      join_append (List.cons_ne_nil first rest) (List.cons_ne_nil _ [])]
    simp [join]

/-- The first item that passes a test, if none before it does. -/
theorem find?_eq_some_of_takeWhile {items : List Text} {item : Text} {p : Text → Bool} (hmem : item ∈ items)
    (hitem : p item = true) (h : ∀ x ∈ items.takeWhile (· ≠ item), p x = false) :
    items.find? p = some item := by
  induction items with
  | nil => cases hmem
  | cons x rest ih =>
    by_cases hx : x = item
    · rw [hx, List.find?_cons_of_pos hitem]
    · rw [List.takeWhile_cons, if_pos (decide_eq_true hx)] at h
      rcases List.forall_mem_cons.1 h with ⟨hfirst, hrest⟩
      rw [List.find?_cons_of_neg (by simp [hfirst])]
      exact ih ((List.mem_cons.1 hmem).resolve_left fun heq => hx heq.symm) hrest

end Text

/-! ## Specifiers -/

namespace Import

/-- A way in the form of a specifier that is read from the importing directory: it begins with a dot. -/
def dotted (way : Text) : Text :=
  if way.startsWith "." then way else ("./" : Text) ++ way

/-- How a file is named in an import from a directory. -/
def specifier (directory file : Text) : Text :=
  dotted (Path.relativeTo directory file)

/-- The candidates that are tried before a file. -/
def triedBefore (file : Text) (extensions : List Text) (base : Text) : List Text :=
  (candidates extensions base).takeWhile (· ≠ file)

variable {way tail t : Text} {parts common up down : List Text}

theorem startsWith_dotted (way : Text) : (dotted way).startsWith "." = true := by
  unfold dotted
  split
  · assumption
  · rfl

theorem dotted_ne_nil (way : Text) : dotted way ≠ [] := by
  intro hnil
  have hdot := startsWith_dotted way
  rw [hnil] at hdot
  cases hdot

theorem isAbsolute_of_startsWith (h : t.startsWith "." = true) : Path.isAbsolute t = false := by
  rcases List.isPrefixOf_iff_prefix.1 h with ⟨rest, rfl⟩
  rfl

theorem dotted_append (h : way ≠ []) : dotted (way ++ tail) = dotted way ++ tail := by
  cases way with
  | nil => exact absurd rfl h
  | cons c rest =>
    have hstarts : Text.startsWith (c :: rest ++ tail) "." = Text.startsWith (c :: rest) "." := by
      simp [Text.startsWith, Text.ofString, List.isPrefixOf]
    unfold dotted
    rw [hstarts]
    split
    · rfl
    · rw [List.append_assoc]

theorem base_dotted {root : Text} (hparts : ∀ name ∈ parts, Path.Plain name)
    (h : Path.isAbsolute way = false) :
    base root (Path.ofNames parts) (dotted way) = Path.place (Path.join (Path.ofNames parts) way) := by
  have hstarts := startsWith_dotted way
  unfold base
  rw [if_pos hstarts, Path.normalize_join hparts (isAbsolute_of_startsWith hstarts)]
  unfold dotted
  split
  · rfl
  · exact Path.place_join_here hparts h

/-- The way up and down from a directory is read as the path that it leads to. -/
theorem base_dotted_steps {root : Text} (hplain : ∀ name ∈ common ++ up, Path.Plain name)
    (hdown : ∀ name ∈ down, Path.Plain name) :
    base root (Path.ofNames (common ++ up)) (dotted (Path.relativeTo.steps up down)) =
      Path.ofNames (common ++ down) := by
  rw [base_dotted hplain (Path.isAbsolute_steps hdown), Path.place, Path.names_join_steps hplain hdown]

theorem steps_append_extension (up front : List Text) (name e : Text) :
    Path.relativeTo.steps up (front ++ [name ++ e]) = Path.relativeTo.steps up (front ++ [name]) ++ e := by
  unfold Path.relativeTo.steps
  simp only [← List.append_assoc, List.isEmpty_iff, List.append_eq_nil_iff, List.cons_ne_nil, and_false,
    if_false]
  exact Text.join_concat_append _ name e

theorem steps_ne_nil {up down : List Text} (hdown : ∀ name ∈ down, Path.Plain name) :
    Path.relativeTo.steps up down ≠ [] := by
  intro hnil
  have hempty : [] ∈ (Path.relativeTo.steps up down).splitOn Path.separator := by
    rw [hnil]
    exact List.mem_singleton_self []
  rcases Path.of_mem_splitOn_steps hdown hempty with h | h | h
  · cases h
  · cases h
  · exact (hdown [] h).ne_nil rfl

theorem exists_steps {starts names : List Text} (hstarts : ∀ name ∈ starts, Path.Plain name)
    (hnames : ∀ name ∈ names, Path.Plain name) :
    ∃ common up down, starts = common ++ up ∧ names = common ++ down ∧
      specifier (Path.ofNames starts) (Path.ofNames names) = dotted (Path.relativeTo.steps up down) := by
  rcases Path.exists_shorten starts names with ⟨common, up, down, hup, hdown, hsteps⟩
  refine ⟨common, up, down, hup, hdown, ?_⟩
  rw [specifier, Path.relativeTo, Path.names_ofNames hstarts, Path.names_ofNames hnames, hsteps]

/-! ## Absolute candidates -/

theorem isAbsolute_base {root directory : Text} (hroot : Path.isAbsolute root = true)
    (hdirectory : Path.isAbsolute directory = true) (specifier : Text) :
    Path.isAbsolute (base root directory specifier) = true := by
  unfold base
  refine Path.isAbsolute_normalize ?_
  split
  · exact Path.isAbsolute_join hdirectory
  · split
    · assumption
    · exact Path.isAbsolute_join hroot

theorem isAbsolute_of_mem_candidates {extensions : List Text} {candidate : Text}
    (h : Path.isAbsolute t = true) (hmem : candidate ∈ candidates extensions t) :
    Path.isAbsolute candidate = true := by
  unfold candidates at hmem
  simp only [List.mem_append, List.mem_map] at hmem
  rcases hmem with ((hmem | ⟨e, -, rfl⟩) | ⟨e, -, rfl⟩) | ⟨e, -, rfl⟩
  · split at hmem
    · rwa [List.mem_singleton.1 hmem]
    · cases hmem
  · exact Path.isAbsolute_append (Path.isAbsolute_stem h)
  · exact Path.isAbsolute_append h
  · exact Path.isAbsolute_join h

end Import

/-! ## Files of a project -/

/-- Nothing lies below a file, so a file is not below another one. -/
theorem Disk.not_inside_of_isFile {d : Disk} {file file' : Text} (hfile : Path.resolve file = .ok file)
    (h : d.isFile file = true) (h' : d.isFile file' = true) : ¬ Path.Inside file file' := by
  rintro ⟨parts, hparts, hplain, rfl⟩
  rcases Path.ofNames_names_of_resolve hfile with ⟨hnames, hplain'⟩
  rcases isFile_iff.1 h with ⟨bytes, hbytes⟩
  rcases isFile_iff.1 h' with ⟨bytes', hbytes'⟩
  unfold lookup at hbytes hbytes'
  split at hbytes
  · cases hbytes
  · split at hbytes'
    · cases hbytes'
    · rw [← hnames, follow_splitOn_ofNames hplain'] at hbytes
      rw [follow_splitOn_ofNames (List.forall_mem_append.2 ⟨hplain', hplain⟩),
        follow_append_of_file hbytes hparts] at hbytes'
      cases hbytes'

namespace Workspace

variable {w : Workspace} {file path : Text}

theorem holds_of_inside (hroot : Path.resolve w.root = .ok w.root) (hne : w.root ≠ "/")
    (h : Path.Inside w.root file) : w.holds file = true := by
  rcases h with ⟨parts, hparts, -, rfl⟩
  have hnames := (Path.ofNames_names_of_resolve hroot).1
  have hnonempty : Path.names w.root ≠ [] := by
    intro hnil
    rw [hnil] at hnames
    exact hne hnames.symm
  have hstarts : Text.startsWith (Path.ofNames (Path.names w.root ++ parts)) (w.root ++ [Path.separator]) =
      true := by
    rw [Path.ofNames_append hnonempty hparts, hnames]
    exact List.isPrefixOf_iff_prefix.2 ⟨Text.join [Path.separator] parts, by simp⟩
  rw [holds, hstarts, Bool.or_true]

/-- What is held beside the root is below it. -/
theorem inside_of_holds (hroot : Path.resolve w.root = .ok w.root) (hpath : Path.resolve path = .ok path)
    (hne : path ≠ w.root) (h : w.holds path = true) : Path.Inside w.root path := by
  rcases Path.ofNames_names_of_resolve hroot with ⟨hnames, hplain⟩
  rcases Path.ofNames_names_of_resolve hpath with ⟨hnames', hplain'⟩
  rw [holds, Bool.or_eq_true, decide_eq_true_eq] at h
  rcases List.isPrefixOf_iff_prefix.1 (h.resolve_left hne) with ⟨rest, hrest⟩
  rw [List.append_assoc, List.singleton_append] at hrest
  -- The root of the disk has no names; behind the names of any other root, the path has those of the rest.
  cases hroots : Path.names w.root with
  | nil =>
    refine ⟨Path.names path, ?_, hplain', by rw [hroots, List.nil_append, hnames']⟩
    intro hnil
    rw [hroots] at hnames
    rw [hnil, hnames] at hnames'
    exact hne hnames'.symm
  | cons name names =>
    have hsplit := congrArg (Text.splitOn Path.separator) hrest
    rw [Text.splitOn_append, ← hnames,
      Path.splitOn_ofNames (by rw [hroots]; exact List.cons_ne_nil _ _) hplain]
      at hsplit
    have hpathnames : Path.names path ≠ [] := by
      intro hnil
      rw [hnil] at hnames'
      have hlength := congrArg List.length hrest
      rw [← hnames', ← hnames] at hlength
      simp [Path.ofNames, Text.join] at hlength
    rw [← hnames', Path.splitOn_ofNames hpathnames hplain', List.cons_append, List.cons.injEq] at hsplit
    refine ⟨Text.splitOn Path.separator rest, Text.splitOn_ne_nil _ _, ?_, ?_⟩
    · intro name hname
      exact hplain' name (hsplit.2 ▸ List.mem_append_right _ hname)
    · rw [hsplit.2, hnames']

variable {directory specifier candidate : Text} {starts : List Text}

/-- A file below the root is resolved to itself. -/
theorem resolve_of_isFile (hroot : Path.resolve w.root = .ok w.root) (hinside : Path.Inside w.root file)
    (hfile : w.disk.isFile file = true) : Path.resolve file = .ok file := by
  rcases Disk.isFile_iff.1 hfile with ⟨bytes, hbytes⟩
  rcases Disk.exists_resolve_of_lookup hbytes with ⟨path, hpath⟩
  rw [hpath, hinside.eq_of_resolve hroot hpath]

/-- A candidate that is a file of the project is found, if no file is tried before it. -/
theorem resolveImport_of_candidate (hroot : Path.resolve w.root = .ok w.root) (hne : w.root ≠ "/")
    (hinside : Path.Inside w.root file) (hfile : w.disk.isFile file = true) (hspecifier : specifier ≠ [])
    (hmem : file ∈ Import.candidates w.settings.sourceExtensions (Import.base w.root directory specifier))
    (htried : ∀ c ∈ Import.triedBefore file w.settings.sourceExtensions
      (Import.base w.root directory specifier), w.disk.isFile c = false) :
    w.resolveImport directory specifier = some file :=
  Import.resolveImport_eq_some.2 ⟨hspecifier, file, Text.find?_eq_some_of_takeWhile hmem hfile htried,
    resolve_of_isFile hroot hinside hfile, holds_of_inside hroot hne hinside⟩

/-- The specifier of a file leads to it from every directory. -/
theorem resolveImport_specifier (hroot : Path.resolve w.root = .ok w.root) (hne : w.root ≠ "/")
    (hinside : Path.Inside w.root file) (hfile : w.disk.isFile file = true)
    (hextension : (Path.extension file).lower ∈ w.settings.sourceExtensions)
    (hstarts : ∀ name ∈ starts, Path.Plain name) :
    w.resolveImport (Path.ofNames starts) (Import.specifier (Path.ofNames starts) file) = some file := by
  rcases hinside.exists_names hroot with ⟨names, hnames, hplain⟩
  rcases Import.exists_steps hstarts hplain with ⟨common, up, down, rfl, rfl, hsteps⟩
  have hdown : ∀ name ∈ down, Path.Plain name := fun name hname => hplain name (by simp [hname])
  have hbase : Import.base w.root (Path.ofNames (common ++ up))
      (Import.specifier (Path.ofNames (common ++ up)) file) = file := by
    rw [hnames, hsteps, Import.base_dotted_steps hstarts hdown]
  have hfirst : ∃ rest, Import.candidates w.settings.sourceExtensions file = file :: rest := by
    unfold Import.candidates
    dsimp only
    rw [if_pos (List.contains_iff_mem.2 hextension)]
    exact ⟨_, rfl⟩
  rcases hfirst with ⟨rest, hfirst⟩
  refine resolveImport_of_candidate hroot hne hinside hfile (Import.dotted_ne_nil _) ?_ ?_
  · rw [hbase, hfirst]
    exact List.mem_cons_self
  · rw [hbase, Import.triedBefore, hfirst]
    simp

/-- The specifier without the extension leads to the file too, if no file is tried before it. -/
theorem resolveImport_short (hroot : Path.resolve w.root = .ok w.root) (hne : w.root ≠ "/")
    (hinside : Path.Inside w.root file) (hfile : w.disk.isFile file = true)
    (hextension : Path.extension file ∈ w.settings.sourceExtensions)
    (hstarts : ∀ name ∈ starts, Path.Plain name) (hbelow : ¬ ∃ tail, starts = Path.names file ++ tail) :
    ∃ short, Import.specifier (Path.ofNames starts) file = short ++ Path.extension file ∧
      ((∀ c ∈ Import.triedBefore file w.settings.sourceExtensions
          (Import.base w.root (Path.ofNames starts) short), w.disk.isFile c = false) →
        w.resolveImport (Path.ofNames starts) short = some file) := by
  rcases hinside.exists_names hroot with ⟨names, hnames, hplain⟩
  rw [hnames, Path.names_ofNames hplain] at hbelow
  rcases Import.exists_steps hstarts hplain with ⟨common, up, down, rfl, rfl, hsteps⟩
  -- The way goes down to the file, since the importing directory is not below it.
  rcases List.eq_nil_or_concat down with rfl | ⟨front, name, rfl⟩
  · exact absurd ⟨up, by simp⟩ hbelow
  rw [List.concat_eq_append] at hnames hplain hsteps
  have hname : Path.Plain name := hplain name (by simp)
  have hextends := Path.stem_append_extension_self hname.separator
  have hfileExtension : Path.extension file = Path.extension name := by
    rw [hnames, ← List.append_assoc, Path.extension_ofNames hname.separator]
  have hdown : ∀ n ∈ front ++ [Path.stem name], Path.Plain n := by
    refine List.forall_mem_append.2 ⟨fun n hn => hplain n (by simp [hn]), ?_⟩
    exact List.forall_mem_singleton.2 hname.stem
  have hway : Path.relativeTo.steps up (front ++ [Path.stem name]) ≠ [] := Import.steps_ne_nil hdown
  refine ⟨Import.dotted (Path.relativeTo.steps up (front ++ [Path.stem name])), ?_, ?_⟩
  · rw [hfileExtension, ← Import.dotted_append hway, ← Import.steps_append_extension, hextends, hnames,
      hsteps]
  · intro htried
    refine resolveImport_of_candidate hroot hne hinside hfile (Import.dotted_ne_nil _) ?_ htried
    rw [Import.base_dotted_steps hstarts hdown]
    -- The extension is appended to the last name, and the path is that of the file.
    have hcandidate :
        Path.ofNames (common ++ (front ++ [Path.stem name])) ++ Path.extension file = file := by
      rw [hfileExtension, Path.ofNames, List.cons_append, ← List.append_assoc, ← Text.join_concat_append,
        hextends, List.append_assoc, hnames, Path.ofNames]
    have hmem :=
      List.mem_map_of_mem (f := (Path.ofNames (common ++ (front ++ [Path.stem name])) ++ ·)) hextension
    rw [hcandidate] at hmem
    unfold Import.candidates
    exact List.mem_append_left _ (List.mem_append_right _ hmem)

/-- Whatever is resolved is a file, and it lies below the root. -/
theorem inside_of_resolveImport (hroot : Path.resolve w.root = .ok w.root)
    (hproject : w.disk.isFile w.root = false) (hdirectory : Path.isAbsolute directory = true)
    (h : w.resolveImport directory specifier = some path) :
    w.disk.isFile path = true ∧ Path.Inside w.root path := by
  rcases Import.resolveImport_eq_some.1 h with ⟨-, candidate, hfound, hpath, hholds⟩
  have hbase := Import.isAbsolute_base (Path.isAbsolute_of_resolve hroot) hdirectory specifier
  have habsolute := Import.isAbsolute_of_mem_candidates hbase (List.mem_of_find?_eq_some hfound)
  rcases Disk.isFile_iff.1 (List.find?_some hfound) with ⟨bytes, hbytes⟩
  have hfile : w.disk.isFile path = true :=
    Disk.isFile_iff.2 ⟨bytes, Disk.lookup_of_resolve habsolute hpath hbytes⟩
  refine ⟨hfile, inside_of_holds hroot (Path.resolve_resolve hpath) ?_ hholds⟩
  rintro rfl
  rw [hproject] at hfile
  cases hfile

end Workspace

/-! ## What imports are resolved to -/

/-- What imports are resolved to, in every session whose answers are those of the disk. Unless the root is
that of the disk, every source file below it is found under its specifier, whichever file imports it; and
without its extension, if that is written as in the settings and no file is tried before it. Only an
importer below the file itself is left out there, and nothing is below a file
(`Disk.not_inside_of_isFile`). Whatever an import is resolved to is a file below the root. -/
theorem Query.resolve_exact {w : Workspace} {s : Session} (hs : ({} : Session).Alike w s)
    (hroot : Path.resolve w.root = .ok w.root) (hproject : w.disk.isFile w.root = false) :
    (∀ importer path file, w.root ≠ "/" → Path.resolve importer = .ok path → Path.Inside w.root file →
      w.disk.isFile file = true → (Path.extension file).lower ∈ w.settings.sourceExtensions →
      (resolve importer (Import.specifier (Path.directory path) file)).answer w s = .ok (some file) ∧
      (Path.extension file ∈ w.settings.sourceExtensions → ¬ Path.Inside file path →
        ∃ short, Import.specifier (Path.directory path) file = short ++ Path.extension file ∧
          ((∀ c ∈ Import.triedBefore file w.settings.sourceExtensions
              (Import.base w.root (Path.directory path) short), w.disk.isFile c = false) →
            (resolve importer short).answer w s = .ok (some file)))) ∧
    ∀ importer specifier file, (resolve importer specifier).answer w s = .ok (some file) →
      w.disk.isFile file = true ∧ Path.Inside w.root file := by
  have hanswer : ∀ {importer path specifier}, Path.resolve importer = .ok path →
      (resolve importer specifier).answer w s = .ok (w.resolveImport (Path.directory path) specifier) := by
    intro importer path specifier hpath
    rw [answer_resolve, hpath]
    exact congrArg Except.ok (hs.imports _ _)
  constructor
  · intro importer path file hne hpath hinside hfile hextension
    rcases Path.exists_ofNames_of_resolve hpath with ⟨parts, rfl, hparts⟩
    have hplain := fun name hname => (hparts name hname).1
    have hstarts : ∀ name ∈ parts.dropLast, Path.Plain name := fun name hname =>
      hplain name (List.dropLast_subset _ hname)
    rw [hanswer hpath, Path.directory_ofNames hplain]
    refine ⟨congrArg Except.ok
      (Workspace.resolveImport_specifier hroot hne hinside hfile hextension hstarts), ?_⟩
    intro hwritten hapart
    have hbelow : ¬ ∃ tail, parts.dropLast = Path.names file ++ tail := fun ⟨tail, htail⟩ =>
      hapart (Path.inside_of_dropLast hplain (hinside.names_ne_nil hroot) htail)
    rcases Workspace.resolveImport_short hroot hne hinside hfile hwritten hstarts hbelow with
      ⟨short, hshort, hfound⟩
    refine ⟨short, hshort, fun htried => ?_⟩
    rw [hanswer hpath, Path.directory_ofNames hplain, hfound htried]
  · intro importer specifier file h
    cases hpath : Path.resolve importer with
    | error fault =>
      rw [answer_resolve, hpath] at h
      cases h
    | ok path =>
      rw [hanswer hpath] at h
      rcases Path.exists_ofNames_of_resolve hpath with ⟨parts, rfl, hparts⟩
      rw [Path.directory_ofNames fun name hname => (hparts name hname).1] at h
      exact Workspace.inside_of_resolveImport hroot hproject (Path.isAbsolute_ofNames _) (Except.ok.inj h)

/-! ## An example -/

namespace Unwritten

/-- A project with the files `a.js` and `b/c.js`. -/
def workspace : Workspace where
  root := "/p"
  settings := { sourceExtensions := [".ts", ".js"] }
  grammars _ _ := .node ⟨.program, true, none, 0, 0, 0, 0, []⟩ []
  disk := [.directory [112] [.file [97, 46, 106, 115] [],
    .directory [98] [.file [99, 46, 106, 115] []]]]

/-- The file `b/c.js` imports `a.js`, with its extension and without it. -/
theorem resolve_exact_written :
    (Query.resolve "/p/b/c.js" "../a.js").answer workspace {} = .ok (some ("/p/a.js" : Text)) ∧
      (Query.resolve "/p/b/c.js" "../a").answer workspace {} = .ok (some ("/p/a.js" : Text)) := by
  have hinside : Path.Inside workspace.root "/p/a.js" :=
    ⟨[("a.js" : Text)], by decide, by decide, by decide⟩
  have hexact := (Query.resolve_exact (.refl workspace {}) (by decide) (by decide)).1
    "/p/b/c.js" "/p/b/c.js" "/p/a.js" (by decide) (by decide) hinside (by decide) (by decide)
  have hapart : ¬ Path.Inside "/p/a.js" "/p/b/c.js" :=
    Disk.not_inside_of_isFile (d := workspace.disk) (by decide) (by decide) (by decide)
  rcases hexact.2 (by decide) hapart with ⟨short, hshort, hfound⟩
  have hspecifier : Import.specifier (Path.directory "/p/b/c.js") "/p/a.js" =
      ("../a" : Text) ++ Path.extension "/p/a.js" := by decide
  rw [hspecifier] at hshort
  rw [← List.append_cancel_right hshort] at hfound
  exact ⟨hexact.1, hfound (by decide)⟩

end Unwritten

end AffectedTests
