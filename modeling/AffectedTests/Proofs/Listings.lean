import AffectedTests.Proofs.Places
import AffectedTests.Proofs.Routes
import AffectedTests.Source.Workspace
/-!
# Listed files lie below the root

A listing goes down from the root, from name to name. So the path of a listed file consists of the names of
the root and more names, and whoever reads it from the root and joins it with the root again gets the same
path, letter by letter. A way goes on below a directory only if its path is not too long.

- `Path.Inside`: a file below a directory.
- `Entry.mem_filesBelow_iff_holdsFile`: what a listing holds, by the ways down to files.
- `Entry.lt_depthBelow_iff`: how deep a listing goes, by the ways down to directories.
- `Path.Inside.join_relativeTo`: such a file is found again under the way to it.
- `Workspace.inside_of_mem_sourceFiles`: the source files of a project are below its root.
-/

namespace AffectedTests

namespace Path

variable {root file : Text}

/-- A file below a directory: its names are those of the directory and at least one more. -/
def Inside (root file : Text) : Prop :=
  ∃ parts, parts ≠ [] ∧ (∀ name ∈ parts, Plain name) ∧ file = ofNames (names root ++ parts)

/-- A root that is resolved consists of its names. -/
theorem ofNames_names_of_resolve (hroot : resolve root = .ok root) :
    ofNames (names root) = root ∧ ∀ name ∈ names root, Plain name := by
  rcases exists_ofNames_of_resolve hroot with ⟨parts, rfl, hparts⟩
  have hplain := fun name hname => (hparts name hname).1
  rw [names_ofNames hplain]
  exact ⟨rfl, hplain⟩

theorem Inside.join_relativeTo (hroot : resolve root = .ok root) (h : Inside root file) :
    join root (relativeTo root file) = file := by
  rcases h with ⟨parts, hne, hparts, rfl⟩
  rcases ofNames_names_of_resolve hroot with ⟨hnames, hplain⟩
  have hback : relativeTo root (ofNames (names root ++ parts)) = Text.join [separator] parts := by
    have hthere := relativeTo_place_join hroot ⟨parts, hne, hparts, rfl⟩
    rwa [← hnames, place_join hplain hne hparts, hnames] at hthere
  rw [hback]
  exact (congrArg (join · _) hnames.symm).trans (join_ofNames hplain hne hparts)

/-- What a path below the root, as a change writes it, is resolved to. -/
theorem inside_of_resolve_join (hroot : resolve root = .ok root) {p : Text} (hp : Tidy p)
    (h : resolve (join root p) = .ok file) : Inside root file := by
  rcases hp with ⟨parts, hne, hparts, rfl⟩
  rcases ofNames_names_of_resolve hroot with ⟨hnames, hplain⟩
  refine ⟨parts, hne, hparts, ?_⟩
  rw [← place_join hplain hne hparts, hnames]
  exact (place_of_resolve h).symm

/-- A path without detours is resolved to itself. -/
theorem Inside.eq_of_resolve (hroot : resolve root = .ok root) {file' : Text} (h : Inside root file)
    (hfile : resolve file = .ok file') : file' = file := by
  rcases h with ⟨parts, -, hparts, rfl⟩
  rw [← place_of_resolve hfile]
  exact place_ofNames (List.forall_mem_append.2 ⟨(ofNames_names_of_resolve hroot).2, hparts⟩)

end Path

/-! ## Ways down to a file -/

/-- A way down to a file: the directories that it enters, and the name of the file. -/
structure Route where
  directories : List Text
  name : Text

namespace Route

/-- The path that a way ends at, if it begins at a directory with these names. -/
def path (parts : List Text) (r : Route) : Text :=
  Path.ofNames (parts ++ r.directories ++ [r.name])

variable {parts : List Text}

theorem path_cons {directory name : Text} {directories : List Text} :
    path parts ⟨directory :: directories, name⟩ = path (parts ++ [directory]) ⟨directories, name⟩ := by
  simp [path]

theorem join_name {name : Text} (hparts : ∀ name ∈ parts, Path.Plain name) (hname : Path.Plain name) :
    Path.join (Path.ofNames parts) name = path parts ⟨[], name⟩ := by
  rw [Path.join_ofNames_name hparts hname, path, List.append_nil]

end Route

/-! ## Going down -/

/-- The names on a disk are names that lead down, as those of every file system are. -/
def Disk.Named (d : Disk) : Prop :=
  ∀ e, Below d e → Path.Plain (Path.spelled e.name)

namespace Disk.Named

theorem of_all {d : Disk} (h : allNamedIn (fun name => decide (Path.Plain (Path.spelled name))) d = true) :
    d.Named :=
  fun _ he => of_decide_eq_true (he.name_passes h)

variable {entries inner : List Entry} {stored contents : Bytes}

theorem plain_file (h : Disk.Named entries) (he : .file stored contents ∈ entries) :
    Path.Plain (Path.spelled stored) :=
  h _ (.here he)

theorem plain_directory (h : Disk.Named entries) (he : .directory stored inner ∈ entries) :
    Path.Plain (Path.spelled stored) :=
  h _ (.here he)

theorem inside (h : Disk.Named entries) (he : .directory stored inner ∈ entries) : Disk.Named inner :=
  fun e hbelow => h e (.inside he hbelow)

end Disk.Named

/-- The directories that are entered one after the other from a directory with these names can be opened:
their paths are not too long. -/
def Disk.Opens (parts : List Text) : List Text → Prop
  | [] => True
  | name :: rest => isTooLong (Path.ofNames (parts ++ [name])) = false ∧ Opens (parts ++ [name]) rest

namespace Entry

variable {keep enter : Text → Bool} {path file : Text} {entries : List Entry}

/-- A tree holds a file at the end of a way. -/
inductive HoldsFile : List Entry → Route → Prop
  | here {entries : List Entry} {stored contents : Bytes} :
      .file stored contents ∈ entries → HoldsFile entries ⟨[], Path.spelled stored⟩
  | inside {entries inner : List Entry} {stored : Bytes} {directories : List Text} {name : Text} :
      .directory stored inner ∈ entries → HoldsFile inner ⟨directories, name⟩ →
      HoldsFile entries ⟨Path.spelled stored :: directories, name⟩

/-- The names of a way to a file are names of entries. -/
theorem HoldsFile.exists_below {r : Route} (h : HoldsFile entries r) :
    ∀ name ∈ r.directories ++ [r.name], ∃ e, Disk.Below entries e ∧ Path.spelled e.name = name := by
  induction h with
  | here he => exact List.forall_mem_singleton.2 ⟨_, .here he, rfl⟩
  | inside he _ ih =>
    refine List.forall_mem_cons.2 ⟨⟨_, .here he, rfl⟩, fun name hname => ?_⟩
    exact (ih name hname).imp fun e hbelow => ⟨.inside he hbelow.1, hbelow.2⟩

theorem HoldsFile.plain {r : Route} (h : HoldsFile entries r) (hnamed : Disk.Named entries) :
    ∀ name ∈ r.directories ++ [r.name], Path.Plain name := by
  intro name hname
  rcases h.exists_below name hname with ⟨e, hbelow, rfl⟩
  exact hnamed e hbelow

/-- A directory is larger than the directories in it. -/
theorem sizeOf_lt_of_mem {stored : Bytes} {inner : List Entry} (h : .directory stored inner ∈ entries) :
    sizeOf inner < sizeOf entries := by
  have hentry := List.sizeOf_lt_of_mem h
  simp only [directory.sizeOf_spec] at hentry
  omega

/-- A directory that passes a test, with the files below it. -/
def subdirectory? (keep enter : Text → Bool) (path : Text) : Entry → Option (Text × List Text)
  | .file _ _ => none
  | .directory stored inner =>
    if enter (Path.spelled stored) then
      some (Path.spelled stored, if Disk.isTooLong (Path.join path (Path.spelled stored)) then []
        else filesBelow keep enter (Path.join path (Path.spelled stored)) inner)
    else none

theorem subdirectories_eq :
    subdirectories keep enter path entries = entries.filterMap (subdirectory? keep enter path) := by
  induction entries with
  | nil => rw [subdirectories, List.filterMap_nil]
  | cons e rest ih =>
    cases e with
    | file stored contents => rw [subdirectories, ih, List.filterMap_cons_none rfl]
    | directory stored inner =>
      rw [subdirectories, ih]
      by_cases henter : enter (Path.spelled stored) = true
      · rw [if_pos henter, List.filterMap_cons_some (by rw [subdirectory?, if_pos henter])]
      · rw [if_neg henter, List.filterMap_cons_none (by rw [subdirectory?, if_neg henter])]

theorem subdirectory?_eq_some {e : Entry} {sub : Text × List Text} :
    subdirectory? keep enter path e = some sub ↔ ∃ stored inner, e = .directory stored inner ∧
      enter (Path.spelled stored) = true ∧ sub = (Path.spelled stored,
        if Disk.isTooLong (Path.join path (Path.spelled stored)) then []
        else filesBelow keep enter (Path.join path (Path.spelled stored)) inner) := by
  cases e with
  | file stored contents => simp [subdirectory?]
  | directory stored inner =>
    simp only [subdirectory?, Option.ite_none_right_eq_some, Option.some.injEq, directory.injEq]
    constructor
    · rintro ⟨henter, rfl⟩
      exact ⟨stored, inner, ⟨rfl, rfl⟩, henter, rfl⟩
    · rintro ⟨stored', inner', ⟨rfl, rfl⟩, henter, rfl⟩
      exact ⟨henter, rfl⟩

theorem mem_subdirectories_iff {sub : Text × List Text} :
    sub ∈ subdirectories keep enter path entries ↔ ∃ stored inner, .directory stored inner ∈ entries ∧
      enter (Path.spelled stored) = true ∧ sub = (Path.spelled stored,
        if Disk.isTooLong (Path.join path (Path.spelled stored)) then []
        else filesBelow keep enter (Path.join path (Path.spelled stored)) inner) := by
  rw [subdirectories_eq, List.mem_filterMap]
  constructor
  · rintro ⟨e, he, hsub⟩
    rcases subdirectory?_eq_some.1 hsub with ⟨stored, inner, rfl, henter, rfl⟩
    exact ⟨stored, inner, he, henter, rfl⟩
  · rintro ⟨stored, inner, he, henter, rfl⟩
    exact ⟨_, he, subdirectory?_eq_some.2 ⟨stored, inner, rfl, henter, rfl⟩⟩

theorem fileName?_eq_some {e : Entry} {name : Text} :
    fileName? keep e = some name ↔
      ∃ stored contents, e = .file stored contents ∧ Path.spelled stored = name ∧ keep name = true := by
  cases e with
  | directory stored inner => simp [fileName?]
  | file stored contents =>
    simp only [fileName?, Option.filter_eq_some_iff, Option.some.injEq, file.injEq]
    constructor
    · rintro ⟨hname, hkeep⟩
      exact ⟨stored, contents, ⟨rfl, rfl⟩, hname, hkeep⟩
    · rintro ⟨stored', contents', ⟨rfl, rfl⟩, hname, hkeep⟩
      exact ⟨hname, hkeep⟩

/-- A file of a listing is one of the directory, or it is listed for a directory in it. -/
theorem mem_filesBelow_iff :
    file ∈ filesBelow keep enter path entries ↔
      (∃ stored contents, .file stored contents ∈ entries ∧ keep (Path.spelled stored) = true ∧
        file = Path.join path (Path.spelled stored)) ∨
      ∃ stored inner, .directory stored inner ∈ entries ∧ enter (Path.spelled stored) = true ∧
        Disk.isTooLong (Path.join path (Path.spelled stored)) = false ∧
        file ∈ filesBelow keep enter (Path.join path (Path.spelled stored)) inner := by
  rw [filesBelow, List.mem_append, List.mem_map, List.mem_flatMap]
  refine or_congr ?_ ?_
  · constructor
    · rintro ⟨name, hname, rfl⟩
      rcases List.mem_filterMap.1 (List.mem_mergeSort.1 hname) with ⟨e, he, hname⟩
      rcases fileName?_eq_some.1 hname with ⟨stored, contents, rfl, rfl, hkeep⟩
      exact ⟨stored, contents, he, hkeep, rfl⟩
    · rintro ⟨stored, contents, he, hkeep, rfl⟩
      have hname := fileName?_eq_some.2 ⟨stored, contents, rfl, rfl, hkeep⟩
      exact ⟨_, List.mem_mergeSort.2 (List.mem_filterMap.2 ⟨_, he, hname⟩), rfl⟩
  · constructor
    · rintro ⟨sub, hsub, hfile⟩
      rcases mem_subdirectories_iff.1 (List.mem_mergeSort.1 hsub) with ⟨stored, inner, he, henter, rfl⟩
      rcases List.mem_ite_nil_left.1 hfile with ⟨hopens, hfile⟩
      exact ⟨stored, inner, he, henter, Bool.eq_false_iff.2 hopens, hfile⟩
    · rintro ⟨stored, inner, he, henter, hopens, hfile⟩
      exact ⟨_, List.mem_mergeSort.2 (mem_subdirectories_iff.2 ⟨stored, inner, he, henter, rfl⟩),
        List.mem_ite_nil_left.2 ⟨Bool.eq_false_iff.1 hopens, hfile⟩⟩

/-- The listing of a directory holds the files whose names pass, at the end of ways that may be gone and
can be. The recursion is on the size of the directory. -/
theorem mem_filesBelow_iff_holdsFile {entries : List Entry} {parts : List Text}
    (hnamed : Disk.Named entries) (hparts : ∀ name ∈ parts, Path.Plain name) :
    file ∈ filesBelow keep enter (Path.ofNames parts) entries ↔
      ∃ r, HoldsFile entries r ∧ (∀ d ∈ r.directories, enter d = true) ∧ Disk.Opens parts r.directories ∧
        keep r.name = true ∧ file = r.path parts := by
  -- One name further down, the same is said of a smaller directory.
  have hbelow : ∀ stored inner, .directory stored inner ∈ entries →
      (file ∈ filesBelow keep enter (Path.ofNames (parts ++ [Path.spelled stored])) inner ↔
        ∃ r, HoldsFile inner r ∧ (∀ d ∈ r.directories, enter d = true) ∧
          Disk.Opens (parts ++ [Path.spelled stored]) r.directories ∧ keep r.name = true ∧
          file = r.path (parts ++ [Path.spelled stored])) := by
    intro stored inner he
    have hplain : Path.Plain (Path.spelled stored) := hnamed.plain_directory he
    have hsize := sizeOf_lt_of_mem he
    exact mem_filesBelow_iff_holdsFile (hnamed.inside he)
      (List.forall_mem_append.2 ⟨hparts, List.forall_mem_singleton.2 hplain⟩)
  rw [mem_filesBelow_iff]
  constructor
  · rintro (⟨stored, contents, he, hkeep, rfl⟩ | ⟨stored, inner, he, henter, hopens, hfile⟩)
    · exact ⟨⟨[], _⟩, .here he, List.forall_mem_nil _, trivial, hkeep,
        Route.join_name hparts (hnamed.plain_file he)⟩
    · rw [Path.join_ofNames_name hparts (hnamed.plain_directory he)] at hopens hfile
      rcases (hbelow stored inner he).1 hfile with
        ⟨⟨directories, name⟩, hr, hdirectories, hdeeper, hkeep, rfl⟩
      exact ⟨_, .inside he hr, List.forall_mem_cons.2 ⟨henter, hdirectories⟩, ⟨hopens, hdeeper⟩, hkeep,
        Route.path_cons.symm⟩
  · rintro ⟨r, hr, hdirectories, hopens, hkeep, rfl⟩
    cases hr with
    | here he => exact .inl ⟨_, _, he, hkeep, (Route.join_name hparts (hnamed.plain_file he)).symm⟩
    | inside he hr =>
      rcases List.forall_mem_cons.1 hdirectories with ⟨henter, hdirectories⟩
      refine .inr ⟨_, _, he, henter, ?_⟩
      rw [Path.join_ofNames_name hparts (hnamed.plain_directory he)]
      exact ⟨hopens.1, (hbelow _ _ he).2 ⟨_, hr, hdirectories, hopens.2, hkeep, Route.path_cons⟩⟩
termination_by sizeOf entries

/-! ## How deep a listing goes -/

/-- A tree holds a directory at the end of some names. -/
inductive HoldsDirectory : List Entry → List Text → Prop
  | here {entries : List Entry} : HoldsDirectory entries []
  | inside {entries inner : List Entry} {stored : Bytes} {rest : List Text} :
      .directory stored inner ∈ entries → HoldsDirectory inner rest →
      HoldsDirectory entries (Path.spelled stored :: rest)

theorem lt_depthBelow_iff_mem {n : Nat} :
    n < depthBelow enter path entries ↔ ∃ e ∈ entries, n < depth enter path e := by
  induction entries with
  | nil => simp [depthBelow]
  | cons e rest ih =>
    have hmax : n < max (depth enter path e) (depthBelow enter path rest) ↔
        n < depth enter path e ∨ n < depthBelow enter path rest := by omega
    rw [depthBelow, hmax, ih]
    simp

/-- Entering a directory counts, and what is below it counts if it can be opened. -/
theorem lt_depth_directory_iff {stored : Bytes} {inner : List Entry} {n : Nat} :
    n < depth enter path (.directory stored inner) ↔
      enter (Path.spelled stored) = true ∧
        ∀ m, n = m + 1 → Disk.isTooLong (Path.join path (Path.spelled stored)) = false ∧
          m < depthBelow enter (Path.join path (Path.spelled stored)) inner := by
  rw [depth]
  by_cases henter : enter (Path.spelled stored) = true
  · rw [if_pos henter, and_iff_right henter]
    cases n with
    | zero => exact iff_of_true (Nat.succ_pos _) nofun
    | succ n =>
      cases hlong : Disk.isTooLong (Path.join path (Path.spelled stored)) <;> simp
  · rw [if_neg henter]
    exact iff_of_false (Nat.not_lt_zero n) fun h => henter h.1

/-- A listing goes deeper than some number if more directories than that are entered one within another.
The last one of them need not be one that can be opened. -/
theorem lt_depthBelow_iff {entries : List Entry} {parts : List Text} (hnamed : Disk.Named entries)
    (hparts : ∀ name ∈ parts, Path.Plain name) {n : Nat} :
    n < depthBelow enter (Path.ofNames parts) entries ↔
      ∃ names, HoldsDirectory entries names ∧ (∀ d ∈ names, enter d = true) ∧
        Disk.Opens parts names.dropLast ∧ n < names.length := by
  rw [lt_depthBelow_iff_mem]
  -- Both directions recurse into the entries of one directory, whose path is one name longer.
  constructor
  · rintro ⟨e, he, hdepth⟩
    cases e with
    | file stored contents => cases hdepth
    | directory stored inner =>
      have hplain : Path.Plain (Path.spelled stored) := hnamed.plain_directory he
      have hsize := sizeOf_lt_of_mem he
      rw [lt_depth_directory_iff, Path.join_ofNames_name hparts hplain] at hdepth
      rcases hdepth with ⟨henter, hdeeper⟩
      cases n with
      | zero =>
        -- The way may end with this directory, whether or not it can be opened.
        exact ⟨[Path.spelled stored], .inside he .here, List.forall_mem_singleton.2 henter, trivial,
          Nat.one_pos⟩
      | succ n =>
        rcases hdeeper n rfl with ⟨hopen, hinner⟩
        rcases (lt_depthBelow_iff (hnamed.inside he)
          (List.forall_mem_append.2 ⟨hparts, List.forall_mem_singleton.2 hplain⟩)).1 hinner with
          ⟨names, hnames, hentered, hopens, hlength⟩
        cases names with
        | nil => cases hlength
        | cons name names =>
          exact ⟨_, .inside he hnames, List.forall_mem_cons.2 ⟨henter, hentered⟩, ⟨hopen, hopens⟩,
            Nat.succ_lt_succ hlength⟩
  · rintro ⟨names, hnames, hentered, hopens, hlength⟩
    cases hnames with
    | here => cases hlength
    | @inside _ inner stored rest he hrest =>
      have hplain : Path.Plain (Path.spelled stored) := hnamed.plain_directory he
      have hsize := sizeOf_lt_of_mem he
      rcases List.forall_mem_cons.1 hentered with ⟨henter, hentered⟩
      refine ⟨_, he, ?_⟩
      rw [lt_depth_directory_iff, Path.join_ofNames_name hparts hplain]
      refine ⟨henter, ?_⟩
      rintro m rfl
      cases rest with
      | nil => exact absurd (Nat.lt_of_succ_lt_succ hlength) (Nat.not_lt_zero m)
      | cons name rest =>
        exact ⟨hopens.1, (lt_depthBelow_iff (hnamed.inside he)
          (List.forall_mem_append.2 ⟨hparts, List.forall_mem_singleton.2 hplain⟩)).2
            ⟨_, hrest, hentered, hopens.2, Nat.lt_of_succ_lt_succ hlength⟩⟩
termination_by sizeOf entries

end Entry

namespace Workspace

variable {w : Workspace} {files : List Text} {file : Text}

/-- A source file stands at the end of a way down from the root. -/
theorem exists_route_of_mem_sourceFiles (hroot : Path.resolve w.root = .ok w.root) (hnamed : w.disk.Named)
    (hfiles : w.sourceFiles = .ok files) (h : file ∈ files) :
    ∃ entries r, (∀ e, Disk.Below entries e → Disk.Below w.disk e) ∧ Entry.HoldsFile entries r ∧
      file = r.path (Path.names w.root) := by
  rcases Path.ofNames_names_of_resolve hroot with ⟨hnames, hplain⟩
  unfold sourceFiles Disk.filesBelow at hfiles
  split at hfiles
  · rename_i entries hentries
    have hbelow : ∀ e, Disk.Below entries e → Disk.Below w.disk e :=
      fun e he => he.trans (Disk.below_of_lookup hentries)
    split at hfiles
    · cases hfiles
    · cases hfiles
      rw [← hnames] at h
      rcases (Entry.mem_filesBelow_iff_holdsFile (fun e he => hnamed e (hbelow e he)) hplain).1 h with
        ⟨r, hr, -, -, -, hfile⟩
      exact ⟨entries, r, hbelow, hr, hfile⟩
  · cases hfiles
    cases h

/-- The source files of a project are below its root. -/
theorem inside_of_mem_sourceFiles (hroot : Path.resolve w.root = .ok w.root) (hnamed : w.disk.Named)
    (hfiles : w.sourceFiles = .ok files) (h : file ∈ files) : Path.Inside w.root file := by
  rcases exists_route_of_mem_sourceFiles hroot hnamed hfiles h with ⟨entries, r, hbelow, hr, rfl⟩
  exact ⟨r.directories ++ [r.name], by simp, hr.plain fun e he => hnamed e (hbelow e he),
    by rw [Route.path, List.append_assoc]⟩

end Workspace

end AffectedTests
