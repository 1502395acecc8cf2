import AffectedTests.Distinct
import AffectedTests.Proofs.Encoding
import AffectedTests.Proofs.Following
import AffectedTests.Proofs.Listings
import AffectedTests.Proofs.Lookups
import AffectedTests.Proofs.Normalizing
import Mathlib.Data.List.Nodup
import Mathlib.Data.List.Perm.Basic
/-!
# The list of source files

A source file of a project is found on a way down from the root that enters no ignored directory and none
whose path is too long. The list holds each of them once, in an order that names alone decide: the files of
a directory before those of its subdirectories, and each by name. Two names on a disk are never spelled
alike, so nothing is left to the order in which a disk enumerates its entries. There is no list if
directories lie too deep within one another, and a list that was given stays.

- `Path.spelled_injective`: a name can be read back from its spelling.
- `Text.Lt`, `Route.Precedes`: the order of names, and of the ways to files.
- `Entry.pairwise_filesBelow`: the order of a listing.
- `Disk.opens_iff`: directories can be opened one in another if the path of the last one is not too long.
- `Workspace.Finds`, `Workspace.TooDeep`: the ways to the files of the list, and what keeps one from being
  made.
- `Workspace.sourceFiles_exact`: the list of source files.
-/

namespace AffectedTests

/-! ## Names and their spelling -/

namespace Path

open Utf8

theorem spelled_cons (b : UInt8) (rest : Bytes) :
    spelled (b :: rest) = match leading? (b :: rest) with
      | some (c, width) => c :: spelled (rest.drop (width - 1))
      | none => CodePoint.ofNat (0xDC00 + b.toNat) :: spelled rest := by
  unfold spelled pieces
  rw [piecesAfter]
  cases leading? (b :: rest) with
  | none => rfl
  | some p =>
    dsimp only
    rw [List.map_cons, piecesAfter_eq, pieces]

theorem nameByte?_of_encodePoint {c : CodePoint} {bytes : Bytes} (h : encodePoint c = some bytes) :
    nameByte? c = some bytes := by
  -- What spells a stray byte is a surrogate, and surrogates have no encoding.
  have hescaped : escapedByte? c = none := by
    refine if_neg fun hrange => ?_
    have hsurrogate : c.isSurrogate = true := by
      simp only [CodePoint.isSurrogate, Bool.and_eq_true, decide_eq_true_eq]
      omega
    unfold encodePoint at h
    dsimp only at h
    rw [if_neg (by omega), if_neg (by omega), if_pos hsurrogate] at h
    cases h
  unfold nameByte?
  rw [hescaped]
  exact h

/-- A byte that begins no code point is spelled by a surrogate of its own. -/
theorem nameByte?_of_stray {b : UInt8} {rest : Bytes} (h : leading? (b :: rest) = none) :
    nameByte? (CodePoint.ofNat (0xDC00 + b.toNat)) = some [b] := by
  have hhigh : 0x80 ≤ b.toNat := by
    by_contra hlow
    have hascii : b < 0x80 := UInt8.lt_iff_toNat_lt.2 (Nat.lt_of_not_le hlow)
    simp [leading?, hascii] at h
  have hlt := b.toNat_lt
  have hval : (CodePoint.ofNat (0xDC00 + b.toNat)).val = 0xDC00 + b.toNat := by
    simp only [CodePoint.ofNat]
    omega
  unfold nameByte? escapedByte?
  rw [if_pos (by omega)]
  dsimp only
  rw [toUInt8_eq (b := b) (by omega)]

/-- The bytes of a name are those of the code points that spell it. -/
theorem exists_mapM_nameByte? (stored : Bytes) :
    ∃ bytes, (spelled stored).mapM nameByte? = some bytes ∧ bytes.flatten = stored := by
  -- A code point takes several bytes, so the induction is over the number of bytes.
  induction hlength : stored.length using Nat.strongRecOn generalizing stored with
  | ind n ih =>
    cases stored with
    | nil => exact ⟨[], rfl, rfl⟩
    | cons b rest =>
      rw [List.length_cons] at hlength
      rw [spelled_cons]
      cases hleading : leading? (b :: rest) with
      | none =>
        rcases ih rest.length (by omega) rest rfl with ⟨bytes, hbytes, hflat⟩
        refine ⟨[b] :: bytes, ?_, by simp [hflat]⟩
        rw [List.mapM_cons, nameByte?_of_stray hleading, hbytes]
        rfl
      | some p =>
        rcases p with ⟨c, width⟩
        rcases encodePoint_of_leading? hleading with ⟨hwidth, hpoint⟩
        have hdrop : rest.drop (width - 1) = (b :: rest).drop width := by
          cases width with
          | zero => cases hwidth
          | succ width => rfl
        have hshort : (rest.drop (width - 1)).length < n := by
          rw [List.length_drop]
          omega
        rcases ih _ hshort (rest.drop (width - 1)) rfl with ⟨bytes, hbytes, hflat⟩
        refine ⟨(b :: rest).take width :: bytes, ?_, ?_⟩
        · dsimp only
          rw [List.mapM_cons, nameByte?_of_encodePoint hpoint, hbytes]
          rfl
        · rw [List.flatten_cons, hflat, hdrop, List.take_append_drop]

/-- No two names are spelled alike. -/
theorem spelled_injective : Function.Injective spelled := by
  intro stored stored' h
  rcases exists_mapM_nameByte? stored with ⟨bytes, hbytes, rfl⟩
  rcases exists_mapM_nameByte? stored' with ⟨bytes', hbytes', rfl⟩
  rw [h, hbytes'] at hbytes
  cases hbytes
  rfl

/-- A name without a zero byte is stored under the bytes that it is spelled from. -/
theorem storedName_spelled {stored : Bytes} (hzero : 0 ∉ stored) :
    storedName (spelled stored) = .ok stored := by
  rcases exists_mapM_nameByte? stored with ⟨parts, hparts, hflat⟩
  exact storedName_eq_ok.2 ⟨parts, hparts, hflat, hzero⟩

end Path

/-! ## The order of names -/

namespace Text

/-- Code point order: the first code points that differ decide, and a proper beginning comes first. -/
def Lt (a b : Text) : Prop :=
  List.Lex (fun c c' : CodePoint => c.val < c'.val) a b

variable {a b c : Text}

theorem Lt.irrefl (a : Text) : ¬ Lt a a :=
  List.lex_irrefl (fun c => Nat.lt_irrefl c.val) a

theorem Lt.asymm (h : Lt a b) : ¬ Lt b a :=
  List.lex_asymm Nat.lt_asymm h

theorem Lt.trans (h : Lt a b) (h' : Lt b c) : Lt a c :=
  List.lex_trans Nat.lt_trans h h'

theorem eq_or_lt_or_lt (a b : Text) : a = b ∨ Lt a b ∨ Lt b a := by
  induction a generalizing b with
  | nil =>
    cases b with
    | nil => exact .inl rfl
    | cons c' rest' => exact .inr (.inl .nil)
  | cons c rest ih =>
    cases b with
    | nil => exact .inr (.inr .nil)
    | cons c' rest' =>
      rcases Nat.lt_trichotomy c.val c'.val with hlt | heq | hlt
      · exact .inr (.inl (.rel hlt))
      · cases Fin.ext heq
        rcases ih rest' with rfl | hlt | hlt
        · exact .inl rfl
        · exact .inr (.inl (.cons hlt))
        · exact .inr (.inr (.cons hlt))
      · exact .inr (.inr (.rel hlt))

theorem le_iff : le a b = true ↔ a = b ∨ Lt a b := by
  induction a generalizing b with
  | nil =>
    cases b with
    | nil => exact ⟨fun _ => .inl rfl, fun _ => rfl⟩
    | cons c' rest' => exact ⟨fun _ => .inr .nil, fun _ => rfl⟩
  | cons c rest ih =>
    cases b with
    | nil => exact ⟨nofun, nofun⟩
    | cons c' rest' =>
      rw [le, Bool.or_eq_true, Bool.and_eq_true, decide_eq_true_eq, decide_eq_true_eq, ih]
      constructor
      · rintro (hlt | ⟨heq, rfl | hlt⟩)
        · exact .inr (.rel hlt)
        · exact .inl (congrArg (· :: rest) (Fin.ext heq))
        · cases Fin.ext heq
          exact .inr (.cons hlt)
      · rintro (heq | _ | hlt | hlt)
        · cases heq
          exact .inr ⟨rfl, .inl rfl⟩
        · exact .inl hlt
        · exact .inr ⟨rfl, .inr hlt⟩

theorem le_trans (h : le a b = true) (h' : le b c = true) : le a c = true := by
  rcases le_iff.1 h with rfl | hlt
  · exact h'
  · rcases le_iff.1 h' with rfl | hlt'
    · exact h
    · exact le_iff.2 (.inr (hlt.trans hlt'))

theorem le_total (a b : Text) : (le a b || le b a) = true := by
  rw [Bool.or_eq_true, le_iff, le_iff]
  rcases eq_or_lt_or_lt a b with heq | hlt | hlt
  · exact .inl (.inl heq)
  · exact .inl (.inr hlt)
  · exact .inr (.inr hlt)

/-- Sorting different items by different names puts the names in their order. -/
theorem pairwise_mergeSort_lt {α : Type} (name : α → Text) {items : List α}
    (h : items.Pairwise fun x y => name x ≠ name y) :
    (items.mergeSort fun x y => le (name x) (name y)).Pairwise fun x y => Lt (name x) (name y) := by
  have hsorted : (items.mergeSort fun x y => le (name x) (name y)).Pairwise fun x y =>
      le (name x) (name y) = true := by
    refine List.pairwise_mergeSort ?_ ?_ items
    · exact fun x y z => le_trans
    · exact fun x y => le_total (name x) (name y)
  have hdistinct := h.perm (List.mergeSort_perm items fun x y => le (name x) (name y)).symm Ne.symm
  refine (hsorted.and hdistinct).imp ?_
  rintro x y ⟨hle, hne⟩
  exact (le_iff.1 hle).resolve_left hne

end Text

/-! ## The order of ways -/

namespace Route

/-- The order of a listing. The files of a directory come first, by name; its subdirectories follow, by
name, and each is listed in the same order. -/
inductive Precedes : Route → Route → Prop
  | byName {name name' : Text} : name.Lt name' → Precedes ⟨[], name⟩ ⟨[], name'⟩
  | own {name name' directory : Text} {directories : List Text} :
      Precedes ⟨[], name⟩ ⟨directory :: directories, name'⟩
  | byDirectory {name name' directory directory' : Text} {directories directories' : List Text} :
      directory.Lt directory' →
      Precedes ⟨directory :: directories, name⟩ ⟨directory' :: directories', name'⟩
  | inside {name name' directory : Text} {directories directories' : List Text} :
      Precedes ⟨directories, name⟩ ⟨directories', name'⟩ →
      Precedes ⟨directory :: directories, name⟩ ⟨directory :: directories', name'⟩

variable {r r' : Route} {parts : List Text}

theorem Precedes.asymm (h : r.Precedes r') : ¬ r'.Precedes r := by
  induction h with
  | byName hlt =>
    rintro (hlt' | _)
    exact hlt.asymm hlt'
  | own => nofun
  | byDirectory hlt =>
    rintro (_ | _ | hlt' | _)
    · exact hlt.asymm hlt'
    · exact Text.Lt.irrefl _ hlt
  | inside h ih =>
    rintro (_ | _ | hlt' | h')
    · exact Text.Lt.irrefl _ hlt'
    · exact ih h'

/-- Ways through proper names that end at the same path are the same. -/
theorem eq_of_path_eq (hparts : ∀ name ∈ parts, Path.Plain name)
    (h : ∀ name ∈ r.directories ++ [r.name], Path.Plain name)
    (h' : ∀ name ∈ r'.directories ++ [r'.name], Path.Plain name) (heq : r.path parts = r'.path parts) :
    r = r' := by
  -- The names can be read back from the path.
  unfold path at heq
  rw [List.append_assoc, List.append_assoc] at heq
  have hnames := congrArg Path.names heq
  rw [Path.names_ofNames (List.forall_mem_append.2 ⟨hparts, h⟩),
    Path.names_ofNames (List.forall_mem_append.2 ⟨hparts, h'⟩)] at hnames
  rcases List.append_inj' (List.append_cancel_left hnames) rfl with ⟨hdirectories, hname⟩
  cases r
  cases r'
  cases hname
  cases hdirectories
  rfl

/-- Paths that are ends of ways are the ends of a list of ways. -/
theorem exists_map_path {selected : Route → Prop} {files : List Text}
    (h : ∀ file ∈ files, ∃ r, selected r ∧ file = r.path parts) :
    ∃ routes : List Route, files = routes.map (path parts) ∧ ∀ r ∈ routes, selected r := by
  induction files with
  | nil => exact ⟨[], rfl, List.forall_mem_nil _⟩
  | cons file rest ih =>
    rcases List.forall_mem_cons.1 h with ⟨⟨r, hr, rfl⟩, hrest⟩
    rcases ih hrest with ⟨routes, rfl, hroutes⟩
    exact ⟨r :: routes, rfl, List.forall_mem_cons.2 ⟨hr, hroutes⟩⟩

end Route

namespace Entry

/-- A tree as a file system keeps it: names lead down, and no two entries of a directory share one. -/
inductive WellKept : List Entry → Prop
  | intro {entries : List Entry} (hplain : ∀ e ∈ entries, Path.Plain (Path.spelled e.name))
      (hdistinct : entries.Pairwise fun e e' => e.name ≠ e'.name)
      (hinner : ∀ stored inner, .directory stored inner ∈ entries → WellKept inner) : WellKept entries

variable {keep enter : Text → Bool} {parts : List Text} {entries entries' inner : List Entry} {r : Route}
  {file : Text} {stored contents : Bytes}

theorem WellKept.plain (h : WellKept entries) {e : Entry} (he : e ∈ entries) :
    Path.Plain (Path.spelled e.name) := by
  cases h with
  | intro hplain _ _ => exact hplain e he

theorem WellKept.inside (h : WellKept entries) (he : .directory stored inner ∈ entries) :
    WellKept inner := by
  cases h with
  | intro _ _ hinner => exact hinner stored inner he

theorem WellKept.named (h : WellKept entries) : Disk.Named entries := by
  intro e he
  induction he with
  | here he => exact h.plain he
  | inside hmem _ ih => exact ih (h.inside hmem)

theorem WellKept.pairwise_ne (h : WellKept entries) :
    entries.Pairwise fun e e' => Path.spelled e.name ≠ Path.spelled e'.name := by
  cases h with
  | intro _ hdistinct _ => exact hdistinct.imp fun hne heq => hne (Path.spelled_injective heq)

/-! ## The order of a listing -/

/-- Two paths of files, in the order of the ways to them. -/
def InOrder (entries : List Entry) (parts : List Text) (file file' : Text) : Prop :=
  ∃ r r', HoldsFile entries r ∧ HoldsFile entries r' ∧ file = r.path parts ∧ file' = r'.path parts ∧
    r.Precedes r'

theorem InOrder.inside {file' : Text} (he : .directory stored inner ∈ entries)
    (h : InOrder inner (parts ++ [Path.spelled stored]) file file') : InOrder entries parts file file' := by
  rcases h with ⟨⟨directories, name⟩, ⟨directories', name'⟩, hr, hr', rfl, rfl, hprecedes⟩
  exact ⟨_, _, .inside he hr, .inside he hr', Route.path_cons.symm, Route.path_cons.symm,
    .inside hprecedes⟩

theorem pairwise_fileNames (hkept : WellKept entries) :
    (entries.filterMap (fileName? keep)).Pairwise (· ≠ ·) := by
  refine List.pairwise_filterMap.2 (hkept.pairwise_ne.imp ?_)
  intro e e' hne name hname name' hname'
  rcases fileName?_eq_some.1 hname with ⟨stored, contents, rfl, rfl, -⟩
  rcases fileName?_eq_some.1 hname' with ⟨stored', contents', rfl, rfl, -⟩
  exact hne

theorem pairwise_subdirectories (hkept : WellKept entries) :
    (subdirectories keep enter file entries).Pairwise fun sub sub' => sub.1 ≠ sub'.1 := by
  rw [subdirectories_eq]
  refine List.pairwise_filterMap.2 (hkept.pairwise_ne.imp ?_)
  intro e e' hne sub hsub sub' hsub'
  rcases subdirectory?_eq_some.1 hsub with ⟨stored, inner, rfl, -, rfl⟩
  rcases subdirectory?_eq_some.1 hsub' with ⟨stored', inner', rfl, -, rfl⟩
  exact hne

theorem holdsFile_of_mem_fileNames (hkept : WellKept entries) (hparts : ∀ name ∈ parts, Path.Plain name)
    {name : Text} (h : name ∈ (entries.filterMap (fileName? keep)).mergeSort Text.le) :
    HoldsFile entries ⟨[], name⟩ ∧ Path.join (Path.ofNames parts) name = Route.path parts ⟨[], name⟩ := by
  rcases List.mem_filterMap.1 (List.mem_mergeSort.1 h) with ⟨e, he, hname⟩
  rcases fileName?_eq_some.1 hname with ⟨stored, contents, rfl, rfl, -⟩
  exact ⟨.here he, Route.join_name hparts (hkept.named.plain_file he)⟩

theorem holdsFile_of_mem_subdirectory (hkept : WellKept entries)
    (hparts : ∀ name ∈ parts, Path.Plain name) {sub : Text × List Text}
    (hsub : sub ∈ (subdirectories keep enter (Path.ofNames parts) entries).mergeSort
      fun a b => Text.le a.1 b.1) (h : file ∈ sub.2) :
    ∃ directories name, HoldsFile entries ⟨sub.1 :: directories, name⟩ ∧
      file = Route.path parts ⟨sub.1 :: directories, name⟩ := by
  rcases mem_subdirectories_iff.1 (List.mem_mergeSort.1 hsub) with ⟨stored, inner, he, -, rfl⟩
  have hplain : Path.Plain (Path.spelled stored) := hkept.plain he
  have hfile := (List.mem_ite_nil_left.1 h).2
  rw [Path.join_ofNames_name hparts hplain] at hfile
  rcases (mem_filesBelow_iff_holdsFile (hkept.inside he).named
    (List.forall_mem_append.2 ⟨hparts, List.forall_mem_singleton.2 hplain⟩)).1 hfile with
    ⟨⟨directories, name⟩, hr, -, -, -, rfl⟩
  exact ⟨directories, name, .inside he hr, Route.path_cons.symm⟩

/-- Two files of a listing stand in the order of the ways to them. -/
theorem pairwise_filesBelow {entries : List Entry} {parts : List Text} (hkept : WellKept entries)
    (hparts : ∀ name ∈ parts, Path.Plain name) :
    (filesBelow keep enter (Path.ofNames parts) entries).Pairwise (InOrder entries parts) := by
  -- Two files of the directory itself, two in one subdirectory or in two of them, and one of each kind.
  rw [filesBelow]
  refine List.pairwise_append.2 ⟨List.pairwise_map.2 ?files, List.pairwise_flatMap.2 ⟨?inside, ?across⟩,
    ?between⟩
  case files =>
    refine (Text.pairwise_mergeSort_lt id (pairwise_fileNames hkept)).imp_of_mem ?_
    intro name name' hname hname' hlt
    have hr := holdsFile_of_mem_fileNames hkept hparts hname
    have hr' := holdsFile_of_mem_fileNames hkept hparts hname'
    exact ⟨_, _, hr.1, hr'.1, hr.2, hr'.2, .byName hlt⟩
  case inside =>
    intro sub hsub
    rcases mem_subdirectories_iff.1 (List.mem_mergeSort.1 hsub) with ⟨stored, inner, he, -, rfl⟩
    have hplain : Path.Plain (Path.spelled stored) := hkept.plain he
    have hsize := sizeOf_lt_of_mem he
    dsimp only
    rw [Path.join_ofNames_name hparts hplain]
    split
    · exact List.Pairwise.nil
    · have hinner := pairwise_filesBelow (hkept.inside he)
        (List.forall_mem_append.2 ⟨hparts, List.forall_mem_singleton.2 hplain⟩)
      exact hinner.imp fun h => h.inside he
  case across =>
    refine (Text.pairwise_mergeSort_lt Prod.fst (pairwise_subdirectories hkept)).imp_of_mem ?_
    intro sub sub' hsub hsub' hlt file hfile file' hfile'
    rcases holdsFile_of_mem_subdirectory hkept hparts hsub hfile with ⟨_, _, hr, hpath⟩
    rcases holdsFile_of_mem_subdirectory hkept hparts hsub' hfile' with ⟨_, _, hr', hpath'⟩
    exact ⟨_, _, hr, hr', hpath, hpath', .byDirectory hlt⟩
  case between =>
    intro file hfile file' hfile'
    rcases List.mem_map.1 hfile with ⟨name, hname, rfl⟩
    rcases List.mem_flatMap.1 hfile' with ⟨sub, hsub, hfile'⟩
    have hr := holdsFile_of_mem_fileNames hkept hparts hname
    rcases holdsFile_of_mem_subdirectory hkept hparts hsub hfile' with ⟨_, _, hr', hpath'⟩
    exact ⟨_, _, hr.1, hr', hr.2, hpath', .own⟩
termination_by sizeOf entries

/-! ## Other enumerations of a tree -/

/-- The same tree, with the entries of its directories enumerated in another order. -/
inductive Rearranged : List Entry → List Entry → Prop
  | nil : Rearranged [] []
  | file {stored contents : Bytes} {rest rest' : List Entry} :
      Rearranged rest rest' → Rearranged (.file stored contents :: rest) (.file stored contents :: rest')
  | directory {stored : Bytes} {inner inner' rest rest' : List Entry} :
      Rearranged inner inner' → Rearranged rest rest' →
      Rearranged (.directory stored inner :: rest) (.directory stored inner' :: rest')
  | swap {e e' : Entry} {rest : List Entry} : Rearranged (e :: e' :: rest) (e' :: e :: rest)
  | trans {entries between entries' : List Entry} :
      Rearranged entries between → Rearranged between entries' → Rearranged entries entries'

namespace Rearranged

theorem symm (h : Rearranged entries entries') : Rearranged entries' entries := by
  induction h with
  | nil => exact .nil
  | file _ ih => exact .file ih
  | directory _ _ ihinner ih => exact .directory ihinner ih
  | swap => exact .swap
  | trans _ _ ih ih' => exact .trans ih' ih

theorem perm_names (h : Rearranged entries entries') : (entries.map name).Perm (entries'.map name) := by
  induction h with
  | nil => exact .nil
  | file _ ih => exact .cons _ ih
  | directory _ _ _ ih => exact .cons _ ih
  | swap => exact .swap _ _ _
  | trans _ _ ih ih' => exact ih.trans ih'

theorem refl : ∀ entries : List Entry, Rearranged entries entries
  | [] => .nil
  | .file _ _ :: rest => .file (refl rest)
  | .directory _ inner :: rest => .directory (refl inner) (refl rest)

theorem file_mem (h : Rearranged entries entries') (he : .file stored contents ∈ entries) :
    .file stored contents ∈ entries' := by
  induction h with
  | nil => exact he
  | file _ ih =>
    rcases List.mem_cons.1 he with heq | he
    · exact List.mem_cons.2 (.inl heq)
    · exact List.mem_cons_of_mem _ (ih he)
  | directory _ _ _ ih =>
    rcases List.mem_cons.1 he with heq | he
    · cases heq
    · exact List.mem_cons_of_mem _ (ih he)
  | swap => exact (List.Perm.swap _ _ _).subset he
  | trans _ _ ih ih' => exact ih' (ih he)

theorem exists_directory_mem (h : Rearranged entries entries') (he : .directory stored inner ∈ entries) :
    ∃ inner', .directory stored inner' ∈ entries' ∧ Rearranged inner inner' := by
  induction h generalizing inner with
  | nil => cases he
  | file _ ih =>
    rcases List.mem_cons.1 he with heq | he
    · cases heq
    · rcases ih he with ⟨inner', he', hinner⟩
      exact ⟨inner', List.mem_cons_of_mem _ he', hinner⟩
  | directory hinner _ _ ih =>
    rcases List.mem_cons.1 he with heq | he
    · cases heq
      exact ⟨_, List.mem_cons_self, hinner⟩
    · rcases ih he with ⟨inner', he', hinner⟩
      exact ⟨inner', List.mem_cons_of_mem _ he', hinner⟩
  | swap =>
    -- Nothing below the two entries has moved.
    exact ⟨inner, (List.Perm.swap _ _ _).subset he, refl inner⟩
  | trans _ _ ih ih' =>
    rcases ih he with ⟨between, hbetween, hinner⟩
    rcases ih' hbetween with ⟨inner', he', hinner'⟩
    exact ⟨inner', he', hinner.trans hinner'⟩

/-- The files of a tree are found on the same ways after it was rearranged. -/
theorem holdsFile (h : Rearranged entries entries') (hr : HoldsFile entries r) : HoldsFile entries' r := by
  induction hr generalizing entries' with
  | here he => exact .here (h.file_mem he)
  | inside he _ ih =>
    rcases h.exists_directory_mem he with ⟨inner', he', hinner⟩
    exact .inside he' (ih hinner)

theorem holdsDirectory {names : List Text} (h : Rearranged entries entries')
    (hnames : HoldsDirectory entries names) : HoldsDirectory entries' names := by
  induction hnames generalizing entries' with
  | here => exact .here
  | inside he _ ih =>
    rcases h.exists_directory_mem he with ⟨inner', he', hinner⟩
    exact .inside he' (ih hinner)

theorem wellKept (h : Rearranged entries entries') (hkept : WellKept entries) : WellKept entries' := by
  induction hkept generalizing entries' with
  | intro hplain hdistinct _ ih =>
    have hnames := h.perm_names
    refine .intro ?plain ?distinct ?inner
    case plain =>
      intro e' he'
      rcases List.mem_map.1 (hnames.mem_iff.2 (List.mem_map_of_mem he')) with ⟨e, he, heq⟩
      exact heq ▸ hplain e he
    case distinct =>
      exact List.pairwise_map.1 (hnames.nodup_iff.1 (List.pairwise_map.2 hdistinct))
    case inner =>
      intro stored inner' he'
      rcases h.symm.exists_directory_mem he' with ⟨inner, he, hinner⟩
      exact ih stored inner he hinner.symm

end Rearranged

end Entry

/-! ## Directories that can be opened -/

namespace Path

/-- How long a path gets when it goes on with one name again and again. -/
theorem exists_storedName_replicate {parts : List Text} {name : Text} {start stored : Bytes}
    (hne : parts ≠ []) (hparts : storedName (ofNames parts) = .ok start)
    (hname : storedName name = .ok stored) (n : Nat) :
    ∃ bytes, storedName (ofNames (parts ++ List.replicate n name)) = .ok bytes ∧
      bytes.length = start.length + n * (stored.length + 1) := by
  induction n with
  | zero => exact ⟨start, by rwa [List.replicate_zero, List.append_nil], by omega⟩
  | succ n ih =>
    rcases ih with ⟨bytes, hbytes, hlength⟩
    have hlonger : storedName (separator :: name) = .ok (47 :: stored) :=
      storedName_cons.2 ⟨[47], stored, by decide, by decide, hname, rfl⟩
    refine ⟨bytes ++ 47 :: stored, ?_, ?_⟩
    · have hjoin : Text.join [separator] [name] = name := by simp [Text.join]
      rw [List.replicate_succ', ← List.append_assoc, ofNames_append (by simp [hne]) (List.cons_ne_nil _ _),
        hjoin]
      exact storedName_append hbytes hlonger
    · rw [List.length_append, List.length_cons, hlength, Nat.succ_mul]
      omega

end Path

namespace Disk

variable {parts names : List Text}

/-- One directory after the other can be opened if the path of the last one is not too long. -/
theorem opens_iff (hne : names ≠ []) (hstorable : Path.Storable (Path.ofNames (parts ++ names))) :
    Opens parts names ↔ isTooLong (Path.ofNames (parts ++ names)) = false := by
  induction names generalizing parts with
  | nil => exact absurd rfl hne
  | cons name rest ih =>
    have happend : parts ++ name :: rest = parts ++ [name] ++ rest := by simp
    rw [happend] at hstorable ⊢
    cases rest with
    | nil =>
      rw [List.append_nil]
      exact and_iff_left trivial
    | cons name' rest =>
      rw [Opens, ih (List.cons_ne_nil _ _) hstorable]
      refine and_iff_right_of_imp fun h => ?_
      have hpart : (Path.ofNames (parts ++ [name])).Sublist
          (Path.ofNames (parts ++ [name] ++ name' :: rest)) := by
        rw [Path.ofNames_append (List.concat_ne_nil name parts) (List.cons_ne_nil name' rest)]
        exact List.sublist_append_left _ _
      exact isTooLong_of_sublist hpart hstorable h

/-- Directories with one name can be opened one in another until the path gets too long. -/
theorem opens_replicate_iff {name : Text} {start stored : Bytes} {n : Nat} (hne : parts ≠ [])
    (hparts : Path.storedName (Path.ofNames parts) = .ok start) (hname : Path.storedName name = .ok stored)
    (hn : n ≠ 0) :
    Opens parts (List.replicate n name) ↔ start.length + n * (stored.length + 1) ≤ maxPathLength := by
  rcases Path.exists_storedName_replicate hne hparts hname n with ⟨bytes, hbytes, hlength⟩
  rw [opens_iff (by simpa using hn) ⟨bytes, hbytes⟩, isTooLong, hbytes]
  simp only [decide_eq_false_iff_not, Nat.not_lt]
  rw [hlength]

end Disk

/-! ## The source files of a project -/

/-- What the settings ask of a source file: its name, and the directories on the way to it. -/
structure Settings.Selects (s : Settings) (r : Route) : Prop where
  source : (Path.extension r.name).lower ∈ s.sourceExtensions
  more : ¬ (".d.ts" : Text) <:+ r.name
  entered : ∀ d ∈ r.directories, d ∉ s.ignoredDirectories

namespace Workspace

variable {w : Workspace} {entries : List Entry}

/-- A way down from the root on which no directory is ignored enters more directories, one within another,
than a listing can. The last one of them need not be one that can be opened. -/
def TooDeep (w : Workspace) (entries : List Entry) : Prop :=
  ∃ names, Entry.HoldsDirectory entries names ∧ (∀ d ∈ names, d ∉ w.settings.ignoredDirectories) ∧
    Disk.Opens (Path.names w.root) names.dropLast ∧ Limit.nesting.size < names.length

/-- A way down to a file of the list: the settings select it, and its directories can be opened. -/
structure Finds (w : Workspace) (entries : List Entry) (r : Route) : Prop where
  holds : Entry.HoldsFile entries r
  selected : w.settings.Selects r
  opens : Disk.Opens (Path.names w.root) r.directories

theorem lists_iff {name : Text} :
    w.lists name = true ↔ (Path.extension name).lower ∈ w.settings.sourceExtensions ∧
      ¬ (".d.ts" : Text) <:+ name := by
  simp only [lists, Settings.isSourceFile, Text.endsWith, Bool.and_eq_true, List.contains_iff_mem,
    Bool.not_eq_true', ← Bool.not_eq_true, List.isSuffixOf_iff_suffix]

/-- Whether the directory with a name is entered. -/
def enters (w : Workspace) (name : Text) : Bool :=
  !w.settings.ignoredDirectories.contains name

theorem enters_iff {name : Text} : w.enters name = true ↔ name ∉ w.settings.ignoredDirectories := by
  simp [enters]

theorem sourceFiles_eq (hroot : Path.resolve w.root = .ok w.root)
    (hentries : w.disk.lookup w.root = .ok (.directory entries)) :
    w.sourceFiles =
      if Limit.nesting.size < Entry.depthBelow w.enters (Path.ofNames (Path.names w.root)) entries then
        .error (.exceeds .nesting)
      else .ok (Entry.filesBelow w.lists w.enters (Path.ofNames (Path.names w.root)) entries) := by
  unfold sourceFiles Disk.filesBelow
  rw [hentries, (Path.ofNames_names_of_resolve hroot).1]
  rfl

theorem tooDeep_iff (hroot : Path.resolve w.root = .ok w.root) (hkept : Entry.WellKept entries) :
    w.TooDeep entries ↔
      Limit.nesting.size < Entry.depthBelow w.enters (Path.ofNames (Path.names w.root)) entries := by
  rw [Entry.lt_depthBelow_iff hkept.named (Path.ofNames_names_of_resolve hroot).2]
  simp only [TooDeep, enters_iff]

theorem mem_filesBelow_iff_finds (hroot : Path.resolve w.root = .ok w.root) (hkept : Entry.WellKept entries)
    {file : Text} :
    file ∈ Entry.filesBelow w.lists w.enters (Path.ofNames (Path.names w.root)) entries ↔
      ∃ r, w.Finds entries r ∧ file = r.path (Path.names w.root) := by
  rw [Entry.mem_filesBelow_iff_holdsFile hkept.named (Path.ofNames_names_of_resolve hroot).2]
  constructor
  · rintro ⟨r, hr, hentered, hopens, hkeep, rfl⟩
    rcases lists_iff.1 hkeep with ⟨hsource, hmore⟩
    exact ⟨r, ⟨hr, ⟨hsource, hmore, fun d hd => enters_iff.1 (hentered d hd)⟩, hopens⟩, rfl⟩
  · rintro ⟨r, ⟨hr, hselects, hopens⟩, rfl⟩
    exact ⟨r, hr, fun d hd => enters_iff.2 (hselects.entered d hd), hopens,
      lists_iff.2 ⟨hselects.source, hselects.more⟩, rfl⟩

theorem eq_of_finds (hroot : Path.resolve w.root = .ok w.root) (hkept : Entry.WellKept entries)
    {r r' : Route} (hr : Entry.HoldsFile entries r) (hr' : Entry.HoldsFile entries r')
    (h : r.path (Path.names w.root) = r'.path (Path.names w.root)) : r = r' :=
  Route.eq_of_path_eq (Path.ofNames_names_of_resolve hroot).2 (hr.plain hkept.named)
    (hr'.plain hkept.named) h

/-- There is no list if directories lie too deep within one another. -/
theorem sourceFiles_of_tooDeep (hroot : Path.resolve w.root = .ok w.root)
    (hentries : w.disk.lookup w.root = .ok (.directory entries)) (hkept : Entry.WellKept entries)
    (h : w.TooDeep entries) : w.sourceFiles = .error (.exceeds .nesting) := by
  rw [sourceFiles_eq hroot hentries, if_pos ((tooDeep_iff hroot hkept).1 h)]

/-- Otherwise the source files of a project end the ways to them, in the order of the ways. -/
theorem exists_routes_sourceFiles (hroot : Path.resolve w.root = .ok w.root)
    (hentries : w.disk.lookup w.root = .ok (.directory entries)) (hkept : Entry.WellKept entries)
    (h : ¬ w.TooDeep entries) :
    ∃ routes : List Route, w.sourceFiles = .ok (routes.map (Route.path (Path.names w.root))) ∧
      (∀ r, r ∈ routes ↔ w.Finds entries r) ∧ routes.Pairwise Route.Precedes := by
  have hsorted : (Entry.filesBelow w.lists w.enters (Path.ofNames (Path.names w.root)) entries).Pairwise
      (Entry.InOrder entries (Path.names w.root)) :=
    Entry.pairwise_filesBelow hkept (Path.ofNames_names_of_resolve hroot).2
  rcases Route.exists_map_path fun file hfile => (mem_filesBelow_iff_finds hroot hkept).1 hfile with
    ⟨routes, heq, hroutes⟩
  refine ⟨routes, ?_, fun r => ⟨hroutes r, fun hr => ?_⟩, ?_⟩
  · rw [sourceFiles_eq hroot hentries, if_neg fun hdeep => h ((tooDeep_iff hroot hkept).2 hdeep), heq]
  · -- Each path is the end of one way, so what is known of the paths is known of the ways.
    have hmem := (mem_filesBelow_iff_finds hroot hkept).2 ⟨r, hr, rfl⟩
    rw [heq] at hmem
    rcases List.mem_map.1 hmem with ⟨r', hr', hpath⟩
    rw [← eq_of_finds hroot hkept (hroutes r' hr').holds hr.holds hpath]
    exact hr'
  · rw [heq] at hsorted
    refine (List.pairwise_map.1 hsorted).imp_of_mem ?_
    rintro r r' hr hr' ⟨way, way', hway, hway', hpath, hpath', hprecedes⟩
    rwa [eq_of_finds hroot hkept (hroutes r hr).holds hway hpath,
      eq_of_finds hroot hkept (hroutes r' hr').holds hway' hpath']

/-- The order of enumeration shows neither in the list nor in whether there is one. -/
theorem sourceFiles_of_rearranged {w' : Workspace} {entries' : List Entry}
    (hroot : Path.resolve w.root = .ok w.root)
    (hentries : w.disk.lookup w.root = .ok (.directory entries)) (hkept : Entry.WellKept entries)
    (hsameRoot : w'.root = w.root) (hsettings : w'.settings = w.settings)
    (hentries' : w'.disk.lookup w'.root = .ok (.directory entries'))
    (h : Entry.Rearranged entries entries') : w'.sourceFiles = w.sourceFiles := by
  have hroot' : Path.resolve w'.root = .ok w'.root := by rw [hsameRoot, hroot]
  have hdeep : w'.TooDeep entries' ↔ w.TooDeep entries := by
    unfold TooDeep
    rw [hsameRoot, hsettings]
    exact exists_congr fun names => and_congr_left' ⟨h.symm.holdsDirectory, h.holdsDirectory⟩
  by_cases htoo : w.TooDeep entries
  · rw [sourceFiles_of_tooDeep hroot hentries hkept htoo,
      sourceFiles_of_tooDeep hroot' hentries' (h.wellKept hkept) (hdeep.2 htoo)]
  · rcases exists_routes_sourceFiles hroot hentries hkept htoo with ⟨routes, heq, hroutes, hsorted⟩
    rcases exists_routes_sourceFiles hroot' hentries' (h.wellKept hkept) (mt hdeep.1 htoo) with
      ⟨routes', heq', hroutes', hsorted'⟩
    -- Both lists of ways are in order and hold the same ways, so they are one list.
    have hways : ∀ r, r ∈ routes' ↔ r ∈ routes := by
      intro r
      rw [hroutes, hroutes']
      constructor
      · rintro ⟨hr, hselected, hopens⟩
        exact ⟨h.symm.holdsFile hr, hsettings ▸ hselected, hsameRoot ▸ hopens⟩
      · rintro ⟨hr, hselected, hopens⟩
        exact ⟨h.holdsFile hr, hsettings ▸ hselected, hsameRoot ▸ hopens⟩
    rw [heq, heq', hsameRoot, eq_of_pairwise (fun _ _ => Route.Precedes.asymm) hsorted' hsorted hways]

/-- The list of source files. There is none exactly if directories lie too deep within one another.
Otherwise it holds, once each, the files that the settings select in directories that can be opened, in the
order of the ways to them. Either way nothing depends on how the directories are enumerated. The question
for the list is answered so until there is an answer; from then on the answer is that one, whatever becomes
of the files. -/
theorem sourceFiles_exact (hroot : Path.resolve w.root = .ok w.root)
    (hentries : w.disk.lookup w.root = .ok (.directory entries)) (hkept : Entry.WellKept entries) :
    (w.TooDeep entries → w.sourceFiles = .error (.exceeds .nesting)) ∧
    (¬ w.TooDeep entries → ∃ routes : List Route,
      w.sourceFiles = .ok (routes.map (Route.path (Path.names w.root))) ∧
      (∀ r, r ∈ routes ↔ w.Finds entries r) ∧ routes.Pairwise Route.Precedes ∧
      (routes.map (Route.path (Path.names w.root))).Nodup) ∧
    (∀ (w' : Workspace) (entries' : List Entry), w'.root = w.root → w'.settings = w.settings →
      w'.disk.lookup w'.root = .ok (.directory entries') → Entry.Rearranged entries entries' →
      w'.sourceFiles = w.sourceFiles) ∧
    ∀ s : Session, (s.listing = none → Query.listing.answer w s = w.sourceFiles) ∧
      (∀ files, Query.listing.answer w s = .ok files → (Query.listing.ask w s).2.listing = some files) ∧
      ∀ files, s.listing = some files → ∀ w' : Workspace, Query.listing.ask w' s = (.ok files, s) := by
  refine ⟨sourceFiles_of_tooDeep hroot hentries hkept, fun hdeep => ?once, ?rearranged, fun s => ?session⟩
  case once =>
    rcases exists_routes_sourceFiles hroot hentries hkept hdeep with ⟨routes, heq, hroutes, hsorted⟩
    refine ⟨routes, heq, hroutes, hsorted, List.Nodup.map_on ?_
      (nodup_of_pairwise (fun _ _ => Route.Precedes.asymm) hsorted)⟩
    intro r hr r' hr'
    exact eq_of_finds hroot hkept ((hroutes r).1 hr).holds ((hroutes r').1 hr').holds
  case rearranged =>
    exact fun _ _ hsameRoot hsettings hentries' h =>
      sourceFiles_of_rearranged hroot hentries hkept hsameRoot hsettings hentries' h
  case session =>
    refine ⟨fun hnone => ?_, fun files hfiles => ?_, fun files hfiles w' => ?_⟩
    · rw [Query.answer_listing, Session.listingOf, hnone]
    · rw [Query.answer_listing] at hfiles
      rw [Query.ask_listing, hfiles]
    · rw [Query.ask_listing, Session.listingOf, hfiles]
      dsimp only
      rw [← hfiles]

end Workspace

/-! ## Examples -/

namespace Enumerated

/-- A directory `b` with a source file, beside a source file and declarations of types. -/
def entries : List Entry :=
  [.directory [98] [.file [99, 46, 106, 115] []], .file [97, 46, 106, 115] [],
    .file [97, 46, 100, 46, 116, 115] []]

/-- The same tree; the source file is enumerated first. -/
def entries' : List Entry :=
  [.file [97, 46, 106, 115] [], .directory [98] [.file [99, 46, 106, 115] []],
    .file [97, 46, 100, 46, 116, 115] []]

/-- A project at `/p` that consists of a tree. -/
def project (tree : List Entry) : Workspace where
  root := "/p"
  settings := {}
  grammars _ _ := .node ⟨.program, true, none, 0, 0, 0, 0, []⟩ []
  disk := [.directory [112] tree]

theorem wellKept : Entry.WellKept entries := by
  refine .intro (by decide) (by decide) ?_
  intro stored inner he
  simp only [entries, List.mem_cons, Entry.directory.injEq, reduceCtorEq, List.not_mem_nil, or_false] at he
  rcases he with ⟨rfl, rfl⟩
  exact .intro (by decide) (by decide) (by simp)

/-! ### Directories within one another -/

/-- What a tree holds, below directories with one name that lie within one another. -/
def nested (stored : Bytes) (inner : List Entry) : Nat → List Entry
  | 0 => inner
  | n + 1 => [.directory stored (nested stored inner n)]

variable {stored contents file : Bytes} {inner : List Entry} {n : Nat}

theorem wellKept_nested (hplain : Path.Plain (Path.spelled stored)) (hinner : Entry.WellKept inner) :
    Entry.WellKept (nested stored inner n) := by
  induction n with
  | zero => exact hinner
  | succ n ih =>
    refine .intro (List.forall_mem_singleton.2 hplain) (List.pairwise_singleton _ _) ?_
    intro stored' inner' he
    cases List.mem_singleton.1 he
    exact ih

theorem holdsDirectory_nested :
    Entry.HoldsDirectory (nested stored inner n) (List.replicate n (Path.spelled stored)) := by
  induction n with
  | zero => exact .here
  | succ n ih => exact .inside (List.mem_singleton_self _) ih

theorem length_le_of_holdsDirectory_nested {names : List Text}
    (h : Entry.HoldsDirectory (nested stored [.file file contents] n) names) : names.length ≤ n := by
  induction n generalizing names with
  | zero =>
    cases h with
    | here => exact Nat.le_refl 0
    | inside he _ => cases List.mem_singleton.1 he
  | succ n ih =>
    cases h with
    | here => exact Nat.zero_le _
    | inside he hrest =>
      cases List.mem_singleton.1 he
      exact Nat.succ_le_succ (ih hrest)

theorem holdsFile_nested {r : Route} :
    Entry.HoldsFile (nested stored [.file file contents] n) r ↔
      r = ⟨List.replicate n (Path.spelled stored), Path.spelled file⟩ := by
  constructor
  · intro h
    induction n generalizing r with
    | zero =>
      cases h with
      | here he =>
        cases List.mem_singleton.1 he
        rfl
      | inside he _ => cases List.mem_singleton.1 he
    | succ n ih =>
      cases h with
      | here he => cases List.mem_singleton.1 he
      | inside he hrest =>
        cases List.mem_singleton.1 he
        cases ih hrest
        rfl
  · rintro rfl
    induction n with
    | zero => exact .here (List.mem_singleton_self _)
    | succ n ih => exact .inside (List.mem_singleton_self _) ih

/-! ### Projects -/

variable {tree : List Entry}

theorem resolve_root : Path.resolve (project tree).root = .ok (project tree).root := by
  have hroot : Path.resolve "/p" = .ok "/p" := by decide
  exact hroot

theorem names_root : Path.names (project tree).root = [("p" : Text)] := by
  have hnames : Path.names "/p" = [("p" : Text)] := by decide
  exact hnames

theorem storedName_root : Path.storedName (Path.ofNames [("p" : Text)]) = .ok [47, 112] := by decide

theorem sourceFiles_empty : (project []).sourceFiles = .ok [] := by
  rw [Workspace.sourceFiles_eq resolve_root rfl]
  simp [Entry.depthBelow, Entry.filesBelow, Entry.subdirectories]

theorem not_tooDeep_entries : ¬ (project entries).TooDeep entries := by
  rw [Workspace.tooDeep_iff resolve_root wellKept, names_root]
  decide

/-- A directory `d` in a directory `d`, and so on. -/
def deep : List Entry :=
  nested [100] [] 991

theorem wellKept_deep : Entry.WellKept deep :=
  wellKept_nested (by decide) (.intro nofun .nil nofun)

theorem tooDeep_deep : (project deep).TooDeep deep := by
  have hname : Path.storedName (Path.spelled [100]) = .ok [100] := Path.storedName_spelled (by decide)
  refine ⟨_, holdsDirectory_nested, fun d hd => ?entered, ?opens, ?deep⟩
  case entered =>
    rw [List.eq_of_mem_replicate hd]
    decide
  case opens =>
    -- Names of one letter: the path of the last directory but one is still short enough.
    rw [names_root, List.dropLast_replicate]
    refine (Disk.opens_replicate_iff (List.cons_ne_nil _ _) storedName_root hname (by decide)).2 ?_
    simp [Disk.maxPathLength]
  case deep =>
    rw [List.length_replicate]
    decide

/-- Both enumerations are listed alike, and no file is listed twice; once given, the list stays. Deeper
directories are not listed. -/
theorem sourceFiles_exact_project :
    (∃ files, (project entries).sourceFiles = .ok files ∧ files.Nodup ∧
      (project entries').sourceFiles = .ok files ∧
      ∀ w, Query.listing.answer w (Query.listing.ask (project entries) {}).2 = .ok files) ∧
    (project deep).sourceFiles = .error (.exceeds .nesting) := by
  constructor
  · have hexact := Workspace.sourceFiles_exact (w := project entries) resolve_root rfl wellKept
    rcases hexact with ⟨-, hroutes, hrearranged, hsession⟩
    rcases hroutes not_tooDeep_entries with ⟨routes, heq, -, -, hnodup⟩
    have hlisting := (hsession {}).2.1 _ (((hsession {}).1 rfl).trans heq)
    refine ⟨_, heq, hnodup, ?_, fun w => congrArg Prod.fst ((hsession _).2.2 _ hlisting w)⟩
    rw [hrearranged (project entries') entries' rfl rfl rfl .swap, heq]
  · exact (Workspace.sourceFiles_exact (w := project deep) resolve_root rfl wellKept_deep).1 tooDeep_deep

/-! ### Selected files that are not listed -/

/-- A name with as many bytes as a name can have. -/
def longName : Bytes :=
  List.replicate Disk.maxNameLength 100

/-- A source file `c.js`, far down. -/
def far : List Entry :=
  nested longName [.file [99, 46, 106, 115] []] 16

theorem length_longName : longName.length = Disk.maxNameLength :=
  List.length_replicate

theorem storedName_longName : Path.storedName (Path.spelled longName) = .ok longName :=
  Path.storedName_spelled fun h => absurd (List.eq_of_mem_replicate h) (by decide)

theorem wellKept_far : Entry.WellKept far := by
  refine wellKept_nested ?_ (.intro (by decide) (by decide) (by simp))
  decide

theorem not_tooDeep_far : ¬ (project far).TooDeep far := by
  rintro ⟨names, hnames, -, -, hdeep⟩
  have hle := length_le_of_holdsDirectory_nested hnames
  exact absurd (Nat.lt_of_lt_of_le hdeep hle) (by decide)

theorem selects_far : (project far).settings.Selects
    ⟨List.replicate 16 (Path.spelled longName), Path.spelled [99, 46, 106, 115]⟩ where
  source := by decide
  more := by decide
  entered := by
    have hshort : ∀ d ∈ (project far).settings.ignoredDirectories,
        (Path.storedName d).map List.length ≠ .ok Disk.maxNameLength := by
      decide
    intro d hd hignored
    rw [List.eq_of_mem_replicate hd] at hignored
    refine hshort _ hignored ?_
    rw [storedName_longName]
    exact congrArg Except.ok length_longName

theorem sourceFiles_far : (project far).sourceFiles = .ok [] := by
  rcases Workspace.exists_routes_sourceFiles resolve_root rfl wellKept_far not_tooDeep_far with
    ⟨routes, heq, hroutes, -⟩
  have hnone : routes = [] := by
    refine List.eq_nil_iff_forall_not_mem.2 fun r hr => ?_
    -- There is one file only, and sixteen of the longest names make a path too long.
    have hfinds := (hroutes r).1 hr
    have hopens := hfinds.opens
    rw [holdsFile_nested.1 hfinds.holds, names_root, Disk.opens_replicate_iff (List.cons_ne_nil _ _)
      storedName_root storedName_longName (by decide), length_longName] at hopens
    exact absurd hopens (by decide)
  rw [heq, hnone]
  rfl

/-- Not every list is that of the selected files: one that was given stays, directories too deep within one
another have none, and a file too far down is missing. -/
theorem not_sourceFiles_exact :
    Query.listing.answer (project entries) (Query.listing.ask (project []) {}).2 = .ok [] ∧
    (project deep).sourceFiles = .error (.exceeds .nesting) ∧
    ((project far).sourceFiles = .ok [] ∧
      ∃ r, Entry.HoldsFile far r ∧ (project far).settings.Selects r) ∧
    ¬ ∀ (before w : Workspace) (entries : List Entry), before.root = w.root → before.settings = w.settings →
      Path.resolve w.root = .ok w.root → w.disk.lookup w.root = .ok (.directory entries) →
      Entry.WellKept entries → ∃ routes : List Route,
        Query.listing.answer w (Query.listing.ask before {}).2 =
          .ok (routes.map (Route.path (Path.names w.root))) ∧
        ∀ r, r ∈ routes ↔ Entry.HoldsFile entries r ∧ w.settings.Selects r := by
  have hstale : Query.listing.answer (project entries) (Query.listing.ask (project []) {}).2 = .ok [] := by
    have hfirst : Session.listingOf {} (project []) = .ok [] := sourceFiles_empty
    rw [Query.answer_listing, Query.ask_listing, hfirst]
    rfl
  refine ⟨hstale, Workspace.sourceFiles_of_tooDeep resolve_root rfl wellKept_deep tooDeep_deep,
    ⟨sourceFiles_far, _, holdsFile_nested.2 rfl, selects_far⟩, fun h => ?_⟩
  rcases h (project []) (project entries) entries rfl rfl resolve_root rfl wellKept with
    ⟨routes, heq, hroutes⟩
  have hnil := List.map_eq_nil_iff.1 (Except.ok.inj (hstale.symm.trans heq)).symm
  have hfile : .file [97, 46, 106, 115] [] ∈ entries := by simp [entries]
  have hmem := (hroutes _).2 ⟨.here hfile, ⟨by decide, by decide, List.forall_mem_nil _⟩⟩
  rw [hnil] at hmem
  cases hmem

end Enumerated

end AffectedTests
