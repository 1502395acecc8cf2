import AffectedTests.Proofs.Fallible
import AffectedTests.Proofs.Steady
import AffectedTests.Reach.Trace
/-!
# Lookups are steady

Every query of the analysis is steady: files, the listing, resolved imports, tests, declarations,
exports and references are looked up in the views and noted in the session, and nothing else. For the
basic lookups the answer is given in terms of the views.
-/

namespace AffectedTests

/-- A file in view, at a path as loading it finds the file: an absolute path without detours. -/
def Session.Opens (s : Session) (w : Workspace) (file : SourceFile) : Prop :=
  (∃ path, Path.resolve path = .ok file.path) ∧ s.fileOf w file.path = .ok file

/-- There is a list of the project's files, and it holds a path. -/
def Session.Enumerates (s : Session) (w : Workspace) (path : Text) : Prop :=
  ∃ paths, s.listingOf w = .ok paths ∧ path ∈ paths

namespace Query

variable {w : Workspace} {s : Session}

/-! ## Files and imports -/

theorem ask_load (path : Text) (w : Workspace) (s : Session) :
    (load path).ask w s =
      match Path.resolve path with
      | .error fault => (.error (.badName fault), s)
      | .ok key =>
        match s.fileOf w key with
        | .ok file => (.ok (some file), s.noteFile file)
        | .error fault =>
          (.ok none, { s with warnings := s.warnings ++ [.notLoaded path fault] }) := by
  unfold load locate
  rw [ask_bind]
  cases Path.resolve path with
  | error fault => rfl
  | ok key =>
    show (match s.fileOf w key with
      | .ok file => do modify fun s => s.noteFile file; return some file
      | .error fault => do warn (.notLoaded path fault); return none :
        Query (Option SourceFile)).ask w s = _
    dsimp only
    cases s.fileOf w key <;> rfl

/-- A path that can be resolved gives the file in view there, if there is one. -/
theorem answer_load (path : Text) (w : Workspace) (s : Session) :
    (load path).answer w s =
      match Path.resolve path with
      | .error fault => .error (.badName fault)
      | .ok key => .ok (s.fileOf w key).toOption := by
  unfold answer
  rw [ask_load]
  cases Path.resolve path with
  | error fault => rfl
  | ok key =>
    dsimp only
    cases s.fileOf w key <;> rfl

theorem steady_load (path : Text) : Steady (load path) := by
  intro w s hs
  -- What is noted is what was in view; a warning is in no view.
  have hview : ((load path).ask w s).2.Coherent ∧ s.Alike w ((load path).ask w s).2 := by
    rw [ask_load]
    cases Path.resolve path with
    | error fault => exact ⟨hs, .refl w s⟩
    | ok key =>
      dsimp only
      cases hf : s.fileOf w key with
      | ok file => exact ⟨s.noteFile_coherent hs hf, s.noteFile_alike hs hf⟩
      | error fault => exact ⟨hs, fun _ => rfl, fun _ => rfl, rfl, fun _ _ => rfl⟩
  refine ⟨hview.1, hview.2, ?_⟩
  intro s' _ h
  simp only [answer_load, h.file]

/-- A file that was loaded stands in view under its own path. -/
theorem opens_of_answer_load (hs : s.Coherent) {path : Text} {file : SourceFile}
    (h : (load path).answer w s = .ok (some file)) :
    Path.resolve path = .ok file.path ∧ s.Opens w file := by
  rw [answer_load] at h
  split at h
  · cases h
  · rename_i key hkey
    cases hf : s.fileOf w key with
    | error fault =>
      rw [hf] at h
      cases h
    | ok known =>
      rw [hf] at h
      cases h
      have hpath := (hs.fileOf_eq_ok hf).1
      rw [← hpath] at hkey hf
      exact ⟨hkey, ⟨path, hkey⟩, hf⟩

/-- What is asked of a file in view, at any path that leads to it. -/
theorem answer_load_bind {α : Type} (hs : s.Coherent) {k : Option SourceFile → Query α}
    (hk : ∀ found, Steady (k found)) {file : SourceFile} (hfile : s.Opens w file) {path : Text}
    (hpath : Path.resolve path = .ok file.path) :
    (load path >>= k).answer w s = (k (some file)).answer w s := by
  have hload : (load path).answer w s = .ok (some file) := by
    rw [answer_load, hpath]
    dsimp only
    rw [hfile.2]
    rfl
  rw [(steady_load path).answer_bind hk hs, hload]
  rfl

theorem steady_bytesAt (path : Text) : Steady (bytesAt path) := by
  intro w s hs
  have hview : ((bytesAt path).ask w s).2.Coherent ∧ s.Alike w ((bytesAt path).ask w s).2 := by
    rw [ask_bytesAt]
    cases hb : s.bytesOf w path with
    | ok bytes => exact ⟨s.noteBytes_coherent hs hb, s.noteBytes_alike hb⟩
    | error e => exact ⟨hs, .refl w s⟩
  refine ⟨hview.1, hview.2, ?_⟩
  intro s' _ h
  unfold answer
  rw [ask_bytesAt, ask_bytesAt, h.bytes]
  cases s.bytesOf w path <;> rfl

theorem answer_bytesAt (path : Text) (w : Workspace) (s : Session) :
    (bytesAt path).answer w s = .ok (s.bytesOf w path) := by
  unfold answer
  rw [ask_bytesAt]
  cases s.bytesOf w path <;> rfl

theorem ask_listing (w : Workspace) (s : Session) :
    listing.ask w s =
      match s.listingOf w with
      | .ok files => (.ok files, { s with listing := some files })
      | .error failure => (.error failure, s) := by
  have hask : listing.ask w s =
      (do let files ← ofExcept (s.listingOf w)
          modify fun s => { s with listing := some files }
          return files : Query (List Text)).ask w s := rfl
  rw [hask]
  cases s.listingOf w <;> rfl

theorem answer_listing (w : Workspace) (s : Session) : listing.answer w s = s.listingOf w := by
  unfold answer
  rw [ask_listing]
  cases s.listingOf w <;> rfl

theorem steady_listing : Steady listing := by
  intro w s hs
  have hview : (listing.ask w s).2.Coherent ∧ s.Alike w (listing.ask w s).2 := by
    rw [ask_listing]
    cases hfiles : s.listingOf w with
    | ok files => exact ⟨hs, fun _ => rfl, fun _ => rfl, hfiles.symm, fun _ _ => rfl⟩
    | error failure => exact ⟨hs, .refl w s⟩
  refine ⟨hview.1, hview.2, ?_⟩
  intro s' _ h
  rw [answer_listing, answer_listing, h.listing]

theorem ask_resolve (importer specifier : Text) (w : Workspace) (s : Session) :
    (resolve importer specifier).ask w s =
      match Path.resolve importer with
      | .error fault => (.error (.badName fault), s)
      | .ok key =>
        (.ok (s.importOf w (Path.directory key) specifier),
          s.noteImport (Path.directory key) specifier
            (s.importOf w (Path.directory key) specifier)) := by
  unfold resolve locate
  rw [ask_bind]
  cases Path.resolve importer <;> rfl

theorem answer_resolve (importer specifier : Text) (w : Workspace) (s : Session) :
    (resolve importer specifier).answer w s =
      match Path.resolve importer with
      | .error fault => .error (.badName fault)
      | .ok key => .ok (s.importOf w (Path.directory key) specifier) := by
  unfold answer
  rw [ask_resolve]
  cases Path.resolve importer <;> rfl

theorem steady_resolve (importer specifier : Text) : Steady (resolve importer specifier) := by
  intro w s hs
  have hview : ((resolve importer specifier).ask w s).2.Coherent ∧
      s.Alike w ((resolve importer specifier).ask w s).2 := by
    rw [ask_resolve]
    cases Path.resolve importer with
    | error fault => exact ⟨hs, .refl w s⟩
    | ok key => exact ⟨hs, s.noteImport_alike _ _⟩
  refine ⟨hview.1, hview.2, ?_⟩
  intro s' _ h
  simp only [answer_resolve, h.imports]

/-! ## Files that mention a module -/

section Visit

variable {α : Type} {module_ : Text} {word : Bytes} {visit : SourceFile → Query (List α)}

/-- The visit of the file at a path, if there is one. -/
def visitAt (visit : SourceFile → Query (List α)) (path : Text) : Query (List α) := do
  match ← load path with
  | some file => visit file
  | none => return []

/-- The visit of the file at a path if its bytes hold a word. -/
def visitIfHolds (word : Bytes) (visit : SourceFile → Query (List α)) (path : Text) :
    Except DiskError Bytes → Query (List α)
  | .error e => do
    warn (.notRead path e)
    return []
  | .ok bytes => if word.occursIn bytes then visitAt visit path else return []

/-- What a visit of the files that mention a module does with one path of the listing. -/
def visitOne (module_ : Text) (word : Bytes) (visit : SourceFile → Query (List α)) (path : Text) :
    Query (List α) :=
  if path = module_ then return [] else bytesAt path >>= visitIfHolds word visit path

theorem visitMentioning_eq (module_ : Text) (visit : SourceFile → Query (List α)) :
    visitMentioning module_ visit =
      match Utf8.encode (moduleWord module_) with
      | none => throw .unencodable
      | some word => do return (← (← listing).mapM (visitOne module_ word visit)).flatten := by
  -- The visit of one path is written out there, and has a name here.
  have hone : ∀ word : Bytes, (fun path => do
      if path = module_ then return []
      match ← bytesAt path with
      | .error e =>
        warn (.notRead path e)
        return []
      | .ok bytes =>
        if word.occursIn bytes then
          match ← load path with
          | some file => visit file
          | none => return []
        else return [] : Text → Query (List α)) = visitOne module_ word visit := by
    intro word
    funext path
    unfold visitOne
    split
    · rfl
    · refine congrArg (bytesAt path >>= ·) ?_
      funext bytes
      cases bytes <;> rfl
  unfold visitMentioning
  cases Utf8.encode (moduleWord module_) with
  | none => rfl
  | some word =>
    exact congrArg (fun f => do return (← (← listing).mapM f).flatten : _ → Query (List α))
      (hone word)

theorem steady_visitAt (hv : ∀ file, Steady (visit file)) (path : Text) :
    Steady (visitAt visit path) := by
  refine (steady_load path).bind ?_
  intro file
  cases file with
  | some file => exact hv file
  | none => exact steady_pure []

theorem steady_visitIfHolds (hv : ∀ file, Steady (visit file)) (path : Text)
    (bytes : Except DiskError Bytes) : Steady (visitIfHolds word visit path bytes) := by
  cases bytes with
  | error e => exact (steady_warn _).bind fun _ => steady_pure []
  | ok bytes =>
    rw [visitIfHolds]
    split
    · exact steady_visitAt hv path
    · exact steady_pure []

theorem steady_visitOne (hv : ∀ file, Steady (visit file)) (path : Text) :
    Steady (visitOne module_ word visit path) := by
  unfold visitOne
  split
  · exact steady_pure []
  · exact (steady_bytesAt path).bind (steady_visitIfHolds hv path)

theorem steady_visitMentioning (hv : ∀ file, Steady (visit file)) (module_ : Text) :
    Steady (visitMentioning module_ visit) := by
  rw [visitMentioning_eq]
  cases Utf8.encode (moduleWord module_) with
  | none => exact steady_throw _
  | some word =>
    refine steady_listing.bind ?_
    intro paths
    exact (Steady.mapM (steady_visitOne hv) paths).bind fun _ => steady_pure _

theorem answer_visitAt (hv : ∀ file, Steady (visit file)) (hs : s.Coherent) (path : Text) :
    (visitAt visit path).answer w s =
      match Path.resolve path with
      | .error fault => .error (.badName fault)
      | .ok key =>
        match s.fileOf w key with
        | .error _ => .ok []
        | .ok file => (visit file).answer w s := by
  unfold visitAt
  rw [(steady_load path).answer_bind _ hs, answer_load]
  · cases Path.resolve path with
    | error fault => rfl
    | ok key =>
      dsimp only
      cases s.fileOf w key <;> rfl
  · intro file
    cases file with
    | some file => exact hv file
    | none => exact steady_pure []

theorem answer_visitOne (hv : ∀ file, Steady (visit file)) (hs : s.Coherent) (path : Text) :
    (visitOne module_ word visit path).answer w s =
      if path = module_ then .ok []
      else
        match s.bytesOf w path with
        | .error _ => .ok []
        | .ok bytes => if word.occursIn bytes then (visitAt visit path).answer w s else .ok [] := by
  unfold visitOne
  split
  · rfl
  · rw [(steady_bytesAt path).answer_bind (steady_visitIfHolds hv path) hs, answer_bytesAt]
    cases s.bytesOf w path with
    | error e => rfl
    | ok bytes =>
      simp only [Except.bind, visitIfHolds]
      split <;> rfl

theorem answer_visitMentioning (hv : ∀ file, Steady (visit file)) (hs : s.Coherent)
    (module_ : Text) :
    (visitMentioning module_ visit).answer w s =
      match Utf8.encode (moduleWord module_) with
      | none => .error .unencodable
      | some word =>
        (s.listingOf w).bind fun paths =>
          (paths.mapM fun path => (visitOne module_ word visit path).answer w s).map List.flatten := by
  rw [visitMentioning_eq]
  cases Utf8.encode (moduleWord module_) with
  | none => rfl
  | some word =>
    have hmap : ∀ paths : List Text, Steady (paths.mapM (visitOne module_ word visit)) :=
      fun paths => Steady.mapM (steady_visitOne hv) paths
    rw [steady_listing.answer_bind (fun paths => (hmap paths).bind fun _ => steady_pure _) hs,
      answer_listing]
    refine congrArg (Except.bind (s.listingOf w)) (funext fun paths => ?_)
    rw [(hmap _).answer_bind (fun _ => steady_pure _) hs, answer_mapM (steady_visitOne hv) hs]
    rfl

/-- What a visit of one path gives, it takes from the file in view there. -/
theorem mem_of_answer_visitAt (hv : ∀ file, Steady (visit file)) (hs : s.Coherent) {path : Text}
    {xs : List α} (h : (visitAt visit path).answer w s = .ok xs) {x : α} (hx : x ∈ xs) :
    ∃ file, s.Opens w file ∧ Path.resolve path = .ok file.path ∧
      (visit file).answer w s = .ok xs := by
  have hne : xs ≠ [] := List.ne_nil_of_mem hx
  rw [answer_visitAt hv hs] at h
  split at h
  · cases h
  · split at h
    · exact absurd (Except.ok.inj h).symm hne
    · rename_i hkey _ file hfile
      have hpath := (hs.fileOf_eq_ok hfile).1
      rw [← hpath] at hkey hfile
      exact ⟨file, ⟨⟨path, hkey⟩, hfile⟩, hkey, h⟩

/-- What a visit of the files that mention a module collects, it takes from listed files in view. -/
theorem mem_of_answer_visitMentioning (hv : ∀ file, Steady (visit file)) (hs : s.Coherent)
    {xs : List α} (h : (visitMentioning module_ visit).answer w s = .ok xs) {x : α} (hx : x ∈ xs) :
    ∃ path, s.Enumerates w path ∧ ∃ file ys, s.Opens w file ∧ Path.resolve path = .ok file.path ∧
      (visit file).answer w s = .ok ys ∧ x ∈ ys := by
  rw [answer_visitMentioning hv hs] at h
  cases hword : Utf8.encode (moduleWord module_) with
  | none => simp [hword] at h
  | some word =>
    simp only [hword] at h
    rcases Fallible.bind_eq_ok.1 h with ⟨paths, hpaths, h⟩
    rcases Fallible.map_eq_ok.1 h with ⟨found, hfound, rfl⟩
    rcases List.mem_flatten.1 hx with ⟨ys, hys, hx⟩
    rcases Fallible.mem_of_mapM_eq_ok hfound hys with ⟨path, hpath, hone⟩
    -- A path that gives something is not the module's, can be read and holds the word.
    have hne : ys ≠ [] := List.ne_nil_of_mem hx
    rw [answer_visitOne hv hs] at hone
    split at hone
    · exact absurd (Except.ok.inj hone).symm hne
    · split at hone
      · exact absurd (Except.ok.inj hone).symm hne
      · split at hone
        · rcases mem_of_answer_visitAt hv hs hone hx with ⟨file, hfile, hkey, hvisit⟩
          exact ⟨path, ⟨paths, hpaths, hpath⟩, file, ys, hfile, hkey, hvisit, hx⟩
        · exact absurd (Except.ok.inj hone).symm hne

end Visit

end Query

end AffectedTests
