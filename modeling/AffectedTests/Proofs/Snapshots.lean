import AffectedTests.Disk.Change
import AffectedTests.Proofs.Lookups
/-!
# Snapshots of files

A disk may change while a session goes on: files are written and removed between one look and the next.
The session does not follow. What it has read of a file it keeps, as bytes and as a tree, whatever
happens on the disk and under whatever spelling the file is asked for again; only when it forgets the
file does it read it anew.

- `Access.effect` says all that one access to the kept files can do.
- `Session.Snapshot` is the invariant: a kept tree is the tree of the bytes that are kept beside it.
- `Moment.snapshots` puts together what holds at every moment that a project can come to.
-/

namespace AffectedTests

/-! ## Accesses -/

/-- An access to the files that a session keeps. -/
inductive Access
  /-- The file at a path with its tree. -/
  | load (path : Text)
  /-- The bytes of the file at a path. -/
  | bytes (path : Text)
  /-- The file at a path, if it is kept with its tree. -/
  | kept (path : Text)
  | forget (path : Text)
  | forgetAll

/-- The answer of an access. -/
inductive Reply
  | file (file : Option SourceFile)
  | bytes (bytes : Bytes)
  | done

/-- The bytes that an answer shows: its own, or those that its tree was built from. -/
def Reply.bytes? : Reply → Option Bytes
  | .file found => found.map (·.source)
  | .bytes contents => some contents
  | .done => none

namespace Access

/-- The path that an access is about. -/
def path? : Access → Option Text
  | .load path | .bytes path | .kept path | .forget path => some path
  | .forgetAll => none

/-- An access as a query. -/
def query : Access → Query Reply
  | .load path => do return .file (← Query.load path)
  | .bytes path => do
    match ← Query.bytesAt (← Query.locate path) with
    | .ok contents => return .bytes contents
    | .error error => throw (.disk error)
  | .kept path => do
    let key ← Query.locate path
    return .file ((← get).files.get? key)
  | .forget path => do
    let key ← Query.locate path
    modify fun s => s.forget key
    return .done
  | .forgetAll => do
    modify Session.forgetAll
    return .done

/-- Whether an access forgets the file that is kept under a resolved path. -/
def Forgets (key : Text) : Access → Prop
  | .forget path => Path.resolve path = .ok key
  | .forgetAll => True
  | _ => False

/-- Whether an answer to an access shows bytes of the file at a resolved path. -/
def Shows (key : Text) (bytes : Bytes) (a : Access) (answer : Except Failure Reply) : Prop :=
  (∃ path, a.path? = some path ∧ Path.resolve path = .ok key) ∧
    ∃ reply, answer = .ok reply ∧ reply.bytes? = some bytes

/-- What an access may answer and leave behind. -/
inductive Effect (w : Workspace) (s : Session) : Access → Except Failure Reply → Session → Prop
  | refused {a : Access} {path : Text} {fault : Path.NameFault} :
      a.path? = some path → Path.resolve path = .error fault →
        Effect w s a (.error (.badName fault)) s
  | loaded {path key : Text} {file : SourceFile} :
      Path.resolve path = .ok key → s.fileOf w key = .ok file →
        Effect w s (.load path) (.ok (.file (some file))) (s.noteFile file)
  | passedOver {path key : Text} {fault : LoadFault} :
      Path.resolve path = .ok key → s.fileOf w key = .error fault →
        Effect w s (.load path) (.ok (.file none))
          { s with warnings := s.warnings ++ [.notLoaded path fault] }
  | read {path key : Text} {bytes : Bytes} :
      Path.resolve path = .ok key → s.bytesOf w key = .ok bytes →
        Effect w s (.bytes path) (.ok (.bytes bytes)) (s.noteBytes key bytes)
  | unreadable {path key : Text} {error : DiskError} :
      Path.resolve path = .ok key → s.bytesOf w key = .error error →
        Effect w s (.bytes path) (.error (.disk error)) s
  | kept {path key : Text} :
      Path.resolve path = .ok key →
        Effect w s (.kept path) (.ok (.file (s.files.get? key))) s
  | forgot {path key : Text} :
      Path.resolve path = .ok key → Effect w s (.forget path) (.ok .done) (s.forget key)
  | forgotAll : Effect w s .forgetAll (.ok .done) s.forgetAll

variable {w : Workspace} {s : Session}

/-- The first step of an access to one file is to find the path under which the file is kept. -/
theorem ask_locate {α : Type} (path : Text) (k : Text → Query α) (w : Workspace) (s : Session) :
    (Query.locate path >>= k).ask w s =
      match Path.resolve path with
      | .ok key => (k key).ask w s
      | .error fault => (.error (.badName fault), s) := by
  unfold Query.locate
  rw [Query.ask_bind]
  cases Path.resolve path <;> rfl

theorem effect (a : Access) (w : Workspace) (s : Session) :
    Effect w s a (a.query.ask w s).1 (a.query.ask w s).2 := by
  cases a with
  | load path =>
    unfold query
    rw [Query.ask_bind, Query.ask_load]
    cases hkey : Path.resolve path with
    | error fault => exact .refused rfl hkey
    | ok key =>
      dsimp only
      cases hfile : s.fileOf w key with
      | ok file => exact .loaded hkey hfile
      | error fault => exact .passedOver hkey hfile
  | bytes path =>
    unfold query
    rw [ask_locate]
    cases hkey : Path.resolve path with
    | error fault => exact .refused rfl hkey
    | ok key =>
      dsimp only
      rw [Query.ask_bind, Query.ask_bytesAt]
      cases hbytes : s.bytesOf w key with
      | ok bytes => exact .read hkey hbytes
      | error error => exact .unreadable hkey hbytes
  | kept path =>
    unfold query
    rw [ask_locate]
    cases hkey : Path.resolve path with
    | error fault => exact .refused rfl hkey
    | ok key => exact .kept hkey
  | forget path =>
    unfold query
    rw [ask_locate]
    cases hkey : Path.resolve path with
    | error fault => exact .refused rfl hkey
    | ok key => exact .forgot hkey
  | forgetAll => exact .forgotAll

end Access

/-! ## The invariant -/

/-- The file that bytes make at a path, if there is a grammar for it. -/
def Workspace.parsed? (w : Workspace) (path : Text) (bytes : Bytes) : Option SourceFile :=
  (Language.ofPath? path).map fun language => ⟨path, language, bytes, w.grammars language bytes⟩

namespace Session

variable {w : Workspace} {s s' : Session} {key : Text} {bytes : Bytes} {file : SourceFile}
  {a : Access} {answer : Except Failure Reply}

/-- Beside every kept file its bytes are kept, and the file is what they make. -/
def Snapshot (w : Workspace) (s : Session) : Prop :=
  ∀ key file, s.files.get? key = some file →
    s.sources.get? key = some file.source ∧ w.parsed? key file.source = some file

theorem snapshot_empty (w : Workspace) : Snapshot w {} := by
  intro key file h
  simp [Table.get?] at h

/-- The bytes of a file are kept. -/
def Keeps (s : Session) (key : Text) (bytes : Bytes) : Prop :=
  s.sources.get? key = some bytes

theorem Keeps.unique {bytes' : Bytes} (h : s.Keeps key bytes) (h' : s.Keeps key bytes') :
    bytes' = bytes :=
  Option.some.inj (h'.symm.trans h)

theorem Keeps.bytesOf (h : s.Keeps key bytes) : s.bytesOf w key = .ok bytes := by
  unfold Session.bytesOf
  rw [show s.sources.get? key = some bytes from h]

/-- A file in view is what the bytes in view make. -/
theorem Snapshot.fileOf_toOption (hs : s.Snapshot w) (key : Text) :
    (s.fileOf w key).toOption = (s.bytesOf w key).toOption.bind (w.parsed? key) := by
  unfold fileOf
  cases hf : s.files.get? key with
  | some file =>
    rcases hs key file hf with ⟨hbytes, hparsed⟩
    rw [Keeps.bytesOf hbytes]
    exact hparsed.symm
  | none =>
    dsimp only
    unfold Workspace.parsed?
    cases Language.ofPath? key with
    | none => cases s.bytesOf w key <;> rfl
    | some language => cases s.bytesOf w key <;> rfl

theorem Snapshot.fileOf_eq_ok (hs : s.Snapshot w) (h : s.fileOf w key = .ok file) :
    file.path = key ∧ s.bytesOf w key = .ok file.source ∧
      w.parsed? key file.source = some file := by
  have hview : (s.bytesOf w key).toOption.bind (w.parsed? key) = some file := by
    rw [← hs.fileOf_toOption, h]
    rfl
  rcases Option.bind_eq_some_iff.1 hview with ⟨bytes, hbytes, hparsed⟩
  -- What bytes make has these bytes and stands under the path.
  rcases Option.map_eq_some_iff.1 hparsed with ⟨language, -, rfl⟩
  exact ⟨rfl, Fallible.toOption_eq_some.1 hbytes, hparsed⟩

theorem Snapshot.noteBytes (hs : s.Snapshot w) (h : s.bytesOf w key = .ok bytes) :
    (s.noteBytes key bytes).Snapshot w := by
  intro other file hf
  rcases hs other file hf with ⟨hbytes, hparsed⟩
  refine ⟨?_, hparsed⟩
  -- If a file is kept there, its bytes are in view, so the same bytes are written once more.
  by_cases heq : key = other
  · subst heq
    have hsame : bytes = file.source := Except.ok.inj (h.symm.trans (Keeps.bytesOf hbytes))
    simp [Session.noteBytes, Table.get?_put, hsame]
  · simpa [Session.noteBytes, Table.get?_put, heq] using hbytes

theorem Snapshot.noteFile (hs : s.Snapshot w) (h : s.fileOf w key = .ok file) :
    (s.noteFile file).Snapshot w := by
  rcases hs.fileOf_eq_ok h with ⟨rfl, hbytes, hparsed⟩
  intro other known hf
  by_cases heq : file.path = other
  · subst heq
    have hknown : file = known := by simpa [Session.noteFile, Table.get?_put] using hf
    subst hknown
    exact ⟨by simp [Session.noteFile, Table.get?_put], hparsed⟩
  · have hold : s.files.get? other = some known := by
      simpa [Session.noteFile, Table.get?_put, heq] using hf
    exact hs.noteBytes hbytes other known hold

theorem Snapshot.forget (hs : s.Snapshot w) (key : Text) : (s.forget key).Snapshot w := by
  intro other file hf
  by_cases heq : key = other
  · simp [Session.forget, Table.get?_erase, heq] at hf
  · have hold : s.files.get? other = some file := by
      simpa [Session.forget, Table.get?_erase, heq] using hf
    simpa [Session.forget, Table.get?_erase, heq] using hs other file hold

/-- Every access keeps the invariant. -/
theorem Snapshot.effect (hs : s.Snapshot w) (h : a.Effect w s answer s') : s'.Snapshot w := by
  cases h with
  | refused _ _ => exact hs
  | loaded _ hfile => exact hs.noteFile hfile
  | passedOver _ _ => exact hs
  | read _ hbytes => exact hs.noteBytes hbytes
  | unreadable _ _ => exact hs
  | kept _ => exact hs
  | forgot _ => exact hs.forget _
  | forgotAll =>
    intro key file hf
    simp [Session.forgetAll, Table.get?] at hf

/-! ## What an access keeps and what it shows -/

/-- Bytes in view may be noted: bytes that are kept stay. -/
theorem Keeps.noteBytes (h : s.Keeps key bytes) {other : Text} {seen : Bytes}
    (hseen : s.bytesOf w other = .ok seen) : (s.noteBytes other seen).Keeps key bytes := by
  unfold Keeps Session.noteBytes
  rw [Table.get?_put]
  split
  · rename_i heq
    subst heq
    exact congrArg some (Except.ok.inj (hseen.symm.trans h.bytesOf))
  · exact h

/-- Kept bytes stay until they are forgotten. -/
theorem Keeps.effect (hs : s.Snapshot w) (h : s.Keeps key bytes) (ha : ¬ a.Forgets key)
    (he : a.Effect w s answer s') : s'.Keeps key bytes := by
  cases he with
  | refused _ _ => exact h
  | loaded _ hfile =>
    rcases hs.fileOf_eq_ok hfile with ⟨rfl, hbytes, -⟩
    exact h.noteBytes hbytes
  | passedOver _ _ => exact h
  | read _ hbytes => exact h.noteBytes hbytes
  | unreadable _ _ => exact h
  | kept _ => exact h
  | @forgot path other hother =>
    unfold Keeps Session.forget
    rw [Table.get?_erase, if_neg ?_]
    · exact h
    · rintro rfl
      exact ha hother
  | forgotAll => exact absurd trivial ha

/-- A file that nothing is kept of. -/
def Lacks (s : Session) (key : Text) : Prop :=
  s.sources.get? key = none

theorem Lacks.noteBytes (h : s.Lacks key) {other : Text} (hne : other ≠ key) (seen : Bytes) :
    (s.noteBytes other seen).Lacks key := by
  unfold Lacks Session.noteBytes
  rw [Table.get?_put, if_neg hne]
  exact h

/-- An access that shows nothing of a file leaves nothing of it behind. -/
theorem Lacks.effect (hs : s.Snapshot w) (h : s.Lacks key)
    (hnone : ∀ bytes, ¬ a.Shows key bytes answer) (he : a.Effect w s answer s') : s'.Lacks key := by
  cases he with
  | refused _ _ => exact h
  | @loaded path other file hother hfile =>
    rcases hs.fileOf_eq_ok hfile with ⟨rfl, -, -⟩
    refine h.noteBytes ?_ file.source
    rintro rfl
    exact hnone file.source ⟨⟨path, rfl, hother⟩, _, rfl, rfl⟩
  | passedOver _ _ => exact h
  | @read path other bytes hother _ =>
    refine h.noteBytes ?_ bytes
    rintro rfl
    exact hnone bytes ⟨⟨path, rfl, hother⟩, _, rfl, rfl⟩
  | unreadable _ _ => exact h
  | kept _ => exact h
  | forgot _ =>
    unfold Lacks Session.forget
    rw [Table.get?_erase]
    split
    · rfl
    · exact h
  | forgotAll => exact rfl

/-- The bytes that an access shows of a file were in view, and are kept from then on. -/
theorem Snapshot.keeps_of_shows (hs : s.Snapshot w) (hshows : a.Shows key bytes answer)
    (he : a.Effect w s answer s') : s'.Keeps key bytes := by
  rcases hshows with ⟨⟨path, hpath, hkey⟩, reply, hreply, hbytes⟩
  cases he with
  | refused _ _ => cases hreply
  | @loaded path' other file hother hfile =>
    cases hpath
    cases hkey.symm.trans hother
    cases hreply
    cases hbytes
    rcases hs.fileOf_eq_ok hfile with ⟨rfl, -, -⟩
    simp [Keeps, Session.noteFile, Table.get?_put]
  | passedOver _ _ =>
    cases hreply
    cases hbytes
  | @read path' other contents hother _ =>
    cases hpath
    cases hkey.symm.trans hother
    cases hreply
    cases hbytes
    simp [Keeps, Session.noteBytes, Table.get?_put]
  | unreadable _ _ => cases hreply
  | @kept path' other hother =>
    cases hpath
    cases hkey.symm.trans hother
    cases hreply
    -- A file that is kept stands beside its bytes.
    rcases Option.map_eq_some_iff.1 hbytes with ⟨file, hfile, rfl⟩
    exact (hs key file hfile).1
  | forgot _ =>
    cases hreply
    cases hbytes
  | forgotAll => cases hpath

end Session

/-! ## Moments -/

/-- What happens between two moments of a project. -/
inductive Event
  | write (path : Text) (contents : Bytes)
  | remove (path : Text)
  | access (a : Access)

/-- A project at some moment: its disk and what is kept of it. -/
structure Moment where
  disk : Disk
  session : Session := {}

namespace Moment

/-- The project as it is at a moment. -/
def project (w : Workspace) (m : Moment) : Workspace :=
  { w with disk := m.disk }

/-- A change of the disk, which the session does not see. -/
def change (m : Moment) (c : Disk.Change Unit) : Except Failure Reply × Moment :=
  ((c.apply m.disk).1.map fun _ => .done, { m with disk := (c.apply m.disk).2 })

/-- An access, which the disk does not see. -/
def access (w : Workspace) (m : Moment) (a : Access) : Except Failure Reply × Moment :=
  ((a.query.ask (m.project w) m.session).1,
    { m with session := (a.query.ask (m.project w) m.session).2 })

/-- The answer of an event and the moment after it. -/
def occur (w : Workspace) (m : Moment) : Event → Except Failure Reply × Moment
  | .write path contents => m.change (Disk.Change.write path contents)
  | .remove path => m.change (Disk.Change.remove path)
  | .access a => m.access w a

/-- The moment after some events. -/
def after (w : Workspace) (m : Moment) : List Event → Moment
  | [] => m
  | e :: es => after w (m.occur w e).2 es

/-- A moment that a project can come to. -/
def Reached (w : Workspace) (m : Moment) : Prop :=
  ∃ d es, m = after w ⟨d, {}⟩ es

/-- No event of a list forgets a file. -/
def Remembers (key : Text) (es : List Event) : Prop :=
  ∀ a, .access a ∈ es → ¬ a.Forgets key

/-- From a moment on, no event of a list shows anything of a file. -/
def Unread (w : Workspace) (key : Text) (m : Moment) : List Event → Prop
  | [] => True
  | e :: es =>
    (∀ a bytes, e = .access a → ¬ a.Shows key bytes (m.occur w e).1) ∧
      Unread w key (m.occur w e).2 es

variable {w : Workspace} {m : Moment} {key : Text} {bytes : Bytes}

/-! ### Steps and runs -/

theorem effect (w : Workspace) (m : Moment) (a : Access) :
    a.Effect (m.project w) m.session (m.access w a).1 (m.access w a).2.session :=
  a.effect (m.project w) m.session

/-- One event: changes of the disk leave the session as it is, and accesses keep the invariant. -/
theorem snapshot_occur (hm : m.session.Snapshot w) (e : Event) :
    (m.occur w e).2.session.Snapshot w := by
  cases e with
  | write path contents => exact hm
  | remove path => exact hm
  | access a => exact Session.Snapshot.effect (w := m.project w) hm (effect w m a)

theorem snapshot_after (hm : m.session.Snapshot w) (es : List Event) :
    (after w m es).session.Snapshot w := by
  induction es generalizing m with
  | nil => exact hm
  | cons e es ih => exact ih (snapshot_occur hm e)

theorem Reached.snapshot (hm : m.Reached w) : m.session.Snapshot w := by
  rcases hm with ⟨d, es, rfl⟩
  exact snapshot_after (Session.snapshot_empty w) es

/-- Bytes that are kept are kept through every list of events that does not forget them. -/
theorem keeps_after (hm : m.session.Snapshot w) (h : m.session.Keeps key bytes) {es : List Event}
    (hes : Remembers key es) : (after w m es).session.Keeps key bytes := by
  induction es generalizing m with
  | nil => exact h
  | cons e es ih =>
    have hrest : Remembers key es := fun a ha => hes a (List.mem_cons_of_mem _ ha)
    refine ih (snapshot_occur hm e) ?_ hrest
    cases e with
    | write path contents => exact h
    | remove path => exact h
    | access a => exact h.effect (w := m.project w) hm (hes a List.mem_cons_self) (effect w m a)

/-- Nothing is kept of a file through every list of events that shows nothing of it. -/
theorem lacks_after (hm : m.session.Snapshot w) (h : m.session.Lacks key) {es : List Event}
    (hes : Unread w key m es) : (after w m es).session.Lacks key := by
  induction es generalizing m with
  | nil => exact h
  | cons e es ih =>
    rcases hes with ⟨hfirst, hrest⟩
    refine ih (snapshot_occur hm e) ?_ hrest
    cases e with
    | write path contents => exact h
    | remove path => exact h
    | access a =>
      exact h.effect (w := m.project w) hm (fun contents => hfirst a contents rfl) (effect w m a)

/-! ### Answers -/

/-- Loading a file gives what the bytes in view make. -/
theorem access_load (hm : m.session.Snapshot w) {path : Text} (hkey : Path.resolve path = .ok key) :
    (m.access w (.load path)).1 =
      .ok (.file ((m.session.bytesOf (m.project w) key).toOption.bind (w.parsed? key))) := by
  have hview : (m.session.fileOf (m.project w) key).toOption =
      (m.session.bytesOf (m.project w) key).toOption.bind (w.parsed? key) :=
    Session.Snapshot.fileOf_toOption (w := m.project w) hm key
  unfold access Access.query
  rw [Query.ask_bind, Query.ask_load, hkey, ← hview]
  dsimp only
  cases m.session.fileOf (m.project w) key <;> rfl

theorem access_bytes (h : m.session.Keeps key bytes) {path : Text}
    (hkey : Path.resolve path = .ok key) :
    (m.access w (.bytes path)).1 = .ok (.bytes bytes) := by
  unfold access Access.query
  rw [Access.ask_locate, hkey]
  dsimp only
  rw [Query.ask_bind, Query.ask_bytesAt, h.bytesOf]
  rfl

theorem access_kept (w : Workspace) (m : Moment) {path : Text} (hkey : Path.resolve path = .ok key) :
    (m.access w (.kept path)).1 = .ok (.file (m.session.files.get? key)) := by
  unfold access Access.query
  rw [Access.ask_locate, hkey]
  rfl

theorem access_forget (w : Workspace) (m : Moment) {path : Text}
    (hkey : Path.resolve path = .ok key) :
    (m.access w (.forget path)).2.session = m.session.forget key := by
  unfold access Access.query
  rw [Access.ask_locate, hkey]
  rfl

/-- While the bytes of a file are kept, whoever asks for the file sees them. -/
theorem sees_of_keeps (hm : m.session.Snapshot w) (h : m.session.Keeps key bytes) {path : Text}
    (hkey : Path.resolve path = .ok key) :
    (m.access w (.bytes path)).1 = .ok (.bytes bytes) ∧
      (m.access w (.load path)).1 = .ok (.file (w.parsed? key bytes)) ∧
      ((m.access w (.kept path)).1 = .ok (.file none) ∨
        (m.access w (.kept path)).1 = .ok (.file (w.parsed? key bytes))) := by
  refine ⟨access_bytes h hkey, ?_, ?_⟩
  · rw [access_load hm hkey, h.bytesOf]
    rfl
  · rw [access_kept w m hkey]
    cases hfile : m.session.files.get? key with
    | none => exact .inl rfl
    | some file =>
      rcases hm key file hfile with ⟨hsource, hparsed⟩
      rw [h.unique hsource] at hparsed
      exact .inr (by rw [hparsed])

/-- A load that gives no file leaves what is kept as it is. -/
theorem load_keeps {path : Text}
    (hnone : ∀ file, (m.access w (.load path)).1 ≠ .ok (.file (some file))) :
    (m.access w (.load path)).2.session.files = m.session.files ∧
      (m.access w (.load path)).2.session.sources = m.session.sources := by
  have heffect := effect w m (.load path)
  revert hnone heffect
  generalize (m.access w (.load path)).1 = answer
  generalize (m.access w (.load path)).2.session = next
  intro hnone heffect
  cases heffect with
  | refused _ _ => exact ⟨rfl, rfl⟩
  | loaded _ _ => exact absurd rfl (hnone _)
  | passedOver _ _ => exact ⟨rfl, rfl⟩

/-- What a session has read of a file is what it shows of it until the file is forgotten. At every
moment that a project comes to, whatever is written and removed in between:

- a kept tree is the tree of the bytes that are kept with it;
- once some access has shown bytes of a file, every access sees these bytes, under every spelling of the
  path, until the file is forgotten;
- a load that gives no file changes nothing that is kept;
- forgetting a file touches no other one, and the first load after it reads the disk as it is then. -/
theorem snapshots (hm : m.Reached w) :
    (∀ key file, m.session.files.get? key = some file →
      m.session.sources.get? key = some file.source ∧ w.parsed? key file.source = some file) ∧
    (∀ a key bytes, a.Shows key bytes (m.access w a).1 →
      ∀ es, Remembers key es → ∀ path, Path.resolve path = .ok key →
        let later := after w (m.access w a).2 es
        (later.access w (.bytes path)).1 = .ok (.bytes bytes) ∧
          (later.access w (.load path)).1 = .ok (.file (w.parsed? key bytes)) ∧
          ((later.access w (.kept path)).1 = .ok (.file none) ∨
            (later.access w (.kept path)).1 = .ok (.file (w.parsed? key bytes)))) ∧
    (∀ path, (∀ file, (m.access w (.load path)).1 ≠ .ok (.file (some file))) →
      (m.access w (.load path)).2.session.files = m.session.files ∧
        (m.access w (.load path)).2.session.sources = m.session.sources) ∧
    ∀ path key, Path.resolve path = .ok key →
      let forgotten := (m.access w (.forget path)).2
      (∀ other, other ≠ key →
        forgotten.session.files.get? other = m.session.files.get? other ∧
          forgotten.session.sources.get? other = m.session.sources.get? other) ∧
      ∀ es, Unread w key forgotten es → ∀ spelling, Path.resolve spelling = .ok key →
        let later := after w forgotten es
        (later.access w (.load spelling)).1 =
          .ok (.file ((later.disk.read key).toOption.bind (w.parsed? key))) := by
  have hsnapshot := hm.snapshot
  have hstep : ∀ a, (m.access w a).2.session.Snapshot w := fun a =>
    snapshot_occur hsnapshot (.access a)
  refine ⟨hsnapshot, ?_, fun path => load_keeps, ?_⟩
  · intro a key bytes hshows es hes path hkey
    have hkeeps : (m.access w a).2.session.Keeps key bytes :=
      Session.Snapshot.keeps_of_shows (w := m.project w) hsnapshot hshows (effect w m a)
    exact sees_of_keeps (snapshot_after (hstep a) es) (keeps_after (hstep a) hkeeps hes) hkey
  · intro path key hkey
    dsimp only
    have hforget := access_forget w m hkey
    refine ⟨?_, ?_⟩
    · intro other hne
      rw [hforget]
      constructor <;> rw [Session.forget, Table.get?_erase, if_neg hne.symm]
    · intro es hes spelling hspelling
      have hlacks : (m.access w (.forget path)).2.session.Lacks key := by
        rw [hforget, Session.Lacks, Session.forget, Table.get?_erase, if_pos rfl]
      have hlater := lacks_after (hstep _) hlacks hes
      -- Nothing is kept of the file, so what is in view of it is what is on the disk.
      rw [access_load (snapshot_after (hstep _) es) hspelling, Session.bytesOf, hlater]
      rfl

end Moment

/-! ## An example -/

namespace Rewritten

/-- A disk with one file. -/
def diskOf (contents : Bytes) : Disk :=
  [.directory [112] [.file [97, 46, 106, 115] contents]]

/-- A project with one file, of one byte. -/
def workspace : Workspace where
  root := "/p"
  settings := {}
  grammars _ source := .node ⟨.program, true, none, 0, source.length, 0, 0, []⟩ []
  disk := diskOf [1]

def start : Moment :=
  ⟨workspace.disk, {}⟩

/-- The file as some bytes make it. -/
def file (source : Bytes) : SourceFile :=
  ⟨"/p/a.js", .javascript, source, workspace.grammars .javascript source⟩

/-- Writing the file changes its bytes and nothing else. -/
theorem write_diskOf (contents contents' : Bytes) :
    ((Disk.Change.write "/p/a.js" contents').apply (diskOf contents)).2 = diskOf contents' := by
  have hput : (diskOf contents).put "/p/a.js" contents' = diskOf contents' := by
    have hroute : Disk.route? "/p/a.js" = some [[112], [97, 46, 106, 115]] := by rfl
    unfold Disk.put Disk.changeAlong
    rw [hroute]
    simp [diskOf, Disk.store, Entry.name]
  rw [← hput]
  rfl

/-- The file is loaded, written anew and asked for under another spelling, which shows the old bytes;
if it is forgotten before it is written, the new bytes are loaded. A file that is missing leaves no
trace. -/
theorem snapshots_start :
    let loaded := (start.access workspace (.load "/p/a.js")).2
    let rewritten := Moment.after workspace loaded [.write "/p/a.js" [2], .access (.bytes "/p/b.js")]
    let forgotten := (loaded.access workspace (.forget "/p/./a.js")).2
    let renewed := Moment.after workspace forgotten [.write "/p/a.js" [2]]
    rewritten.disk = diskOf [2] ∧
      (rewritten.access workspace (.load "/p/x/../a.js")).1 = .ok (.file (some (file [1]))) ∧
      (renewed.access workspace (.load "/p//a.js")).1 = .ok (.file (some (file [2]))) ∧
      (loaded.access workspace (.load "/p/b.js")).2.session.sources = loaded.session.sources := by
  intro loaded rewritten forgotten renewed
  have hloaded : loaded.Reached workspace := ⟨workspace.disk, [.access (.load "/p/a.js")], rfl⟩
  have hshows : (Access.load "/p/a.js").Shows "/p/a.js" [1]
      (start.access workspace (.load "/p/a.js")).1 := ⟨⟨_, rfl, by rfl⟩, _, by rfl, by rfl⟩
  refine ⟨write_diskOf [1] [2], ?_, ?_, ?_⟩
  · have h := Moment.snapshots (w := workspace) (m := start) ⟨workspace.disk, [], rfl⟩
    refine (h.2.1 _ _ _ hshows _ ?_ _ (by rfl)).2.1.trans (by rfl)
    -- The bytes of another file are asked for, and nothing is forgotten.
    intro a ha
    simp only [List.mem_cons, List.not_mem_nil, reduceCtorEq, Event.access.injEq, or_false,
      false_or] at ha
    rw [ha]
    exact id
  · have h := Moment.snapshots hloaded
    refine ((h.2.2.2 "/p/./a.js" "/p/a.js" (by rfl)).2 [.write "/p/a.js" [2]] ?_ _ (by rfl)).trans ?_
    · refine ⟨?_, trivial⟩
      intro a bytes ha
      cases ha
    · have hdisk : renewed.disk = diskOf [2] := write_diskOf [1] [2]
      rw [hdisk]
      rfl
  · have h := Moment.snapshots hloaded
    have hmissing : (loaded.access workspace (.load "/p/b.js")).1 = .ok (.file none) := by rfl
    refine (h.2.2.1 _ ?_).2
    intro file hfile
    rw [hmissing] at hfile
    cases hfile

end Rewritten

end AffectedTests
