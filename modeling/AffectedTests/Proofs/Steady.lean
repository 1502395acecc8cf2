import AffectedTests.Proofs.Fallible
import AffectedTests.Source.Session
/-!
# Steady queries

A session only remembers: what a query notes does not change what the session shows of the workspace.
Two sessions are alike when they show the same, and a query is steady when it answers alike sessions
alike and leaves a session that is like the one it started from.

- `Session.Coherent` is what every session keeps: a parsed file stands under its own path, beside its
  bytes.
- `Query.Steady` is closed under the ways in which queries are put together.
- For steady queries `Query.answer` is a function of the views alone, and commutes with sequencing; so
  a steady query can be read as a computation that may fail, without any state.
-/

namespace AffectedTests

namespace Session

/-- Every parsed file is kept under its own path, and its bytes are kept with it. -/
def Coherent (s : Session) : Prop :=
  ∀ path file, s.files.get? path = some file →
    file.path = path ∧ s.sources.get? path = some file.source

/-- Two sessions that show the same of a workspace. -/
structure Alike (w : Workspace) (s s' : Session) : Prop where
  bytes : ∀ path, s'.bytesOf w path = s.bytesOf w path
  file : ∀ path, s'.fileOf w path = s.fileOf w path
  listing : s'.listingOf w = s.listingOf w
  imports : ∀ directory specifier,
    s'.importOf w directory specifier = s.importOf w directory specifier

variable {w : Workspace} {s s' s'' : Session}

theorem coherent_empty : Coherent {} := by
  intro path file h
  simp [Table.get?] at h

theorem Alike.refl (w : Workspace) (s : Session) : s.Alike w s :=
  ⟨fun _ => rfl, fun _ => rfl, rfl, fun _ _ => rfl⟩

theorem Alike.trans (h : s.Alike w s') (h' : s'.Alike w s'') : s.Alike w s'' :=
  ⟨fun p => (h'.bytes p).trans (h.bytes p), fun p => (h'.file p).trans (h.file p),
    h'.listing.trans h.listing, fun d t => (h'.imports d t).trans (h.imports d t)⟩

/-! ## Files in view -/

/-- A file in view stands under the path that was asked for, and its bytes are those in view. -/
theorem Coherent.fileOf_eq_ok (hs : s.Coherent) {path : Text} {file : SourceFile}
    (h : s.fileOf w path = .ok file) : file.path = path ∧ s.bytesOf w path = .ok file.source := by
  unfold fileOf at h
  cases hf : s.files.get? path with
  | some known =>
    -- A file that is kept stands beside its bytes; any other one is parsed from those in view.
    have hk : known = file := by simpa [hf] using h
    rw [hk] at hf
    rcases hs path file hf with ⟨hp, hb⟩
    exact ⟨hp, by simp [bytesOf, hb]⟩
  | none =>
    cases hl : Language.ofPath? path with
    | none => simp [hf, hl] at h
    | some language =>
      cases hb : s.bytesOf w path with
      | error e => simp [hf, hl, hb] at h
      | ok bytes =>
        have he : (⟨path, language, bytes, w.grammars language bytes⟩ : SourceFile) = file := by
          simpa [hf, hl, hb] using h
        rw [← he]
        exact ⟨rfl, rfl⟩

/-! ## Noting keeps the views -/

/-- Bytes that are in view may be noted: the views stay. -/
theorem noteBytes_bytesOf {path : Text} {bytes : Bytes} (h : s.bytesOf w path = .ok bytes)
    (p : Text) : (s.noteBytes path bytes).bytesOf w p = s.bytesOf w p := by
  by_cases hp : path = p
  · subst hp
    rw [h]
    simp [bytesOf, noteBytes, Table.get?_put]
  · simp [bytesOf, noteBytes, Table.get?_put, hp]

theorem noteBytes_alike {path : Text} {bytes : Bytes} (h : s.bytesOf w path = .ok bytes) :
    s.Alike w (s.noteBytes path bytes) := by
  refine ⟨noteBytes_bytesOf h, ?_, rfl, fun _ _ => rfl⟩
  intro p
  simp only [fileOf, noteBytes_bytesOf h]
  rfl

theorem noteBytes_coherent (hs : s.Coherent) {path : Text} {bytes : Bytes}
    (h : s.bytesOf w path = .ok bytes) : (s.noteBytes path bytes).Coherent := by
  intro p file hf
  rcases hs p file hf with ⟨hp, hb⟩
  refine ⟨hp, ?_⟩
  -- If a file is kept under the path, its bytes are in view, so they are the ones that are noted.
  by_cases hq : path = p
  · subst hq
    have he : file.source = bytes := by simpa [bytesOf, hb] using h
    simp [noteBytes, Table.get?_put, he]
  · simpa [noteBytes, Table.get?_put, hq] using hb

theorem noteFile_bytesOf (hs : s.Coherent) {path : Text} {file : SourceFile}
    (h : s.fileOf w path = .ok file) (p : Text) :
    (s.noteFile file).bytesOf w p = s.bytesOf w p := by
  rcases hs.fileOf_eq_ok h with ⟨hp, hb⟩
  rw [← hp] at hb
  exact noteBytes_bytesOf hb p

theorem noteFile_alike (hs : s.Coherent) {path : Text} {file : SourceFile}
    (h : s.fileOf w path = .ok file) : s.Alike w (s.noteFile file) := by
  rcases hs.fileOf_eq_ok h with ⟨hp, -⟩
  refine ⟨noteFile_bytesOf hs h, ?_, rfl, fun _ _ => rfl⟩
  intro p
  by_cases hq : file.path = p
  · rw [← hq, hp, h]
    simp [fileOf, noteFile, Table.get?_put, hp]
  · have hg : (s.noteFile file).files.get? p = s.files.get? p := by
      simp [noteFile, Table.get?_put, hq]
    simp only [fileOf, hg, noteFile_bytesOf hs h]

theorem noteFile_coherent (hs : s.Coherent) {path : Text} {file : SourceFile}
    (h : s.fileOf w path = .ok file) : (s.noteFile file).Coherent := by
  rcases hs.fileOf_eq_ok h with ⟨hp, hb⟩
  rw [← hp] at hb
  intro p known hk
  by_cases hq : file.path = p
  · have he : file = known := by simpa [noteFile, Table.get?_put, hq] using hk
    rw [← he]
    exact ⟨hq, by simp [noteFile, Table.get?_put, hq]⟩
  · have hk' : s.files.get? p = some known := by simpa [noteFile, Table.get?_put, hq] using hk
    exact noteBytes_coherent hs hb p known hk'

theorem noteImport_alike (directory specifier : Text) :
    s.Alike w (s.noteImport directory specifier (s.importOf w directory specifier)) := by
  refine ⟨fun _ => rfl, fun _ => rfl, rfl, ?_⟩
  intro d t
  by_cases hk : (directory, specifier) = (d, t)
  · cases hk
    simp [importOf, noteImport, Table.get?_put]
  · simp [importOf, noteImport, Table.get?_put, hk]

end Session

/-! ## Answers -/

namespace Query

variable {α β : Type} {w : Workspace} {s : Session}

/-- The answer of a query. -/
def answer (q : Query α) (w : Workspace) (s : Session) : Except Failure α :=
  (q.ask w s).1

@[simp]
theorem ask_pure (a : α) (w : Workspace) (s : Session) : (pure a : Query α).ask w s = (.ok a, s) :=
  rfl

@[simp]
theorem ask_throw (e : Failure) (w : Workspace) (s : Session) :
    (throw e : Query α).ask w s = (.error e, s) :=
  rfl

theorem ask_bind (q : Query α) (k : α → Query β) (w : Workspace) (s : Session) :
    (q >>= k).ask w s =
      match q.ask w s with
      | (.ok a, s') => (k a).ask w s'
      | (.error e, s') => (.error e, s') := by
  simp only [ask, ReaderT.run_bind, ExceptT.run_bind, StateT.run_bind]
  rcases (q.run w).run.run s with ⟨e | a, s'⟩ <;> rfl

theorem ask_tryCatch (q : Query α) (k : Failure → Query α) (w : Workspace) (s : Session) :
    (tryCatch q k).ask w s =
      match q.ask w s with
      | (.ok a, s') => (.ok a, s')
      | (.error e, s') => (k e).ask w s' := by
  have hcatch : (tryCatch q k).ask w s = (ExceptT.tryCatch (q w) (fun e => k e w)) s := rfl
  have hq : q.ask w s = q w s := rfl
  rw [hcatch, hq]
  simp only [ExceptT.tryCatch, ExceptT.mk, bind, StateT.bind]
  rcases q w s with ⟨e | a, s'⟩ <;> rfl

theorem ask_bytesAt (path : Text) (w : Workspace) (s : Session) :
    (bytesAt path).ask w s =
      match s.bytesOf w path with
      | .ok bytes => (.ok (.ok bytes), s.noteBytes path bytes)
      | .error e => (.ok (.error e), s) := by
  have hask : (bytesAt path).ask w s =
      (match s.bytesOf w path with
      | .ok bytes => do modify fun s => s.noteBytes path bytes; return .ok bytes
      | .error e => return .error e : Query (Except DiskError Bytes)).ask w s := rfl
  rw [hask]
  cases s.bytesOf w path <;> rfl

/-! ## Steadiness -/

/-- A query that answers alike sessions alike, and that keeps what a session shows. -/
def Steady (q : Query α) : Prop :=
  ∀ w s, s.Coherent → (q.ask w s).2.Coherent ∧ s.Alike w (q.ask w s).2 ∧
    ∀ s', s'.Coherent → s.Alike w s' → q.answer w s' = q.answer w s

theorem Steady.coherent {q : Query α} (hq : Steady q) (hs : s.Coherent) :
    (q.ask w s).2.Coherent :=
  (hq w s hs).1

theorem Steady.alike {q : Query α} (hq : Steady q) (hs : s.Coherent) : s.Alike w (q.ask w s).2 :=
  (hq w s hs).2.1

theorem Steady.answer_eq {q : Query α} (hq : Steady q) {s' : Session} (hs : s.Coherent)
    (hs' : s'.Coherent) (h : s.Alike w s') : q.answer w s' = q.answer w s :=
  (hq w s hs).2.2 s' hs' h

theorem steady_pure (a : α) : Steady (pure a) := by
  intro w s hs
  exact ⟨hs, .refl w s, fun _ _ _ => rfl⟩

theorem steady_throw (e : Failure) : Steady (throw e : Query α) := by
  intro w s hs
  exact ⟨hs, .refl w s, fun _ _ _ => rfl⟩

theorem steady_ofExcept (x : Except Failure α) : Steady (ofExcept x) := by
  cases x with
  | ok a => exact steady_pure a
  | error e => exact steady_throw e

theorem answer_ofExcept (x : Except Failure α) (w : Workspace) (s : Session) :
    (ofExcept x).answer w s = x := by
  cases x <;> rfl

theorem steady_read : Steady (read : Query Workspace) := by
  intro w s hs
  exact ⟨hs, .refl w s, fun _ _ _ => rfl⟩

theorem steady_warn (warning : Warning) : Steady (warn warning) := by
  intro w s hs
  exact ⟨hs, ⟨fun _ => rfl, fun _ => rfl, rfl, fun _ _ => rfl⟩, fun _ _ _ => rfl⟩

theorem Steady.answer_bind {q : Query α} {k : α → Query β} (hq : Steady q)
    (hk : ∀ a, Steady (k a)) (hs : s.Coherent) :
    (q >>= k).answer w s = (q.answer w s).bind fun a => (k a).answer w s := by
  have hc := hq.coherent (w := w) hs
  have ha := hq.alike (w := w) hs
  unfold answer
  rw [ask_bind]
  rcases h : q.ask w s with ⟨e | a, s'⟩
  · rfl
  · -- The rest is asked in a later session, which shows the same.
    rw [h] at hc ha
    exact (hk a).answer_eq hs hc ha

theorem Steady.answer_bind_eq_ok {q : Query α} {k : α → Query β} (hq : Steady q)
    (hk : ∀ a, Steady (k a)) (hs : s.Coherent) {b : β} :
    (q >>= k).answer w s = .ok b ↔ ∃ a, q.answer w s = .ok a ∧ (k a).answer w s = .ok b := by
  rw [hq.answer_bind hk hs]
  exact Fallible.bind_eq_ok

theorem Steady.bind {q : Query α} {k : α → Query β} (hq : Steady q) (hk : ∀ a, Steady (k a)) :
    Steady (q >>= k) := by
  intro w s hs
  have hc := hq.coherent (w := w) hs
  have ha := hq.alike (w := w) hs
  have hview : (q >>= k |>.ask w s).2.Coherent ∧ s.Alike w (q >>= k |>.ask w s).2 := by
    rw [ask_bind]
    rcases h : q.ask w s with ⟨e | a, s'⟩
    · rw [h] at hc ha
      exact ⟨hc, ha⟩
    · rw [h] at hc ha
      exact ⟨(hk a).coherent hc, ha.trans ((hk a).alike hc)⟩
  refine ⟨hview.1, hview.2, ?_⟩
  intro s' hs' h
  rw [hq.answer_bind hk hs', hq.answer_bind hk hs, hq.answer_eq hs hs' h]
  have hrest : ∀ a, (k a).answer w s' = (k a).answer w s := fun a => (hk a).answer_eq hs hs' h
  simp only [hrest]

theorem Steady.answer_tryCatch {q : Query α} {k : Failure → Query α} (hq : Steady q)
    (hk : ∀ e, Steady (k e)) (hs : s.Coherent) :
    (tryCatch q k).answer w s =
      match q.answer w s with
      | .ok a => .ok a
      | .error e => (k e).answer w s := by
  have hc := hq.coherent (w := w) hs
  have ha := hq.alike (w := w) hs
  unfold answer
  rw [ask_tryCatch]
  rcases h : q.ask w s with ⟨e | a, s'⟩
  · rw [h] at hc ha
    exact (hk e).answer_eq hs hc ha
  · rfl

theorem Steady.tryCatch {q : Query α} {k : Failure → Query α} (hq : Steady q)
    (hk : ∀ e, Steady (k e)) : Steady (tryCatch q k) := by
  intro w s hs
  have hc := hq.coherent (w := w) hs
  have ha := hq.alike (w := w) hs
  have hview : ((MonadExcept.tryCatch q k).ask w s).2.Coherent ∧
      s.Alike w ((MonadExcept.tryCatch q k).ask w s).2 := by
    rw [ask_tryCatch]
    rcases h : q.ask w s with ⟨e | a, s'⟩
    · rw [h] at hc ha
      exact ⟨(hk e).coherent hc, ha.trans ((hk e).alike hc)⟩
    · rw [h] at hc ha
      exact ⟨hc, ha⟩
  refine ⟨hview.1, hview.2, ?_⟩
  intro s' hs' h
  rw [hq.answer_tryCatch hk hs', hq.answer_tryCatch hk hs, hq.answer_eq hs hs' h]
  have hrest : ∀ e, (k e).answer w s' = (k e).answer w s := fun e => (hk e).answer_eq hs hs' h
  simp only [hrest]

/-- A query that may look at the session, provided that what it sees there is in the views. -/
theorem Steady.ofViews {k : Workspace → Session → Query α}
    (hsame : ∀ w s s', s.Alike w s' → k w s' = k w s) (hk : ∀ w s, Steady (k w s)) :
    Steady (do let w ← read; let s ← get; k w s : Query α) := by
  intro w s hs
  refine ⟨(hk w s).coherent hs, (hk w s).alike hs, ?_⟩
  intro s' hs' h
  have hanswer : (k w s').answer w s' = (k w s).answer w s := by
    rw [hsame w s s' h, (hk w s).answer_eq hs hs' h]
  exact hanswer

/-! ## Steady queries over lists -/

theorem Steady.mapM {f : α → Query β} (hf : ∀ a, Steady (f a)) (xs : List α) :
    Steady (xs.mapM f) := by
  induction xs with
  | nil => exact steady_pure []
  | cons x xs ih =>
    rw [List.mapM_cons]
    exact (hf x).bind fun _ => ih.bind fun _ => steady_pure _

/-- Asking a list of steady questions is answering each of them from the same views. -/
theorem answer_mapM {f : α → Query β} (hf : ∀ a, Steady (f a)) (hs : s.Coherent) (xs : List α) :
    (xs.mapM f).answer w s = xs.mapM fun x => (f x).answer w s := by
  induction xs with
  | nil => rfl
  | cons x xs ih =>
    -- Both sides are sequences now, and the rest of them is the hypothesis.
    rw [List.mapM_cons, List.mapM_cons,
      (hf x).answer_bind (fun _ => (Steady.mapM hf xs).bind fun _ => steady_pure _) hs]
    have hrest : ∀ b, (do let bs ← xs.mapM f; pure (b :: bs) : Query (List β)).answer w s =
        (xs.mapM fun x => (f x).answer w s).bind fun bs => pure (b :: bs) := by
      intro b
      rw [(Steady.mapM hf xs).answer_bind (fun _ => steady_pure _) hs, ih]
      rfl
    simp only [hrest]
    rfl

theorem Steady.foldlM {f : β → α → Query β} (hf : ∀ b a, Steady (f b a)) (b : β) (xs : List α) :
    Steady (xs.foldlM f b) := by
  induction xs generalizing b with
  | nil => exact steady_pure b
  | cons x xs ih =>
    rw [List.foldlM_cons]
    exact (hf b x).bind fun b' => ih b'

theorem Steady.anyM {p : α → Query Bool} (hp : ∀ a, Steady (p a)) (xs : List α) :
    Steady (xs.anyM p) := by
  induction xs with
  | nil => exact steady_pure false
  | cons x xs ih =>
    refine (hp x).bind ?_
    intro found
    cases found with
    | true => exact steady_pure true
    | false => exact ih

end Query

end AffectedTests
