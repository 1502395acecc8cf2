import AffectedTests.Disk.Basic
/-!
# Names on the way to a file

A path that leads to a file consists of names of entries of the disk, of empty names and of dots. What no
name on the disk holds, no such path holds, but for the separators.
-/

namespace AffectedTests

theorem Text.exists_mem_splitOn {sep c : CodePoint} {t : Text} (hc : c ∈ t) (hne : c ≠ sep) :
    ∃ piece ∈ splitOn sep t, c ∈ piece := by
  induction t with
  | nil => cases hc
  | cons first rest ih =>
    unfold splitOn
    rcases List.mem_cons.1 hc with rfl | hc
    · rw [if_neg hne]
      split <;> simp
    · rcases ih hc with ⟨piece, hpiece, hmem⟩
      split
      · exact ⟨piece, List.mem_cons_of_mem _ hpiece, hmem⟩
      · -- The first code point joins the first piece of the rest.
        split
        · rename_i hnil
          rw [hnil] at hpiece
          cases hpiece
        · rename_i next pieces hsplit
          rw [hsplit] at hpiece
          rcases List.mem_cons.1 hpiece with rfl | hpiece
          · exact ⟨first :: piece, by simp, by simp [hmem]⟩
          · exact ⟨piece, by simp [hpiece], hmem⟩

theorem mem_of_mapM_eq_some {α β : Type} {f : α → Option β} {xs : List α} {ys : List β}
    (h : xs.mapM f = some ys) {x : α} {y : β} (hx : x ∈ xs) (hy : f x = some y) : y ∈ ys := by
  induction xs generalizing ys with
  | nil => cases hx
  | cons first rest ih =>
    rw [List.mapM_cons] at h
    rcases Option.bind_eq_some_iff.1 h with ⟨z, hz, h⟩
    rcases Option.bind_eq_some_iff.1 h with ⟨zs, hzs, hcons⟩
    cases hcons
    rcases List.mem_cons.1 hx with rfl | hx
    · rw [hy] at hz
      cases hz
      simp
    · exact List.mem_cons_of_mem _ (ih hzs hx)

/-- A code point that is one byte on its own is that byte of a stored name. -/
theorem Path.byte_mem_of_storedName {name : Text} {stored : Bytes} (h : storedName name = .ok stored)
    {c : CodePoint} {b : UInt8} (hc : c ∈ name) (hb : nameByte? c = some [b]) : b ∈ stored := by
  unfold storedName at h
  split at h
  · cases h
  · rename_i pieces hmap
    dsimp only at h
    split at h
    · cases h
    · cases h
      exact List.mem_flatten.2 ⟨[b], mem_of_mapM_eq_some hmap hc hb, by simp⟩

namespace Disk

/-- An entry of a list of entries or of a directory below it. -/
inductive Below : List Entry → Entry → Prop
  | here {entries : List Entry} {e : Entry} : e ∈ entries → Below entries e
  | inside {entries inner : List Entry} {name : Bytes} {e : Entry} :
      .directory name inner ∈ entries → Below inner e → Below entries e

mutual

/-- Whether the names of an entry and of all that is below it pass a test. -/
def allNamed (p : Bytes → Bool) : Entry → Bool
  | .file name _ => p name
  | .directory name entries => p name && allNamedIn p entries

/-- Whether the names of entries and of all that is below them pass a test. -/
def allNamedIn (p : Bytes → Bool) : List Entry → Bool
  | [] => true
  | e :: rest => allNamed p e && allNamedIn p rest

end

theorem allNamed_of_mem {p : Bytes → Bool} {entries : List Entry} (h : allNamedIn p entries = true)
    {e : Entry} (he : e ∈ entries) : allNamed p e = true := by
  induction entries with
  | nil => cases he
  | cons first rest ih =>
    rw [allNamedIn, Bool.and_eq_true] at h
    rcases List.mem_cons.1 he with rfl | he
    · exact h.1
    · exact ih h.2 he

/-- Names that pass a test can be told by looking at all of them. -/
theorem Below.name_passes {p : Bytes → Bool} {entries : List Entry} {e : Entry}
    (h : Below entries e) (hall : allNamedIn p entries = true) : p e.name = true := by
  induction h with
  | @here entries e he =>
    have hnamed := allNamed_of_mem hall he
    cases e with
    | file name contents => exact hnamed
    | directory name inner =>
      rw [allNamed, Bool.and_eq_true] at hnamed
      exact hnamed.1
  | inside hmem _ ih =>
    have hnamed := allNamed_of_mem hall hmem
    rw [allNamed, Bool.and_eq_true] at hnamed
    exact ih hnamed.2

/-- What is below a directory below a list is below the list. -/
theorem Below.of_directory {root inner : List Entry} {name : Bytes} {e : Entry}
    (h : Below root (.directory name inner)) (he : e ∈ inner) : Below root e := by
  generalize hd : Entry.directory name inner = d at h
  induction h with
  | here hmem =>
    subst hd
    exact .inside hmem (.here he)
  | inside hmem _ ih => exact .inside hmem (ih hd)

/-- What is below entries of the disk is on the disk. -/
theorem Below.trans {root entries : List Entry} {e : Entry} (h : Below entries e)
    (hentries : ∀ e ∈ entries, Below root e) : Below root e := by
  induction h with
  | here he => exact hentries _ he
  | inside hmem _ ih => exact ih fun e he => (hentries _ hmem).of_directory he

theorem mem_of_find?_eq_some {name : Bytes} {entries : List Entry} {e : Entry}
    (h : find? name entries = some e) : e ∈ entries ∧ e.name = name := by
  unfold find? at h
  have hname := List.find?_some h
  exact ⟨List.mem_of_find?_eq_some h, eq_of_beq hname⟩

variable {root : Disk} {here : List Entry} {above : List (List Entry)} {names : List Text}
  {place : Place}

/-- A name that leads nowhere or back, or that is the name of an entry of the disk. -/
def Known (root : Disk) (name : Text) : Prop :=
  name = [] ∨ name = Path.here ∨ name = Path.above ∨
    ∃ e, Below root e ∧ Path.storedName name = .ok e.name

/-- Every name on the way is known, and a directory at its end is one of the disk. The induction is on the
names; wherever the way has led, the entries there and the entries above are on the disk. -/
theorem known_of_follow (h : follow here above names = .ok place)
    (hhere : ∀ e ∈ here, Below root e) (habove : ∀ entries ∈ above, ∀ e ∈ entries, Below root e) :
    (∀ name ∈ names, Known root name) ∧
      ∀ entries, place = .directory entries → ∀ e ∈ entries, Below root e := by
  induction names generalizing here above with
  | nil =>
    cases h
    refine ⟨by simp, ?_⟩
    rintro entries ⟨⟩
    exact hhere
  | cons name rest ih =>
    rw [List.forall_mem_cons, and_assoc]
    unfold follow at h
    split at h
    · rename_i hnowhere
      exact ⟨hnowhere.imp_right .inl, ih h hhere habove⟩
    · split at h
      · rename_i hback
        refine ⟨.inr (.inr (.inl hback)), ?_⟩
        cases above with
        | nil => exact ih h hhere (by simp)
        | cons parent above =>
          rcases List.forall_mem_cons.1 habove with ⟨hparent, habove⟩
          exact ih h hparent habove
      · split at h
        · cases h
        · rename_i stored hstored
          split at h
          · cases h
          · split at h
            · cases h
            · rename_i found entries hfound
              rcases mem_of_find?_eq_some hfound with ⟨hmem, hname⟩
              refine ⟨.inr (.inr (.inr ⟨_, hhere _ hmem, by rw [hname, hstored]⟩)), ?_⟩
              exact ih h (fun e he => (hhere _ hmem).of_directory he)
                (List.forall_mem_cons.2 ⟨hhere, habove⟩)
            · rename_i found bytes hfound
              rcases mem_of_find?_eq_some hfound with ⟨hmem, hname⟩
              refine ⟨.inr (.inr (.inr ⟨_, hhere _ hmem, by rw [hname, hstored]⟩)), ?_⟩
              -- Nothing is below a file.
              split at h
              · rename_i hend
                cases h
                exact ⟨by simp [hend], fun _ hplace => by cases hplace⟩
              · cases h

/-- A directory that a path leads to is one of the disk. -/
theorem below_of_lookup {path : Text} {entries : List Entry}
    (h : root.lookup path = .ok (.directory entries)) : ∀ e ∈ entries, Below root e := by
  unfold lookup at h
  split at h
  · cases h
  · exact (known_of_follow h (fun e he => .here he) (by simp)).2 entries rfl

/-- A code point that no name on the disk holds as its byte is not part of a path that leads to a file. -/
theorem not_mem_of_read {path : Text} {bytes : Bytes} (h : root.read path = .ok bytes) {c : CodePoint}
    {b : UInt8} (hb : Path.nameByte? c = some [b]) (hnone : ∀ e, Below root e → b ∉ e.name)
    (hseparator : c ≠ Path.separator) (hdot : c ≠ '.') : c ∉ path := by
  intro hc
  unfold read lookup at h
  split at h
  · rename_i found hfound
    split at hfound
    · cases hfound
    · rcases Text.exists_mem_splitOn hc hseparator with ⟨name, hname, hmem⟩
      rcases (known_of_follow hfound (fun e he => .here he) (by simp)).1 name hname with
        rfl | rfl | rfl | ⟨e, he, hstored⟩
      · cases hmem
      · exact hdot (by simpa [Path.here, Text.ofString] using hmem)
      · exact hdot (by simpa [Path.above, Text.ofString] using hmem)
      · exact hnone e he (Path.byte_mem_of_storedName hstored hmem hb)
  · cases h
  · cases h

/-- If no name on the disk holds a colon, no path of a file holds two. -/
theorem not_infix_of_read {path : Text} {bytes : Bytes} (h : root.read path = .ok bytes)
    (hnone : allNamedIn (fun name => !name.contains 58) root = true) :
    ¬ ("::" : Text) <:+: path := by
  have hcolon : (':' : CodePoint) ∉ path := by
    refine not_mem_of_read h (b := 58) (by decide) ?_ (by decide) (by decide)
    intro e he hmem
    have hpasses := he.name_passes hnone
    simp [hmem] at hpasses
  intro hmarks
  exact hcolon (hmarks.subset (by decide))

end Disk

end AffectedTests
