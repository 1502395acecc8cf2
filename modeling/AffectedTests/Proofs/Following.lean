import AffectedTests.Proofs.Places
import AffectedTests.Proofs.Routes
/-!
# A path and its resolved form lead to the same place

A path is followed from name to name, and a double dot goes back to the directory that the way came
through. Resolving it cancels that directory from the text instead. There are no symbolic links, so both
lead to the same place; and the resolved path is never longer than the path was.

- `Path.sublist_of_resolve`: resolving a path only takes code points away.
- `Disk.follow_foldl_enter`: names are followed like the names that are left of them.
- `Disk.lookup_of_resolve`: what a path leads to, its resolved form leads to.
-/

namespace AffectedTests

/-! ## Taking pieces away -/

namespace Text

variable {sep : CodePoint} {piece : Text} {pieces pieces' : List Text}

theorem join_cons (h : pieces ≠ []) : join [sep] (piece :: pieces) = piece ++ sep :: join [sep] pieces := by
  have happend : join [sep] ([piece] ++ pieces) = join [sep] [piece] ++ [sep] ++ join [sep] pieces :=
    join_append (List.cons_ne_nil piece []) h
  simpa [join] using happend

theorem join_splitOn (sep : CodePoint) (t : Text) : join [sep] (splitOn sep t) = t := by
  induction t with
  | nil => rfl
  | cons c rest ih =>
    unfold splitOn
    split
    · rename_i heq
      rw [join_cons (splitOn_ne_nil sep rest), ih, heq, List.nil_append]
    · split
      · rename_i hnil
        exact absurd hnil (splitOn_ne_nil sep rest)
      · rename_i piece pieces hsplit
        rw [hsplit] at ih
        rw [← ih]
        cases pieces with
        | nil => simp [join]
        | cons next pieces => simp [join_cons]

theorem join_sublist (h : pieces.Sublist pieces') :
    (join [sep] pieces).Sublist (join [sep] pieces') := by
  induction h with
  | slnil => exact List.Sublist.refl _
  | @cons pieces pieces' piece h ih =>
    cases pieces' with
    | nil =>
      rw [List.sublist_nil.1 h]
      exact List.nil_sublist _
    | cons next rest =>
      rw [join_cons (List.cons_ne_nil next rest)]
      exact ih.trans ((List.sublist_cons_self _ _).trans (List.sublist_append_right _ _))
  | @cons_cons pieces pieces' piece h ih =>
    cases pieces with
    | nil =>
      cases pieces' with
      | nil => exact List.Sublist.refl _
      | cons next rest =>
        rw [join_cons (List.cons_ne_nil next rest)]
        simp [join]
    | cons first pieces =>
      have hne : pieces' ≠ [] := by
        rintro rfl
        cases h
      rw [join_cons (List.cons_ne_nil first pieces), join_cons hne]
      exact (ih.cons_cons sep).append_left piece

end Text

namespace Path

variable {p q t u name : Text} {pieces stack : List Text} {bytes : Bytes}

/-- Entering a name takes names away and adds none but this one. -/
theorem sublist_enter (stack : List Text) (name : Text) :
    (enter true stack name).reverse.Sublist (stack.reverse ++ [name]) := by
  unfold enter
  split
  · exact List.sublist_append_left _ _
  · split
    · rename_i hname
      cases stack with
      | nil => exact List.nil_sublist _
      | cons top below =>
        dsimp only
        split
        · simp [hname]
        · rw [List.reverse_cons, List.append_assoc]
          exact List.sublist_append_left _ _
    · simp

theorem sublist_foldl_enter (pieces stack : List Text) :
    (pieces.foldl (enter true) stack).reverse.Sublist (stack.reverse ++ pieces) := by
  induction pieces generalizing stack with
  | nil => exact List.sublist_append_left _ _
  | cons name rest ih =>
    rw [List.foldl_cons, List.append_cons]
    exact (ih _).trans ((sublist_enter stack name).append_right rest)

theorem isAbsolute_iff : isAbsolute p = true ↔ ∃ rest, p = separator :: rest := by
  rw [isAbsolute, beq_iff_eq, List.head?_eq_some_iff]

/-- Resolving an absolute path takes code points away and adds none. -/
theorem sublist_of_resolve (habsolute : isAbsolute p = true) (h : resolve p = .ok q) : q.Sublist p := by
  -- Both begin with a separator, and the names that are left are some of the pieces behind it.
  rcases isAbsolute_iff.1 habsolute with ⟨rest, rfl⟩
  rw [(resolve_eq_ok.1 h).2, names_cons habsolute, ofNames]
  refine List.Sublist.cons_cons separator ?_
  unfold names
  rw [habsolute, splitOn_cons, List.foldl_cons, enter_nil]
  have hkept := sublist_foldl_enter (Text.splitOn separator rest) []
  rw [List.reverse_nil, List.nil_append] at hkept
  have hjoin : (Text.join [separator] _).Sublist (Text.join [separator] (Text.splitOn separator rest)) :=
    Text.join_sublist hkept
  rwa [Text.join_splitOn] at hjoin

/-! ## Names that can be stored -/

/-- A text that has bytes on a disk. -/
def Storable (t : Text) : Prop :=
  ∃ bytes, storedName t = .ok bytes

theorem storedName_eq_ok :
    storedName t = .ok bytes ↔
      ∃ parts, t.mapM nameByte? = some parts ∧ parts.flatten = bytes ∧ 0 ∉ bytes := by
  unfold storedName
  cases t.mapM nameByte? with
  | none => simp
  | some parts =>
    dsimp only
    by_cases hzero : parts.flatten.contains 0 = true
    · rw [if_pos hzero]
      have hmem := List.contains_iff_mem.1 hzero
      constructor
      · nofun
      · rintro ⟨_, ⟨⟩, rfl, hnone⟩
        exact absurd hmem hnone
    · rw [if_neg hzero]
      have hmem := fun h => hzero (List.contains_iff_mem.2 h)
      constructor
      · rintro ⟨⟩
        exact ⟨parts, rfl, rfl, hmem⟩
      · rintro ⟨_, ⟨⟩, rfl, -⟩
        rfl

theorem storedName_cons {c : CodePoint} :
    storedName (c :: t) = .ok bytes ↔
      ∃ first rest, nameByte? c = some first ∧ 0 ∉ first ∧ storedName t = .ok rest ∧
        bytes = first ++ rest := by
  simp only [storedName_eq_ok, List.mapM_cons]
  constructor
  · rintro ⟨parts, hparts, rfl, hzero⟩
    rcases Option.bind_eq_some_iff.1 hparts with ⟨first, hfirst, h⟩
    rcases Option.bind_eq_some_iff.1 h with ⟨rest, hrest, hcons⟩
    cases hcons
    rw [List.flatten_cons, List.mem_append, not_or] at hzero
    exact ⟨first, rest.flatten, hfirst, hzero.1, ⟨rest, hrest, rfl, hzero.2⟩, rfl⟩
  · rintro ⟨first, _, hfirst, hzero, ⟨rest, hrest, rfl, hzero'⟩, rfl⟩
    refine ⟨first :: rest, ?_, rfl, ?_⟩
    · rw [hfirst, hrest]
      rfl
    · rw [List.mem_append, not_or]
      exact ⟨hzero, hzero'⟩

theorem storedName_append {bytes' : Bytes} (ht : storedName t = .ok bytes)
    (hu : storedName u = .ok bytes') : storedName (t ++ u) = .ok (bytes ++ bytes') := by
  induction t generalizing bytes with
  | nil =>
    cases ht
    exact hu
  | cons c t ih =>
    rcases storedName_cons.1 ht with ⟨first, rest, hfirst, hzero, hrest, rfl⟩
    exact storedName_cons.2 ⟨first, rest ++ bytes', hfirst, hzero, ih hrest, List.append_assoc _ _ _⟩

/-- A part of a text takes no more bytes than the text. -/
theorem exists_storedName_of_sublist (h : t.Sublist u) {bytes : Bytes} (hu : storedName u = .ok bytes) :
    ∃ bytes', storedName t = .ok bytes' ∧ bytes'.length ≤ bytes.length := by
  induction h generalizing bytes with
  | slnil => exact ⟨bytes, hu, Nat.le_refl _⟩
  | cons c _ ih =>
    rcases storedName_cons.1 hu with ⟨first, rest, -, -, hrest, rfl⟩
    rcases ih hrest with ⟨bytes', hbytes', hlength⟩
    refine ⟨bytes', hbytes', ?_⟩
    rw [List.length_append]
    omega
  | cons_cons c _ ih =>
    rcases storedName_cons.1 hu with ⟨first, rest, hfirst, hzero, hrest, rfl⟩
    rcases ih hrest with ⟨bytes', hbytes', hlength⟩
    refine ⟨first ++ bytes', storedName_cons.2 ⟨first, bytes', hfirst, hzero, hbytes', rfl⟩, ?_⟩
    rw [List.length_append, List.length_append]
    omega

theorem storable_iff : Storable t ↔ ∀ c ∈ t, Storable [c] := by
  induction t with
  | nil => exact ⟨nofun, fun _ => ⟨[], rfl⟩⟩
  | cons c rest ih =>
    rw [List.forall_mem_cons, ← ih]
    constructor
    · rintro ⟨bytes, hbytes⟩
      rcases storedName_cons.1 hbytes with ⟨first, after, hfirst, hzero, hafter, -⟩
      exact ⟨⟨first ++ [], storedName_cons.2 ⟨first, [], hfirst, hzero, rfl, rfl⟩⟩, after, hafter⟩
    · rintro ⟨⟨bytes, hbytes⟩, after, hafter⟩
      rcases storedName_cons.1 hbytes with ⟨first, _, hfirst, hzero, -, -⟩
      exact ⟨first ++ after, storedName_cons.2 ⟨first, after, hfirst, hzero, hafter, rfl⟩⟩

/-- A path whose names can be stored has bytes itself. -/
theorem storable_of_resolve (h : resolve p = .ok q) : Storable p := by
  refine storable_iff.2 fun c hc => ?_
  by_cases hseparator : c = separator
  · rw [hseparator]
    exact ⟨[47], by decide⟩
  · rcases Text.exists_mem_splitOn hc hseparator with ⟨piece, hpiece, hmem⟩
    refine storable_iff.1 ?_ c hmem
    rcases checkNames_eq_ok.1 (resolve_eq_ok.1 h).1 piece hpiece with rfl | rfl | rfl | hstored
    · exact ⟨[], rfl⟩
    · exact ⟨[46], by decide⟩
    · exact ⟨[46, 46], by decide⟩
    · exact hstored

end Path

namespace Disk

variable {d : Disk} {p q name : Text} {place : Place} {here entries : List Entry}
  {above : List (List Entry)} {stack pieces names : List Text}

/-- A part of a path is not too long if the path is not. -/
theorem isTooLong_of_sublist (hpart : q.Sublist p) (hp : Path.Storable p) (h : isTooLong p = false) :
    isTooLong q = false := by
  rcases hp with ⟨bytes, hbytes⟩
  rcases Path.exists_storedName_of_sublist hpart hbytes with ⟨bytes', hbytes', hlength⟩
  unfold isTooLong at h ⊢
  rw [hbytes] at h
  rw [hbytes']
  simp only [decide_eq_false_iff_not] at h ⊢
  omega

theorem isTooLong_of_resolve (habsolute : Path.isAbsolute p = true) (hq : Path.resolve p = .ok q)
    (h : isTooLong p = false) : isTooLong q = false :=
  isTooLong_of_sublist (Path.sublist_of_resolve habsolute hq) (Path.storable_of_resolve hq) h

/-! ## Following a path -/

/-- A stack of names and where they lead: the directory at their end, and those that the way comes
through. -/
inductive Reaches (d : Disk) : List Text → List Entry → List (List Entry) → Prop
  | root : Reaches d [] d []
  | down {stack : List Text} {here inner : List Entry} {above : List (List Entry)} {name : Text}
      {stored found : Bytes} (hname : Path.Plain name) (hstored : Path.storedName name = .ok stored)
      (hlength : ¬ maxNameLength < stored.length)
      (hfound : find? stored here = some (.directory found inner)) :
      Reaches d stack here above → Reaches d (name :: stack) inner (here :: above)

theorem follow_down (hname : Path.Plain name) {stored found : Bytes}
    (hstored : Path.storedName name = .ok stored) (hlength : ¬ maxNameLength < stored.length)
    (hfound : find? stored here = some (.directory found entries)) (rest : List Text) :
    follow here above (name :: rest) = follow entries (here :: above) rest := by
  have hnowhere : ¬ (name = [] ∨ name = Path.here) := not_or.2 ⟨hname.ne_nil, hname.ne_here⟩
  rw [follow.eq_def]
  dsimp only
  rw [if_neg hnowhere, if_neg hname.ne_above, hstored]
  dsimp only
  rw [if_neg hlength, hfound]

/-- Whoever has followed the names of a stack goes on from where they lead. -/
theorem Reaches.follow (h : Reaches d stack here above) (rest : List Text) :
    follow d [] (stack.reverse ++ rest) = Disk.follow here above rest := by
  induction h generalizing rest with
  | root => rfl
  | down hname hstored hlength hfound _ ih =>
    rw [List.reverse_cons, List.append_assoc, ih, List.singleton_append,
      follow_down hname hstored hlength hfound]

/-- Names lead to the same place as what is left of them when double dots have cancelled the names before
them. The induction is on the names; the stack holds those that are left, and leads to where the way is. -/
theorem follow_foldl_enter (h : Reaches d stack here above)
    (hpieces : ∀ piece ∈ pieces, Path.separator ∉ piece) (hplace : follow here above pieces = .ok place) :
    follow d [] (pieces.foldl (Path.enter true) stack).reverse = .ok place := by
  induction pieces generalizing stack here above with
  | nil =>
    have hstay := h.follow []
    rw [List.append_nil] at hstay
    exact hstay.trans hplace
  | cons name rest ih =>
    rcases List.forall_mem_cons.1 hpieces with ⟨hseparator, hrest⟩
    rw [List.foldl_cons]
    have hstep := hplace
    unfold follow at hstep
    unfold Path.enter
    split at hstep
    · rename_i hnowhere
      rw [if_pos hnowhere]
      exact ih h hrest hstep
    · rename_i hnowhere
      rw [if_neg hnowhere]
      split at hstep
      · rename_i habove
        rw [if_pos habove]
        -- Above the root of the disk there is nothing, on the way as on the stack.
        cases h with
        | root => exact ih .root hrest hstep
        | down hname hstored hlength hfound hbelow =>
          dsimp only at hstep ⊢
          rw [if_neg hname.ne_above]
          exact ih hbelow hrest hstep
      · rename_i habove
        rw [if_neg habove]
        have hname : Path.Plain name :=
          ⟨hseparator, fun h => hnowhere (.inl h), fun h => hnowhere (.inr h), habove⟩
        split at hstep
        · cases hstep
        · rename_i stored hstored
          split at hstep
          · cases hstep
          · rename_i hlength
            split at hstep
            · cases hstep
            · rename_i found inner hfound
              exact ih (h.down hname hstored hlength hfound) hrest hstep
            · rename_i found bytes hfound
              -- A file is at the end of the names, so nothing is left to be entered.
              split at hstep
              · rename_i hend
                rw [hend] at hplace ⊢
                rw [List.foldl_nil, List.reverse_cons, h.follow, hplace]
              · cases hstep

theorem follow_splitOn_ofNames (h : ∀ name ∈ names, Path.Plain name) :
    follow here above ((Path.ofNames names).splitOn Path.separator) = follow here above names := by
  have hnil : ∀ rest, follow here above ([] :: rest) = follow here above rest := fun rest => by
    rw [follow.eq_def]
    exact if_pos (.inl rfl)
  rw [Path.ofNames, Path.splitOn_cons, hnil]
  cases names with
  | nil => exact hnil []
  | cons name rest =>
    rw [Text.splitOn_join (List.cons_ne_nil name rest) fun n hn => (h n hn).separator]

/-- What is at an absolute path is at its resolved form. -/
theorem lookup_of_resolve (habsolute : Path.isAbsolute p = true) (hq : Path.resolve p = .ok q)
    (h : d.lookup p = .ok place) : d.lookup q = .ok place := by
  unfold lookup at h ⊢
  split at h
  · cases h
  · rename_i hshort
    have hlength := isTooLong_of_resolve habsolute hq (Bool.eq_false_iff.2 hshort)
    rw [if_neg (Bool.eq_false_iff.1 hlength), (Path.resolve_eq_ok.1 hq).2, Path.names_cons habsolute,
      follow_splitOn_ofNames fun name hname => (Path.plain_of_mem_names habsolute hname).1]
    unfold Path.names
    rw [habsolute]
    exact follow_foldl_enter .root (fun piece => Text.not_mem_of_mem_splitOn) h

/-- What is on the disk has names that can be stored, so its path can be resolved. -/
theorem exists_resolve_of_lookup (h : d.lookup p = .ok place) : ∃ q, Path.resolve p = .ok q := by
  unfold lookup at h
  split at h
  · cases h
  · have hknown := (known_of_follow h (fun e he => .here he) (by simp)).1
    refine ⟨_, Path.resolve_eq_ok.2 ⟨Path.checkNames_eq_ok.2 fun name hname => ?_, rfl⟩⟩
    exact (hknown name hname).imp_right (Or.imp_right (Or.imp_right fun ⟨e, _, he⟩ => ⟨e.name, he⟩))

theorem isFile_iff : d.isFile p = true ↔ ∃ bytes, d.lookup p = .ok (.file bytes) := by
  unfold isFile
  split <;> simp_all

/-- Nothing is below a file. -/
theorem follow_append_of_file {bytes : Bytes} (h : follow here above names = .ok (.file bytes))
    {rest : List Text} (hrest : rest ≠ []) :
    follow here above (names ++ rest) = .error .notDirectory := by
  induction names generalizing here above with
  | nil => cases h
  | cons name names ih =>
    rw [List.cons_append]
    unfold follow at h ⊢
    split at h
    · rename_i hnowhere
      rw [if_pos hnowhere]
      exact ih h
    · rename_i hnowhere
      rw [if_neg hnowhere]
      split at h
      · rename_i hback
        rw [if_pos hback]
        cases above with
        | nil => exact ih h
        | cons parent above => exact ih h
      · rename_i hback
        rw [if_neg hback]
        split at h
        · cases h
        · split at h
          · cases h
          · rename_i hlength
            rw [if_neg hlength]
            split at h
            · cases h
            · exact ih h
            · split at h
              · -- The file was the end of the names, and now it is not.
                rename_i hend
                rw [hend, List.nil_append, if_neg hrest]
              · cases h

end Disk

end AffectedTests
