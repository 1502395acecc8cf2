import AffectedTests.Diff.Reader
import Mathlib.Data.List.Forall2
import Mathlib.Data.List.TakeWhile
/-!
# Pieces of a diff

The lines of a diff are a preamble and then pieces, each from one line that opens a file to the next. A
section is what its piece says, so the sections are known wherever the pieces are. In the same way a
section falls into its head and its body.

- `Diff.sections_flatten`: the sections of pieces one after the other.
- `Diff.exists_pieces`: a piece for each section of a diff.
- `Diff.sections_append_opening`: sections end where the next piece begins.
- `Diff.Section.head_and_body`: the two parts of a section.
-/

namespace AffectedTests

/-- What is written in front of an element on which a condition fails is the run on which it holds. -/
theorem takeWhile_and_dropWhile_append {α : Type} {p : α → Bool} {front back : List α}
    (hfront : ∀ x ∈ front, p x = true) (hback : ∀ x, back.head? = some x → p x = false) :
    (front ++ back).takeWhile p = front ∧ (front ++ back).dropWhile p = back := by
  rw [List.takeWhile_append_of_pos hfront, List.dropWhile_append_of_pos hfront]
  cases back with
  | nil => exact ⟨List.append_nil front, rfl⟩
  | cons x back => simp [hback x rfl]

namespace Diff

variable {l : Text} {preamble : List Text} {pieces : List (List Text)} {found : List Section}

/-! ## Lines and sections -/

theorem sections_cons_of_none {ls : List Text} (h : fileHeader? l = none) :
    sections (l :: ls) = sections ls := by
  simp [sections, h]

theorem sections_cons_of_some {ls : List Text} {old new : Text} (h : fileHeader? l = some (old, new)) :
    sections (l :: ls) =
      ⟨old, new, ls.takeWhile fun l => (fileHeader? l).isNone⟩ :: sections ls := by
  simp [sections, h]

/-- A section for each line that opens a file. -/
theorem length_sections (ls : List Text) :
    (sections ls).length = ls.countP fun l => (fileHeader? l).isSome := by
  induction ls with
  | nil => rfl
  | cons l ls ih =>
    cases h : fileHeader? l with
    | none => simp [sections_cons_of_none h, h, ih]
    | some paths => simp [sections_cons_of_some h, h, ih]

theorem sections_preamble (h : ∀ l ∈ preamble, (fileHeader? l).isNone = true) (ls : List Text) :
    sections (preamble ++ ls) = sections ls := by
  induction preamble with
  | nil => rfl
  | cons l preamble ih =>
    have hl : fileHeader? l = none := Option.isNone_iff_eq_none.1 (h l (by simp))
    rw [List.cons_append, sections_cons_of_none hl]
    exact ih fun l' hl' => h l' (by simp [hl'])

/-! ## Pieces -/

/-- A line that opens a file, and lines that do not. -/
def Piece (piece : List Text) (s : Section) : Prop :=
  ∃ l, piece = l :: s.content ∧ fileHeader? l = some (s.oldPath, s.newPath) ∧
    ∀ l ∈ s.content, (fileHeader? l).isNone = true

/-- Lines that open no file end where the first piece behind them begins. -/
theorem takeWhile_preamble (hpreamble : ∀ l ∈ preamble, (fileHeader? l).isNone = true)
    (hpieces : List.Forall₂ Piece pieces found) :
    (preamble ++ pieces.flatten).takeWhile (fun l => (fileHeader? l).isNone) = preamble := by
  have hstop : ∀ l, pieces.flatten.head? = some l → (fileHeader? l).isNone = false := by
    intro l hl
    cases hpieces with
    | nil => cases hl
    | cons hpiece _ =>
      rcases hpiece with ⟨x, rfl, hx, -⟩
      cases hl
      simp [hx]
  exact (takeWhile_and_dropWhile_append hpreamble hstop).1

/-- The sections of pieces one after the other. -/
theorem sections_flatten (h : List.Forall₂ Piece pieces found) : sections pieces.flatten = found := by
  induction h with
  | nil => rfl
  | cons hpiece hpieces ih =>
    rcases hpiece with ⟨l, rfl, hl, hcontent⟩
    rw [List.flatten_cons, List.cons_append, sections_cons_of_some hl,
      takeWhile_preamble hcontent hpieces, sections_preamble hcontent, ih]

theorem sections_piece {piece : List Text} {s : Section} (h : Piece piece s) : sections piece = [s] := by
  have hflatten := sections_flatten (.cons h .nil)
  simpa using hflatten

/-- The lines of a text are its preamble and a piece for each section. -/
theorem exists_pieces (ls : List Text) : ∃ preamble pieces, ls = preamble ++ pieces.flatten ∧
    (∀ l ∈ preamble, (fileHeader? l).isNone = true) ∧ List.Forall₂ Piece pieces (sections ls) := by
  -- From the last line to the first; a line that opens a file takes over the preamble found so far.
  induction ls with
  | nil => exact ⟨[], [], rfl, by simp, .nil⟩
  | cons l ls ih =>
    rcases ih with ⟨preamble, pieces, hls, hpreamble, hpieces⟩
    cases h : fileHeader? l with
    | none =>
      refine ⟨l :: preamble, pieces, by simp [hls], ?_, ?_⟩
      · simpa [h] using hpreamble
      · simpa [sections_cons_of_none h] using hpieces
    | some paths =>
      have hcontent := takeWhile_preamble hpreamble hpieces
      rw [← hls] at hcontent
      refine ⟨[], (l :: preamble) :: pieces, by simp [hls], by simp, ?_⟩
      rw [sections_cons_of_some h, hcontent]
      exact .cons ⟨l, rfl, h, hpreamble⟩ hpieces

/-- Sections end at the latest where the next file is opened. -/
theorem sections_append_opening (front back : List Text) (h : (fileHeader? l).isSome = true) :
    sections (front ++ l :: back) = sections front ++ sections (l :: back) := by
  rcases exists_pieces front with ⟨preamble, pieces, hfront, hpreamble, hpieces⟩
  rcases exists_pieces (l :: back) with ⟨between, pieces', hback, hbetween, hpieces'⟩
  -- The second part begins with a piece, so all pieces follow one another.
  have hnothing : between = [] := by
    cases between with
    | nil => rfl
    | cons x between =>
      have hx : l = x := (List.cons.inj hback).1
      have hnone := hbetween x (by simp)
      rw [← hx, ← Option.not_isSome, h] at hnone
      cases hnone
  have hlines : front ++ l :: back = preamble ++ (pieces ++ pieces').flatten := by
    rw [hback, hnothing, hfront]
    simp
  calc
    sections (front ++ l :: back) = sections (pieces ++ pieces').flatten := by
      rw [hlines, sections_preamble hpreamble]
    _ = sections front ++ sections (l :: back) := sections_flatten (List.rel_append hpieces hpieces')

/-! ## Heads and bodies -/

namespace Section

variable {s : Section} {head body : List Text}

/-- Lines that open no hunk, and behind them nothing or a hunk, are the head and the body. -/
theorem head_and_body (hcontent : s.content = head ++ body)
    (hhead : ∀ l ∈ head, (hunkHeader? l).isNone = true)
    (hbody : ∀ l, body.head? = some l → (hunkHeader? l).isNone = false) :
    s.head = head ∧ s.body = body := by
  unfold Section.head Section.body
  rw [hcontent]
  exact takeWhile_and_dropWhile_append hhead hbody

end Section

end Diff

end AffectedTests
