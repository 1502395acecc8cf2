import AffectedTests.Text.Lines
/-!
# Cutting a text into lines

A text that is written line by line is cut line by line: what a written line becomes does not depend on
the lines around it. A written line without boundary characters becomes itself; any other one becomes
several lines.

- `Text.written`: what one line becomes when it is written with a line feed at its end.
- `Text.lines_flatMap`: the lines of a text that is written line by line.
- `Text.lines_unlines`: the lines of a text that is written from its lines.
- `Text.lines_append_of_closed`: the lines of two texts one after the other.
- `Text.lines_plainLineFeeds`: a text has the lines of its copy with plain line feeds.
-/

namespace AffectedTests

namespace Text

open CodePoint

/-- The lines that a line becomes when it is written with a line feed at its end. -/
def written (l : Text) : List Text :=
  (l ++ [lineFeed]).lines

/-- A text that is a single line. -/
def OneLine (l : Text) : Prop :=
  ∀ c ∈ l, c.isLineBoundary = false

-- There are finitely many code points, but only those of the text are looked at.
instance (l : Text) : Decidable (OneLine l) :=
  List.decidableBAll (fun c : CodePoint => c.isLineBoundary = false) l

variable {t u : Text}

theorem oneLine_nil : OneLine [] := by
  intro c hc
  cases hc

theorem oneLine_append (ht : OneLine t) (hu : OneLine u) : OneLine (t ++ u) := by
  intro c hc
  rcases List.mem_append.1 hc with hc | hc
  · exact ht c hc
  · exact hu c hc

/-! ## Carriage returns -/

theorem dropReturns_append (l t : Text) :
    dropReturns (l ++ lineFeed :: t) = dropReturns (l ++ [lineFeed]) ++ dropReturns t := by
  induction l with
  | nil =>
    -- A line feed is kept, whatever follows it.
    have hne : ¬ lineFeed = carriageReturn := by decide
    simp [dropReturns, hne]
  | cons c l ih =>
    -- Whether a return is dropped depends on the next character, which is before `t`.
    have hhead : (l ++ lineFeed :: t).head? = (l ++ [lineFeed]).head? := by
      cases l <;> rfl
    simp only [List.cons_append, dropReturns, hhead]
    split
    · exact ih
    · rw [ih]
      rfl

/-- The line feed at the end is kept. -/
theorem dropReturns_lineFeed (l : Text) : ∃ t, dropReturns (l ++ [lineFeed]) = t ++ [lineFeed] := by
  induction l with
  | nil => exact ⟨[], by decide⟩
  | cons c l ih =>
    rcases ih with ⟨t, ht⟩
    simp only [List.cons_append, dropReturns]
    split
    · exact ⟨t, ht⟩
    · exact ⟨c :: t, by rw [ht]; rfl⟩

/-! ## Boundaries -/

theorem cutLines_append (l t : Text) :
    cutLines (l ++ lineFeed :: t) = cutLines (l ++ [lineFeed]) ++ cutLines t := by
  induction l with
  | nil =>
    have hboundary : lineFeed.isLineBoundary = true := by decide
    simp [cutLines, hboundary]
  | cons c l ih =>
    simp only [List.cons_append, cutLines]
    split
    · rw [ih]
      rfl
    · rw [ih]
      cases hcut : cutLines (l ++ [lineFeed]) with
      | nil =>
        -- A text that ends in a line feed has a line, so this case does not arise.
        cases l with
        | nil => exact absurd hcut (by decide)
        | cons c' l' =>
          simp only [List.cons_append, cutLines] at hcut
          split at hcut
          · cases hcut
          · split at hcut <;> cases hcut
      | cons line lines => rfl

theorem written_ne_nil (l : Text) : written l ≠ [] := by
  rcases dropReturns_lineFeed l with ⟨t, ht⟩
  unfold written lines
  rw [ht]
  cases t with
  | nil => decide
  | cons c t =>
    simp only [List.cons_append, cutLines]
    split
    · simp
    · split <;> simp

/-- A text whose first line ends in a line feed. -/
theorem lines_append (l t : Text) : lines (l ++ lineFeed :: t) = written l ++ lines t := by
  rcases dropReturns_lineFeed l with ⟨u, hu⟩
  unfold written lines
  rw [dropReturns_append, hu, List.append_assoc, List.singleton_append, cutLines_append]

/-- A text that is written line by line is cut line by line. -/
theorem lines_flatMap (ls : List Text) :
    lines (ls.flatMap fun l => l ++ [lineFeed]) = ls.flatMap written := by
  induction ls with
  | nil => rfl
  | cons l ls ih =>
    rw [List.flatMap_cons, List.flatMap_cons, List.append_assoc, List.singleton_append, lines_append,
      ih]

/-! ## Single lines -/

/-- A character at the front that ends no line belongs to the first line. -/
theorem written_cons {c : CodePoint} (hc : c.isLineBoundary = false) (l : Text) :
    written (c :: l) = (c :: (written l).headD []) :: (written l).tail := by
  have hreturn : ¬ c = carriageReturn := by
    rintro rfl
    exact absurd hc (by decide)
  have hwritten := written_ne_nil l
  unfold written lines at hwritten ⊢
  simp only [List.cons_append, dropReturns, hreturn, false_and, if_false, cutLines, hc]
  cases hcut : cutLines (dropReturns (l ++ [lineFeed])) with
  | nil => exact absurd hcut hwritten
  | cons line lines => rfl

theorem written_of_oneLine {l : Text} (h : OneLine l) : written l = [l] := by
  induction l with
  | nil => decide
  | cons c l ih =>
    have hl : written l = [l] := ih fun c' hc' => h c' (by simp [hc'])
    rw [written_cons (h c (by simp)), hl]
    rfl

/-- What stands before the first boundary of a line belongs to the first line. -/
theorem written_append (h : OneLine t) (l : Text) :
    written (t ++ l) = (t ++ (written l).headD []) :: (written l).tail := by
  induction t with
  | nil =>
    cases hwritten : written l with
    | nil => exact absurd hwritten (written_ne_nil l)
    | cons line lines => simpa using hwritten
  | cons c t ih =>
    have ht := ih fun c' hc' => h c' (by simp [hc'])
    calc
      written (c :: (t ++ l))
          = (c :: (written (t ++ l)).headD []) :: (written (t ++ l)).tail :=
            written_cons (h c (by simp)) (t ++ l)
      _ = (c :: t ++ (written l).headD []) :: (written l).tail := by simp [ht]

/-! ## Any text -/

theorem oneLine_of_mem_cutLines {l : Text} (h : l ∈ cutLines t) : OneLine l := by
  induction t generalizing l with
  | nil => cases h
  | cons c t ih =>
    simp only [cutLines] at h
    split at h
    · rcases List.mem_cons.1 h with rfl | h
      · exact oneLine_nil
      · exact ih h
    · rename_i hc
      -- The character joins the first line of the rest.
      have hfirst : OneLine [c] := by simpa [OneLine] using hc
      split at h
      · rw [List.mem_singleton.1 h]
        exact hfirst
      · rename_i line lines hcut
        rcases List.mem_cons.1 h with rfl | h
        · exact oneLine_append hfirst (ih (by simp [hcut]))
        · exact ih (by simp [hcut, h])

/-- The lines of a text are single lines. -/
theorem oneLine_of_mem_lines {l : Text} (h : l ∈ lines t) : OneLine l :=
  oneLine_of_mem_cutLines h

/-- The text that is written for some lines. -/
def unlines (ls : List Text) : Text :=
  ls.flatMap fun l => l ++ [lineFeed]

/-- Single lines that are written are read again. -/
theorem lines_unlines {ls : List Text} (h : ∀ l ∈ ls, OneLine l) : lines (unlines ls) = ls := by
  induction ls with
  | nil => rfl
  | cons l ls ih =>
    have hls : lines (unlines ls) = ls := ih fun l' hl' => h l' (by simp [hl'])
    calc
      lines (unlines (l :: ls)) = lines (l ++ lineFeed :: unlines ls) := by simp [unlines]
      _ = written l ++ lines (unlines ls) := lines_append l (unlines ls)
      _ = l :: ls := by simp [written_of_oneLine (h l (by simp)), hls]

/-- A text that is empty or ends with a line feed. -/
def Closed (t : Text) : Prop :=
  t = [] ∨ t.getLast? = some lineFeed

/-- The lines of two texts one after the other, if no line of the first one is left open. -/
theorem lines_append_of_closed (h : Closed t) (u : Text) : lines (t ++ u) = lines t ++ lines u := by
  rcases h with rfl | h
  · rfl
  · rcases List.getLast?_eq_some_iff.1 h with ⟨front, rfl⟩
    calc
      lines (front ++ [lineFeed] ++ u) = lines (front ++ lineFeed :: u) := by simp
      _ = written front ++ lines u := lines_append front u

/-! ## Plain line feeds -/

theorem dropReturns_of_not_mem (h : carriageReturn ∉ t) : dropReturns t = t := by
  induction t with
  | nil => rfl
  | cons c t ih =>
    have hc : ¬ c = carriageReturn := fun heq => h (by simp [heq])
    have ht : dropReturns t = t := ih fun hmem => h (by simp [hmem])
    simp [dropReturns, hc, ht]

/-- Which character ends a line does not matter. -/
theorem cutLines_map {f : CodePoint → CodePoint}
    (hboundary : ∀ c, (f c).isLineBoundary = c.isLineBoundary)
    (hinner : ∀ c, c.isLineBoundary = false → f c = c) (t : Text) :
    cutLines (t.map f) = cutLines t := by
  induction t with
  | nil => rfl
  | cons c t ih =>
    cases hc : c.isLineBoundary with
    | true => simp [cutLines, hboundary, hc, ih]
    | false => simp [cutLines, hinner c hc, hc, ih]

/-- A text has the lines of its copy with plain line feeds. -/
theorem lines_plainLineFeeds (t : Text) : lines (plainLineFeeds t) = lines t := by
  have hends : carriageReturn.isLineBoundary = true ∧ lineFeed.isLineBoundary = true := by decide
  -- No return is left, so none stands before a line feed.
  have hreturns : carriageReturn ∉ plainLineFeeds t := by
    intro hmem
    rcases List.mem_map.1 hmem with ⟨c, -, hc⟩
    split at hc
    · exact absurd hc (by decide)
    · contradiction
  calc
    lines (plainLineFeeds t) = cutLines (plainLineFeeds t) := by
      simp [lines, dropReturns_of_not_mem hreturns]
    _ = cutLines (dropReturns t) := by
      apply cutLines_map
      · intro c
        split
        · simp_all
        · rfl
      · intro c hc
        split
        · simp_all
        · rfl

end Text

end AffectedTests
