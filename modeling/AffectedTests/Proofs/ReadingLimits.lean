import AffectedTests.Proofs.WrittenObjects
/-!
# What is too large to be read

A text is refused for its size only if it holds a number with too many digits or too many brackets and
braces that open something. Every reader passes over a part of the text, so what one of them finds too large
stands in the whole text.

- `Json.Bounded`: what a reader may give for a text.
- `Json.bounded_readers`: all readers keep to it.
- `Json.of_read_exceeds`: the texts that are refused for their size.
-/

namespace AffectedTests

/-! ## Numbers -/

theorem CodePoint.lt_ten_of_digit? {c : CodePoint} {n : Nat} (h : c.digit? = some n) : n < 10 := by
  rcases Option.map_eq_some_iff.1 h with ⟨first, hfirst, rfl⟩
  have hrange := List.find?_some hfirst
  simp only [Bool.and_eq_true, decide_eq_true_eq] at hrange
  omega

/-- Digits denote less than the power of ten with their number. -/
theorem Text.digitsValue_lt (t : Text) : t.digitsValue < Nat.pow 10 t.length := by
  have hfold (digits : List Nat) (h : ∀ n ∈ digits, n < 10) (start : Nat) :
      digits.foldl (fun value digit => 10 * value + digit) start <
        (start + 1) * Nat.pow 10 digits.length := by
    induction digits generalizing start with
    | nil => simp
    | cons n digits ih =>
      have hn : n < 10 := h n (by simp)
      have hstep : 10 * start + n + 1 ≤ (start + 1) * 10 := by omega
      calc (n :: digits).foldl (fun value digit => 10 * value + digit) start
          < (10 * start + n + 1) * Nat.pow 10 digits.length := ih (fun m hm => h m (by simp [hm])) _
        _ ≤ (start + 1) * 10 * Nat.pow 10 digits.length := Nat.mul_le_mul_right _ hstep
        _ = (start + 1) * Nat.pow 10 (n :: digits).length := by
          rw [List.length_cons, Nat.pow_eq, Nat.pow_eq, Nat.pow_succ', Nat.mul_assoc]
  have hdigits : ∀ n ∈ t.filterMap CodePoint.digit?, n < 10 := by
    intro n hn
    rcases List.mem_filterMap.1 hn with ⟨c, -, hc⟩
    exact CodePoint.lt_ten_of_digit? hc
  calc t.digitsValue < (0 + 1) * Nat.pow 10 (t.filterMap CodePoint.digit?).length := hfold _ hdigits 0
    _ ≤ Nat.pow 10 t.length := by
      rw [Nat.zero_add, Nat.one_mul]
      exact Nat.pow_le_pow_right (by decide) (List.length_filterMap_le _ _)

namespace Json

/-! ## What a text holds -/

/-- Somewhere in the text there are more digits in a row than a number may have. -/
def HasLongNumber (t : Text) : Prop :=
  ∃ digits : Text, digits <:+: t ∧ (∀ c ∈ digits, isPlainDigit c = true) ∧ Limit.digits.size < digits.length

/-- How many brackets and braces in the text open something. -/
def openings (t : Text) : Nat :=
  t.countP fun c : CodePoint => c = '[' ∨ c = '{'

/-- What a reader may give for a text: a value before a rest of the text, or a refusal that the text bears
out. -/
def Bounded {α : Type} (room : Nat) (t : Text) : Except ReadError (α × Text) → Prop
  | .ok (_, rest) => rest <:+ t
  | .error (.exceeds .digits) => HasLongNumber t
  | .error (.exceeds .nesting) => room < openings t
  | .error (.malformed _) => True

section Bounds

variable {α β : Type} {room : Nat} {t u : Text} {result : Except ReadError (α × Text)}

theorem HasLongNumber.of_suffix (h : HasLongNumber u) (hu : u <:+ t) : HasLongNumber t := by
  rcases h with ⟨digits, hdigits, hall, hlong⟩
  exact ⟨digits, hdigits.trans hu.isInfix, hall, hlong⟩

/-- What is borne out by the rest of a text is borne out by the text. -/
theorem Bounded.of_suffix (h : Bounded room u result) (hu : u <:+ t) : Bounded room t result := by
  match result, h with
  | .ok (_, rest), h => exact List.IsSuffix.trans h hu
  | .error (.exceeds .digits), h => exact HasLongNumber.of_suffix h hu
  | .error (.exceeds .nesting), h => exact Nat.lt_of_lt_of_le h hu.sublist.countP_le
  | .error (.malformed _), _ => exact trivial

theorem Bounded.map (h : Bounded room t result) (f : α → β) :
    Bounded room t (result.map fun (a, rest) => (f a, rest)) := by
  match result, h with
  | .ok (_, rest), h => exact h
  | .error (.exceeds .digits), h => exact h
  | .error (.exceeds .nesting), h => exact h
  | .error (.malformed _), _ => exact trivial

theorem Bounded.bind {next : α × Text → Except ReadError (β × Text)} (h : Bounded room t result)
    (hnext : ∀ a rest, rest <:+ t → Bounded room t (next (a, rest))) :
    Bounded room t (result >>= next) := by
  match result, h with
  | .ok (a, rest), h => exact hnext a rest h
  | .error (.exceeds .digits), h => exact h
  | .error (.exceeds .nesting), h => exact h
  | .error (.malformed _), _ => exact trivial

/-- One more thing that is opened takes one more room. -/
theorem Bounded.cons {c : CodePoint} (h : Bounded room t result) (hc : c = '[' ∨ c = '{') :
    Bounded (room + 1) (c :: t) result := by
  have hmore : openings (c :: t) = openings t + 1 := List.countP_cons_of_pos (by simpa using hc)
  have hsuffix : t <:+ c :: t := List.suffix_cons c t
  match result, h with
  | .ok (_, rest), h => exact List.IsSuffix.trans h hsuffix
  | .error (.exceeds .digits), h => exact HasLongNumber.of_suffix h hsuffix
  | .error (.exceeds .nesting), h =>
    have hless : room < openings t := h
    show room + 1 < openings (c :: t)
    omega
  | .error (.malformed _), _ => exact trivial

theorem bounded_within {c : CodePoint} {inner : Nat → Except ReadError (α × Text)} (hc : c = '[' ∨ c = '{')
    (h : ∀ less, Bounded less t (inner less)) : Bounded room (c :: t) (within room inner) := by
  cases room with
  | zero =>
    have hmore : openings (c :: t) = openings t + 1 := List.countP_cons_of_pos (by simpa using hc)
    show 0 < openings (c :: t)
    omega
  | succ less => exact (h less).cons hc

end Bounds

/-! ## The readers -/

section Readers

variable {room fuel : Nat} {t : Text}

theorem suffix_skipGap (t : Text) : skipGap t <:+ t :=
  List.dropWhile_suffix _

/-- A string takes a part of the text. -/
theorem bounded_stringBody (start t : Text) : Bounded room t (stringBody start t) := by
  fun_induction stringBody start t with
  | case2 rest => exact List.suffix_cons _ rest
  | case4 a b d e after point _ _ _ ih =>
    exact (ih.map (point :: ·)).of_suffix (List.suffix_append [('\\' : CodePoint), 'u', a, b, d, e] after)
  | case7 letter after _ point _ _ ih =>
    exact (ih.map (point :: ·)).of_suffix (List.suffix_append [('\\' : CodePoint), letter] after)
  | case10 c rest _ _ _ ih => exact (ih.map (c :: ·)).of_suffix (List.suffix_cons c rest)
  | _ => trivial

theorem bounded_string (t : Text) : Bounded room t (string t) :=
  ((bounded_stringBody t (t.drop 1)).of_suffix (List.drop_suffix 1 t)).map joinSurrogates

theorem suffix_fraction (t : Text) : (fraction t).2 <:+ t := by
  unfold fraction
  split
  · dsimp only
    split
    · exact (List.dropWhile_suffix _).trans (List.suffix_cons _ _)
    · exact List.suffix_refl _
  · exact List.suffix_refl _

theorem suffix_exponent? {read : Int × Text} (h : exponent? t = some read) : read.2 <:+ t := by
  unfold exponent? at h
  split at h
  · rename_i rest
    split at h
    · extract_lets negative body digits power at h
      have hbody : body <:+ rest := by
        unfold body
        split
        · exact List.drop_suffix 1 _
        · exact List.suffix_refl _
      split at h
      · cases h
      · cases h
        exact (List.dropWhile_suffix _).trans (hbody.trans (List.suffix_cons _ _))
    · cases h
  · cases h

theorem suffix_word? {read : Json × Text} (h : word? t = some read) : read.2 <:+ t := by
  rcases List.exists_of_findSome?_eq_some h with ⟨⟨word, known⟩, -, h⟩
  dsimp only at h
  split at h
  · cases h
    exact List.drop_suffix _ t
  · cases h

/-- A number without its sign takes a part of the text, and an integer has no more digits than are
written. -/
theorem of_unsigned? {negative : Bool} {v : Json} {rest : Text}
    (h : unsigned? negative t = some (v, rest)) :
    rest <:+ t ∧ ∀ i, v = .integer i → ∃ digits : Text, digits <:+: t ∧
      (∀ c ∈ digits, isPlainDigit c = true) ∧ i.natAbs < Nat.pow 10 digits.length := by
  unfold unsigned? at h
  extract_lets digits whole after n at h
  have hdigits : digits <+: t := List.takeWhile_prefix _
  have hplain : ∀ c ∈ digits, isPlainDigit c = true := 
    List.all_eq_true.1 List.all_takeWhile
  have hwhole : whole <+: digits := by
    unfold whole
    split
    · exact List.take_prefix 1 digits
    · exact List.prefix_refl digits
  split at h
  · cases h
  · have hplaces := suffix_fraction (t.drop whole.length)
    have hdrop : t.drop whole.length <:+ t := List.drop_suffix _ t
    rcases hfraction : fraction (t.drop whole.length) with ⟨places, behind⟩
    rw [hfraction] at h hplaces
    have hbehind : behind <:+ t := hplaces.trans hdrop
    dsimp only at h
    split at h
    · cases h
      refine ⟨hbehind, fun i hi => ⟨whole, (hwhole.trans hdigits).isInfix, ?_, ?_⟩⟩
      · exact fun c hc => hplain c (hwhole.subset hc)
      · have hvalue : i.natAbs = Text.digitsValue whole := by
          rw [← Json.integer.inj hi]
          split
          · exact (Int.natAbs_neg n).trans (Int.natAbs_natCast _)
          · exact Int.natAbs_natCast _
        rw [hvalue]
        exact Text.digitsValue_lt whole
    · rename_i power
      cases hpower : exponent? behind with
      | none =>
        rw [hpower] at h
        cases h
        exact ⟨hbehind, fun i hi => by cases hi⟩
      | some read =>
        rw [hpower] at h
        cases h
        exact ⟨(suffix_exponent? hpower).trans hbehind, fun i hi => by cases hi⟩

theorem of_number? {v : Json} {rest : Text} (h : number? t = some (v, rest)) :
    rest <:+ t ∧ ∀ i, v = .integer i → ∃ digits : Text, digits <:+: t ∧
      (∀ c ∈ digits, isPlainDigit c = true) ∧ i.natAbs < Nat.pow 10 digits.length := by
  unfold number? at h
  split at h
  · rcases of_unsigned? h with ⟨hrest, hdigits⟩
    refine ⟨hrest.trans (List.drop_suffix 1 t), fun i hi => ?_⟩
    rcases hdigits i hi with ⟨digits, hinfix, hplain, hlt⟩
    exact ⟨digits, hinfix.trans (List.drop_suffix 1 t).isInfix, hplain, hlt⟩
  · exact of_unsigned? h

/-- No word is an integer. -/
theorem word?_ne_integer {i : Int} {rest : Text} : word? t ≠ some (.integer i, rest) := by
  intro h
  rcases List.exists_of_findSome?_eq_some h with ⟨⟨word, known⟩, hknown, h⟩
  dsimp only at h
  split at h
  · cases h
    simp [words] at hknown
  · cases h

theorem bounded_atom (t : Text) : Bounded room t (atom t) := by
  have hread {v : Json} {rest : Text} (h : (word? t <|> number? t) = some (v, rest)) :
      rest <:+ t ∧ (word? t = some (v, rest) ∨ number? t = some (v, rest)) := by
    cases hword : word? t with
    | none =>
      rw [hword] at h
      exact ⟨(of_number? h).1, .inr h⟩
    | some read =>
      rw [hword] at h
      cases h
      exact ⟨suffix_word? hword, .inl rfl⟩
  unfold atom
  -- The limit is large, so it is kept from being computed.
  generalize hlimit : Limit.digits.size = limit
  split
  · rename_i i rest h
    by_cases hsmall : i.natAbs < Nat.pow 10 limit
    · rw [if_pos hsmall]
      exact (hread h).1
    · rw [if_neg hsmall]
      rcases (of_number? ((hread h).2.resolve_left word?_ne_integer)).2 i rfl with
        ⟨digits, hinfix, hplain, hlt⟩
      refine ⟨digits, hinfix, hplain, ?_⟩
      rw [hlimit]
      by_contra hshort
      exact hsmall (Nat.lt_of_lt_of_le hlt (Nat.pow_le_pow_right (by decide) (Nat.le_of_not_lt hshort)))
  · exact (hread ‹_›).1
  · trivial

/-- What is read inside brackets and braces keeps to the text, if the items and entries do. -/
theorem bounded_value (hitems : ∀ room t, Bounded room t (items fuel room t))
    (hentries : ∀ room sofar t, Bounded room t (entries fuel room sofar t)) (room : Nat) (t : Text) :
    Bounded room t (value (fuel + 1) room t) := by
  rcases t with - | ⟨c, t⟩
  · trivial
  rw [value_cons]
  by_cases hquote : c = '"'
  · rw [if_pos hquote]
    exact (bounded_string _).map Json.text
  rw [if_neg hquote]
  by_cases hbracket : c = '['
  · rw [if_pos hbracket]
    refine bounded_within (.inl hbracket) fun less => ?_
    unfold arrayBody
    split
    · exact (List.drop_suffix 1 _).trans (suffix_skipGap t)
    · exact ((hitems less _).map Json.array).of_suffix (suffix_skipGap t)
  rw [if_neg hbracket]
  by_cases hbrace : c = '{'
  · rw [if_pos hbrace]
    refine bounded_within (.inr hbrace) fun less => ?_
    unfold objectBody
    split
    · exact (List.drop_suffix 1 _).trans (suffix_skipGap t)
    · exact ((hentries less [] _).map Json.object).of_suffix (suffix_skipGap t)
  · rw [if_neg hbrace]
    exact bounded_atom _

theorem bounded_moreItems (hitems : ∀ room t, Bounded room t (items fuel room t)) (room : Nat)
    (first : Json) (t : Text) : Bounded room t (moreItems fuel room first t) := by
  rcases t with - | ⟨c, t⟩
  · trivial
  rw [moreItems]
  split
  · exact List.suffix_cons c t
  · split
    · exact ((hitems room _).map (first :: ·)).of_suffix ((suffix_skipGap t).trans (List.suffix_cons c t))
    · trivial

theorem bounded_items (hvalue : ∀ room t, Bounded room t (value fuel room t))
    (hitems : ∀ room t, Bounded room t (items fuel room t)) (room : Nat) (t : Text) :
    Bounded room t (items (fuel + 1) room t) := by
  rw [items_succ]
  exact (hvalue room t).bind fun first rest hrest =>
    (bounded_moreItems hitems room first _).of_suffix ((suffix_skipGap rest).trans hrest)

theorem bounded_member (hvalue : ∀ room t, Bounded room t (value fuel room t)) (room : Nat) (t : Text) :
    Bounded room t (member fuel room t) := by
  unfold member
  split
  · trivial
  · refine (bounded_string t).bind fun key rest hrest => ?_
    dsimp only
    split
    · trivial
    · rename_i colon body hbody
      split
      · trivial
      · have hinner : skipGap body <:+ t := by
          refine (suffix_skipGap body).trans (.trans ?_ hrest)
          exact (List.suffix_cons colon body).trans (hbody ▸ suffix_skipGap rest)
        exact ((hvalue room _).map fun v => (key, v)).of_suffix hinner

theorem bounded_moreEntries (hentries : ∀ room sofar t, Bounded room t (entries fuel room sofar t))
    (room : Nat) (sofar : List (Text × Json)) (t : Text) :
    Bounded room t (moreEntries fuel room sofar t) := by
  rcases t with - | ⟨c, t⟩
  · trivial
  rw [moreEntries]
  split
  · exact List.suffix_cons c t
  · split
    · exact (hentries room sofar _).of_suffix ((suffix_skipGap t).trans (List.suffix_cons c t))
    · trivial

theorem bounded_entries (hvalue : ∀ room t, Bounded room t (value fuel room t))
    (hentries : ∀ room sofar t, Bounded room t (entries fuel room sofar t)) (room : Nat)
    (sofar : List (Text × Json)) (t : Text) : Bounded room t (entries (fuel + 1) room sofar t) := by
  rw [entries_succ]
  exact (bounded_member hvalue room t).bind fun m rest hrest =>
    (bounded_moreEntries hentries room _ _).of_suffix ((suffix_skipGap rest).trans hrest)

/-- All readers keep to what the text bears out. -/
theorem bounded_readers (fuel : Nat) : (∀ room t, Bounded room t (value fuel room t)) ∧
    (∀ room t, Bounded room t (items fuel room t)) ∧
      ∀ room sofar t, Bounded room t (entries fuel room sofar t) := by
  induction fuel with
  | zero => exact ⟨fun _ _ => trivial, fun _ _ => trivial, fun _ _ _ => trivial⟩
  | succ fuel ih =>
    exact ⟨bounded_value ih.2.1 ih.2.2, bounded_items ih.1 ih.2.1, bounded_entries ih.1 ih.2.2⟩

/-- A text is refused for its size only if it holds a number that is too long or opens too much. -/
theorem of_read_exceeds {limit : Limit} (h : read t = .error (.exceeds limit)) :
    HasLongNumber t ∨ Limit.nesting.size < openings t := by
  have hbounded := (bounded_readers (2 * t.length + 2)).1 Limit.nesting.size (skipGap t)
  have hvalue : value (2 * t.length + 2) Limit.nesting.size (skipGap t) = .error (.exceeds limit) := by
    unfold read at h
    split at h
    · cases h
    · cases hvalue : value (2 * t.length + 2) Limit.nesting.size (skipGap t) with
      | error e =>
        rw [hvalue] at h
        cases h
        rfl
      | ok result =>
        rw [hvalue] at h
        simp only [bind, Except.bind] at h
        split at h <;> cases h
  rw [hvalue] at hbounded
  cases limit with
  | digits => exact .inl (HasLongNumber.of_suffix hbounded (suffix_skipGap t))
  | nesting =>
    exact .inr (Nat.lt_of_lt_of_le hbounded (suffix_skipGap t).sublist.countP_le)

end Readers

end Json

end AffectedTests
