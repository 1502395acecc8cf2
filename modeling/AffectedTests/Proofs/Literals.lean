import AffectedTests.Proofs.Fallible
import AffectedTests.Tree.Literal
/-!
# The bodies of quoted strings

The body of a quoted string is well formed if its quote and all line ends in it are escaped. An escape
never denotes more than one code point, so a body with an escape in it denotes a shorter text than it is
itself; a body without one denotes itself.

- `Literal.IsBody`: the bodies of quoted strings on one line.
- `Literal.takes_of_escape`: which code points belong to an escape.
- `Literal.decode_eq_self`, `Literal.length_of_decode`: what a body denotes.
-/

namespace AffectedTests

namespace Literal

/-- The body of a string between these quotes, on one line: a quote, a backslash or a line end stands
behind a backslash, and any other code point may do so too. -/
inductive IsBody (quote : CodePoint) : Text → Prop
  | nil : IsBody quote []
  | plain {c : CodePoint} {rest : Text} (hquote : c ≠ quote) (hslash : c ≠ '\\') (hline : c ∉ lineEnds) :
      IsBody quote rest → IsBody quote (c :: rest)
  | escaped {c : CodePoint} {rest : Text} (hline : c ≠ '\n') :
      IsBody quote rest → IsBody quote ('\\' :: c :: rest)

/-- The quotes of strings whose escapes are decoded. -/
def IsQuote (c : CodePoint) : Prop :=
  c = '\'' ∨ c = '"'

/-- What may belong to an escape behind its first code point: digits and braces, and the second half of a
line end. -/
def IsEscapePart (c : CodePoint) : Prop :=
  (hexValue? c).isSome = true ∨ c = '{' ∨ c = '}' ∨ c = '\n'

variable {quote c first : CodePoint} {b rest taken later piece v : Text} {n used count : Nat}

theorem IsEscapePart.ne_slash (h : IsEscapePart c) : c ≠ '\\' := by
  rintro rfl
  revert h
  unfold IsEscapePart
  decide

theorem IsEscapePart.ne_quote (h : IsEscapePart c) (hquote : IsQuote quote) : c ≠ quote := by
  rintro rfl
  revert h
  rcases hquote with rfl | rfl <;> (unfold IsEscapePart; decide)

theorem IsQuote.ne_slash (h : IsQuote quote) : quote ≠ '\\' := by
  rcases h with rfl | rfl <;> decide

/-! ## Bodies -/

namespace IsBody

theorem of_cons (h : IsBody quote (c :: rest)) (hc : c ≠ '\\') : IsBody quote rest := by
  cases h with
  | plain _ _ _ h => exact h
  | escaped => exact absurd rfl hc

/-- What follows code points that begin no escape is a body too. -/
theorem of_append (h : IsBody quote (taken ++ later)) (htaken : ∀ c ∈ taken, c ≠ '\\') :
    IsBody quote later := by
  induction taken with
  | nil => exact h
  | cons c taken ih =>
    rw [List.forall_mem_cons] at htaken
    exact ih (h.of_cons htaken.1) htaken.2

/-- Without escapes there are no quotes in a body. -/
theorem quote_not_mem (h : IsBody quote b) (hslash : ('\\' : CodePoint) ∉ b) : quote ∉ b := by
  induction h with
  | nil => exact List.not_mem_nil
  | plain hquote _ _ _ ih =>
    rw [List.mem_cons, not_or] at hslash ⊢
    exact ⟨hquote.symm, ih hslash.2⟩
  | escaped => exact absurd List.mem_cons_self hslash

/-- There are no line feeds in a body. -/
theorem lineFeed_not_mem (h : IsBody quote b) : ('\n' : CodePoint) ∉ b := by
  induction h with
  | nil => exact List.not_mem_nil
  | plain _ _ hline _ ih =>
    rw [List.mem_cons, not_or]
    refine ⟨?_, ih⟩
    rintro rfl
    exact hline (by decide)
  | escaped hline _ ih =>
    rw [List.mem_cons, List.mem_cons, not_or, not_or]
    exact ⟨by decide, hline.symm, ih⟩

end IsBody

/-! ## Escapes -/

theorem isSome_of_mapM {digits : Text} {values : List Nat} (h : digits.mapM hexValue? = some values) :
    ∀ c ∈ digits, (hexValue? c).isSome = true := by
  induction digits generalizing values with
  | nil => simp
  | cons c digits ih =>
    rw [List.mapM_cons] at h
    rcases Option.bind_eq_some_iff.1 h with ⟨value, hvalue, h⟩
    rcases Option.bind_eq_some_iff.1 h with ⟨values, hvalues, -⟩
    rw [List.forall_mem_cons]
    exact ⟨Option.isSome_iff_exists.2 ⟨value, hvalue⟩, ih hvalues⟩

theorem isSome_of_hexNumber? {digits : Text} (h : hexNumber? digits = some n) :
    ∀ c ∈ digits, (hexValue? c).isSome = true := by
  unfold hexNumber? at h
  split at h
  · cases h
  · rcases Option.map_eq_some_iff.1 h with ⟨values, hvalues, -⟩
    exact isSome_of_mapM hvalues

/-- The first code points of a text, this many of them, may all belong to an escape. -/
def Takes (rest : Text) (count : Nat) : Prop :=
  ∃ taken later, rest = taken ++ later ∧ taken.length = count ∧ ∀ c ∈ taken, IsEscapePart c

theorem takes_zero (rest : Text) : Takes rest 0 :=
  ⟨[], rest, rfl, rfl, fun _ hc => absurd hc List.not_mem_nil⟩

/-- An escape with a fixed number of digits takes these digits. -/
theorem takes_of_fixed? (h : fixed? count rest = some n) : Takes rest count := by
  unfold fixed? at h
  split at h
  · rename_i hlength
    exact ⟨rest.take count, rest.drop count, (List.take_append_drop count rest).symm, hlength,
      fun c hc => .inl (isSome_of_hexNumber? h c hc)⟩
  · cases h

/-- An escape with digits in braces takes the braces and what is between them. -/
theorem takes_of_braced? (h : braced? rest = some (n, used)) : Takes rest used := by
  cases rest with
  | nil => cases h
  | cons opening rest =>
    unfold braced? at h
    dsimp only at h
    split at h
    · rename_i hbraces
      rcases hbraces with ⟨rfl, hclosing⟩
      rcases Option.map_eq_some_iff.1 h with ⟨number, hnumber, heq⟩
      cases heq
      have hdigits := isSome_of_hexNumber? hnumber
      generalize hsplit : rest.takeWhile (fun c => (hexValue? c).isSome) = digits at hclosing hdigits
      -- Behind the digits stands the closing brace, so the text is put together from these parts.
      rcases List.head?_eq_some_iff.1 hclosing with ⟨later, hlater⟩
      have hrest : rest = digits ++ ('}' : CodePoint) :: later := by
        have hlead : digits <+: rest := hsplit ▸ List.takeWhile_prefix _
        rw [← hlater, List.prefix_iff_eq_append.1 hlead]
      refine ⟨('{' : CodePoint) :: digits ++ [('}' : CodePoint)], later, ?_, by simp, fun c hc => ?_⟩
      · rw [hrest]
        simp
      · rw [List.mem_append, List.mem_cons, List.mem_singleton] at hc
        rcases hc with (rfl | hc) | rfl
        · exact .inr (.inl rfl)
        · exact .inl (hdigits c hc)
        · exact .inr (.inr (.inl rfl))
    · cases h

/-- A line feed that is the second half of a line end is taken. -/
theorem takes_lineFeed (h : rest.head? = some ('\n' : CodePoint)) : Takes rest 1 := by
  rcases List.head?_eq_some_iff.1 h with ⟨later, hlater⟩
  refine ⟨['\n'], later, hlater, rfl, fun c hc => ?_⟩
  cases List.mem_singleton.1 hc
  exact .inr (.inr (.inr rfl))

theorem length_of_point {t : Text} (h : point n = .ok t) : t.length = 1 := by
  unfold point at h
  split at h
  · cases h
    rfl
  · cases h

/-- The number of a code point is an escape that denotes this code point. -/
theorem takes_of_point (htakes : Takes rest count)
    (h : ((point n).map fun t => (t, count + 1)) = .ok (piece, used)) :
    piece.length ≤ 1 ∧ ∃ count, used = count + 1 ∧ Takes rest count := by
  rcases Fallible.map_eq_ok.1 h with ⟨t, ht, heq⟩
  cases heq
  exact ⟨Nat.le_of_eq (length_of_point ht), count, rfl, htakes⟩

/-- An escape denotes at most one code point. Of the text behind its first code point it takes a part
that holds neither a backslash nor a quote. -/
theorem takes_of_escape (h : escape first rest = .ok (piece, used)) :
    piece.length ≤ 1 ∧ ∃ count, used = count + 1 ∧ Takes rest count := by
  unfold escape at h
  -- By the first code point: a number, a number of two digits, two kinds of line ends, anything else.
  split at h
  · split at h
    · rename_i hbraced
      exact takes_of_point (takes_of_braced? hbraced) h
    · rename_i hfixed
      exact takes_of_point (takes_of_fixed? hfixed) h
    · cases h
      exact ⟨Nat.le_refl 1, 0, rfl, takes_zero rest⟩
  · split at h
    · split at h
      · rename_i hfixed
        exact takes_of_point (takes_of_fixed? hfixed) h
      · cases h
        exact ⟨Nat.le_refl 1, 0, rfl, takes_zero rest⟩
    · split at h
      · rename_i hlineEnd
        cases h
        exact ⟨Nat.zero_le 1, 1, rfl, takes_lineFeed hlineEnd.2⟩
      · split at h
        · cases h
          exact ⟨Nat.zero_le 1, 0, rfl, takes_zero rest⟩
        · cases h
          exact ⟨Nat.le_refl 1, 0, rfl, takes_zero rest⟩

/-- An escaped quote denotes the quote. -/
theorem escape_quote (hquote : IsQuote quote) (rest : Text) : escape quote rest = .ok ([quote], 1) := by
  rcases hquote with rfl | rfl <;> rfl

/-! ## What a body denotes -/

theorem decode_cons (hc : c ≠ '\\') : decode (c :: rest) = (decode rest).map (c :: ·) := by
  unfold decode
  cases rest with
  | nil => rfl
  | cons first after => rw [decodeFrom, if_neg hc]

/-- Code points that belong to an escape are skipped. -/
theorem decodeFrom_append : decodeFrom taken.length (taken ++ later) = decode later := by
  induction taken with
  | nil => rfl
  | cons c taken ih => exact ih

theorem decode_escape_eq_ok (h : decode ('\\' :: first :: rest) = .ok v) :
    ∃ piece used tail, escape first rest = .ok (piece, used) ∧
      decodeFrom used (first :: rest) = .ok tail ∧ v = piece ++ tail := by
  unfold decode at h
  rw [decodeFrom, if_pos rfl] at h
  split at h
  · cases h
  · rename_i piece used hescape
    rcases Fallible.map_eq_ok.1 h with ⟨tail, htail, rfl⟩
    exact ⟨piece, used, tail, hescape, htail, rfl⟩

/-- A body without a backslash denotes itself. -/
theorem decode_eq_self (hslash : ('\\' : CodePoint) ∉ b) : decode b = .ok b := by
  induction b with
  | nil => rfl
  | cons c b ih =>
    rw [List.mem_cons, not_or] at hslash
    rw [decode_cons (Ne.symm hslash.1), ih hslash.2]
    rfl

/-- What a body denotes is not longer than the body, and shorter if there is an escape in the body. It
holds the quote if the body does. -/
theorem length_of_decode (hquote : IsQuote quote) (h : IsBody quote b) (hdecode : decode b = .ok v) :
    v.length ≤ b.length ∧ (('\\' : CodePoint) ∈ b → v.length < b.length) ∧ (quote ∈ b → quote ∈ v) := by
  induction hlength : b.length using Nat.strongRecOn generalizing b v with
  | ind length ih =>
    subst hlength
    cases h with
    | nil =>
      cases hdecode
      simp
    | @plain c rest hne hslash _ h =>
      rw [decode_cons hslash] at hdecode
      rcases Fallible.map_eq_ok.1 hdecode with ⟨tail, htail, rfl⟩
      have hrest := ih rest.length (by simp) h htail rfl
      refine ⟨Nat.succ_le_succ hrest.1, fun hmem => ?_, fun hmem => ?_⟩
      · rcases List.mem_cons.1 hmem with heq | hmem
        · exact absurd heq.symm hslash
        · exact Nat.succ_lt_succ (hrest.2.1 hmem)
      · rcases List.mem_cons.1 hmem with heq | hmem
        · exact absurd heq.symm hne
        · exact List.mem_cons_of_mem c (hrest.2.2 hmem)
    | @escaped c rest _ h =>
      rcases decode_escape_eq_ok hdecode with ⟨piece, used, tail, hescape, htail, rfl⟩
      rcases takes_of_escape hescape with ⟨hpiece, _, rfl, taken, later, rfl, rfl, hparts⟩
      -- Behind the escape the body goes on, so the induction takes over there.
      have hlater : IsBody quote later := h.of_append fun c hc => (hparts c hc).ne_slash
      rw [show decodeFrom (taken.length + 1) (c :: (taken ++ later)) = decode later from
        decodeFrom_append] at htail
      have hrest := ih later.length (by simp; omega) hlater htail rfl
      have hlt : (piece ++ tail).length < ('\\' :: c :: (taken ++ later) : Text).length := by
        simp only [List.length_append, List.length_cons]
        omega
      refine ⟨Nat.le_of_lt hlt, fun _ => hlt, fun hmem => ?_⟩
      rcases List.mem_cons.1 hmem with heq | hmem
      · exact absurd heq hquote.ne_slash
      rcases List.mem_cons.1 hmem with rfl | hmem
      · have heq := Except.ok.inj (hescape.symm.trans (escape_quote hquote _))
        rcases Prod.mk.inj heq with ⟨rfl, -⟩
        exact List.mem_append_left tail (List.mem_singleton_self quote)
      · rcases List.mem_append.1 hmem with htaken | hlast
        · exact absurd rfl ((hparts _ htaken).ne_quote hquote)
        · exact List.mem_append_right piece (hrest.2.2 hlast)

end Literal

end AffectedTests
