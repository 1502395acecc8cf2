import AffectedTests.Proofs.Encoding
import AffectedTests.Proofs.Literals
import Mathlib.Data.List.Induction
/-!
# Ways to write a string

A sequence of code points can be written as the body of a quoted string in many ways. A code point stands
for itself, behind a backslash or not, or it is given by a letter or by its number in hexadecimal digits;
and between any two of them the line may be continued. However it is written, the literal denotes the
sequence. Nothing of this holds in a template literal, which denotes its body.

- `Literal.Writes`: the bodies that write a sequence of code points.
- `Literal.escape_of_numberEscape`, `Literal.escape_of_bare`: one escape is read, whatever follows it.
- `Literal.value_exact`: what a literal denotes.
-/

namespace AffectedTests

namespace Literal

/-! ## Escapes as they are written -/

/-- A hexadecimal digit, in either case, and its value. -/
def IsHexDigit (c : CodePoint) (value : Nat) : Prop :=
  ("0123456789abcdef" : Text)[value]? = some c ∨ ("0123456789ABCDEF" : Text)[value]? = some c

instance (c : CodePoint) (value : Nat) : Decidable (IsHexDigit c value) :=
  inferInstanceAs (Decidable (_ ∨ _))

/-- Hexadecimal digits, the most significant one first, and the number that they denote. -/
inductive HexForm : Text → Nat → Prop
  | single {c : CodePoint} {value : Nat} : IsHexDigit c value → HexForm [c] value
  | append {digits : Text} {n : Nat} {c : CodePoint} {value : Nat} :
      HexForm digits n → IsHexDigit c value → HexForm (digits ++ [c]) (16 * n + value)

/-- What may stand behind a backslash to give a code point by its number. -/
inductive NumberEscape : Text → Nat → Prop
  | two {digits : Text} {n : Nat} :
      digits.length = 2 → HexForm digits n → NumberEscape ('x' :: digits) n
  | four {digits : Text} {n : Nat} :
      digits.length = 4 → HexForm digits n → NumberEscape ('u' :: digits) n
  | braced {digits : Text} {n : Nat} :
      HexForm digits n → NumberEscape ('u' :: '{' :: (digits ++ [('}' : CodePoint)])) n

/-- The letters that stand for control characters behind a backslash. -/
inductive ControlLetter : CodePoint → CodePoint → Prop
  | lineFeed : ControlLetter 'n' '\n'
  | tab : ControlLetter 't' '\t'
  | carriageReturn : ControlLetter 'r' '\r'
  | backspace : ControlLetter 'b' '\x08'
  | formFeed : ControlLetter 'f' '\x0c'
  | verticalTab : ControlLetter 'v' '\x0b'
  | null : ControlLetter '0' '\x00'

/-- The line ends of one code point. -/
def IsLineEnd (c : CodePoint) : Prop :=
  c = '\n' ∨ c = '\r' ∨ c = '\u2028' ∨ c = '\u2029'

/-- A backslash in front of this code point has no meaning of its own, with this rest behind it. -/
structure IsBare (c : CodePoint) (rest : Text) : Prop where
  control : ∀ k, ¬ ControlLetter c k
  lineEnd : ¬ IsLineEnd c
  number : ∀ e n, NumberEscape e n → ¬ e <+: c :: rest

/-- A text writes a sequence of code points as the body of a quoted string. -/
inductive Writes : Text → Text → Prop
  | nil : Writes [] []
  | plain {c : CodePoint} {rest points : Text} (hslash : c ≠ '\\') (hscalar : c.isSurrogate = false) :
      Writes rest points → Writes (c :: rest) (c :: points)
  | control {letter c : CodePoint} {rest points : Text} (hletter : ControlLetter letter c) :
      Writes rest points → Writes ('\\' :: letter :: rest) (c :: points)
  | bare {c : CodePoint} {rest points : Text} (hscalar : c.isSurrogate = false) (hbare : IsBare c rest) :
      Writes rest points → Writes ('\\' :: c :: rest) (c :: points)
  | number {e : Text} {c : CodePoint} {rest points : Text} (hnumber : NumberEscape e c.val) :
      Writes rest points → Writes ('\\' :: (e ++ rest)) (c :: points)
  /-- A line end behind a backslash; a carriage return takes a line feed behind it along. -/
  | continued {c : CodePoint} {rest points : Text} (hline : IsLineEnd c)
      (hpair : c = '\r' → rest.head? ≠ some ('\n' : CodePoint)) :
      Writes rest points → Writes ('\\' :: c :: rest) points
  | continuedPair {rest points : Text} : Writes rest points → Writes ('\\' :: '\r' :: '\n' :: rest) points

variable {c first letter : CodePoint} {b digits taken rest piece points e : Text} {n k count used : Nat}

/-! ## Hexadecimal digits -/

theorem hexValue?_eq_some_iff : hexValue? c = some k ↔ IsHexDigit c k := by
  constructor
  · intro h
    -- The three ranges of digits, each read off the digits that are written.
    have hfigures : ∀ v < 10,
        ("0123456789abcdef" : Text)[v]? = some (CodePoint.ofNat (0x30 + v)) := by decide
    have hcapitals : ∀ v < 6,
        ("0123456789ABCDEF" : Text)[v + 10]? = some (CodePoint.ofNat (0x41 + v)) := by decide
    have hsmall : ∀ v < 6,
        ("0123456789abcdef" : Text)[v + 10]? = some (CodePoint.ofNat (0x61 + v)) := by decide
    have hback : ∀ m, c.val = m → CodePoint.ofNat m = c := by
      rintro m rfl
      exact Fin.ext (Nat.mod_eq_of_lt c.isLt)
    unfold hexValue? at h
    dsimp only at h
    split at h
    · cases h
      rw [IsHexDigit, hfigures _ (by omega), hback _ (by omega)]
      exact .inl rfl
    · split at h
      · cases h
        rw [IsHexDigit, hcapitals _ (by omega), hback _ (by omega)]
        exact .inr rfl
      · split at h
        · cases h
          rw [IsHexDigit, hsmall _ (by omega), hback _ (by omega)]
          exact .inl rfl
        · cases h
  · have hall : ∀ v < 16, ("0123456789abcdef" : Text)[v]?.bind hexValue? = some v ∧
        ("0123456789ABCDEF" : Text)[v]?.bind hexValue? = some v := by decide
    rintro (h | h)
    · have hv := (hall k (List.getElem?_eq_some_iff.1 h).1).1
      rwa [h] at hv
    · have hv := (hall k (List.getElem?_eq_some_iff.1 h).1).2
      rwa [h] at hv

theorem HexForm.ne_nil (h : HexForm digits n) : digits ≠ [] := by
  cases h <;> simp

/-- The digits of a number are read one after the other. -/
theorem HexForm.exists_mapM (h : HexForm digits n) :
    ∃ values, digits.mapM hexValue? = some values ∧ values.foldl (fun n v => 16 * n + v) 0 = n := by
  induction h with
  | @single c value hc => exact ⟨[value], by simp [hexValue?_eq_some_iff.2 hc], by simp⟩
  | @append digits n c value _ hc ih =>
    rcases ih with ⟨values, hvalues, rfl⟩
    exact ⟨values ++ [value], by simp [hvalues, hexValue?_eq_some_iff.2 hc], by simp⟩

theorem hexNumber?_of_hexForm (h : HexForm digits n) : hexNumber? digits = some n := by
  rcases h.exists_mapM with ⟨values, hvalues, rfl⟩
  unfold hexNumber?
  rw [if_neg (by simpa using h.ne_nil), hvalues]
  rfl

theorem HexForm.isSome (h : HexForm digits n) : ∀ c ∈ digits, (hexValue? c).isSome = true :=
  isSome_of_hexNumber? (hexNumber?_of_hexForm h)

/-- Whatever is read as a number is a number that is written. -/
theorem hexForm_of_mapM {values : List Nat} (hne : digits ≠ []) (h : digits.mapM hexValue? = some values) :
    HexForm digits (values.foldl (fun n v => 16 * n + v) 0) := by
  induction digits using List.reverseRecOn generalizing values with
  | nil => exact absurd rfl hne
  | append_singleton digits c ih =>
    rw [List.mapM_append] at h
    rcases Option.bind_eq_some_iff.1 h with ⟨front, hfront, h⟩
    rcases Option.bind_eq_some_iff.1 h with ⟨last, hlast, h⟩
    rw [List.mapM_cons] at hlast
    rcases Option.bind_eq_some_iff.1 hlast with ⟨value, hvalue, hlast⟩
    cases hlast
    cases h
    have hdigit := hexValue?_eq_some_iff.1 hvalue
    rw [List.foldl_append]
    by_cases hdigits : digits = []
    · subst hdigits
      cases hfront
      simpa using HexForm.single hdigit
    · exact .append (ih hdigits hfront) hdigit

theorem hexNumber?_eq_some_iff : hexNumber? digits = some n ↔ HexForm digits n := by
  refine ⟨fun h => ?_, hexNumber?_of_hexForm⟩
  unfold hexNumber? at h
  split at h
  · cases h
  · rename_i hne
    rcases Option.map_eq_some_iff.1 h with ⟨values, hvalues, rfl⟩
    exact hexForm_of_mapM (by simpa using hne) hvalues

/-! ## One escape -/

theorem fixed?_append (hlength : digits.length = count) (h : HexForm digits n) :
    fixed? count (digits ++ rest) = some n := by
  unfold fixed?
  rw [← hlength, List.take_left, if_pos rfl, hexNumber?_of_hexForm h]

theorem braced?_append (h : HexForm digits n) :
    braced? ('{' :: (digits ++ ('}' : CodePoint) :: rest)) = some (n, digits.length + 2) := by
  have hstop : (hexValue? '}').isSome = false := by decide
  have htake : (digits ++ ('}' : CodePoint) :: rest).takeWhile (fun c => (hexValue? c).isSome) =
      digits := by
    rw [List.takeWhile_append_of_pos h.isSome, List.takeWhile_cons, if_neg (by simp [hstop]),
      List.append_nil]
  unfold braced?
  dsimp only
  rw [htake, List.drop_left, if_pos ⟨rfl, rfl⟩, hexNumber?_of_hexForm h]
  rfl

/-- Digits without braces are no digits in braces. -/
theorem braced?_eq_none (h : HexForm digits n) : braced? (digits ++ rest) = none := by
  cases digits with
  | nil => exact absurd rfl h.ne_nil
  | cons c digits =>
    have hc : c ≠ '{' := by
      rintro rfl
      exact absurd (h.isSome _ List.mem_cons_self) (by decide)
    unfold braced?
    rw [List.cons_append]
    dsimp only
    rw [if_neg fun hbraces => hc hbraces.1]

/-- Digits that are read are digits in front of the text. -/
theorem prefix_of_fixed? (h : fixed? count rest = some n) :
    ∃ digits, digits <+: rest ∧ digits.length = count ∧ HexForm digits n := by
  unfold fixed? at h
  split at h
  · rename_i hlength
    exact ⟨rest.take count, List.take_prefix count rest, hlength, hexNumber?_eq_some_iff.1 h⟩
  · cases h

theorem prefix_of_braced? (h : braced? rest = some (n, used)) :
    ∃ digits, ('{' : CodePoint) :: (digits ++ [('}' : CodePoint)]) <+: rest ∧ HexForm digits n := by
  cases rest with
  | nil => cases h
  | cons opening rest =>
    unfold braced? at h
    dsimp only at h
    split at h
    · rename_i hbraces
      rcases hbraces with ⟨rfl, hclosing⟩
      rcases Option.map_eq_some_iff.1 h with ⟨number, hnumber, heq⟩
      cases heq
      rcases List.head?_eq_some_iff.1 hclosing with ⟨later, hlater⟩
      refine ⟨_, List.cons_prefix_cons.2 ⟨rfl, later, ?_⟩, hexNumber?_eq_some_iff.1 hnumber⟩
      rw [List.append_assoc, List.singleton_append, ← hlater]
      exact List.prefix_iff_eq_append.1 (List.takeWhile_prefix _)
    · cases h

/-- An escape of a number denotes the code point with this number, whatever follows it. -/
theorem escape_of_numberEscape (h : NumberEscape e c.val) (rest : Text) :
    ∃ first taken, e = first :: taken ∧
      escape first (taken ++ rest) = .ok ([c], taken.length + 1) := by
  have hpoint : point c.val = .ok [c] := dif_pos c.isLt
  cases h with
  | two hlength hdigits =>
    refine ⟨_, _, rfl, ?_⟩
    unfold escape
    rw [if_neg (by decide), if_pos rfl, fixed?_append hlength hdigits, hlength]
    simp [hpoint, Except.map]
  | four hlength hdigits =>
    refine ⟨_, _, rfl, ?_⟩
    unfold escape
    rw [if_pos rfl, braced?_eq_none hdigits, fixed?_append hlength hdigits, hlength]
    simp [hpoint, Except.map]
  | @braced digits _ hdigits =>
    refine ⟨_, _, rfl, ?_⟩
    unfold escape
    rw [if_pos rfl, List.cons_append, List.append_assoc, List.singleton_append, braced?_append hdigits]
    simp [hpoint, Except.map]

theorem escape_of_controlLetter (h : ControlLetter letter c) (rest : Text) :
    escape letter rest = .ok ([c], 1) := by
  cases h <;> rfl

theorem controlLetter_of_lookup (h : controls.lookup letter = some c) : ControlLetter letter c := by
  rcases List.lookup_eq_some_iff.1 h with ⟨before, after, hcontrols, -⟩
  have hmem : (letter, c) ∈ controls := by simp [hcontrols]
  simp only [controls, List.mem_cons, Prod.mk.injEq, List.not_mem_nil, or_false] at hmem
  rcases hmem with ⟨rfl, rfl⟩ | ⟨rfl, rfl⟩ | ⟨rfl, rfl⟩ | ⟨rfl, rfl⟩ | ⟨rfl, rfl⟩ | ⟨rfl, rfl⟩ | ⟨rfl, rfl⟩
  · exact .lineFeed
  · exact .tab
  · exact .carriageReturn
  · exact .backspace
  · exact .formFeed
  · exact .verticalTab
  · exact .null

theorem contains_lineEnds_iff : lineEnds.contains c = true ↔ IsLineEnd c := by
  simp [lineEnds, IsLineEnd]

/-- A code point whose escape has no meaning of its own is what its escape denotes. -/
theorem escape_of_bare (h : IsBare c rest) : escape c rest = .ok ([c], 1) := by
  unfold escape
  by_cases hu : c = 'u'
  · subst hu
    rw [if_pos rfl]
    cases hbraced : braced? rest with
    | some number =>
      rcases prefix_of_braced? hbraced with ⟨digits, hlead, hdigits⟩
      exact absurd (List.cons_prefix_cons.2 ⟨rfl, hlead⟩) (h.number _ _ (.braced hdigits))
    | none =>
      cases hfixed : fixed? 4 rest with
      | some number =>
        rcases prefix_of_fixed? hfixed with ⟨digits, hlead, hlength, hdigits⟩
        exact absurd (List.cons_prefix_cons.2 ⟨rfl, hlead⟩) (h.number _ _ (.four hlength hdigits))
      | none => rfl
  rw [if_neg hu]
  by_cases hx : c = 'x'
  · subst hx
    rw [if_pos rfl]
    cases hfixed : fixed? 2 rest with
    | some number =>
      rcases prefix_of_fixed? hfixed with ⟨digits, hlead, hlength, hdigits⟩
      exact absurd (List.cons_prefix_cons.2 ⟨rfl, hlead⟩) (h.number _ _ (.two hlength hdigits))
    | none => rfl
  have hcontrol : controls.lookup c = none := by
    cases hfound : controls.lookup c with
    | none => rfl
    | some k => exact absurd (controlLetter_of_lookup hfound) (h.control k)
  rw [if_neg hx, if_neg fun hpair => h.lineEnd (.inr (.inl hpair.1)),
    if_neg fun hline => h.lineEnd (contains_lineEnds_iff.1 hline), hcontrol]
  rfl

theorem escape_of_isLineEnd (hline : IsLineEnd c)
    (hpair : c = '\r' → rest.head? ≠ some ('\n' : CodePoint)) : escape c rest = .ok ([], 1) := by
  have hcontains := contains_lineEnds_iff.2 hline
  unfold escape
  rcases hline with rfl | rfl | rfl | rfl
  · rfl
  · rw [if_neg (by decide), if_neg (by decide), if_neg fun h => hpair rfl h.2, if_pos hcontains]
  · rfl
  · rfl

/-! ## Bodies -/

/-- The step lemma: behind an escape the body goes on. -/
theorem decode_of_escape (taken : Text) (h : escape first (taken ++ rest) = .ok (piece, taken.length + 1))
    (hrest : decode rest = .ok points) :
    decode ('\\' :: first :: (taken ++ rest)) = .ok (piece ++ points) := by
  have hskip : decodeFrom (taken.length + 1) (first :: (taken ++ rest)) = .ok points :=
    (@decodeFrom_append (first :: taken) rest).trans hrest
  unfold decode
  rw [decodeFrom, if_pos rfl, h]
  dsimp only
  rw [hskip]
  rfl

/-- The run lemma: a body denotes what it writes. -/
theorem decode_of_writes (h : Writes b points) : decode b = .ok points := by
  induction h with
  | nil => rfl
  | plain hslash _ _ ih =>
    rw [decode_cons hslash, ih]
    rfl
  | control hletter _ ih => exact decode_of_escape [] (escape_of_controlLetter hletter _) ih
  | bare _ hbare _ ih => exact decode_of_escape [] (escape_of_bare hbare) ih
  | number hnumber _ ih =>
    rcases escape_of_numberEscape hnumber _ with ⟨first, taken, rfl, hescape⟩
    exact decode_of_escape taken hescape ih
  | continued hline hpair _ ih =>
    exact decode_of_escape [] (escape_of_isLineEnd hline hpair) ih
  | @continuedPair rest _ _ ih =>
    have hpair : escape '\r' (('\n' : CodePoint) :: rest) = .ok ([], 2) := rfl
    exact decode_of_escape ['\n'] hpair ih

/-! ## Literals -/

/-- The text of a node is a body between two delimiters. -/
def Spells (t : Tree) (b : Text) : Prop :=
  ∃ opening closing, Utf8.encode (opening :: (b ++ [closing])) = some t.info.text

/-- What a literal is read as: the body of a quoted string is decoded, that of a template literal is
taken as it is. -/
theorem value_of_spells {t : Tree} (h : Spells t b) :
    value t = if t.kind = .string then decode b else .ok b := by
  rcases h with ⟨opening, closing, hencode⟩
  unfold value Tree.text
  rw [Utf8.decode_of_encode hencode]
  simp [body]

/-- A quoted string denotes the code points that its body writes, in whichever way; a template literal
denotes its body. -/
theorem value_exact {t : Tree} (h : Spells t b) :
    (t.kind = .string → ∀ points, Writes b points → value t = .ok points) ∧
      (t.kind = .templateString → value t = .ok b) := by
  rw [value_of_spells h]
  constructor
  · intro hkind points hwrites
    rw [if_pos hkind]
    exact decode_of_writes hwrites
  · intro hkind
    rw [hkind, if_neg (by decide)]

end Literal

/-! ## An example -/

namespace Notated

open Literal

/-- A body in which code points are written in each way: a letter, an escaped letter, numbers in all three
forms with a continued line between them, and two escapes that mean nothing of their own. -/
def body : Text :=
  ['a', '\\', 'n', '\\', 'x', '4', 'A', '\\', 'u', '{', '1', 'F', '6', '0', '0', '}', '\\', '\r', '\n',
    '\\', 'u', 'd', '8', '3', 'd', '\\', 'q', '\\', 'u']

def points : Text :=
  ['a', '\n', 'J', '😀', CodePoint.ofNat 0xD83D, 'q', 'u']

/-- The literal with this body in double quotes. -/
def literal : Tree :=
  .node ⟨.string, true, none, 0, 31, 0, 1,
    [34, 97, 92, 110, 92, 120, 52, 65, 92,
      117, 123, 49, 70, 54, 48, 48, 125, 92, 13, 10, 92, 117, 100, 56, 51, 100, 92, 113, 92, 117, 34]⟩ []

theorem spells_literal : Spells literal body :=
  ⟨'"', '"', by decide⟩

theorem isBare_q (rest : Text) : IsBare 'q' rest := by
  refine ⟨?_, ?_, ?_⟩
  · rintro k ⟨⟩
  · unfold IsLineEnd
    decide
  · rintro e n (_ | _ | _) hlead <;> exact absurd (List.cons_prefix_cons.1 hlead).1 (by decide)

/-- No digit and no brace follows, so this is no number. -/
theorem isBare_u : IsBare 'u' [] := by
  refine ⟨?_, ?_, ?_⟩
  · rintro k ⟨⟩
  · unfold IsLineEnd
    decide
  · rintro e n (_ | ⟨hlength, -⟩ | _) hlead
    · exact absurd (List.cons_prefix_cons.1 hlead).1 (by decide)
    · rw [List.prefix_nil.1 (List.cons_prefix_cons.1 hlead).2] at hlength
      cases hlength
    · exact absurd (List.cons_prefix_cons.1 hlead).2 (by simp)

theorem writes_body : Writes body points := by
  refine .plain (by decide) (by decide) (.control .lineFeed ?_)
  refine @Writes.number ['x', '4', 'A'] 'J' _ _ (.two rfl (hexNumber?_eq_some_iff.1 (by decide))) ?_
  refine @Writes.number ['u', '{', '1', 'F', '6', '0', '0', '}'] '😀' _ _
    (@NumberEscape.braced ['1', 'F', '6', '0', '0'] _ (hexNumber?_eq_some_iff.1 (by decide))) ?_
  refine .continuedPair ?_
  refine @Writes.number ['u', 'd', '8', '3', 'd'] (CodePoint.ofNat 0xD83D) _ _
    (.four rfl (hexNumber?_eq_some_iff.1 (by decide))) ?_
  exact .bare (by decide) (isBare_q _) (.bare (by decide) isBare_u .nil)

/-- The literal denotes the seven code points, however they are written. -/
theorem value_exact_literal : Spells literal body ∧ Writes body points ∧ value literal = .ok points :=
  ⟨spells_literal, writes_body, (value_exact spells_literal).1 rfl points writes_body⟩

end Notated

end AffectedTests
