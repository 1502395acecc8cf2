import AffectedTests.Proofs.CallPattern
import AffectedTests.Proofs.Clauses
import AffectedTests.Proofs.Literals
import AffectedTests.Proofs.Rereading
import AffectedTests.Proofs.Trace
/-!
# Deleted calls

A test that was removed is known by the text of a deleted line, one that is still there by its call in
the parse tree. The text gives the name as it is written, up to the next copy of the quote; the tree gives
what the literal denotes. The two names are the same exactly if there is no escape in the literal.

- `TestCall.callAt?_callText`: what is found at the beginning of a line that calls a keyword.
- `TestCall.exists_occurrences_callText`: all that is found in such a line.
- `Cursor.test?_of_calls`: what the call declares in a parse tree.
- `FileDiff.namesAlike_iff`: when the two agree.
-/

namespace AffectedTests

open Diff (startsWith_iff head?_of_startsWith)
open Literal (IsBody IsQuote decode)

/-! ## Identifiers -/

/-- Whether a code point may stand in an identifier, in the widest sense: ASCII letters and digits, the
low line and the dollar sign, and beyond ASCII everything that is not blank. -/
def CodePoint.isNamePart (c : CodePoint) : Bool :=
  let n := c.val
  (0x30 ≤ n && n ≤ 0x39) || (0x41 ≤ n && n ≤ 0x5A) || (0x61 ≤ n && n ≤ 0x7A) || c == '_' || c == '$' ||
    (0x80 ≤ n && !c.isBlank)

/-- A text is an identifier. -/
def Text.IsIdentifier (t : Text) : Prop :=
  t ≠ [] ∧ ∀ c ∈ t, c.isNamePart = true

namespace CodePoint

variable {c : CodePoint}

theorem isBlank_of_ascii (hfirst : 0x20 < c.val) (hlast : c.val < 0x85) : c.isBlank = false := by
  have hcontrol : ¬ c.val < 0x9 := by omega
  have hspace : ¬ c.val < 0x1C := by omega
  simp only [isBlank, blankRanges, CodeRanges.has, if_neg hcontrol, if_neg hspace, if_pos hlast,
    Bool.or_false, Bool.or_eq_false_iff, decide_eq_false_iff_not]
  omega

theorem isBlank_of_isNamePart (h : c.isNamePart = true) : c.isBlank = false := by
  simp only [isNamePart, Bool.or_eq_true, Bool.and_eq_true, decide_eq_true_eq, beq_iff_eq,
    Bool.not_eq_true'] at h
  rcases h with ((((h | h) | h) | rfl) | rfl) | h
  · exact isBlank_of_ascii (by omega) (by omega)
  · exact isBlank_of_ascii (by omega) (by omega)
  · exact isBlank_of_ascii (by omega) (by omega)
  · decide
  · decide
  · exact h.2

theorem ne_of_isNamePart {other : CodePoint} (h : c.isNamePart = true)
    (hother : other.isNamePart = false) : c ≠ other := by
  rintro rfl
  cases h.symm.trans hother

end CodePoint

/-! ## What the text of a line tells -/

namespace TestCall

variable {c quote : CodePoint} {k name after t : Text} {keywords : List Text}

/-- The text of a call of a keyword with a quoted first argument, from the keyword to the closing quote,
and what follows it. -/
def callText (k : Text) (quote : CodePoint) (name after : Text) : Text :=
  k ++ ('(' : CodePoint) :: quote :: (name ++ quote :: after)

theorem modifiersFrom_of_ne_dot (hc : c ≠ '.') : modifiersFrom none (c :: t) = ([], c :: t) := by
  rw [modifiersFrom, if_neg fun h => hc h.1]

theorem callOf?_callText (hquote : IsQuote quote) (hname : quote ∉ name)
    (hline : ('\n' : CodePoint) ∉ name) :
    callOf? (callText k quote name after) k = some (⟨[], name⟩, after) := by
  have hknown : quote ∈ quotes := by rcases hquote with rfl | rfl <;> decide
  have hnone : ∀ c ∈ ([] : Text), c.isBlank = true := fun _ hc => nomatch hc
  have hargument : SpellsArgument name (('(' : CodePoint) :: quote :: (name ++ [quote])) :=
    .mk hnone hnone hknown hname hline
  have hspelled : Spells k ⟨[], name⟩ (k ++ [] ++ ('(' : CodePoint) :: quote :: (name ++ [quote])) :=
    .mk (fun _ hm => nomatch hm) hargument
  exact callOf?_eq_some_iff.2 ⟨_, by simp [callText], hspelled⟩

/-- A keyword that is only the beginning of an identifier makes no call. -/
theorem callOf?_eq_none_of_longer (hc : c.isNamePart = true) : callOf? (k ++ c :: t) k = none := by
  unfold callOf?
  rw [if_pos (startsWith_iff.2 (List.prefix_append k _)), List.drop_left,
    modifiersFrom_of_ne_dot (CodePoint.ne_of_isNamePart hc (by decide))]
  unfold quotedArgument?
  simp only [List.dropWhile_cons, CodePoint.isBlank_of_isNamePart hc, Bool.false_eq_true, if_false,
    if_neg (CodePoint.ne_of_isNamePart hc (show CodePoint.isNamePart '(' = false by decide)),
    Option.map_none]

/-- A keyword that does not begin here makes no call here. -/
theorem callOf?_eq_none_of_head (hk : k.IsIdentifier) (hc : c.isNamePart = false) :
    callOf? (c :: t) k = none := by
  unfold callOf?
  refine if_neg fun hstarts => ?_
  cases k with
  | nil => exact hk.1 rfl
  | cons first k =>
    cases head?_of_startsWith hstarts
    cases hc.symm.trans (hk.2 c List.mem_cons_self)

/-- Of all keywords none but the whole identifier in front of the parenthesis makes a call. -/
theorem callOf?_callText_cases {k' : Text} (hk : k.IsIdentifier) (hk' : k'.IsIdentifier)
    (hquote : IsQuote quote) (hname : quote ∉ name) (hline : ('\n' : CodePoint) ∉ name) (after : Text) :
    callOf? (callText k quote name after) k' = none ∨
      callOf? (callText k quote name after) k' = some (⟨[], name⟩, after) := by
  by_cases hstarts : Text.startsWith (callText k quote name after) k' = true
  · have hlead : k' <+: callText k quote name after := startsWith_iff.1 hstarts
    have hwhole : k <+: callText k quote name after := List.prefix_append k _
    rcases List.prefix_or_prefix_of_prefix hlead hwhole with ⟨rest, rfl⟩ | ⟨rest, rfl⟩
    · cases rest with
      | nil =>
        rw [List.append_nil]
        exact .inr (callOf?_callText hquote hname hline)
      | cons c rest =>
        unfold callText
        rw [List.append_assoc, List.cons_append]
        exact .inl (callOf?_eq_none_of_longer (hk.2 c (by simp)))
    · cases rest with
      | nil =>
        rw [List.append_nil]
        exact .inr (callOf?_callText hquote hname hline)
      | cons c rest =>
        -- The parenthesis would be a part of the longer keyword.
        have hparen : c :: rest <+: ('(' : CodePoint) :: quote :: (name ++ quote :: after) :=
          (List.prefix_append_right_inj k).1 hlead
        rw [List.cons_prefix_cons] at hparen
        rcases hparen with ⟨rfl, -⟩
        have hpart : CodePoint.isNamePart '(' = true := hk'.2 _ (by simp)
        exact absurd hpart (by decide)
  · unfold callOf?
    exact .inl (if_neg hstarts)

theorem callAt?_eq_findSome? (hk : k ∈ keywords) : callAt? keywords t = keywords.findSome? (callOf? t) := by
  unfold callAt?
  rw [List.isEmpty_eq_false_iff.2 (List.ne_nil_of_mem hk), if_neg Bool.false_ne_true]

/-- Whichever of the keywords comes first, the call at the front of its text is the one that is found. -/
theorem callAt?_callText (hkeywords : ∀ k ∈ keywords, k.IsIdentifier) (hk : k ∈ keywords)
    (hquote : IsQuote quote) (hname : quote ∉ name) (hline : ('\n' : CodePoint) ∉ name) (after : Text) :
    callAt? keywords (callText k quote name after) = some (⟨[], name⟩, after) := by
  rw [callAt?_eq_findSome? hk]
  have hcall : callOf? (callText k quote name after) k = some (⟨[], name⟩, after) :=
    callOf?_callText hquote hname hline
  cases hfound : keywords.findSome? (callOf? (callText k quote name after)) with
  | none =>
    have hnone : callOf? (callText k quote name after) k = none := List.findSome?_eq_none_iff.1 hfound k hk
    cases hnone.symm.trans hcall
  | some call =>
    rcases List.exists_of_findSome?_eq_some hfound with ⟨k', hk', hcall'⟩
    rcases callOf?_callText_cases (hkeywords k hk) (hkeywords k' hk') hquote hname hline after with
      hnone | hsome
    · cases hnone.symm.trans hcall'
    · exact hcall'.symm.trans hsome

/-- Behind what has been found nothing more is found if no identifier can begin there. -/
theorem occurrencesFrom_eq_nil (hkeywords : ∀ k ∈ keywords, k.IsIdentifier) (hk : k ∈ keywords)
    {before : Option CodePoint} {skip : Nat} (hafter : ∀ c ∈ t.drop skip, c.isNamePart = false) :
    occurrencesFrom keywords before skip t = [] := by
  induction t generalizing before skip with
  | nil => rw [occurrencesFrom]
  | cons c t ih =>
    cases skip with
    | succ skip =>
      rw [occurrencesFrom]
      exact ih hafter
    | zero =>
      rw [List.drop_zero, List.forall_mem_cons] at hafter
      have hnone : callAt? keywords (c :: t) = none := by
        rw [callAt?_eq_findSome? hk]
        exact List.findSome?_eq_none_iff.2 fun k' hk' => callOf?_eq_none_of_head (hkeywords k' hk') hafter.1
      have hrest : occurrencesFrom keywords (some c) 0 t = [] := ih (by simpa using hafter.2)
      rw [occurrencesFrom, hnone, hrest, ite_self]

/-- In a line that begins with a call this call is found first, and nothing else if no identifier can
begin behind it. -/
theorem exists_occurrences_callText (hkeywords : ∀ k ∈ keywords, k.IsIdentifier) (hk : k ∈ keywords)
    (hquote : IsQuote quote) (hname : quote ∉ name) (hline : ('\n' : CodePoint) ∉ name) (after : Text) :
    ∃ more, occurrences keywords (callText k quote name after) = ⟨[], name⟩ :: more ∧
      ((∀ c ∈ after, c.isNamePart = false) → more = []) := by
  have hcall := callAt?_callText hkeywords hk hquote hname hline after
  cases k with
  | nil => exact absurd rfl (hkeywords [] hk).1
  | cons c k =>
    -- What is left of the line behind the call is what follows the call.
    have htext : callText (c :: k) quote name after =
        c :: (k ++ ('(' : CodePoint) :: quote :: (name ++ [quote]) ++ after) := by
      simp [callText]
    have hmay : mayBeginAfter none = true := rfl
    rw [htext] at hcall ⊢
    unfold occurrences
    rw [occurrencesFrom, hcall, if_pos hmay]
    refine ⟨_, rfl, fun hafter => occurrencesFrom_eq_nil hkeywords hk ?_⟩
    rw [List.length_append, Nat.add_sub_cancel, List.drop_left]
    exact hafter

theorem exists_declaredNames_callText (hkeywords : ∀ k ∈ keywords, k.IsIdentifier) (hk : k ∈ keywords)
    (hquote : IsQuote quote) (hname : quote ∉ name) (hline : ('\n' : CodePoint) ∉ name) (after : Text) :
    ∃ more, declaredNames keywords (callText k quote name after) = name :: more ∧
      ((∀ c ∈ after, c.isNamePart = false) → more = []) := by
  rcases exists_occurrences_callText hkeywords hk hquote hname hline after with
    ⟨more, hmore, hnil⟩
  refine ⟨(more.filter Occurrence.declares).map (·.name), ?_, fun hafter => by rw [hnil hafter]; rfl⟩
  unfold declaredNames
  rw [hmore]
  rfl

end TestCall

/-! ## What a call in a parse tree tells -/

/-- A node is a call of a keyword, with this string literal as its first argument. -/
structure Cursor.Calls (c : Cursor) (k literal : Text) : Prop where
  kind : c.kind = .callExpression
  callee : ∃ f, c.tree.child? .function = some f ∧ f.kind = .identifier ∧ f.text = .ok k
  argument : ∃ arguments s, c.tree.child? .arguments = some arguments ∧ arguments.kind = .arguments ∧
    (arguments.children.find? fun t => t.info.named && t.kind ≠ .comment) = some s ∧
      s.kind = .string ∧ s.text = .ok literal

namespace Cursor

variable {c : Cursor} {k b literal file : Text} {keywords : List Text} {quote : CodePoint}

theorem isOfKeyword_of_calls (h : c.Calls k literal) (hk : k ∈ keywords) :
    TestCall.isOfKeyword keywords c.tree = .ok true := by
  rcases h.callee with ⟨f, hf, hkind, htext⟩
  have hunwind : TestCall.unwind f = .ok ([], some f) := by
    cases f with
    | node info children =>
      rw [TestCall.unwind, if_neg]
      intro hmember
      cases hmember.symm.trans hkind
  unfold TestCall.isOfKeyword
  rw [hf]
  dsimp only
  rw [hunwind]
  refine Fallible.bind_eq_ok.2 ⟨_, rfl, ?_⟩
  dsimp only
  rw [if_pos hkind]
  refine Fallible.bind_eq_ok.2 ⟨k, htext, ?_⟩
  rw [List.contains_iff_mem.2 hk]
  rfl

theorem value_of_calls (h : c.Calls k (quote :: (b ++ [quote]))) :
    ∃ s, TestCall.nameLiteral? c.tree = some s ∧ Literal.value s = decode b := by
  rcases h.argument with ⟨arguments, s, harguments, hkind, hs, hstring, htext⟩
  refine ⟨s, ?_, ?_⟩
  · unfold TestCall.nameLiteral?
    rw [harguments]
    dsimp only
    rw [if_pos hkind, hs]
    simp [Option.filter, hstring]
  · unfold Literal.value
    rw [htext]
    dsimp only
    rw [if_pos hstring]
    simp [Literal.body]

/-- A call of a keyword with a string in front declares a test under the name that the string denotes. -/
theorem test?_of_calls (h : c.Calls k (quote :: (b ++ [quote]))) (hk : k ∈ keywords) :
    c.test? keywords file = (decode b).map fun name => some ⟨name, c.startLine, c.endLine, file⟩ := by
  rcases value_of_calls h with ⟨s, hs, hvalue⟩
  unfold test?
  rw [if_pos h.kind, isOfKeyword_of_calls h hk]
  dsimp only [bind, Except.bind]
  rw [if_pos rfl, hs]
  dsimp only
  rw [hvalue]
  cases decode b <;> rfl

end Cursor

/-! ## Whether the two agree -/

/-- The deleted lines of a diff and a call in a parse tree tell the same test: one test is reported as
removed, it has the name that the call declares, and if it is also reported as modified there is one
report for both. -/
def FileDiff.NamesAlike (d : FileDiff) (keywords : List Text) (call : Cursor) (file : Text) : Prop :=
  ∃ t, call.test? keywords file = .ok (some t) ∧
    d.removedImpacts keywords = [⟨t.name, d.path, .removed, none⟩] ∧
    Impact.merge (⟨t.name, d.path, .modified, none⟩ :: d.removedImpacts keywords) =
      [⟨t.name, d.path, .modified, none⟩]

namespace FileDiff

variable {k name after b file : Text} {keywords : List Text} {quote : CodePoint} {d : FileDiff}
  {line : ChangedLine} {call : Cursor}

/-- What follows the first argument of a call with an empty function as its second one. -/
def restOfCall : Text :=
  ", () => {})"

theorem isNamePart_of_mem_restOfCall : ∀ c ∈ restOfCall, c.isNamePart = false := by
  have hall : (restOfCall.all fun c => !c.isNamePart) = true := by decide
  intro c hc
  simpa using List.all_eq_true.1 hall c hc

theorem exists_removedImpacts_callText (hkeywords : ∀ k ∈ keywords, k.IsIdentifier) (hk : k ∈ keywords)
    (hquote : IsQuote quote) (hname : quote ∉ name) (hfeed : ('\n' : CodePoint) ∉ name)
    (hdeleted : d.deletedLines = [line]) (hline : line.content = TestCall.callText k quote name after) :
    ∃ more, d.removedImpacts keywords = ⟨name, d.path, .removed, none⟩ :: more ∧
      ((∀ c ∈ after, c.isNamePart = false) → more = []) := by
  rcases TestCall.exists_declaredNames_callText hkeywords hk hquote hname hfeed after with
    ⟨names, hnames, hnil⟩
  rcases exists_distinct_cons name names with ⟨more, hmore⟩
  unfold removedImpacts
  rw [hdeleted, List.flatMap_singleton, hline, hnames, hmore]
  refine ⟨_, rfl, fun hafter => ?_⟩
  rw [hnil hafter] at hmore
  cases hmore
  rfl

/-- A literal without a quote in it is found as a whole, and nothing else in its line. -/
theorem removedImpacts_of_quote_not_mem (hkeywords : ∀ k ∈ keywords, k.IsIdentifier) (hk : k ∈ keywords)
    (hquote : IsQuote quote) (hbody : IsBody quote b) (hmem : quote ∉ b)
    (hdeleted : d.deletedLines = [line]) (hline : line.content = TestCall.callText k quote b restOfCall) :
    d.removedImpacts keywords = [⟨b, d.path, .removed, none⟩] := by
  rcases exists_removedImpacts_callText hkeywords hk hquote hmem hbody.lineFeed_not_mem hdeleted hline with
    ⟨more, hmore, hnil⟩
  rw [hmore, hnil isNamePart_of_mem_restOfCall]

/-- A literal with a quote in it is found up to this quote. -/
theorem exists_removedImpacts_of_quote_mem (hkeywords : ∀ k ∈ keywords, k.IsIdentifier)
    (hk : k ∈ keywords) (hquote : IsQuote quote) (hbody : IsBody quote b) (hmem : quote ∈ b)
    (hdeleted : d.deletedLines = [line]) (hline : line.content = TestCall.callText k quote b restOfCall) :
    ∃ name more, quote ∉ name ∧ d.removedImpacts keywords = ⟨name, d.path, .removed, none⟩ :: more := by
  rcases List.eq_append_cons_of_mem hmem with ⟨name, rest, rfl, hname⟩
  have hfeed : ('\n' : CodePoint) ∉ name :=
    fun h => hbody.lineFeed_not_mem (List.mem_append_left _ h)
  have hfirst : line.content = TestCall.callText k quote name (rest ++ quote :: restOfCall) := by
    rw [hline]
    simp [TestCall.callText]
  rcases exists_removedImpacts_callText hkeywords hk hquote hname hfeed hdeleted hfirst with
    ⟨more, hmore, -⟩
  exact ⟨name, more, hname, hmore⟩

theorem merge_modified_removed (name path : Text) :
    Impact.merge [⟨name, path, .modified, none⟩, ⟨name, path, .removed, none⟩] =
      [⟨name, path, .modified, none⟩] := by
  simp [Impact.merge, Impact.enter, Impact.key, ImpactKind.rank]

/-- For a deleted line that calls a keyword with a quoted name, and the same call in a parse tree, the
text and the tree tell the same test exactly if there is no backslash in the literal. -/
theorem namesAlike_iff (hkeywords : ∀ k ∈ keywords, k.IsIdentifier) (hk : k ∈ keywords)
    (hquote : IsQuote quote) (hbody : IsBody quote b) (hdeleted : d.deletedLines = [line])
    (hline : line.content = TestCall.callText k quote b restOfCall)
    (hcall : call.Calls k (quote :: (b ++ [quote]))) (file : Text) :
    d.NamesAlike keywords call file ↔ ('\\' : CodePoint) ∉ b := by
  constructor
  · rintro ⟨t, ht, hremoved, -⟩ hslash
    rw [Cursor.test?_of_calls hcall hk] at ht
    rcases Fallible.map_eq_ok.1 ht with ⟨v, hv, heq⟩
    cases heq
    have hdenotes := Literal.length_of_decode hquote hbody hv
    by_cases hmem : quote ∈ b
    · -- The name in the text has no quote in it, the one in the tree has.
      rcases exists_removedImpacts_of_quote_mem hkeywords hk hquote hbody hmem hdeleted hline with
        ⟨name, more, hname, hfound⟩
      cases hremoved.symm.trans hfound
      exact hname (hdenotes.2.2 hmem)
    · -- The name in the text is the whole literal, the one in the tree is shorter.
      cases hremoved.symm.trans
        (removedImpacts_of_quote_not_mem hkeywords hk hquote hbody hmem hdeleted hline)
      exact lt_irrefl _ (hdenotes.2.1 hslash)
  · intro hslash
    have hremoved := removedImpacts_of_quote_not_mem hkeywords hk hquote hbody
      (hbody.quote_not_mem hslash) hdeleted hline
    refine ⟨⟨b, call.startLine, call.endLine, file⟩, ?_, hremoved, ?_⟩
    · rw [Cursor.test?_of_calls hcall hk, Literal.decode_eq_self hslash]
      rfl
    · rw [hremoved]
      exact merge_modified_removed b d.path

end FileDiff

/-! ## A name with an apostrophe -/

namespace Apostrophe

open Sample (branch leaf)

def keywords : List Text := ["test", "it", "describe"]

/-- A call of `test` with a literal in single quotes and an empty function. -/
def call (body : Bytes) : Cursor :=
  let n := body.length
  ⟨branch .callExpression none 0 (n + 19) 0 [
    leaf .identifier (some .function) 0 4 0 [116, 101, 115, 116],
    branch .arguments (some .arguments) 4 (n + 19) 0 [
      leaf .string none 5 (n + 7) 0 (39 :: (body ++ [39])),
      branch .arrowFunction none (n + 9) (n + 18) 0 []]], []⟩

/-- A diff that deletes the line with this call. -/
def diff (body : Text) : FileDiff :=
  ⟨"a.test.js", .modified,
    [⟨1, TestCall.callText "test" '\'' body FileDiff.restOfCall, true⟩], [⟨1, 1, 1, 0⟩]⟩

theorem isIdentifier : ∀ k ∈ keywords, k.IsIdentifier := by
  have hall : (keywords.all fun k => !k.isEmpty && k.all CodePoint.isNamePart) = true := by decide
  intro k hk
  have hkeyword := Bool.and_eq_true_iff.1 (List.all_eq_true.1 hall k hk)
  exact ⟨by simpa using hkeyword.1, List.all_eq_true.1 hkeyword.2⟩

theorem calls {body : Bytes} {text : Text} (h : Utf8.decode (39 :: (body ++ [39])) = some text) :
    (call body).Calls "test" text := by
  refine ⟨rfl, ⟨_, rfl, rfl, rfl⟩, _, leaf .string none 5 (body.length + 7) 0 (39 :: (body ++ [39])),
    rfl, rfl, rfl, rfl, ?_⟩
  exact Tree.text_eq_ok_iff.2 (Utf8.decode_eq_some_iff.1 h)

/-- A name without an apostrophe is told alike. -/
theorem namesAlike_iff_plain : (diff "it").NamesAlike keywords (call [105, 116]) "/p/a.test.js" := by
  have hbody : IsBody '\'' "it" :=
    .plain (by decide) (by decide) (by decide) (.plain (by decide) (by decide) (by decide) .nil)
  exact (FileDiff.namesAlike_iff isIdentifier (by decide) (.inl rfl) hbody rfl rfl (calls rfl)
    "/p/a.test.js").2 (by decide)

/-- An apostrophe in the name is escaped in the literal, and the text ends the name there. -/
theorem not_namesAlike_escaped :
    (diff "it\\'s").removedImpacts keywords = [⟨"it\\", "a.test.js", .removed, none⟩] ∧
    (call [105, 116, 92, 39, 115]).test? keywords "/p/a.test.js" =
      .ok (some ⟨"it's", 1, 1, "/p/a.test.js"⟩) ∧
    ¬ ∀ (keywords : List Text) (k : Text) (quote : CodePoint) (b file : Text) (d : FileDiff)
      (line : ChangedLine) (call : Cursor), (∀ k ∈ keywords, k.IsIdentifier) → k ∈ keywords →
        IsQuote quote → IsBody quote b → d.deletedLines = [line] →
          line.content = TestCall.callText k quote b FileDiff.restOfCall →
            call.Calls k (quote :: (b ++ [quote])) → d.NamesAlike keywords call file := by
  have hremoved : (diff "it\\'s").removedImpacts keywords = [⟨"it\\", "a.test.js", .removed, none⟩] := by
    decide
  have htest : (call [105, 116, 92, 39, 115]).test? keywords "/p/a.test.js" =
      .ok (some ⟨"it's", 1, 1, "/p/a.test.js"⟩) := rfl
  have hbody : IsBody '\'' "it\\'s" :=
    .plain (by decide) (by decide) (by decide) (.plain (by decide) (by decide) (by decide)
      (.escaped (by decide) (.plain (by decide) (by decide) (by decide) .nil)))
  have hcall : (call [105, 116, 92, 39, 115]).Calls "test" ("'it\\'s'" : Text) := calls rfl
  refine ⟨hremoved, htest, fun hall => ?_⟩
  rcases hall keywords "test" '\'' "it\\'s" "/p/a.test.js" (diff "it\\'s") _ _ isIdentifier
    (by decide) (.inl rfl) hbody rfl rfl hcall with ⟨t, ht, halike, -⟩
  cases htest.symm.trans ht
  exact absurd (hremoved.symm.trans halike) (by decide)

end Apostrophe

end AffectedTests
