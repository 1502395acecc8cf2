import AffectedTests.Impact.Removed
import Mathlib.Data.List.TakeWhile
/-!
# Calls in a line

A call in a line of text is spelled by a keyword, a chain of modifiers, an opening parenthesis and a quoted
name. The search for calls goes through the line from left to right: where a call begins it is taken, and
the search goes on behind it; where none begins one code point is passed over. What the search finds is
exactly what this reading of the line gives.

- `TestCall.Spells`: the text of a call of a keyword.
- `TestCall.Reads`: a line read from left to right.
- `TestCall.callOf?_eq_some_iff`, `TestCall.callAt?_eq_some_iff`: the calls at the front of a text.
- `TestCall.reads_iff`: the calls that the search finds.
-/

namespace AffectedTests

/-! ## Blanks and identifiers -/

namespace CodeRanges

variable {ranges : CodeRanges} {first last : Nat} {c : CodePoint}

theorem has_cons_of_lt (hrange : first ≤ last) (h : last < c.val) :
    CodeRanges.has ((first, last) :: ranges) c = ranges.has c := by
  rw [CodeRanges.has, if_neg (by omega), decide_eq_false (by omega), Bool.false_or]

theorem has_cons_of_mem (hfirst : first ≤ c.val) (hlast : c.val ≤ last) :
    CodeRanges.has ((first, last) :: ranges) c = true := by
  rw [CodeRanges.has, if_neg (by omega), decide_eq_true hlast, Bool.true_or]

theorem exists_of_has (h : ranges.has c = true) : ∃ r ∈ ranges, r.1 ≤ c.val ∧ c.val ≤ r.2 := by
  induction ranges with
  | nil => cases h
  | cons r ranges ih =>
    rcases r with ⟨first, last⟩
    rw [CodeRanges.has] at h
    split at h
    · cases h
    · rename_i hfirst
      rcases Bool.or_eq_true_iff.1 h with hlast | hrest
      · exact ⟨(first, last), List.mem_cons_self, Nat.not_lt.1 hfirst, of_decide_eq_true hlast⟩
      · rcases ih hrest with ⟨r, hr, hc⟩
        exact ⟨r, List.mem_cons_of_mem _ hr, hc⟩

end CodeRanges

/-- No range of blanks meets one of word characters. -/
theorem blankRanges_apart : (blankRanges.all fun b => wordRanges.all fun w =>
    decide (b.2 < w.1 ∨ w.2 < b.1)) = true := by
  decide +kernel

namespace TestCall

variable {c quote : CodePoint} {t rest after name spelled keyword done : Text} {keywords ms : List Text}
  {call : Occurrence} {calls : List Occurrence}

theorem isIdentifierPart_of_isBlank (h : c.isBlank = true) : isIdentifierPart c = false := by
  rcases CodeRanges.exists_of_has h with ⟨b, hb, hfirst, hlast⟩
  have hdollar : (c == '$') = false := by
    refine beq_eq_false_iff_ne.2 ?_
    rintro rfl
    exact absurd h (by decide)
  have hword : c.isWord = false := by
    refine Bool.eq_false_iff.2 fun hword => ?_
    rcases CodeRanges.exists_of_has hword with ⟨w, hw, hfirst', hlast'⟩
    have hapart := of_decide_eq_true
      (List.all_eq_true.1 (List.all_eq_true.1 blankRanges_apart b hb) w hw)
    omega
  rw [isIdentifierPart, hword, hdollar, Bool.or_false]

theorem isIdentifierPart_of_isModifierStart (h : isModifierStart c = true) :
    isIdentifierPart c = true := by
  have hranges : wordRanges =
      (0x30, 0x39) :: (0x41, 0x5A) :: (0x5F, 0x5F) :: (0x61, 0x7A) :: wordRanges.drop 4 := rfl
  simp only [isModifierStart, Bool.or_eq_true, Bool.and_eq_true, decide_eq_true_eq, beq_iff_eq] at h
  rcases h with ((hupper | hlower) | rfl) | rfl
  · have hword : c.isWord = true := by
      rw [CodePoint.isWord, hranges, CodeRanges.has_cons_of_lt (by decide) (by omega)]
      exact CodeRanges.has_cons_of_mem hupper.1 hupper.2
    rw [isIdentifierPart, hword, Bool.true_or]
  · have hword : c.isWord = true := by
      rw [CodePoint.isWord, hranges, CodeRanges.has_cons_of_lt (by decide) (by omega),
        CodeRanges.has_cons_of_lt (by decide) (by omega), CodeRanges.has_cons_of_lt (by decide) (by omega)]
      exact CodeRanges.has_cons_of_mem hlower.1 hlower.2
    rw [isIdentifierPart, hword, Bool.true_or]
  · decide
  · decide

/-! ## The text of a call -/

/-- A modifier is an identifier that begins with an ASCII letter, a low line or a dollar sign. -/
def IsModifier (m : Text) : Prop :=
  m.head?.any isModifierStart = true ∧ ∀ c ∈ m, isIdentifierPart c = true

/-- The modifiers behind a keyword, each with a dot in front. -/
def chain (ms : List Text) : Text :=
  ms.flatMap fun m => ('.' : CodePoint) :: m

/-- A parenthesis that is opened and a quoted name on one line, with blanks around the parenthesis. -/
inductive SpellsArgument (name : Text) : Text → Prop
  | mk {before between : Text} {quote : CodePoint} (hbefore : ∀ c ∈ before, c.isBlank = true)
      (hbetween : ∀ c ∈ between, c.isBlank = true) (hquote : quote ∈ quotes) (hname : quote ∉ name)
      (hline : ('\n' : CodePoint) ∉ name) :
      SpellsArgument name (before ++ ('(' : CodePoint) :: (between ++ quote :: (name ++ [quote])))

/-- The text of a call of a keyword, up to the quote behind the name. -/
inductive Spells (keyword : Text) (call : Occurrence) : Text → Prop
  | mk {argument : Text} (hmodifiers : ∀ m ∈ call.modifiers, IsModifier m)
      (hargument : SpellsArgument call.name argument) :
      Spells keyword call (keyword ++ chain call.modifiers ++ argument)

/-- The keywords that a call may begin with; without any the name of the callee is empty. -/
def callees (keywords : List Text) : List Text :=
  if keywords.isEmpty then [[]] else keywords

/-- A text begins with a call: of the first keyword that makes one there. -/
def BeginsWith (keywords : List Text) (t : Text) (call : Occurrence) (spelled : Text) : Prop :=
  spelled <+: t ∧ ∃ earlier keyword later, callees keywords = earlier ++ keyword :: later ∧
    Spells keyword call spelled ∧
      ∀ k ∈ earlier, ∀ call' spelled', Spells k call' spelled' → ¬ spelled' <+: t

/-- A line read from left to right, when some of it has been read already: where a keyword may stand and a
call begins the call is taken, and everywhere else one code point is passed over. -/
inductive Reads (keywords : List Text) : (done rest : Text) → List Occurrence → Prop
  | nil {done : Text} : Reads keywords done [] []
  | call {done spelled after : Text} {call : Occurrence} {calls : List Occurrence}
      (hmay : mayBeginAfter done.getLast? = true)
      (hcall : BeginsWith keywords (spelled ++ after) call spelled)
      (h : Reads keywords (done ++ spelled) after calls) :
      Reads keywords done (spelled ++ after) (call :: calls)
  | pass {done rest : Text} {c : CodePoint} {calls : List Occurrence}
      (hnone : mayBeginAfter done.getLast? = true →
        ∀ call spelled, ¬ BeginsWith keywords (c :: rest) call spelled)
      (h : Reads keywords (done ++ [c]) rest calls) : Reads keywords done (c :: rest) calls

/-! ## The chain of modifiers -/

/-- Inside a modifier the search goes on to its end. -/
theorem modifiersFrom_some (current : Text) : ∀ t : Text, modifiersFrom (some current) t =
    ((current.reverse ++ t.takeWhile isIdentifierPart) ::
        (modifiersFrom none (t.dropWhile isIdentifierPart)).1,
      (modifiersFrom none (t.dropWhile isIdentifierPart)).2)
  | [] => by simp [modifiersFrom]
  | c :: rest => by
    rw [modifiersFrom, List.takeWhile_cons, List.dropWhile_cons]
    by_cases hpart : isIdentifierPart c = true
    · rw [if_pos hpart, if_pos hpart, if_pos hpart, modifiersFrom_some (c :: current) rest]
      simp
    · rw [if_neg hpart, if_neg hpart, if_neg hpart, modifiersFrom, List.append_nil]
      split <;> rfl

/-- What the chain of modifiers at the front of a text is. -/
theorem modifiersFrom_dot (h : rest.head?.any isModifierStart = true) :
    modifiersFrom none (('.' : CodePoint) :: rest) =
      (rest.takeWhile isIdentifierPart :: (modifiersFrom none (rest.dropWhile isIdentifierPart)).1,
        (modifiersFrom none (rest.dropWhile isIdentifierPart)).2) := by
  rw [modifiersFrom, if_pos ⟨rfl, h⟩, modifiersFrom_some]
  rfl

/-- Where no modifier begins there is no chain. -/
theorem modifiersFrom_eq_nil
    (h : ∀ tail, t = ('.' : CodePoint) :: tail → tail.head?.any isModifierStart = false) :
    modifiersFrom none t = ([], t) := by
  cases t with
  | nil => rw [modifiersFrom]
  | cons c rest =>
    rw [modifiersFrom, if_neg]
    rintro ⟨rfl, hstart⟩
    cases (h rest rfl).symm.trans hstart

/-- What is taken off a text as modifiers is a chain of modifiers. -/
theorem eq_chain_of_modifiersFrom (h : modifiersFrom none t = (ms, rest)) :
    t = chain ms ++ rest ∧ ∀ m ∈ ms, IsModifier m := by
  -- What follows a modifier is shorter than what the modifier was taken from.
  induction hlength : t.length using Nat.strongRecOn generalizing t ms rest with
  | ind n ih =>
    by_cases hdot : ∃ tail, t = ('.' : CodePoint) :: tail ∧ tail.head?.any isModifierStart = true
    · rcases hdot with ⟨tail, rfl, hstart⟩
      rw [modifiersFrom_dot hstart] at h
      cases h
      have hshorter : (tail.dropWhile isIdentifierPart).length < n := by
        rw [← hlength, List.length_cons]
        exact Nat.lt_succ_of_le (List.length_dropWhile_le _ _)
      rcases ih _ hshorter rfl rfl with ⟨htext, hmodifiers⟩
      have hmodifier : IsModifier (tail.takeWhile isIdentifierPart) := by
        refine ⟨?_, fun c hc => List.mem_takeWhile_imp hc⟩
        cases tail with
        | nil => cases hstart
        | cons c tail =>
          rw [List.takeWhile_cons, if_pos (isIdentifierPart_of_isModifierStart hstart)]
          exact hstart
      refine ⟨?_, List.forall_mem_cons.2 ⟨hmodifier, hmodifiers⟩⟩
      rw [chain, List.flatMap_cons, List.cons_append, List.cons_append, List.append_assoc, ← chain, ← htext,
        List.takeWhile_append_dropWhile]
    · have hnone := modifiersFrom_eq_nil fun tail htail =>
        Bool.eq_false_iff.2 fun hstart => hdot ⟨tail, htail, hstart⟩
      rw [hnone] at h
      cases h
      exact ⟨rfl, fun m hm => absurd hm List.not_mem_nil⟩

/-- A whole chain is taken off the text if what follows it cannot go on with it. -/
theorem modifiersFrom_chain (hms : ∀ m ∈ ms, IsModifier m)
    (hrest : ∀ c ∈ rest.head?, isIdentifierPart c = false ∧ c ≠ '.') :
    modifiersFrom none (chain ms ++ rest) = (ms, rest) := by
  induction ms with
  | nil =>
    refine modifiersFrom_eq_nil ?_
    rintro tail (rfl : rest = _)
    exact absurd rfl (hrest '.' rfl).2
  | cons m ms ih =>
    rcases List.forall_mem_cons.1 hms with ⟨⟨hstart, hparts⟩, hms⟩
    -- Behind a modifier comes a dot or what follows the chain.
    have hhead : ∀ c ∈ (chain ms ++ rest).head?, isIdentifierPart c = false := by
      intro c hc
      cases ms with
      | nil => exact (hrest c hc).1
      | cons m' ms =>
        cases hc
        decide
    have htext : chain (m :: ms) ++ rest = ('.' : CodePoint) :: (m ++ (chain ms ++ rest)) := by
      simp [chain]
    have htake : (chain ms ++ rest).takeWhile isIdentifierPart = [] := by
      cases hfollow : chain ms ++ rest with
      | nil => rfl
      | cons c tail => rw [List.takeWhile_cons, hhead c (by rw [hfollow]; rfl)]; rfl
    have hdrop : (chain ms ++ rest).dropWhile isIdentifierPart = chain ms ++ rest := by
      cases hfollow : chain ms ++ rest with
      | nil => rfl
      | cons c tail => rw [List.dropWhile_cons, hhead c (by rw [hfollow]; rfl)]; rfl
    have hstart' : (m ++ (chain ms ++ rest)).head?.any isModifierStart = true := by
      cases m with
      | nil => cases hstart
      | cons c m => exact hstart
    rw [htext, modifiersFrom_dot hstart', List.takeWhile_append_of_pos hparts,
      List.dropWhile_append_of_pos hparts, htake, hdrop, List.append_nil, ih hms]

/-! ## The quoted name -/

theorem upToQuote_eq_some_iff : upToQuote quote t = some (name, after) ↔
    t = name ++ quote :: after ∧ quote ∉ name ∧ ('\n' : CodePoint) ∉ name := by
  induction t generalizing name with
  | nil => simp [upToQuote]
  | cons c t ih =>
    rw [upToQuote]
    by_cases hquote : c = quote
    · subst hquote
      rw [if_pos rfl]
      constructor
      · rintro ⟨⟩
        exact ⟨rfl, List.not_mem_nil, List.not_mem_nil⟩
      · rintro ⟨htext, hname, -⟩
        cases name with
        | nil => cases htext; rfl
        | cons d name =>
          cases htext
          exact absurd List.mem_cons_self hname
    · rw [if_neg hquote]
      by_cases hfeed : c = '\n'
      · rw [if_pos hfeed]
        refine iff_of_false (fun h => nomatch h) ?_
        rintro ⟨htext, -, hline⟩
        cases name with
        | nil => cases htext; exact hquote rfl
        | cons d name =>
          cases htext
          exact hline (hfeed ▸ List.mem_cons_self)
      · rw [if_neg hfeed, Option.map_eq_some_iff]
        constructor
        · rintro ⟨⟨name', after'⟩, hrest, hpair⟩
          cases hpair
          rcases ih.1 hrest with ⟨rfl, hname, hline⟩
          exact ⟨rfl, by simp [hname, Ne.symm hquote], by simp [hline, Ne.symm hfeed]⟩
        · rintro ⟨htext, hname, hline⟩
          cases name with
          | nil => cases htext; exact absurd rfl hquote
          | cons d name =>
            cases htext
            rw [List.mem_cons, not_or] at hname hline
            exact ⟨(name, after), ih.2 ⟨rfl, hname.2, hline.2⟩, rfl⟩

theorem isBlank_of_mem_quotes (h : quote ∈ quotes) : quote.isBlank = false := by
  simp only [quotes, List.mem_cons, List.not_mem_nil, or_false] at h
  rcases h with rfl | rfl | rfl <;> decide

theorem dropWhile_isBlank_append {blanks : Text} (hblanks : ∀ c ∈ blanks, c.isBlank = true)
    (hc : c.isBlank = false) : (blanks ++ c :: rest).dropWhile CodePoint.isBlank = c :: rest := by
  rw [List.dropWhile_append_of_pos hblanks, List.dropWhile_cons, if_neg (by simp [hc])]

theorem quotedArgument?_eq_some_iff : quotedArgument? t = some (name, after) ↔
    ∃ argument, t = argument ++ after ∧ SpellsArgument name argument := by
  constructor
  · intro h
    have hblanks : ∀ l : Text, ∀ c ∈ l.takeWhile CodePoint.isBlank, c.isBlank = true :=
      fun _ _ hc => List.mem_takeWhile_imp hc
    unfold quotedArgument? at h
    split at h
    · rename_i paren rest hparen
      split at h
      · rename_i hopen
        split at h
        · rename_i quote tail hquote
          split at h
          · rename_i hknown
            rcases upToQuote_eq_some_iff.1 h with ⟨rfl, hname, hline⟩
            refine ⟨_, ?_, .mk (hblanks t) (hblanks rest) (List.contains_iff_mem.1 hknown) hname hline⟩
            have htext : t = t.takeWhile CodePoint.isBlank ++ ('(' : CodePoint) ::
                (rest.takeWhile CodePoint.isBlank ++ quote :: (name ++ quote :: after)) := by
              rw [← hquote, List.takeWhile_append_dropWhile, ← hopen, ← hparen,
                List.takeWhile_append_dropWhile]
            simpa using htext
          · cases h
        · cases h
      · cases h
    · cases h
  · rintro ⟨argument, rfl, hargument⟩
    cases hargument with
    | @mk before between quote hbefore hbetween hquote hname hline =>
      have htext : before ++ ('(' : CodePoint) :: (between ++ quote :: (name ++ [quote])) ++ after =
          before ++ ('(' : CodePoint) :: (between ++ quote :: (name ++ quote :: after)) := by simp
      have hknown : quotes.contains quote = true := List.contains_iff_mem.2 hquote
      unfold quotedArgument?
      rw [htext, dropWhile_isBlank_append hbefore (by decide)]
      dsimp only
      rw [if_pos rfl, dropWhile_isBlank_append hbetween (isBlank_of_mem_quotes hquote)]
      dsimp only
      rw [if_pos hknown]
      exact upToQuote_eq_some_iff.2 ⟨rfl, hname, hline⟩

/-! ## Calls at the front of a text -/

/-- The chain of modifiers ends where the argument begins. -/
theorem SpellsArgument.head_not_part {argument : Text} (h : SpellsArgument name argument) :
    ∀ c ∈ (argument ++ after).head?, isIdentifierPart c = false ∧ c ≠ '.' := by
  cases h with
  | @mk before between quote hbefore _ _ _ _ =>
    intro c hc
    cases before with
    | nil =>
      cases hc
      decide
    | cons b before =>
      cases hc
      have hblank := hbefore c List.mem_cons_self
      refine ⟨isIdentifierPart_of_isBlank hblank, ?_⟩
      rintro rfl
      exact absurd hblank (by decide)

/-- The calls of a keyword at the front of a text. -/
theorem callOf?_eq_some_iff : callOf? t keyword = some (call, after) ↔
    ∃ spelled, t = spelled ++ after ∧ Spells keyword call spelled := by
  constructor
  · intro h
    unfold callOf? at h
    split at h
    · rename_i hstarts
      rcases List.isPrefixOf_iff_prefix.1 hstarts with ⟨tail, rfl⟩
      rw [List.drop_left] at h
      cases hmodifiers : modifiersFrom none tail with
      | mk ms rest =>
        rw [hmodifiers] at h
        rcases Option.map_eq_some_iff.1 h with ⟨⟨name, after'⟩, hargument, hpair⟩
        cases hpair
        rcases eq_chain_of_modifiersFrom hmodifiers with ⟨rfl, hchain⟩
        rcases quotedArgument?_eq_some_iff.1 hargument with ⟨argument, rfl, hspelled⟩
        exact ⟨_, by simp, .mk hchain hspelled⟩
    · cases h
  · rintro ⟨spelled, rfl, hspelled⟩
    cases hspelled with
    | @mk argument hmodifiers hargument =>
      have htext : keyword ++ chain call.modifiers ++ argument ++ after =
          keyword ++ (chain call.modifiers ++ (argument ++ after)) := by simp
      have hstarts :
          Text.startsWith (keyword ++ (chain call.modifiers ++ (argument ++ after))) keyword = true :=
        List.isPrefixOf_iff_prefix.2 (List.prefix_append _ _)
      unfold callOf?
      rw [htext, if_pos hstarts, List.drop_left, modifiersFrom_chain hmodifiers hargument.head_not_part]
      dsimp only
      rw [quotedArgument?_eq_some_iff.2 ⟨argument, rfl, hargument⟩]
      rfl

theorem callOf?_eq_none_iff : callOf? t keyword = none ↔
    ∀ call spelled, Spells keyword call spelled → ¬ spelled <+: t := by
  constructor
  · rintro hnone call spelled hspelled ⟨after, rfl⟩
    cases hnone.symm.trans (callOf?_eq_some_iff.2 ⟨spelled, rfl, hspelled⟩)
  · intro hnot
    refine Option.eq_none_iff_forall_not_mem.2 ?_
    rintro ⟨call, after⟩ hcall
    rcases callOf?_eq_some_iff.1 hcall with ⟨spelled, rfl, hspelled⟩
    exact hnot call spelled hspelled (List.prefix_append spelled after)

/-- The first keyword that makes a call decides. -/
theorem callAt?_eq_some_iff : callAt? keywords t = some (call, after) ↔
    ∃ spelled, t = spelled ++ after ∧ BeginsWith keywords t call spelled := by
  unfold callAt? BeginsWith
  rw [List.findSome?_eq_some_iff]
  simp only [callOf?_eq_some_iff, callOf?_eq_none_iff]
  constructor
  · rintro ⟨earlier, keyword, later, hcallees, ⟨spelled, rfl, hspelled⟩, hearlier⟩
    exact ⟨spelled, rfl, List.prefix_append _ _, earlier, keyword, later, hcallees, hspelled, hearlier⟩
  · rintro ⟨spelled, rfl, -, earlier, keyword, later, hcallees, hspelled, hearlier⟩
    exact ⟨earlier, keyword, later, hcallees, ⟨spelled, rfl, hspelled⟩, hearlier⟩

theorem callAt?_eq_none_iff : callAt? keywords t = none ↔
    ∀ call spelled, ¬ BeginsWith keywords t call spelled := by
  constructor
  · rintro hnone call spelled hbegins
    rcases hbegins.1 with ⟨after, rfl⟩
    cases hnone.symm.trans (callAt?_eq_some_iff.2 ⟨spelled, rfl, hbegins⟩)
  · intro hnot
    refine Option.eq_none_iff_forall_not_mem.2 ?_
    rintro ⟨call, after⟩ hcall
    rcases callAt?_eq_some_iff.1 hcall with ⟨spelled, -, hbegins⟩
    exact hnot call spelled hbegins

/-! ## Reading a line -/

theorem Spells.ne_nil (h : Spells keyword call spelled) : spelled ≠ [] := by
  cases h with
  | mk _ hargument => cases hargument; simp

/-- What belongs to the last call is passed over. -/
theorem occurrencesFrom_append (done skipped rest : Text) :
    occurrencesFrom keywords done.getLast? skipped.length (skipped ++ rest) =
      occurrencesFrom keywords (done ++ skipped).getLast? 0 rest := by
  induction skipped generalizing done with
  | nil => rw [List.append_nil]; rfl
  | cons c skipped ih =>
    have hlast : (done ++ [c]).getLast? = some c := by simp
    rw [List.cons_append, List.length_cons, occurrencesFrom, ← hlast, ih, List.append_assoc]
    rfl

/-- A call that begins here is found, and the search goes on behind it. -/
theorem occurrencesFrom_of_beginsWith (hmay : mayBeginAfter done.getLast? = true)
    (h : BeginsWith keywords (spelled ++ after) call spelled) :
    occurrencesFrom keywords done.getLast? 0 (spelled ++ after) =
      call :: occurrencesFrom keywords (done ++ spelled).getLast? 0 after := by
  have hcall := callAt?_eq_some_iff.2 ⟨spelled, rfl, h⟩
  rcases h.2 with ⟨_, _, _, -, hspelled, -⟩
  cases spelled with
  | nil => exact absurd rfl hspelled.ne_nil
  | cons c spelled =>
    have hlast : (done ++ [c]).getLast? = some c := by simp
    rw [List.cons_append] at hcall ⊢
    rw [occurrencesFrom, if_pos hmay, hcall]
    dsimp only
    rw [List.length_append, Nat.add_sub_cancel, ← hlast, occurrencesFrom_append, List.append_assoc]
    rfl

/-- Where no call begins the search goes on with the next code point. -/
theorem occurrencesFrom_of_not_beginsWith (h : mayBeginAfter done.getLast? = true →
    ∀ call spelled, ¬ BeginsWith keywords (c :: rest) call spelled) :
    occurrencesFrom keywords done.getLast? 0 (c :: rest) =
      occurrencesFrom keywords (done ++ [c]).getLast? 0 rest := by
  have hlast : (done ++ [c]).getLast? = some c := by simp
  rw [occurrencesFrom, hlast]
  split
  · rename_i hmay
    rw [callAt?_eq_none_iff.2 (h hmay)]
  · rfl

/-- The search finds the calls of a reading. -/
theorem Reads.eq_occurrencesFrom (h : Reads keywords done t calls) :
    calls = occurrencesFrom keywords done.getLast? 0 t := by
  induction h with
  | nil => rw [occurrencesFrom]
  | call hmay hcall _ ih => rw [occurrencesFrom_of_beginsWith hmay hcall, ← ih]
  | pass hnone _ ih => rw [occurrencesFrom_of_not_beginsWith hnone, ← ih]

/-- Every text can be read. -/
theorem reads_occurrencesFrom (keywords : List Text) (done t : Text) :
    Reads keywords done t (occurrencesFrom keywords done.getLast? 0 t) := by
  -- Behind a call the text is shorter.
  induction hlength : t.length using Nat.strongRecOn generalizing done t with
  | ind n ih =>
    by_cases hbegins : mayBeginAfter done.getLast? = true ∧
        ∃ call spelled, BeginsWith keywords t call spelled
    · rcases hbegins with ⟨hmay, call, spelled, hcall⟩
      rcases hcall.1 with ⟨after, rfl⟩
      rcases hcall.2 with ⟨_, _, _, -, hspelled, -⟩
      have hpositive := List.length_pos_iff.2 hspelled.ne_nil
      rw [List.length_append] at hlength
      rw [occurrencesFrom_of_beginsWith hmay hcall]
      exact .call hmay hcall (ih _ (by omega) _ _ rfl)
    · cases t with
      | nil =>
        rw [occurrencesFrom]
        exact .nil
      | cons c rest =>
        have hnone : mayBeginAfter done.getLast? = true →
            ∀ call spelled, ¬ BeginsWith keywords (c :: rest) call spelled :=
          fun hmay call spelled hcall => hbegins ⟨hmay, call, spelled, hcall⟩
        rw [List.length_cons] at hlength
        rw [occurrencesFrom_of_not_beginsWith hnone]
        exact .pass hnone (ih _ (by omega) _ _ rfl)

/-- The calls in a line are those that reading it gives. -/
theorem reads_iff {line : Text} : Reads keywords [] line calls ↔ calls = occurrences keywords line := by
  constructor
  · exact Reads.eq_occurrencesFrom
  · rintro rfl
    exact reads_occurrencesFrom keywords [] line

end TestCall

end AffectedTests
