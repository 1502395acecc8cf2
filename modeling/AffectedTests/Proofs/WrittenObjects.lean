import AffectedTests.Json.Reader
import AffectedTests.Proofs.Fallible
import Mathlib.Data.List.Induction
/-!
# Objects as they are written

An object may be written with one key several times. Reading it keeps one entry per key; here it is taken
apart as it stands in a text, member after member, and compared with what is read.

- `Json.covers_readers`: a reader that has more fuel and more room gives the same.
- `Json.WritesObject`: the members of an object as they are written.
- `Json.exists_writesObject`, `Json.eq_object_of_writesObject`: an object is read exactly from a text that
  writes one.
- `Json.get?_ofMembers`: of the members with one key the last one counts.
-/

namespace AffectedTests

namespace Json

/-! ## The readers, step by step -/

/-- Reads something that takes room, if there is any. -/
def within {α : Type} (room : Nat) (inner : Nat → Except ReadError α) : Except ReadError α :=
  match room with
  | 0 => .error (.exceeds .nesting)
  | room + 1 => inner room

/-- What follows an opening bracket. -/
def arrayBody (fuel room : Nat) (t : Text) : Read Json :=
  if (skipGap t).head? = some (']' : CodePoint) then .ok (.array [], (skipGap t).drop 1)
  else (items fuel room (skipGap t)).map fun (xs, rest) => (.array xs, rest)

/-- What follows an opening brace. -/
def objectBody (fuel room : Nat) (t : Text) : Read Json :=
  if (skipGap t).head? = some ('}' : CodePoint) then .ok (.object [], (skipGap t).drop 1)
  else (entries fuel room [] (skipGap t)).map fun (xs, rest) => (.object xs, rest)

theorem value_cons (fuel room : Nat) (c : CodePoint) (rest : Text) :
    value (fuel + 1) room (c :: rest) =
      if c = '"' then (string (c :: rest)).map fun (s, rest) => (.text s, rest)
      else if c = '[' then within room fun room => arrayBody fuel room rest
      else if c = '{' then within room fun room => objectBody fuel room rest
      else atom (c :: rest) := by
  cases room <;> simp only [value] <;> rfl

/-- What follows a value inside an array. -/
def moreItems (fuel room : Nat) (first : Json) : Text → Except ReadError (List Json × Text)
  | [] => refuse .commaExpected []
  | c :: rest =>
    if c = ']' then .ok ([first], rest)
    else if c = ',' then (items fuel room (skipGap rest)).map fun (xs, rest) => (first :: xs, rest)
    else refuse .commaExpected (c :: rest)

theorem items_succ (fuel room : Nat) (t : Text) :
    items (fuel + 1) room t = (do
      let (first, rest) ← value fuel room t
      moreItems fuel room first (skipGap rest)) := by
  rw [items]
  rfl

/-- One member of an object: a key, a colon and a value. -/
def member (fuel room : Nat) (t : Text) : Except ReadError ((Text × Json) × Text) :=
  if t.head? ≠ some ('"' : CodePoint) then refuse .keyExpected t
  else do
    let (key, rest) ← string t
    match skipGap rest with
    | [] => refuse .colonExpected []
    | colon :: rest =>
      if colon ≠ ':' then refuse .colonExpected (colon :: rest)
      else (value fuel room (skipGap rest)).map fun (v, rest) => ((key, v), rest)

/-- What follows a member of an object. -/
def moreEntries (fuel room : Nat) (sofar : List (Text × Json)) :
    Text → Except ReadError (List (Text × Json) × Text)
  | [] => refuse .commaExpected []
  | c :: rest =>
    if c = '}' then .ok (sofar, rest)
    else if c = ',' then entries fuel room sofar (skipGap rest)
    else refuse .commaExpected (c :: rest)

theorem entries_succ (fuel room : Nat) (sofar : List (Text × Json)) (t : Text) :
    entries (fuel + 1) room sofar t = (do
      let ((key, v), rest) ← member fuel room t
      moreEntries fuel room (Table.put key v sofar) (skipGap rest)) := by
  rw [entries, member]
  split
  · rfl
  · rcases string t with e | ⟨key, after⟩
    · rfl
    · rcases hafter : skipGap after with - | ⟨colon, body⟩
      · simp only [bind, Except.bind, hafter]
        rfl
      · simp only [bind, Except.bind, hafter]
        split
        · rfl
        · rcases value fuel room (skipGap body) with e | ⟨v, rest⟩ <;> rfl

/-! ## Fuel and room -/

/-- What the first reader reads, the second one reads too. -/
def Covers {α : Type} (first second : Text → Except ReadError (α × Text)) : Prop :=
  ∀ t read, first t = .ok read → second t = .ok read

section Covering

variable {fuel fuel' room room' : Nat}

theorem within_eq_ok {α : Type} {inner : Nat → Except ReadError α} {a : α} :
    within room inner = .ok a ↔ ∃ less, room = less + 1 ∧ inner less = .ok a := by
  cases room <;> simp [within]

theorem covers_value
    (hitems : ∀ room room', room ≤ room' → Covers (items fuel room) (items fuel' room'))
    (hentries : ∀ room room', room ≤ room' → ∀ sofar,
      Covers (entries fuel room sofar) (entries fuel' room' sofar))
    (hroom : room ≤ room') : Covers (value (fuel + 1) room) (value (fuel' + 1) room') := by
  intro t read h
  rcases t with - | ⟨c, t⟩
  · cases h
  rw [value_cons] at h ⊢
  by_cases hquote : c = '"'
  · rwa [if_pos hquote] at h ⊢
  rw [if_neg hquote] at h ⊢
  by_cases hbracket : c = '['
  · rw [if_pos hbracket] at h ⊢
    rcases within_eq_ok.1 h with ⟨less, rfl, h⟩
    refine within_eq_ok.2 ⟨room' - 1, by omega, ?_⟩
    unfold arrayBody at h ⊢
    split at h
    · rwa [if_pos ‹_›]
    · rw [if_neg ‹_›]
      rcases Fallible.map_eq_ok.1 h with ⟨found, hfound, hread⟩
      exact Fallible.map_eq_ok.2 ⟨found, hitems less (room' - 1) (by omega) _ _ hfound, hread⟩
  rw [if_neg hbracket] at h ⊢
  by_cases hbrace : c = '{'
  · rw [if_pos hbrace] at h ⊢
    rcases within_eq_ok.1 h with ⟨less, rfl, h⟩
    refine within_eq_ok.2 ⟨room' - 1, by omega, ?_⟩
    unfold objectBody at h ⊢
    split at h
    · rwa [if_pos ‹_›]
    · rw [if_neg ‹_›]
      rcases Fallible.map_eq_ok.1 h with ⟨found, hfound, hread⟩
      exact Fallible.map_eq_ok.2 ⟨found, hentries less (room' - 1) (by omega) [] _ _ hfound, hread⟩
  · rwa [if_neg hbrace] at h ⊢

theorem covers_moreItems (hitems : Covers (items fuel room) (items fuel' room')) (first : Json) :
    Covers (moreItems fuel room first) (moreItems fuel' room' first) := by
  rintro (- | ⟨c, t⟩) read h
  · cases h
  rw [moreItems] at h ⊢
  by_cases hclose : c = ']'
  · rwa [if_pos hclose] at h ⊢
  rw [if_neg hclose] at h ⊢
  split at h
  · rw [if_pos ‹_›]
    rcases Fallible.map_eq_ok.1 h with ⟨found, hfound, hread⟩
    exact Fallible.map_eq_ok.2 ⟨found, hitems _ _ hfound, hread⟩
  · cases h

theorem covers_items (hvalue : Covers (value fuel room) (value fuel' room'))
    (hitems : Covers (items fuel room) (items fuel' room')) :
    Covers (items (fuel + 1) room) (items (fuel' + 1) room') := by
  intro t read h
  rw [items_succ] at h ⊢
  rcases Fallible.bind_eq_ok.1 h with ⟨⟨first, rest⟩, hfirst, hmore⟩
  exact Fallible.bind_eq_ok.2 ⟨_, hvalue t _ hfirst, covers_moreItems hitems first _ _ hmore⟩

theorem covers_member (hvalue : Covers (value fuel room) (value fuel' room')) :
    Covers (member fuel room) (member fuel' room') := by
  intro t read h
  unfold member at h ⊢
  split at h
  · cases h
  rw [if_neg ‹_›]
  rcases Fallible.bind_eq_ok.1 h with ⟨⟨key, rest⟩, hkey, h⟩
  refine Fallible.bind_eq_ok.2 ⟨(key, rest), hkey, ?_⟩
  dsimp only at h ⊢
  split at h
  · cases h
  · split at h
    · cases h
    · rcases Fallible.map_eq_ok.1 h with ⟨found, hfound, hread⟩
      rw [if_neg ‹_›]
      exact Fallible.map_eq_ok.2 ⟨found, hvalue _ _ hfound, hread⟩

theorem covers_moreEntries {sofar : List (Text × Json)}
    (hentries : Covers (entries fuel room sofar) (entries fuel' room' sofar)) :
    Covers (moreEntries fuel room sofar) (moreEntries fuel' room' sofar) := by
  rintro (- | ⟨c, t⟩) read h
  · cases h
  rw [moreEntries] at h ⊢
  by_cases hclose : c = '}'
  · rwa [if_pos hclose] at h ⊢
  rw [if_neg hclose] at h ⊢
  split at h
  · rw [if_pos ‹_›]
    exact hentries _ _ h
  · cases h

theorem covers_entries (hvalue : Covers (value fuel room) (value fuel' room'))
    (hentries : ∀ sofar, Covers (entries fuel room sofar) (entries fuel' room' sofar))
    (sofar : List (Text × Json)) :
    Covers (entries (fuel + 1) room sofar) (entries (fuel' + 1) room' sofar) := by
  intro t read h
  rw [entries_succ] at h ⊢
  rcases Fallible.bind_eq_ok.1 h with ⟨⟨⟨key, v⟩, rest⟩, hfirst, hmore⟩
  exact Fallible.bind_eq_ok.2
    ⟨_, covers_member hvalue t _ hfirst, covers_moreEntries (hentries _) _ _ hmore⟩

end Covering

/-- More fuel and more room change nothing for a reader that succeeds. -/
theorem covers_readers (fuel : Nat) : ∀ fuel' room room', fuel ≤ fuel' → room ≤ room' →
    Covers (value fuel room) (value fuel' room') ∧ Covers (items fuel room) (items fuel' room') ∧
      ∀ sofar, Covers (entries fuel room sofar) (entries fuel' room' sofar) := by
  induction fuel with
  | zero =>
    intro fuel' room room' _ _
    refine ⟨fun t read h => ?_, fun t read h => ?_, fun sofar t read h => ?_⟩ <;> cases h
  | succ fuel ih =>
    rintro (_ | fuel') room room' hfuel hroom
    · omega
    · have hfuel : fuel ≤ fuel' := by omega
      have hless := ih fuel' room room' hfuel hroom
      refine ⟨covers_value (fun r r' hr => (ih fuel' r r' hfuel hr).2.1)
        (fun r r' hr => (ih fuel' r r' hfuel hr).2.2) hroom, covers_items hless.1 hless.2.1, ?_⟩
      exact covers_entries hless.1 hless.2.2

/-! ## What stands in a text -/

/-- A value stands at the front of a text, before the rest. -/
def Reads (t : Text) (v : Json) (rest : Text) : Prop :=
  ∃ fuel room, value fuel room t = .ok (v, rest)

/-- A member stands at the front of a text: a key, a colon and a value. The rest begins at the first sign
behind them that is no blank. -/
def ReadsMember (t : Text) (m : Text × Json) (rest : Text) : Prop :=
  ∃ after body last : Text, t.head? = some ('"' : CodePoint) ∧ string t = .ok (m.1, after) ∧
    skipGap after = (':' : CodePoint) :: body ∧ Reads (skipGap body) m.2 last ∧ skipGap last = rest

/-- Members with commas between them stand at the front of a text, up to a closing brace. -/
inductive ReadsMembers : Text → List (Text × Json) → Text → Prop
  | last {t rest : Text} {m : Text × Json} : ReadsMember t m ('}' :: rest) → ReadsMembers t [m] rest
  | more {t next rest : Text} {m : Text × Json} {ms : List (Text × Json)} :
      ReadsMember t m (',' :: next) → ReadsMembers (skipGap next) ms rest → ReadsMembers t (m :: ms) rest

/-- A text is an object and nothing else, with these members as they are written. -/
def WritesObject (t : Text) (members : List (Text × Json)) : Prop :=
  ∃ body rest : Text, skipGap t = ('{' : CodePoint) :: body ∧ skipGap rest = [] ∧
    ((members = [] ∧ skipGap body = ('}' : CodePoint) :: rest) ∨ ReadsMembers (skipGap body) members rest)

/-- The entries of an object with these members. -/
def ofMembers (members : List (Text × Json)) : List (Text × Json) :=
  members.foldl (fun sofar m => Table.put m.1 m.2 sofar) []

/-- The value that the members give for a key: the last one. -/
def given (members : List (Text × Json)) (key : Text) : Option Json :=
  Table.get? key members.reverse

section Standing

variable {t rest rest' : Text} {v v' : Json} {m m' : Text × Json} {ms ms' : List (Text × Json)}
  {fuel room : Nat}

theorem Reads.unique (h : Reads t v rest) (h' : Reads t v' rest') : v = v' ∧ rest = rest' := by
  rcases h with ⟨fuel, room, h⟩
  rcases h' with ⟨fuel', room', h'⟩
  have hmost := (covers_readers fuel (max fuel fuel') room (max room room') (by omega) (by omega)).1 t _ h
  have hmost' :=
    (covers_readers fuel' (max fuel fuel') room' (max room room') (by omega) (by omega)).1 t _ h'
  rw [hmost] at hmost'
  cases hmost'
  exact ⟨rfl, rfl⟩

theorem ReadsMember.unique (h : ReadsMember t m rest) (h' : ReadsMember t m' rest') :
    m = m' ∧ rest = rest' := by
  rcases h with ⟨after, body, last, -, hkey, hcolon, hvalue, rfl⟩
  rcases h' with ⟨after', body', last', -, hkey', hcolon', hvalue', rfl⟩
  rcases Prod.mk.inj (Except.ok.inj (hkey.symm.trans hkey')) with ⟨hkeys, rfl⟩
  rcases List.cons.inj (hcolon.symm.trans hcolon') with ⟨-, rfl⟩
  rcases hvalue.unique hvalue' with ⟨hvalues, rfl⟩
  exact ⟨Prod.ext hkeys hvalues, rfl⟩

theorem ReadsMembers.unique (h : ReadsMembers t ms rest) (h' : ReadsMembers t ms' rest') :
    ms = ms' ∧ rest = rest' := by
  induction h generalizing ms' with
  | last hm =>
    cases h' with
    | last hm' =>
      rcases hm.unique hm' with ⟨rfl, hrest⟩
      exact ⟨rfl, (List.cons.inj hrest).2⟩
    | more hm' _ => exact absurd (List.cons.inj (hm.unique hm').2).1 (by decide)
  | more hm _ ih =>
    cases h' with
    | last hm' => exact absurd (List.cons.inj (hm.unique hm').2).1 (by decide)
    | more hm' hms' =>
      rcases hm.unique hm' with ⟨rfl, hrest⟩
      rw [(List.cons.inj hrest).2] at ih
      rcases ih hms' with ⟨rfl, rfl⟩
      exact ⟨rfl, rfl⟩

theorem ReadsMembers.head?_eq (h : ReadsMembers t ms rest) : t.head? = some ('"' : CodePoint) := by
  cases h with
  | last hm => exact hm.choose_spec.choose_spec.choose_spec.1
  | more hm _ => exact hm.choose_spec.choose_spec.choose_spec.1

/-- The members of an object stand in its text, so no others do. -/
theorem WritesObject.unique (h : WritesObject t ms) (h' : WritesObject t ms') : ms = ms' := by
  rcases h with ⟨body, rest, hopen, -, h⟩
  rcases h' with ⟨body', rest', hopen', -, h'⟩
  rcases List.cons.inj (hopen.symm.trans hopen') with ⟨-, rfl⟩
  -- Where the object is closed at once, no member begins.
  have hnone {ms : List (Text × Json)} {rest rest' : Text}
      (hclose : skipGap body = ('}' : CodePoint) :: rest) : ¬ ReadsMembers (skipGap body) ms rest' := by
    intro hms
    rw [hclose] at hms
    exact absurd (Option.some.inj hms.head?_eq) (by decide)
  rcases h with ⟨rfl, hclose⟩ | hms
  · rcases h' with ⟨rfl, -⟩ | hms'
    · rfl
    · exact absurd hms' (hnone hclose)
  · rcases h' with ⟨-, hclose⟩ | hms'
    · exact absurd hms (hnone hclose)
    · exact (hms.unique hms').1

/-! ## What is read -/

theorem readsMember_of_member {last : Text} (h : member fuel room t = .ok (m, last)) :
    ReadsMember t m (skipGap last) := by
  unfold member at h
  split at h
  · cases h
  rename_i hquote
  rcases Fallible.bind_eq_ok.1 h with ⟨⟨key, after⟩, hkey, h⟩
  dsimp only at h
  split at h
  · cases h
  · rename_i colon body hafter
    split at h
    · cases h
    · rename_i hcolon
      rcases Fallible.map_eq_ok.1 h with ⟨⟨v, rest⟩, hvalue, hread⟩
      cases hread
      refine ⟨after, body, rest, Classical.not_not.1 hquote, hkey, ?_, ⟨fuel, room, hvalue⟩, rfl⟩
      rw [hafter, Classical.not_not.1 hcolon]

/-- The entries that are read come from members in the text: each is put to those before it. -/
theorem exists_readsMembers {sofar es : List (Text × Json)}
    (h : entries fuel room sofar t = .ok (es, rest)) :
    ∃ ms, ReadsMembers t ms rest ∧ es = ms.foldl (fun sofar m => Table.put m.1 m.2 sofar) sofar := by
  induction fuel generalizing sofar t with
  | zero => cases h
  | succ fuel ih =>
    rw [entries_succ] at h
    rcases Fallible.bind_eq_ok.1 h with ⟨⟨m, last⟩, hmember, hmore⟩
    have hm := readsMember_of_member hmember
    dsimp only at hmore
    rcases hrest : skipGap last with - | ⟨c, next⟩
    · rw [hrest] at hmore
      cases hmore
    · rw [hrest, moreEntries] at hmore
      rw [hrest] at hm
      by_cases hclose : c = '}'
      · rw [if_pos hclose] at hmore
        cases hmore
        exact ⟨[m], .last (hclose ▸ hm), rfl⟩
      rw [if_neg hclose] at hmore
      split at hmore
      · rename_i hcomma
        rcases ih hmore with ⟨ms, hms, hes⟩
        exact ⟨m :: ms, .more (hcomma ▸ hm) hms, hes⟩
      · cases hmore

theorem number?_ne_object {es : List (Text × Json)} : number? t ≠ some (.object es, rest) := by
  have hunsigned (negative : Bool) (t : Text) : unsigned? negative t ≠ some (.object es, rest) := by
    intro h
    unfold unsigned? at h
    extract_lets digits whole at h
    split at h
    · cases h
    · split at h
      split at h <;> cases h
  unfold number?
  split
  · exact hunsigned true _
  · exact hunsigned false t

/-- A word or a number is no object. -/
theorem atom_ne_object {es : List (Text × Json)} : atom t ≠ .ok (.object es, rest) := by
  intro h
  have hread : (word? t <|> number? t) = some (.object es, rest) := by
    unfold atom at h
    split at h
    · split at h <;> cases h
    · rename_i hread
      rwa [← Except.ok.inj h]
    · cases h
  rcases hword : word? t with - | read
  · rw [hword] at hread
    exact number?_ne_object hread
  · rw [hword] at hread
    cases hread
    rcases List.exists_of_findSome?_eq_some hword with ⟨⟨word, known⟩, hentry, h⟩
    dsimp only at h
    split at h
    · cases h
      simp [words] at hentry
    · cases h

/-- An object begins with a brace, and its entries come from members in the text. -/
theorem exists_of_value_eq_object {es : List (Text × Json)}
    (h : value fuel room t = .ok (.object es, rest)) :
    ∃ body ms, t = ('{' : CodePoint) :: body ∧ es = ofMembers ms ∧
      ((ms = [] ∧ skipGap body = ('}' : CodePoint) :: rest) ∨ ReadsMembers (skipGap body) ms rest) := by
  rcases fuel with - | fuel
  · cases h
  rcases t with - | ⟨c, body⟩
  · cases h
  rw [value_cons] at h
  by_cases hquote : c = '"'
  · rw [if_pos hquote] at h
    rcases Fallible.map_eq_ok.1 h with ⟨_, -, hread⟩
    cases hread
  rw [if_neg hquote] at h
  by_cases hbracket : c = '['
  · rw [if_pos hbracket] at h
    rcases within_eq_ok.1 h with ⟨less, rfl, h⟩
    unfold arrayBody at h
    split at h
    · cases h
    · rcases Fallible.map_eq_ok.1 h with ⟨_, -, hread⟩
      cases hread
  rw [if_neg hbracket] at h
  by_cases hbrace : c = '{'
  · rw [if_pos hbrace] at h
    subst hbrace
    rcases within_eq_ok.1 h with ⟨less, rfl, h⟩
    unfold objectBody at h
    split at h
    · rename_i hclose
      rcases List.head?_eq_some_iff.1 hclose with ⟨last, hlast⟩
      rw [hlast] at h
      cases h
      exact ⟨body, [], rfl, rfl, .inl ⟨rfl, hlast⟩⟩
    · rcases Fallible.map_eq_ok.1 h with ⟨⟨es', rest'⟩, hentries, hread⟩
      cases hread
      rcases exists_readsMembers hentries with ⟨ms, hms, hes⟩
      exact ⟨body, ms, rfl, hes, .inr hms⟩
  · rw [if_neg hbrace] at h
    exact absurd h atom_ne_object

/-- What begins with a brace is an object. -/
theorem exists_object_of_value {body : Text}
    (h : value fuel room (('{' : CodePoint) :: body) = .ok (v, rest)) : ∃ es, v = .object es := by
  rcases fuel with - | fuel
  · cases h
  rw [value_cons, if_neg (by decide), if_neg (by decide), if_pos rfl] at h
  rcases within_eq_ok.1 h with ⟨less, -, h⟩
  unfold objectBody at h
  split at h
  · cases h
    exact ⟨_, rfl⟩
  · rcases Fallible.map_eq_ok.1 h with ⟨_, -, hread⟩
    cases hread
    exact ⟨_, rfl⟩

/-- A text that is read was read from its first sign to its last one. -/
theorem exists_of_read (h : read t = .ok v) :
    ∃ fuel room rest, value fuel room (skipGap t) = .ok (v, rest) ∧ skipGap rest = [] := by
  unfold read at h
  split at h
  · cases h
  rcases Fallible.bind_eq_ok.1 h with ⟨⟨v', rest⟩, hvalue, h⟩
  dsimp only at h
  split at h
  · rename_i hrest
    cases h
    exact ⟨_, _, rest, hvalue, hrest⟩
  · cases h

/-- A text that is read as an object writes one, and its entries come from the members. -/
theorem exists_writesObject {es : List (Text × Json)} (h : read t = .ok (.object es)) :
    ∃ ms, WritesObject t ms ∧ es = ofMembers ms := by
  rcases exists_of_read h with ⟨fuel, room, rest, hvalue, hrest⟩
  rcases exists_of_value_eq_object hvalue with ⟨body, ms, hopen, hes, hms⟩
  exact ⟨ms, ⟨body, rest, hopen, hrest, hms⟩, hes⟩

/-- A text that writes an object is read as one, if it is read at all. -/
theorem eq_object_of_writesObject (h : WritesObject t ms) (hread : read t = .ok v) :
    v = .object (ofMembers ms) := by
  rcases exists_of_read hread with ⟨fuel, room, rest, hvalue, -⟩
  rcases h.choose_spec.choose_spec with ⟨hopen, -⟩
  rw [hopen] at hvalue
  rcases exists_object_of_value hvalue with ⟨es, rfl⟩
  rcases exists_writesObject hread with ⟨ms', hms', rfl⟩
  rw [h.unique hms']

/-! ## One value for each key -/

/-- Of the members with one key the last one gives the entry. -/
theorem get?_ofMembers (ms : List (Text × Json)) (key : Text) :
    Table.get? key (ofMembers ms) = given ms key := by
  induction ms using List.reverseRecOn with
  | nil => rfl
  | append_singleton ms m ih =>
    rw [ofMembers, List.foldl_append, List.foldl_cons, List.foldl_nil, Table.get?_put]
    rw [given, List.reverse_append, List.reverse_singleton, List.singleton_append, Table.get?]
    exact congrArg _ ih

theorem mem_keys_put {key key' : Text} {v : Json} {table : List (Text × Json)} :
    key' ∈ (Table.put key v table).map (·.1) ↔ key' = key ∨ key' ∈ table.map (·.1) := by
  induction table with
  | nil => simp [Table.put]
  | cons entry table ih =>
    rw [Table.put]
    split
    · rename_i hkey
      simp [hkey]
    · rw [List.map_cons, List.mem_cons, ih, List.map_cons, List.mem_cons]
      exact or_left_comm

theorem nodup_keys_put {key : Text} {v : Json} {table : List (Text × Json)}
    (h : (table.map (·.1)).Nodup) : ((Table.put key v table).map (·.1)).Nodup := by
  induction table with
  | nil => simp [Table.put]
  | cons entry table ih =>
    rcases List.nodup_cons.1 h with ⟨hnew, hrest⟩
    rw [Table.put]
    split
    · exact h
    · rename_i hkey
      refine List.nodup_cons.2 ⟨fun hmem => ?_, ih hrest⟩
      exact (mem_keys_put.1 hmem).elim hkey hnew

/-- Where each key has one entry, the entry gives the value. -/
theorem get?_eq_some_iff {table : List (Text × Json)} (h : (table.map (·.1)).Nodup) {key : Text} :
    Table.get? key table = some v ↔ (key, v) ∈ table := by
  induction table with
  | nil => simp [Table.get?]
  | cons entry table ih =>
    rcases entry with ⟨k, a⟩
    rcases List.nodup_cons.1 h with ⟨hnew, h⟩
    rw [Table.get?, List.mem_cons, Prod.mk.injEq]
    by_cases hkey : k = key
    · have hout : (key, v) ∉ table := fun hmem => hnew (List.mem_map.2 ⟨_, hmem, hkey.symm⟩)
      simp [hkey, hout, eq_comm]
    · simp [hkey, ih h, Ne.symm hkey]

/-- An object has one entry for each key. -/
theorem nodup_keys_ofMembers (ms : List (Text × Json)) : ((ofMembers ms).map (·.1)).Nodup := by
  induction ms using List.reverseRecOn with
  | nil => exact List.nodup_nil
  | append_singleton ms m ih =>
    rw [ofMembers, List.foldl_append, List.foldl_cons, List.foldl_nil]
    exact nodup_keys_put ih

end Standing

end Json

end AffectedTests
