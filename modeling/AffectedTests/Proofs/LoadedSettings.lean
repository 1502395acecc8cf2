import AffectedTests.Proofs.WrittenObjects
import AffectedTests.Settings.Load
/-!
# Loaded settings

Which settings files are accepted and what is taken from them. All keys are checked before any value, and
the values one after the other; none of this order shows in what is accepted, since every field is taken
from its own key.

- `Settings.Admits`: what a settings file may give for a key.
- `Settings.exists_setEntry`, `Settings.admits_of_setEntry`: what one entry changes, and when it is taken.
- `Settings.load_valid_iff`: the files that are accepted, and what is taken from them.
-/

namespace AffectedTests

namespace Settings

/-! ## Keys -/

namespace ListField

theorem ofKey?_key (field : ListField) : ofKey? field.key = some field := by
  cases field <;> rfl

theorem key_of_ofKey? {key : Text} {field : ListField} (h : ofKey? key = some field) :
    field.key = key := by
  simpa using List.find?_some h

theorem key_inj {field field' : ListField} (h : field.key = field'.key) : field = field' := by
  have hsome := ofKey?_key field
  rw [h, ofKey?_key] at hsome
  exact (Option.some.inj hsome).symm

theorem key_ne_depthKey (field : ListField) : field.key ≠ depthKey := by
  cases field <;> decide

theorem ofKey?_depthKey : ofKey? depthKey = none := rfl

end ListField

theorem isKey_iff {key : Text} :
    isKey key = true ↔ key = depthKey ∨ ∃ field : ListField, key = field.key := by
  unfold isKey
  rw [Bool.or_eq_true, decide_eq_true_iff, Option.isSome_iff_exists]
  refine or_congr_right ⟨?_, ?_⟩
  · rintro ⟨field, hfield⟩
    exact ⟨field, (ListField.key_of_ofKey? hfield).symm⟩
  · rintro ⟨field, rfl⟩
    exact ⟨field, field.ofKey?_key⟩

/-! ## Values -/

/-- What a settings file may give for a key: a natural number for the greatest depth, a list of texts for
every other field. -/
def Admits (key : Text) (v : Json) : Prop :=
  (key = depthKey ∧ ∃ n : Nat, v = .integer n) ∨
    ∃ (field : ListField) (texts : List Text), key = field.key ∧ v = .array (texts.map .text)

/-- The value of a field, as a settings file gives it. -/
def field? (s : Settings) (key : Text) : Option Json :=
  if key = depthKey then some (.integer s.maxDepth)
  else (ListField.ofKey? key).map fun field => .array ((s.list field).map .text)

section Entries

variable {s s' : Settings} {key : Text} {v : Json}

theorem depth?_eq_some {i : Int} : depth? v = some i ↔ 0 ≤ i ∧ v = .integer i := by
  cases v with
  | integer j =>
    rw [depth?]
    constructor
    · intro h
      split at h
      · cases h
        exact ⟨‹_›, rfl⟩
      · cases h
    · rintro ⟨hle, heq⟩
      cases heq
      rw [if_pos hle]
  | _ => simp [depth?]

theorem texts?_eq_some {texts : List Text} : texts? v = some texts ↔ v = .array (texts.map .text) := by
  cases v with
  | array items =>
    rw [texts?, Json.array.injEq]
    induction items generalizing texts with
    | nil => cases texts <;> simp
    | cons item items ih =>
      rw [List.mapM_cons]
      cases item with
      | text t =>
        cases texts with
        | nil => simp [Option.bind_eq_some_iff]
        | cons t' texts => simp [Option.bind_eq_some_iff, ih, and_comm]
      | _ => cases texts <;> simp
  | _ => simp [texts?]

theorem list_setList (field field' : ListField) (texts : List Text) :
    (s.setList field texts).list field' = if field = field' then texts else s.list field' := by
  cases field <;> cases field' <;> rfl

theorem maxDepth_setList (field : ListField) (texts : List Text) :
    (s.setList field texts).maxDepth = s.maxDepth := by
  cases field <;> rfl

theorem field?_depthKey : s.field? depthKey = some (.integer s.maxDepth) :=
  if_pos rfl

theorem field?_key (field : ListField) :
    s.field? field.key = some (.array ((s.list field).map .text)) := by
  rw [field?, if_neg field.key_ne_depthKey, field.ofKey?_key, Option.map_some]

theorem setEntry_depthKey :
    s.setEntry depthKey v =
      (depth? v).elim (.error (.badDepth v)) fun depth => .ok { s with maxDepth := depth } := by
  simp only [setEntry, ListField.ofKey?_depthKey]
  cases depth? v <;> rfl

theorem setEntry_key (field : ListField) :
    s.setEntry field.key v =
      (texts? v).elim (.error (.badList field.key)) fun texts => .ok (s.setList field texts) := by
  simp only [setEntry, field.ofKey?_key]
  cases texts? v <;> rfl

/-- Another greatest depth changes the field with its key. -/
theorem field?_setDepth (depth : Int) (key : Text) :
    ({ s with maxDepth := depth } : Settings).field? key =
      if depthKey = key then some (.integer depth) else s.field? key := by
  unfold field?
  by_cases hkey : depthKey = key
  · rw [if_pos hkey.symm, if_pos hkey]
  · rw [if_neg (Ne.symm hkey), if_neg (Ne.symm hkey), if_neg hkey]
    refine congrArg (Option.map · _) (funext fun field => ?_)
    cases field <;> rfl

/-- Another list changes the field with its key. -/
theorem field?_setList (field : ListField) (texts : List Text) (key : Text) :
    (s.setList field texts).field? key =
      if field.key = key then some (.array (texts.map .text)) else s.field? key := by
  by_cases hdepth : key = depthKey
  · rw [hdepth, field?_depthKey, field?_depthKey, maxDepth_setList, if_neg field.key_ne_depthKey]
  rw [field?, field?, if_neg hdepth, if_neg hdepth]
  cases hfield : ListField.ofKey? key with
  | none =>
    have hne : field.key ≠ key := by
      rintro rfl
      rw [field.ofKey?_key] at hfield
      cases hfield
    rw [if_neg hne]
    rfl
  | some field' =>
    rw [← ListField.key_of_ofKey? hfield, Option.map_some, Option.map_some, list_setList]
    by_cases hkey : field = field'
    · rw [if_pos hkey, if_pos (congrArg _ hkey)]
    · rw [if_neg hkey, if_neg fun h => hkey (ListField.key_inj h)]

/-- A value that a field admits is taken, and nothing else changes. -/
theorem exists_setEntry (s : Settings) (h : Admits key v) : ∃ s', s.setEntry key v = .ok s' ∧
    ∀ key', s'.field? key' = if key = key' then some v else s.field? key' := by
  rcases h with ⟨rfl, n, rfl⟩ | ⟨field, texts, rfl, rfl⟩
  · have hdepth : depth? (.integer n) = some (n : Int) := depth?_eq_some.2 ⟨by omega, rfl⟩
    exact ⟨_, by rw [setEntry_depthKey, hdepth]; rfl, field?_setDepth n⟩
  · have htexts : texts? (.array (texts.map .text)) = some texts := texts?_eq_some.2 rfl
    exact ⟨_, by rw [setEntry_key, htexts]; rfl, field?_setList field texts⟩

/-- A field takes nothing but what it admits. -/
theorem admits_of_setEntry (hkey : isKey key = true) (h : s.setEntry key v = .ok s') : Admits key v := by
  rcases isKey_iff.1 hkey with rfl | ⟨field, rfl⟩
  · rw [setEntry_depthKey] at h
    cases hdepth : depth? v with
    | none =>
      rw [hdepth] at h
      cases h
    | some i =>
      rcases depth?_eq_some.1 hdepth with ⟨hi, rfl⟩
      exact .inl ⟨rfl, i.toNat, by rw [Int.toNat_of_nonneg hi]⟩
  · rw [setEntry_key] at h
    cases htexts : texts? v with
    | none =>
      rw [htexts] at h
      cases h
    | some texts => exact .inr ⟨field, texts, rfl, texts?_eq_some.1 htexts⟩

end Entries

/-! ## Objects -/

/-- An object with these members is valid: for each key the value that counts is one that the key admits. -/
def Valid (members : List (Text × Json)) : Prop :=
  ∀ key v, Json.given members key = some v → Admits key v

/-- Every field has the value that the members give for its key or, where they give none, its default. -/
structure TakenFrom (members : List (Text × Json)) (s : Settings) : Prop where
  maxDepth : .integer s.maxDepth =
    (Json.given members depthKey).getD (.integer ({} : Settings).maxDepth)
  list : ∀ field : ListField, .array ((s.list field).map .text) =
    (Json.given members field.key).getD (.array ((({} : Settings).list field).map .text))

/-- Taking entries one after the other. -/
def setEntries (s : Settings) (entries : List (Text × Json)) : Except LoadError Settings :=
  entries.foldlM (fun s (key, value) => s.setEntry key value) s

theorem setEntries_cons (s : Settings) (key : Text) (v : Json) (entries : List (Text × Json)) :
    s.setEntries ((key, v) :: entries) = s.setEntry key v >>= fun next => next.setEntries entries :=
  List.foldlM_cons

section Objects

variable {s s' : Settings} {entries : List (Text × Json)} {members : List (Text × Json)}

/-- Taking entries with different keys that all are admitted. -/
theorem exists_setEntries (s : Settings) (hnodup : (entries.map (·.1)).Nodup)
    (h : ∀ e ∈ entries, Admits e.1 e.2) :
    ∃ s', s.setEntries entries = .ok s' ∧
      ∀ key, s'.field? key = (Table.get? key entries).or (s.field? key) := by
  induction entries generalizing s with
  | nil => exact ⟨s, rfl, fun key => rfl⟩
  | cons entry entries ih =>
    rcases entry with ⟨key, v⟩
    rcases List.nodup_cons.1 hnodup with ⟨hnew, hnodup⟩
    rcases exists_setEntry s (h (key, v) (by simp)) with ⟨next, hfirst, hfield⟩
    rcases ih next hnodup fun e he => h e (by simp [he]) with ⟨s', hrest, hfields⟩
    refine ⟨s', ?_, fun key' => ?_⟩
    · rw [setEntries_cons]
      exact Fallible.bind_eq_ok.2 ⟨next, hfirst, hrest⟩
    · rw [hfields, hfield, Table.get?]
      by_cases hkey : key = key'
      · -- No later entry has this key.
        have hnone : Table.get? key' entries = none := by
          rw [Option.eq_none_iff_forall_ne_some]
          intro a ha
          have hmem := (Json.get?_eq_some_iff hnodup).1 ha
          exact hnew (List.mem_map.2 ⟨_, hmem, hkey.symm⟩)
        rw [if_pos hkey, if_pos hkey, hnone]
        rfl
      · rw [if_neg hkey, if_neg hkey]

/-- Entries are taken only if all of them are admitted. -/
theorem admits_of_setEntries (hkeys : ∀ e ∈ entries, isKey e.1 = true)
    (h : s.setEntries entries = .ok s') : ∀ e ∈ entries, Admits e.1 e.2 := by
  induction entries generalizing s with
  | nil => simp
  | cons entry entries ih =>
    rcases entry with ⟨key, v⟩
    rw [setEntries_cons] at h
    rcases Fallible.bind_eq_ok.1 h with ⟨next, hfirst, hrest⟩
    rw [List.forall_mem_cons] at hkeys ⊢
    exact ⟨admits_of_setEntry hkeys.1 hfirst, ih hkeys.2 hrest⟩

theorem Admits.isKey {key : Text} {v : Json} (h : Admits key v) : isKey key = true := by
  rcases h with ⟨rfl, -⟩ | ⟨field, -, rfl, -⟩
  · exact isKey_iff.2 (.inl rfl)
  · exact isKey_iff.2 (.inr ⟨field, rfl⟩)

theorem valid_iff : Valid members ↔ ∀ e ∈ Json.ofMembers members, Admits e.1 e.2 := by
  have hnodup := Json.nodup_keys_ofMembers members
  constructor
  · intro h e he
    refine h e.1 e.2 ?_
    rw [← Json.get?_ofMembers]
    exact (Json.get?_eq_some_iff hnodup).2 he
  · intro h key v hgiven
    rw [← Json.get?_ofMembers] at hgiven
    exact h _ ((Json.get?_eq_some_iff hnodup).1 hgiven)

/-- A valid object is accepted, and every field is taken from it. -/
theorem exists_ofJson (path : Text) (h : Valid members) :
    ∃ s, ofJson path (.object (Json.ofMembers members)) = .ok s ∧ TakenFrom members s := by
  have hadmits := valid_iff.1 h
  have hknown : ((Json.ofMembers members).map (·.1)).filter (fun key => !Settings.isKey key) = [] := by
    rw [List.filter_eq_nil_iff]
    intro key hkey
    rcases List.mem_map.1 hkey with ⟨e, he, rfl⟩
    simp [(hadmits e he).isKey]
  rcases exists_setEntries {} (Json.nodup_keys_ofMembers members) hadmits with ⟨s, hs, hfields⟩
  have hgiven {key : Text} {v v' : Json} (hv : s.field? key = some v)
      (hv' : ({} : Settings).field? key = some v') : v = (Json.given members key).getD v' := by
    have hfield := hfields key
    rw [hv, hv', Json.get?_ofMembers] at hfield
    cases hgiven : Json.given members key with
    | none =>
      rw [hgiven] at hfield
      exact Option.some.inj hfield
    | some given =>
      rw [hgiven] at hfield
      exact Option.some.inj hfield
  refine ⟨s, ?_, hgiven field?_depthKey field?_depthKey, fun field =>
    hgiven (field?_key field) (field?_key field)⟩
  rw [ofJson]
  dsimp only
  rw [if_pos hknown]
  exact hs

/-- An object that is accepted is valid. -/
theorem valid_of_ofJson {path : Text} (h : ofJson path (.object (Json.ofMembers members)) = .ok s) :
    Valid members := by
  rw [ofJson] at h
  dsimp only at h
  split at h
  · rename_i hknown
    refine valid_iff.2 (admits_of_setEntries (fun e he => ?_) h)
    simpa using List.filter_eq_nil_iff.1 hknown e.1 (List.mem_map.2 ⟨e, he, rfl⟩)
  · cases h

end Objects

/-! ## Refusals -/

/-- The error is one that the user is told. The others end a run as a failure. -/
def LoadError.IsTold : LoadError → Prop
  | .undecodable => False
  | .exceeds _ => False
  | _ => True

section Refusals

variable {s : Settings} {e : LoadError}

theorem isTold_of_setEntry {key : Text} {v : Json} (h : s.setEntry key v = .error e) : e.IsTold := by
  unfold setEntry at h
  split at h
  · split at h <;> cases h
    trivial
  · split at h <;> cases h
    trivial

theorem isTold_of_setEntries {entries : List (Text × Json)} (h : s.setEntries entries = .error e) :
    e.IsTold := by
  induction entries generalizing s with
  | nil => cases h
  | cons entry entries ih =>
    rcases entry with ⟨key, v⟩
    rw [setEntries_cons] at h
    cases hfirst : s.setEntry key v with
    | error e' =>
      rw [hfirst] at h
      cases h
      exact isTold_of_setEntry hfirst
    | ok next =>
      rw [hfirst] at h
      exact ih h

/-- Whatever is wrong with a value, the user is told. -/
theorem isTold_of_ofJson {path : Text} {v : Json} (h : ofJson path v = .error e) : e.IsTold := by
  unfold ofJson at h
  split at h
  · dsimp only at h
    split at h
    · exact isTold_of_setEntries h
    · cases h
      trivial
  · cases h
    trivial

end Refusals

/-! ## Files -/

/-- The path of the file that settings are loaded from. -/
def pathOf (repository : Text) (named : Option Text) : Text :=
  (named.filter fun path => path ≠ []).getD (Path.join repository fileName)

/-- The file that settings are loaded from is there, and its bytes are a text, with plain line feeds. -/
def Holds (disk : Disk) (directory repository : Text) (named : Option Text) (source : Text) : Prop :=
  ∃ bytes text, disk.read (Path.join directory (pathOf repository named)) = .ok bytes ∧
    Utf8.decode bytes = some text ∧ text.plainLineFeeds = source

section Files

variable {disk : Disk} {directory repository source : Text} {named : Option Text} {v : Json}

/-- What is loaded from a text depends on how it is read. -/
theorem load_of_source (hfile : Holds disk directory repository named source) :
    load disk directory repository named = match Json.read source with
      | .error (.malformed fault) => .error (.unreadable (pathOf repository named) fault source)
      | .error (.exceeds limit) => .error (.exceeds limit)
      | .ok v => ofJson (pathOf repository named) v := by
  rcases hfile with ⟨bytes, text, hbytes, htext, rfl⟩
  rw [pathOf] at hbytes
  simp only [load, hbytes, ofBytes, htext]
  rfl

/-- The settings of a file whose text is JSON are those of the value. -/
theorem load_of_holds (hfile : Holds disk directory repository named source)
    (hread : Json.read source = .ok v) :
    load disk directory repository named = ofJson (pathOf repository named) v := by
  rw [load_of_source hfile, hread]

/-- What is taken from members is one thing only, and depends on nothing but the values that count. -/
theorem TakenFrom.unique {members members' : List (Text × Json)} {s s' : Settings}
    (h : TakenFrom members s) (h' : TakenFrom members' s')
    (hsame : ∀ key, Json.given members key = Json.given members' key) : s = s' := by
  have hdepth : s.maxDepth = s'.maxDepth := by
    have heq := h.maxDepth
    rw [hsame, ← h'.maxDepth] at heq
    exact Json.integer.inj heq
  have hlist (field : ListField) : s.list field = s'.list field := by
    have heq := h.list field
    rw [hsame, ← h'.list field] at heq
    exact (List.map_inj_right fun t t' => Json.text.inj).1 (Json.array.inj heq)
  have hsuffixes := hlist .testFileSuffixes
  have hextensions := hlist .sourceExtensions
  have hglobal := hlist .globalConfigFiles
  have hkeywords := hlist .testKeywords
  have hignored := hlist .ignoredDirectories
  cases s
  cases s'
  simp_all only [Settings.list]

/-- Settings come from an object that is written, and from its entries. -/
theorem load_of_writesObject {members : List (Text × Json)}
    (hfile : Holds disk directory repository named source) (hread : Json.read source = .ok v)
    (h : Json.WritesObject source members) :
    load disk directory repository named =
      ofJson (pathOf repository named) (.object (Json.ofMembers members)) := by
  rw [load_of_holds hfile hread, Json.eq_object_of_writesObject h hread]

/-- What is no object is refused. -/
theorem exists_writesObject_of_load {s : Settings} (hfile : Holds disk directory repository named source)
    (hread : Json.read source = .ok v) (hload : load disk directory repository named = .ok s) :
    ∃ members, Json.WritesObject source members := by
  rw [load_of_holds hfile hread] at hload
  cases v with
  | object entries =>
    rcases Json.exists_writesObject hread with ⟨members, hwrites, -⟩
    exact ⟨members, hwrites⟩
  | _ => cases hload

/-- Which settings files are accepted, and what they give. If the file is there, its bytes are a text and
the text is JSON, then settings are loaded exactly if the text is an object whose members are valid: each
key is a field, and of the values that count the greatest depth is a natural number and every other one a
list of texts. Otherwise the user is told. On success each field that is given has the value that was given
last and every other one its default, so another file whose members give the same, in whatever order, gives
the same settings. A greatest depth given by hand then changes nothing but the greatest depth, and none
nothing at all. -/
theorem load_valid_iff (hfile : Holds disk directory repository named source)
    (hread : Json.read source = .ok v) :
    ((∃ s, load disk directory repository named = .ok s) ↔
      ∃ members, Json.WritesObject source members ∧ Valid members) ∧
    (∀ e, load disk directory repository named = .error e → e.IsTold) ∧
    (∀ s members, load disk directory repository named = .ok s → Json.WritesObject source members →
      TakenFrom members s ∧
      ∀ disk' directory' repository' named' source' v' members',
        Holds disk' directory' repository' named' source' → Json.read source' = .ok v' →
        Json.WritesObject source' members' →
        (∀ key, Json.given members' key = Json.given members key) →
          load disk' directory' repository' named' = .ok s) ∧
    ∀ s : Settings, (∀ depth, s.withOverrides { maxDepth := some depth } = { s with maxDepth := depth }) ∧
      s.withOverrides { maxDepth := none } = s := by
  refine ⟨⟨?_, ?_⟩, ?_, ?_, fun s => ⟨fun depth => rfl, rfl⟩⟩
  · rintro ⟨s, hs⟩
    rcases exists_writesObject_of_load hfile hread hs with ⟨members, hwrites⟩
    rw [load_of_writesObject hfile hread hwrites] at hs
    exact ⟨members, hwrites, valid_of_ofJson hs⟩
  · rintro ⟨members, hwrites, hvalid⟩
    rcases exists_ofJson (pathOf repository named) hvalid with ⟨s, hs, -⟩
    exact ⟨s, by rw [load_of_writesObject hfile hread hwrites, hs]⟩
  · intro e he
    rw [load_of_holds hfile hread] at he
    exact isTold_of_ofJson he
  · intro s members hs hwrites
    rw [load_of_writesObject hfile hread hwrites] at hs
    have hvalid := valid_of_ofJson hs
    rcases exists_ofJson (pathOf repository named) hvalid with ⟨s', hs', htaken⟩
    rw [hs'] at hs
    cases hs
    refine ⟨htaken, ?_⟩
    intro disk' directory' repository' named' source' v' members' hfile' hread' hwrites' hsame
    -- The other object is valid too, and what it gives is taken from the same values.
    have hvalid' : Valid members' := fun key v hgiven => hvalid key v (hsame key ▸ hgiven)
    rcases exists_ofJson (pathOf repository' named') hvalid' with ⟨s'', hs'', htaken'⟩
    rw [load_of_writesObject hfile' hread' hwrites', hs'', htaken'.unique htaken hsame]

end Files

/-! ## An example -/

namespace Repeated

/-- The greatest depth is given twice, with another field in between. -/
def source : Text := "\x7b\"max_depth\":2, \"test_keywords\":[\"spec\"], \"max_depth\":0\x7d"

/-- A disk with the settings file and nothing else. -/
def disk : Disk :=
  [.file ((Utf8.encode fileName).getD []) ((Utf8.encode source).getD [])]

theorem holds_source : Holds disk "/" "/" none source :=
  ⟨(Utf8.encode source).getD [], source, by decide, by decide, by decide⟩

/-- The file is accepted. Of the two depths the last one counts. -/
theorem load_valid_iff_repeated : Holds disk "/" "/" none source ∧ (∃ v, Json.read source = .ok v) ∧
    ∃ s members, load disk "/" "/" none = .ok s ∧ Json.WritesObject source members ∧ Valid members ∧
      TakenFrom members s ∧ s.maxDepth = 0 ∧ s.testKeywords = [("spec" : Text)] := by
  have hreads : (Json.read source).toOption.isSome = true := by decide +kernel
  have hloads : (load disk "/" "/" none).toOption.map (fun s => (s.maxDepth, s.testKeywords)) =
      some (0, [("spec" : Text)]) := by decide +kernel
  rcases Option.isSome_iff_exists.1 hreads with ⟨v, hv⟩
  have hread := Fallible.toOption_eq_some.1 hv
  rcases Option.map_eq_some_iff.1 hloads with ⟨s, hs, hfields⟩
  rcases Prod.mk.inj hfields with ⟨hdepth, hkeywords⟩
  have hload := Fallible.toOption_eq_some.1 hs
  have haccepted := load_valid_iff holds_source hread
  rcases haccepted.1.1 ⟨s, hload⟩ with ⟨members, hwrites, hvalid⟩
  have htaken := (haccepted.2.2.1 s members hload hwrites).1
  exact ⟨holds_source, ⟨v, hread⟩, s, members, hload, hwrites, hvalid, htaken, hdepth, hkeywords⟩

end Repeated

end Settings

end AffectedTests
