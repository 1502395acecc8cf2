import AffectedTests.Command.Run
import AffectedTests.Proofs.LoadedSettings
import AffectedTests.Proofs.ReadingLimits
/-!
# Errors that are told

Most of what can be wrong with a settings file is told to the user. A file that is no text and a file that
is too large to be read end the run as a failure instead.

- `Settings.isTold_of_load`: where every error is told.
- `Command.run_of_load_error`: how a run ends whose settings cannot be loaded.
- `Settings.load_told_iff`: both together.
-/

namespace AffectedTests

/-! ## Loading -/

namespace Settings

variable {disk : Disk} {directory repository source : Text} {named : Option Text} {e : LoadError}

/-- There is a file to load settings from. -/
def HasFile (disk : Disk) (directory repository : Text) (named : Option Text) : Prop :=
  ∃ bytes, disk.read (Path.join directory (pathOf repository named)) = .ok bytes

theorem load_undecodable (bytes : Bytes)
    (hbytes : disk.read (Path.join directory (pathOf repository named)) = .ok bytes)
    (htext : Utf8.decode bytes = none) : load disk directory repository named = .error .undecodable := by
  rw [pathOf] at hbytes
  simp only [load, hbytes, ofBytes, htext]

/-- Without a file every error is told. -/
theorem isTold_of_not_hasFile (hfile : ¬ HasFile disk directory repository named)
    (h : load disk directory repository named = .error e) : e.IsTold := by
  cases hread : disk.read (Path.join directory (pathOf repository named)) with
  | ok bytes => exact absurd ⟨bytes, hread⟩ hfile
  | error fault =>
    rw [pathOf] at hread
    cases hnamed : named.filter fun path => path ≠ [] with
    | none =>
      rw [hnamed] at hread
      simp only [load, hnamed, hread] at h
      cases h
    | some path =>
      rw [hnamed] at hread
      simp only [load, hnamed, hread] at h
      cases h
      trivial

/-- With a file every error is told exactly if the file is a text that does not exceed a limit. -/
theorem isTold_iff_of_hasFile (hfile : HasFile disk directory repository named) :
    (∀ e, load disk directory repository named = .error e → e.IsTold) ↔
      ∃ source, Holds disk directory repository named source ∧
        ∀ limit, Json.read source ≠ .error (.exceeds limit) := by
  rcases hfile with ⟨bytes, hbytes⟩
  cases htext : Utf8.decode bytes with
  | none =>
    have hload := load_undecodable bytes hbytes htext
    constructor
    · intro h
      exact (h _ hload).elim
    · rintro ⟨source, ⟨bytes', text, hbytes', htext', -⟩, -⟩
      rw [hbytes] at hbytes'
      cases hbytes'
      rw [htext] at htext'
      cases htext'
  | some text =>
    have hholds : Holds disk directory repository named text.plainLineFeeds :=
      ⟨bytes, text, hbytes, htext, rfl⟩
    have hload := load_of_source hholds
    constructor
    · intro h
      refine ⟨_, hholds, fun limit hread => ?_⟩
      rw [hread] at hload
      exact h _ hload
    · rintro ⟨source, hsource, hfits⟩ e he
      rw [load_of_source hsource] at he
      split at he
      · cases he
        trivial
      · rename_i limit hread
        exact absurd hread (hfits limit)
      · exact isTold_of_ofJson he

end Settings

/-! ## Runs -/

namespace Command

variable {s : Surroundings} {o : Options} {repository : Text} {e : Settings.LoadError}

/-- The line that tells an error, as a console shows it. -/
def errorLine (e : Settings.LoadError) : Text :=
  Markup.plain (Report.styled "red" "❌ Error:" ++ (" " : Text) ++ Markup.escape e.message)

theorem settingsOf_of_isTold (h : Settings.load s.disk s.directory repository o.config = .error e)
    (htold : e.IsTold) : settingsOf s o repository = .error (.settings e) := by
  unfold settingsOf
  rw [h]
  cases e with
  | undecodable => exact htold.elim
  | exceeds limit => exact htold.elim
  | _ => rfl

theorem settingsOf_of_not_isTold (h : Settings.load s.disk s.directory repository o.config = .error e)
    (htold : ¬ e.IsTold) : ∃ cause, settingsOf s o repository = .error (.failure cause) := by
  unfold settingsOf
  rw [h]
  cases e with
  | undecodable => exact ⟨_, rfl⟩
  | exceeds limit => exact ⟨_, rfl⟩
  | _ => exact absurd trivial htold

/-- An error is told if its line can be written. -/
theorem refuse_of_encode {bytes : Bytes} (h : Utf8.encode (errorLine e) = some bytes) :
    refuse e.message = ⟨errorLine e ++ ("\n" : Text), [], .refused⟩ := by
  unfold refuse print
  rw [← errorLine]
  simp only [h, print, List.append_nil]

/-- A line that has no bytes cannot be printed. -/
theorem refuse_of_encode_eq_none (h : Utf8.encode (errorLine e) = none) :
    refuse e.message = ⟨[], [], .failed .unencodable⟩ := by
  unfold refuse print
  rw [← errorLine]
  simp only [h]

/-- A run whose settings cannot be loaded tells why, or it ends as a failure. -/
theorem run_of_load_error {arguments : List Text} (hrequest : Request.ofArguments arguments = .ok (.run o))
    (hdirectory : directoryOf s o.repository = .ok repository)
    (h : Settings.load s.disk s.directory repository o.config = .error e) :
    (e.IsTold → run s arguments = refuse e.message) ∧
      (¬ e.IsTold → ∃ cause, run s arguments = ⟨[], [], .failed cause⟩) := by
  have hrun {obstacle : Obstacle} (hsettings : settingsOf s o repository = .error obstacle) :
      run s arguments = obstacle.outcome := by
    have hexamine : examine s o = .error obstacle := by
      unfold examine
      rw [hdirectory]
      simp only [bind, Except.bind, hsettings]
    simp only [run, hrequest, hexamine]
  constructor
  · intro htold
    rw [hrun (settingsOf_of_isTold h htold), Obstacle.outcome]
  · intro htold
    rcases settingsOf_of_not_isTold h htold with ⟨cause, hcause⟩
    exact ⟨cause, by rw [hrun hcause, Obstacle.outcome]⟩

end Command

/-! ## Settings files and runs -/

/-- When an error of a settings file is told. Whatever is wrong, the user is told, except if there is a
file whose bytes are no text or whose text exceeds a limit of the reader; a text that has no number of too
many digits and opens not too many brackets and braces does not. A run that cannot load its settings then
says why and ends with status 1, provided that what it says can be written, and in every other case it ends
as a failure. -/
theorem Settings.load_told_iff (s : Command.Surroundings) (o : Command.Options) (repository : Text) :
    ((∀ e, load s.disk s.directory repository o.config = .error e → e.IsTold) ↔
      (HasFile s.disk s.directory repository o.config →
        ∃ source, Holds s.disk s.directory repository o.config source ∧
          ∀ limit, Json.read source ≠ .error (.exceeds limit))) ∧
    (∀ source, Holds s.disk s.directory repository o.config source → ¬ Json.HasLongNumber source →
      Json.openings source ≤ Limit.nesting.size → ∀ limit, Json.read source ≠ .error (.exceeds limit)) ∧
    ∀ arguments e, Command.Request.ofArguments arguments = .ok (.run o) →
      Command.directoryOf s o.repository = .ok repository →
      load s.disk s.directory repository o.config = .error e →
        ((Command.run s arguments).ending = .refused ↔
          e.IsTold ∧ (Utf8.encode (Command.errorLine e)).isSome = true) ∧
        ((Command.run s arguments).ending = .refused →
          (Command.run s arguments).output = Command.errorLine e ++ ("\n" : Text) ∧
            (Command.run s arguments).ending.status = 1) := by
  refine ⟨?_, ?_, ?_⟩
  · by_cases hfile : HasFile s.disk s.directory repository o.config
    · rw [isTold_iff_of_hasFile hfile]
      exact ⟨fun h _ => h, fun h => h hfile⟩
    · exact ⟨fun _ h => absurd h hfile, fun _ e he => isTold_of_not_hasFile hfile he⟩
  · intro source _ hshort hfew limit hread
    rcases Json.of_read_exceeds hread with hlong | hmany
    · exact hshort hlong
    · omega
  · intro arguments e hrequest hdirectory hload
    rcases Command.run_of_load_error hrequest hdirectory hload with ⟨htells, hfails⟩
    by_cases htold : e.IsTold
    · rw [htells htold]
      cases hencode : Utf8.encode (Command.errorLine e) with
      | none =>
        rw [Command.refuse_of_encode_eq_none hencode]
        simp
      | some bytes =>
        rw [Command.refuse_of_encode hencode]
        simp [htold, Command.Ending.status]
    · rcases hfails htold with ⟨cause, hrun⟩
      rw [hrun]
      simp [htold]

/-! ## Examples -/

namespace Listed

/-- A repository in the root directory whose settings file holds some bytes, and which has no history. -/
def surroundings (contents : Bytes) : Command.Surroundings where
  directory := "/"
  disk := [.file ((Utf8.encode Settings.fileName).getD []) contents]
  grammars _ _ := .node ⟨.program, true, none, 0, 0, 0, 0, []⟩ []
  repositoryAt? _ := none

def arguments : List Text :=
  ["--repo", "/", "--commit", "c"]

def options : Command.Options :=
  ⟨"/", "c", none, none, false, false, false⟩

def source : Text := "[]"

theorem holds_source : Settings.Holds (surroundings [91, 93]).disk "/" "/" none source :=
  ⟨[91, 93], source, by decide, by decide, by decide⟩

theorem not_hasLongNumber : ¬ Json.HasLongNumber source := by
  rintro ⟨digits, hinfix, -, hlong⟩
  have hlength : digits.length ≤ 2 := hinfix.length_le
  have hlimit : Limit.digits.size = 4300 := rfl
  omega

/-- A settings file with a list is refused, and the user is told why. -/
theorem load_told_iff_list :
    (∀ e, Settings.load (surroundings [91, 93]).disk "/" "/" none = .error e → e.IsTold) ∧
    (Command.run (surroundings [91, 93]) arguments).output =
      ("❌ Error: Configuration /.testimpact.json must be a JSON object\n" : Text) ∧
    (Command.run (surroundings [91, 93]) arguments).ending.status = 1 := by
  rcases Settings.load_told_iff (surroundings [91, 93]) options "/" with ⟨htold, hfits, hruns⟩
  have hall := htold.2 fun _ =>
    ⟨source, holds_source, hfits source holds_source not_hasLongNumber (by decide)⟩
  have hload : Settings.load (surroundings [91, 93]).disk "/" "/" none =
      .error (.notAnObject "/.testimpact.json") := by rfl
  rcases hruns arguments (.notAnObject "/.testimpact.json") (by rfl) (by rfl) hload with ⟨hends, hsays⟩
  have hrefused := hends.2 ⟨trivial, by decide⟩
  rcases hsays hrefused with ⟨houtput, hstatus⟩
  refine ⟨hall, ?_, hstatus⟩
  rw [houtput]
  decide

/-- A settings file with a byte that begins no character ends the run as a failure. -/
theorem not_load_told_stray :
    Settings.load (surroundings [0xFF]).disk "/" "/" none = .error .undecodable ∧
    (Command.run (surroundings [0xFF]) arguments).ending = .failed .undecodable ∧
    ¬ ∀ disk directory repository named e,
      Settings.load disk directory repository named = .error e → e.IsTold := by
  have hload : Settings.load (surroundings [0xFF]).disk "/" "/" none = .error .undecodable :=
    Settings.load_undecodable [0xFF] (by decide) (by decide)
  exact ⟨hload, by rfl, fun hall => hall _ _ _ _ _ hload⟩

end Listed

end AffectedTests
