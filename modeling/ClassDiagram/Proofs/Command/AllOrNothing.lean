import ClassDiagram.Command.Run

set_option autoImplicit false

namespace ClassDiagram.Command

/-- What can be said of the files of a system in a state `σ`, where `ι` tells the files apart. -/
structure FileView (σ ι : Type) where
  /-- Whether anything stands at the end of a path. -/
  present : σ → String → Bool
  /-- The text of the file at the end of a path. -/
  text : σ → String → Except FileError String
  /-- The file that a write to a path creates or replaces. -/
  target? : σ → String → Option ι
  /-- What a file holds. -/
  bytes? : σ → ι → Option ByteArray

/-- What a command relies on: asking changes nothing, and a write replaces the whole file or fails
without effect. -/
structure FileAccess.Lawful {σ ι : Type} (files : FileAccess (StateM σ)) (view : FileView σ ι) :
    Prop where
  present_run : ∀ path state, (files.present path).run state = pure (view.present state path, state)
  readText_run : ∀ path state, (files.readText path).run state = pure (view.text state path, state)
  failed_write : ∀ path text state reason after,
    (files.writeText path text).run state = pure (.error reason, after) →
      view.bytes? after = view.bytes? state
  write : ∀ path text state after,
    (files.writeText path text).run state = pure (.ok (), after) →
      view.text after path = .ok text ∧ ∃ file, view.target? state path = some file ∧
        view.bytes? after file = some text.toUTF8 ∧
        ∀ other, other ≠ file → view.bytes? after other = view.bytes? state other

def FileTree.view : FileView FileTree Place where
  present := present
  text := readText
  target? tree path := (tree.target path).toOption
  bytes? tree place :=
    match tree.node? place with
    | some (.file bytes) => some bytes
    | _ => none

theorem FileTree.access_lawful : FileTree.access.Lawful FileTree.view where
  present_run path tree := access_present_run tree path
  readText_run path tree := access_readText_run tree path
  failed_write path text tree reason after failed := by
    cases target : tree.target path with
    | error found =>
        rw [access_writeText_run_of_error target] at failed
        cases failed
        rfl
    | ok place =>
        rw [access_writeText_run_of_ok target] at failed
        cases failed
  write path text tree after written := by
    cases target : tree.target path with
    | error found =>
        rw [access_writeText_run_of_error target] at written
        cases written
    | ok place =>
        rw [access_writeText_run_of_ok target] at written
        cases written
        have wrote : tree.writeText path text = .ok (tree.put place text.toUTF8) := by
          rw [writeText, target]
          rfl
        refine ⟨readText_of_writeText wrote, place, ?_, ?_, fun other elsewhere => ?_⟩
        · simp only [view, target]
          rfl
        · simp only [view, put_node?_self]
        · simp only [view, put_node?_of_ne tree elsewhere]

/-- The file in which preferences are looked for, if any: the one that is asked for, else the local
one if it is there, else the user's one if it is there. -/
def preferencesFile? (present : String → Bool) (userFile asked : Option String) : Option String :=
  asked.or <|
    (if present localPreferences then some localPreferences else none).or (userFile.filter present)

/-- The preferences in force are those in the file in which they are looked for, which has to be
there, to hold text and to make sense. Without such a file they are the usual ones. -/
def InForce (present : String → Bool) (text : String → Except FileError String)
    (userFile asked : Option String) (preferences : Preferences) : Prop :=
  match preferencesFile? present userFile asked with
  | none => preferences = {}
  | some path =>
      present path = true ∧ ∃ content, text path = .ok content ∧
        Preferences.ofToml? content = some preferences

/-- A file in which preferences are looked for is of no use: it is not there, it holds no text, or
the text makes no sense. -/
def Unusable (present : String → Bool) (text : String → Except FileError String) (path : String) :
    Prop :=
  present path = false ∨ (∃ reason, text path = .error reason) ∨
    ∃ content, text path = .ok content ∧ Preferences.ofToml? content = none

/-- No other file takes the place of one that is of no use. -/
theorem not_inForce {present : String → Bool} {text : String → Except FileError String}
    {userFile asked : Option String} {path : String}
    (chosen : preferencesFile? present userFile asked = some path)
    (unusable : Unusable present text path) (preferences : Preferences) :
    ¬ InForce present text userFile asked preferences := by
  rw [InForce, chosen]
  rintro ⟨there, content, read, sense⟩
  rcases unusable with missing | ⟨reason, failed⟩ | ⟨other, read', nonsense⟩
  · rw [there] at missing
    cases missing
  · rw [read] at failed
    cases failed
  · rw [read] at read'
    cases read'
    rw [sense] at nonsense
    cases nonsense

section

variable {σ ι : Type} {files : FileAccess (StateM σ)} {view : FileView σ ι}

/-- A file of preferences either gives preferences or stops the run. -/
theorem readPreferences_run (lawful : files.Lawful view) (path : String) (state : σ) :
    ∃ result, (readPreferences files path).run state = pure (result, state) ∧
      ∀ preferences, result = .ok preferences ↔
        ∃ content, view.text state path = .ok content ∧
          Preferences.ofToml? content = some preferences := by
  rw [readPreferences, StateT.run_bind, lawful.readText_run]
  cases view.text state path with
  | error reason => exact ⟨.error (.file reason), rfl, by simp⟩
  | ok content =>
      cases read : Preferences.ofToml? content with
      | none => exact ⟨.error .preferencesUnreadable, by simp [read], by simp [read]⟩
      | some found => exact ⟨.ok found, by simp [read], by simp [read]⟩

/-- Finding preferences leaves all files alone, and finds those in force or none. -/
theorem findPreferences_run (lawful : files.Lawful view) (userFile asked : Option String)
    (state : σ) :
    ∃ result, (findPreferences files userFile asked).run state = pure (result, state) ∧
      ∀ preferences, result = .ok preferences ↔
        InForce (view.present state) (view.text state) userFile asked preferences := by
  have fromFile : ∀ path, preferencesFile? (view.present state) userFile asked = some path →
      view.present state path = true →
      ∃ result, (readPreferences files path).run state = pure (result, state) ∧
        ∀ preferences, result = .ok preferences ↔
          InForce (view.present state) (view.text state) userFile asked preferences := by
    intro path chosen there
    obtain ⟨result, ran, found⟩ := readPreferences_run lawful path state
    refine ⟨result, ran, fun preferences => ?_⟩
    rw [found, InForce, chosen]
    exact (and_iff_right there).symm
  have fromNowhere : preferencesFile? (view.present state) userFile asked = none →
      ∀ preferences, (.ok {} : Except Trouble Preferences) = .ok preferences ↔
        InForce (view.present state) (view.text state) userFile asked preferences := by
    intro chosen preferences
    rw [InForce, chosen]
    exact ⟨fun same => (Except.ok.inj same).symm, fun same => by rw [same]⟩
  cases asked with
  | some path =>
      rw [findPreferences, StateT.run_bind, lawful.present_run]
      cases there : view.present state path with
      | true => exact fromFile path rfl there
      | false =>
          refine ⟨.error (.preferencesMissing path), rfl, fun preferences => ?_⟩
          have none :
              ¬InForce (view.present state) (view.text state) userFile (some path) preferences :=
            not_inForce rfl (.inl there) preferences
          exact iff_of_false (by simp) none
  | none =>
      rw [findPreferences.eq_def, StateT.run_bind, lawful.present_run]
      cases here : view.present state localPreferences with
      | true => exact fromFile localPreferences (by simp [preferencesFile?, here]) here
      | false =>
          cases userFile with
          | none => exact ⟨.ok {}, rfl, fromNowhere (by simp [preferencesFile?, here])⟩
          | some path =>
              show ∃ result, StateT.run (files.present path >>= fun there =>
                if there = true then readPreferences files path else pure (.ok {})) state =
                  pure (result, state) ∧ _
              rw [StateT.run_bind, lawful.present_run]
              cases there : view.present state path with
              | true => exact fromFile path (by simp [preferencesFile?, here, there]) there
              | false =>
                  exact ⟨.ok {}, rfl, fromNowhere (by simp [preferencesFile?, here, there])⟩

/-- What a run does once the preferences in force have been found. -/
theorem run_of_inForce (lawful : files.Lawful view) {userFile : Option String}
    {arguments : Arguments} {state : σ} {preferences : Preferences}
    (inForce :
      InForce (view.present state) (view.text state) userFile arguments.config preferences) :
    (run files userFile arguments).run state =
      match view.text state arguments.input with
      | .error reason => pure (.error (.file reason), state)
      | .ok source =>
          match preferences.compile source with
          | .error trouble => pure (.error trouble, state)
          | .ok diagram =>
              (files.writeText arguments.output (preferences.exportText diagram)).run state >>=
                fun written => pure (written.1.mapError Trouble.file, written.2) := by
  obtain ⟨result, found, exact⟩ := findPreferences_run lawful userFile arguments.config state
  obtain rfl := (exact preferences).2 inForce
  rw [run, StateT.run_bind, found]
  simp only [pure_bind, StateT.run_bind, lawful.readText_run]
  cases view.text state arguments.input with
  | error reason => rfl
  | ok source =>
      simp only [convert]
      cases preferences.compile source with
      | error trouble => rfl
      | ok diagram =>
          simp only [Except.map, StateT.run_bind]
          congr 1
          funext written
          obtain ⟨outcome, after⟩ := written
          cases outcome <;> rfl

theorem run_of_not_inForce (lawful : files.Lawful view) {userFile : Option String}
    {arguments : Arguments} {state : σ}
    (none : ∀ preferences,
      ¬ InForce (view.present state) (view.text state) userFile arguments.config preferences) :
    ∃ trouble, (run files userFile arguments).run state = pure (.error trouble, state) := by
  obtain ⟨result, found, exact⟩ := findPreferences_run lawful userFile arguments.config state
  rw [run, StateT.run_bind, found]
  cases result with
  | error trouble => exact ⟨trouble, rfl⟩
  | ok preferences => exact absurd ((exact preferences).1 rfl) (none preferences)

/-- After the run the output file holds exactly the diagram of the input, as text under the
preferences in force, and no other file has changed. All files are meant as they were before. -/
def Exported (view : FileView σ ι) (userFile : Option String) (arguments : Arguments)
    (before after : σ) : Prop :=
  ∃ preferences source diagram file,
    InForce (view.present before) (view.text before) userFile arguments.config preferences ∧
    view.text before arguments.input = .ok source ∧
    preferences.compile source = .ok diagram ∧
    view.target? before arguments.output = some file ∧
    view.text after arguments.output = .ok (preferences.exportText diagram) ∧
    view.bytes? after file = some (preferences.exportText diagram).toUTF8 ∧
    ∀ other, other ≠ file → view.bytes? after other = view.bytes? before other

/-- Every stage of a run can be passed: there are preferences in force, the input is a text, the
text is a diagram, and the output can be written. -/
def Passable (files : FileAccess (StateM σ)) (view : FileView σ ι) (userFile : Option String)
    (arguments : Arguments) (state : σ) : Prop :=
  ∃ preferences source diagram after,
    InForce (view.present state) (view.text state) userFile arguments.config preferences ∧
    view.text state arguments.input = .ok source ∧
    preferences.compile source = .ok diagram ∧
    (files.writeText arguments.output (preferences.exportText diagram)).run state =
      pure (.ok (), after)

/-- What a run that can pass every stage does is to write. -/
theorem run_of_passable (lawful : files.Lawful view) {userFile : Option String}
    {arguments : Arguments} {state : σ} (passable : Passable files view userFile arguments state) :
    ∃ after, (run files userFile arguments).run state = pure (.ok (), after) ∧
      Exported view userFile arguments state after := by
  obtain ⟨preferences, source, diagram, after, inForce, input, accepted, wrote⟩ := passable
  obtain ⟨read, file, target, holds, others⟩ := lawful.write _ _ _ _ wrote
  refine ⟨after, ?_, preferences, source, diagram, file, inForce, input, accepted, target, read,
    holds, others⟩
  simp only [run_of_inForce lawful inForce, input, accepted, wrote]
  rfl

/-- A run that cannot pass every stage fails, and leaves all files as they are. -/
theorem run_of_not_passable (lawful : files.Lawful view) {userFile : Option String}
    {arguments : Arguments} {state : σ}
    (impassable : ¬ Passable files view userFile arguments state) :
    ∃ trouble after, (run files userFile arguments).run state = pure (.error trouble, after) ∧
      view.bytes? after = view.bytes? state := by
  by_cases given : ∃ preferences,
      InForce (view.present state) (view.text state) userFile arguments.config preferences
  · obtain ⟨preferences, inForce⟩ := given
    rw [run_of_inForce lawful inForce]
    cases input : view.text state arguments.input with
    | error reason => exact ⟨.file reason, state, rfl, rfl⟩
    | ok source =>
        cases accepted : preferences.compile source with
        | error trouble => exact ⟨trouble, state, by simp only [accepted], rfl⟩
        | ok diagram =>
            obtain ⟨⟨outcome, after⟩, wrote⟩ : ∃ written,
                (files.writeText arguments.output (preferences.exportText diagram)).run state =
                  pure written := ⟨_, rfl⟩
            cases outcome with
            | error reason =>
                refine ⟨.file reason, after, ?_, lawful.failed_write _ _ _ _ _ wrote⟩
                simp only [accepted, wrote]
                rfl
            | ok done =>
                exact absurd ⟨preferences, source, diagram, after, inForce, input, accepted, wrote⟩
                  impassable
  · obtain ⟨trouble, stopped⟩ :=
      run_of_not_inForce lawful fun preferences inForce => given ⟨preferences, inForce⟩
    exact ⟨trouble, state, stopped, rfl⟩

/-- A run writes everything or nothing. If it fails, all files are as they were before. If it
succeeds, the output holds the diagram of the input under the preferences in force, and all other
files are as they were before. It succeeds exactly when every stage can be passed, and a file of
preferences that is of no use makes it fail. -/
theorem run_all_or_nothing (lawful : files.Lawful view) (userFile : Option String)
    (arguments : Arguments) (state : σ) :
    ∃ result after, (run files userFile arguments).run state = pure (result, after) ∧
      (∀ trouble, result = .error trouble → view.bytes? after = view.bytes? state) ∧
      (result = .ok () → Exported view userFile arguments state after) ∧
      (result = .ok () ↔ Passable files view userFile arguments state) ∧
      ∀ path, preferencesFile? (view.present state) userFile arguments.config = some path →
        Unusable (view.present state) (view.text state) path →
        ∃ trouble, result = .error trouble := by
  by_cases passable : Passable files view userFile arguments state
  · obtain ⟨after, ran, exported⟩ := run_of_passable lawful passable
    refine ⟨.ok (), after, ran, by simp, fun _ => exported, iff_of_true rfl passable, ?_⟩
    intro path chosen unusable
    obtain ⟨preferences, -, -, -, inForce, -⟩ := passable
    exact absurd inForce (not_inForce chosen unusable preferences)
  · obtain ⟨trouble, after, ran, unchanged⟩ := run_of_not_passable lawful passable
    refine ⟨.error trouble, after, ran, fun _ _ => unchanged, by simp, ?_, ?_⟩
    · exact iff_of_false (by simp) passable
    · exact fun _ _ _ => ⟨trouble, rfl⟩

end

/-- The input, the output and the file of preferences may be one and the same. -/
theorem run_all_or_nothing_on_one_file :
    let tree := (FileTree.bare ["home"]).addFile ["home", "notes"] "#title: one".toUTF8
    let arguments : Arguments := { input := "notes", output := "notes", config := some "notes" }
    FileTree.access.Lawful FileTree.view ∧
      ∃ after, (run FileTree.access none arguments).run tree = pure (.ok (), after) ∧
        Exported FileTree.view none arguments tree after := by
  intro tree arguments
  obtain ⟨result, after, ran, -, exported, -⟩ :=
    run_all_or_nothing FileTree.access_lawful none arguments tree
  have passed : ((run FileTree.access none arguments).run tree).1.toBool = true := by
    decide +kernel
  rw [ran] at passed
  cases result with
  | error trouble => cases passed
  | ok done => exact ⟨FileTree.access_lawful, after, ran, exported rfl⟩

end ClassDiagram.Command
