import PathVeil.Command
import PathVeil.Proofs.FileTree.Writing
import PathVeil.Proofs.World.Fails

/-!
# PathVeil.Proofs.Command.Stages

The stages of the command `filter`, each with what it comes to. The first ones only
look at the world: the rules are loaded and compiled (`prepare`), and the input is
looked up. Then the output is created, and the input is filtered into it. What is
left is to `announce` the result.

`runFilter_eq` puts the stages in a row. For each stage, there is what it takes for
it to return or to fail, and what can be concluded if it has.
-/

namespace PathVeil.Command

variable {environment : Environment} {options : FilterOptions} {quiet : Bool}
  {world between after : World} {failure : Failure} {rules : List Rule} {engine : Engine}
  {task : Task} {name : String} {name? : Option String} {e : FileError} {input : Input}
  {place : Place}

/-! ### The command in stages -/

/-- The engine of a run, and a word on it. -/
def prepare (environment : Environment) (options : FilterOptions) : Run Engine := do
  let engine ← buildEngine (← buildConfig environment options.rules)
  inform s!"Filtering with {engine.rules.length} active rules."
  return engine

/-- The last words of a run. -/
def conclude (options : FilterOptions) (quiet : Bool) (report : Report) : Run Unit := do
  if !options.noSummary && !quiet then Run.writeError report.text
  inform "Filter operation completed."

/-- The report of a run, where it is wanted. -/
def announce (options : FilterOptions) (quiet : Bool) (report : Report) : Run Unit := do
  if let some name := options.jsonFile then writeReport report name
  conclude options quiet report

theorem runFilter_eq : runFilter environment options quiet = (do
    let engine ← prepare environment options
    let input ← openInput options.inputFile
    let output ← openOutput options.output
    let report ← filterInto engine environment.reveals input output
    announce options quiet report) := by
  simp only [runFilter, prepare, bind_assoc, pure_bind]
  rfl

/-! ### Quiet stages -/

theorem quiet_loadRules (file : String) : (loadRules file).Quiet :=
  (Run.Quiet.log _).bind fun _ => Run.Quiet.get.bind fun _ =>
    (Run.Quiet.attempt _ _).bind fun _ => (Run.Quiet.log _).bind fun _ => Run.Quiet.ofExcept _

theorem quiet_loadFirst (files : List String) : (loadFirst files).Quiet := by
  induction files with
  | nil => exact Run.Quiet.pure
  | cons file files ih =>
    refine Run.Quiet.get.bind fun world => ?_
    split
    · exact (quiet_loadRules file).bind fun _ => Run.Quiet.pure
    · exact (Run.Quiet.log _).bind fun _ => ih

theorem quiet_chosenRules (environment : Environment) (source : RuleSource) :
    (chosenRules environment source).Quiet := by
  rw [chosenRules]
  split
  · exact (quiet_loadRules _).map _
  · exact quiet_loadFirst _

theorem quiet_buildConfig (environment : Environment) (source : RuleSource) :
    (buildConfig environment source).Quiet :=
  (Run.Quiet.log _).bind fun _ => (quiet_chosenRules environment source).bind fun _ =>
    (Run.Quiet.log _).bind fun _ => Run.Quiet.pure

theorem quiet_prepare (environment : Environment) (options : FilterOptions) :
    (prepare environment options).Quiet :=
  (quiet_buildConfig environment options.rules).bind fun _ =>
    ((Run.Quiet.log _).bind fun _ => Run.Quiet.ofExcept _).bind fun _ =>
      (Run.Quiet.log _).bind fun _ => Run.Quiet.pure

theorem quiet_openInput (name? : Option String) : (openInput name?).Quiet := by
  cases name? with
  | none => exact (Run.Quiet.log _).bind fun _ => Run.Quiet.pure
  | some name =>
    exact (Run.Quiet.log _).bind fun _ => Run.Quiet.get.bind fun _ =>
      (Run.Quiet.attempt _ _).bind fun _ => Run.Quiet.pure

theorem quiet_readInput (input : Input) : (readInput input).Quiet := by
  cases input with
  | stdin => exact Run.Quiet.get.bind fun _ => Run.Quiet.pure
  | file name place => exact Run.Quiet.get.bind fun _ => Run.Quiet.attempt _ _

/-! ### The engine -/

/-- Whether the rules of a run can be loaded, and compile to this engine. -/
def Prepares (environment : Environment) (options : FilterOptions) (world : World)
    (engine : Engine) : Prop :=
  ∃ rules between, (buildConfig environment options.rules).Returns world rules between ∧
    Engine.ofRules rules = .ok engine

theorem buildEngine_returnsQuietly (h : Engine.ofRules rules = .ok engine) (world : World) :
    (buildEngine rules).ReturnsQuietly world engine :=
  (Run.returnsQuietly_log _ _).bind fun _ _ => Run.returnsQuietly_ofExcept h _

theorem buildEngine_failsQuietly (h : Engine.ofRules rules = .error failure) (world : World) :
    (buildEngine rules).FailsQuietly world failure :=
  (Run.returnsQuietly_log _ _).failsQuietly_bind fun _ _ => Run.failsQuietly_ofExcept h _

theorem ofRules_of_buildEngine (h : (buildEngine rules).Returns world engine after) :
    Engine.ofRules rules = .ok engine := by
  simp only [buildEngine, Run.returns_bind_iff, Run.returns_log_iff, Run.returns_ofExcept_iff] at h
  obtain ⟨_, _, -, hengine, -⟩ := h
  exact hengine

theorem prepare_returnsQuietly (h : Prepares environment options world engine) :
    (prepare environment options).ReturnsQuietly world engine := by
  obtain ⟨rules, between, hconfig, hengine⟩ := h
  have hquiet := quiet_buildConfig environment options.rules
  exact (hquiet.returnsQuietly hconfig).bind fun _ _ =>
    (buildEngine_returnsQuietly hengine _).bind fun _ _ =>
      (Run.returnsQuietly_log _ _).bind fun _ _ => Run.returnsQuietly_pure engine _

theorem prepares_of_prepare (h : (prepare environment options).Returns world engine after) :
    Prepares environment options world engine := by
  simp only [prepare, inform, Run.returns_bind_iff, Run.returns_log_iff,
    Run.returns_pure_iff] at h
  obtain ⟨rules, between, hconfig, found, _, hengine, _, _, rfl, rfl, -⟩ := h
  exact ⟨rules, between, hconfig, ofRules_of_buildEngine hengine⟩

theorem prepare_failsQuietly_of_buildConfig
    (h : (buildConfig environment options.rules).Fails world failure after) :
    (prepare environment options).FailsQuietly world failure :=
  ((quiet_buildConfig environment options.rules).failsQuietly h).bind _

theorem prepare_failsQuietly_of_ofRules
    (h : (buildConfig environment options.rules).Returns world rules between)
    (hengine : Engine.ofRules rules = .error failure) :
    (prepare environment options).FailsQuietly world failure :=
  ((quiet_buildConfig environment options.rules).returnsQuietly h).failsQuietly_bind fun _ _ =>
    (buildEngine_failsQuietly hengine _).bind _

theorem of_prepare_fails (h : (prepare environment options).Fails world failure after) :
    (buildConfig environment options.rules).Fails world failure after ∨
      ∃ rules between, (buildConfig environment options.rules).Returns world rules between ∧
        Engine.ofRules rules = .error failure := by
  simp only [prepare, buildEngine, inform, Run.fails_bind_iff, Run.not_fails_log,
    Run.not_fails_pure, Run.fails_ofExcept_iff, false_or, and_false, exists_false, or_false] at h
  rcases h with hconfig | ⟨rules, between, hconfig, _, _, _, hengine, -⟩
  · exact Or.inl hconfig
  · exact Or.inr ⟨rules, between, hconfig, hengine⟩

/-! ### The input -/

theorem openInput_returnsQuietly (h : world.files.openNode world.directory name = .ok place) :
    (openInput (some name)).ReturnsQuietly world (.file name place) := by
  refine (Run.returnsQuietly_log _ _).bind fun between hbetween => ?_
  rw [← hbetween.files, ← hbetween.directory] at h
  exact (Run.returnsQuietly_get between).bind fun _ _ =>
    (Run.returnsQuietly_attempt h _ _).bind fun _ _ => Run.returnsQuietly_pure _ _

theorem openInput_stdin_returnsQuietly (world : World) :
    (openInput none).ReturnsQuietly world .stdin :=
  (Run.returnsQuietly_log _ _).bind fun _ _ => Run.returnsQuietly_pure _ _

theorem openInput_failsQuietly (h : world.files.openNode world.directory name = .error e) :
    (openInput (some name)).FailsQuietly world ⟨.file e, some (.openingInput name)⟩ := by
  refine (Run.returnsQuietly_log _ _).failsQuietly_bind fun between hbetween => ?_
  rw [← hbetween.files, ← hbetween.directory] at h
  exact (Run.returnsQuietly_get between).failsQuietly_bind fun _ _ =>
    (Run.failsQuietly_attempt h _ _).bind _

theorem of_openInput_returns (h : (openInput (some name)).Returns world input after) :
    ∃ place, world.files.openNode world.directory name = .ok place ∧ input = .file name place := by
  simp only [openInput, inform, Run.returns_bind_iff, Run.returns_log_iff, Run.returns_get_iff,
    Run.returns_attempt_iff, Run.returns_pure_iff] at h
  obtain ⟨_, _, rfl, _, _, ⟨rfl, rfl⟩, place, _, ⟨hopen, rfl⟩, rfl, -⟩ := h
  exact ⟨place, hopen, rfl⟩

theorem of_openInput_fails (h : (openInput name?).Fails world failure after) :
    ∃ name e, name? = some name ∧ world.files.openNode world.directory name = .error e ∧
      failure = ⟨.file e, some (.openingInput name)⟩ := by
  cases name? with
  | none => simp [openInput, inform] at h
  | some name =>
    simp only [openInput, inform, Run.fails_bind_iff, Run.returns_log_iff, Run.returns_get_iff,
      Run.not_fails_log, Run.not_fails_get, Run.not_fails_pure, Run.fails_attempt_iff, false_or,
      and_false, exists_false, or_false] at h
    obtain ⟨_, _, rfl, _, _, ⟨rfl, rfl⟩, e, hopen, rfl, -⟩ := h
    exact ⟨name, e, rfl, hopen, rfl⟩

/-! ### The output -/

theorem create_failsQuietly (h : world.files.writable world.directory name = .error e)
    (task : Task) : (create task name).FailsQuietly world ⟨.file e, some task⟩ :=
  (Run.returnsQuietly_get world).failsQuietly_bind fun _ _ =>
    (Run.failsQuietly_attempt h task _).bind _

theorem returns_create_iff :
    (create task name).Returns world place after ↔
      world.files.writable world.directory name = .ok place ∧
        { world with files := world.files.put place (.file []) } = after := by
  simp only [create, Run.returns_bind_iff, Run.returns_get_iff, Run.returns_attempt_iff,
    Run.returns_setContent_iff, Run.returns_pure_iff]
  constructor
  · rintro ⟨_, _, ⟨rfl, rfl⟩, place, _, ⟨hwritable, rfl⟩, _, _, rfl, rfl, rfl⟩
    exact ⟨hwritable, rfl⟩
  · rintro ⟨hwritable, rfl⟩
    exact ⟨_, _, ⟨rfl, rfl⟩, place, _, ⟨hwritable, rfl⟩, (), _, rfl, rfl, rfl⟩

theorem fails_create_iff :
    (create task name).Fails world failure after ↔
      ∃ e, world.files.writable world.directory name = .error e ∧
        failure = ⟨.file e, some task⟩ ∧ world = after := by
  simp only [create, Run.fails_bind_iff, Run.returns_get_iff, Run.not_fails_get,
    Run.fails_attempt_iff, Run.not_fails_setContent, Run.not_fails_pure, false_or, and_false,
    exists_false, or_false]
  constructor
  · rintro ⟨_, _, ⟨rfl, rfl⟩, h⟩
    exact h
  · intro h
    exact ⟨_, _, ⟨rfl, rfl⟩, h⟩

theorem openOutput_failsQuietly (h : world.files.writable world.directory name = .error e) :
    (openOutput (some name)).FailsQuietly world ⟨.file e, some (.creatingOutput name)⟩ := by
  refine (Run.returnsQuietly_log _ _).failsQuietly_bind fun between hbetween => ?_
  rw [← hbetween.files, ← hbetween.directory] at h
  exact (create_failsQuietly h _).bind _

theorem of_openOutput_fails (h : (openOutput name?).Fails world failure after) :
    ∃ name e, name? = some name ∧ world.files.writable world.directory name = .error e ∧
      failure = ⟨.file e, some (.creatingOutput name)⟩ := by
  cases name? with
  | none => simp [openOutput] at h
  | some name =>
    simp only [openOutput, inform, Run.fails_bind_iff, Run.returns_log_iff, Run.not_fails_log,
      Run.not_fails_pure, fails_create_iff, false_or, and_false, exists_false, or_false] at h
    obtain ⟨_, _, rfl, e, hwritable, rfl, -⟩ := h
    exact ⟨name, e, rfl, hwritable, rfl⟩

/-- The output is there, and empty. -/
theorem of_openOutput_returns {output : Option Place}
    (h : (openOutput (some name)).Returns world output after) :
    ∃ place, world.files.writable world.directory name = .ok place ∧ output = some place ∧
      after.files = world.files.put place (.file []) ∧ after.directory = world.directory := by
  simp only [openOutput, inform, Run.returns_bind_iff, Run.returns_log_iff, returns_create_iff,
    Run.returns_pure_iff] at h
  obtain ⟨_, _, rfl, place, _, ⟨hwritable, rfl⟩, rfl, rfl⟩ := h
  exact ⟨place, hwritable, rfl, rfl, rfl⟩

/-! ### Filtering -/

theorem of_readInput_fails (h : (readInput input).Fails world failure after) :
    failure.task = some .readingLine := by
  cases input with
  | stdin => simp [readInput] at h
  | file name place =>
    simp only [readInput, Run.fails_bind_iff, Run.not_fails_get, Run.fails_attempt_iff,
      false_or] at h
    obtain ⟨_, _, -, e, -, rfl, -⟩ := h
    rfl

theorem of_filterInto_fails {reveal : Bool} {output : Option Place}
    (h : (filterInto engine reveal input output).Fails world failure after) :
    failure.task = some .readingLine := by
  rw [filterInto, Run.fails_bind_iff] at h
  rcases h with hread | ⟨bytes, between, -, hrest⟩
  · exact of_readInput_fails hread
  · -- With the bytes at hand, nothing can fail any more.
    cases output <;> simp [Run.fails_bind_iff] at hrest

/-- The output is what the filter makes of the content that the input has by then. -/
theorem of_filterInto_returns {reveal : Bool} {source target : Place} {report : Report}
    (h : (filterInto engine reveal (.file name source) (some target)).Returns world report after) :
    ∃ content, world.files.contentAt source = .ok content ∧
      report = (Stream.filter engine reveal name content).report ∧
      after.files =
        world.files.put target (.file (Stream.filter engine reveal name content).output) ∧
      after.directory = world.directory := by
  simp only [filterInto, readInput, Run.returns_bind_iff, Run.returns_get_iff,
    Run.returns_attempt_iff, Run.returns_log_iff, Run.returns_setContent_iff,
    Run.returns_pure_iff] at h
  obtain ⟨content, _, ⟨_, _, ⟨rfl, rfl⟩, hcontent, rfl⟩, _, _, rfl, _, _, rfl, rfl, rfl⟩ := h
  exact ⟨content, hcontent, rfl, rfl, rfl⟩

/-! ### The report -/

theorem of_writeReport_fails {report : Report}
    (h : (writeReport report name).Fails world failure after) :
    failure.task = some (.writingSummary name) := by
  simp only [writeReport, inform, Run.fails_bind_iff, fails_create_iff, Run.not_fails_setContent,
    Run.not_fails_log, and_false, exists_false, or_false] at h
  obtain ⟨e, -, rfl, -⟩ := h
  rfl

theorem of_writeReport_returns {report : Report}
    (h : (writeReport report name).Returns world () after) :
    ∃ place, world.files.writable world.directory name = .ok place ∧
      after.files = world.files.put place (.file (Utf8.encode (report.toJson.pretty 0).toList)) ∧
      after.directory = world.directory := by
  simp only [writeReport, inform, Run.returns_bind_iff, returns_create_iff,
    Run.returns_setContent_iff, Run.returns_log_iff] at h
  obtain ⟨place, _, ⟨hwritable, rfl⟩, _, _, rfl, rfl⟩ := h
  exact ⟨place, hwritable, FileTree.put_put_self _ _ _ _, rfl⟩

theorem of_conclude_returns {report : Report}
    (h : (conclude options quiet report).Returns world () after) :
    after.files = world.files ∧ after.directory = world.directory ∧
      (options.noSummary = false → quiet = false → .text report.text ∈ after.emissions) := by
  rw [conclude] at h
  by_cases hshown : options.noSummary = false ∧ quiet = false
  · simp only [hshown, Bool.not_false, Bool.and_self, if_true, inform, Run.returns_bind_iff,
      Run.returns_writeError_iff, Run.returns_log_iff] at h
    obtain ⟨_, _, rfl, rfl⟩ := h
    exact ⟨rfl, rfl, fun _ _ => by simp⟩
  · have hsilent : (!options.noSummary && !quiet) = false := by simpa using hshown
    simp only [hsilent, Bool.false_eq_true, if_false, inform, Run.returns_log_iff] at h
    subst h
    exact ⟨rfl, rfl, fun hsummary hquiet => absurd ⟨hsummary, hquiet⟩ hshown⟩

theorem not_fails_conclude {report : Report} :
    ¬ (conclude options quiet report).Fails world failure after := by
  rw [conclude]
  split <;> simp [inform, Run.fails_bind_iff]

theorem of_announce_returns_of_none {report : Report} (hjson : options.jsonFile = none)
    (h : (announce options quiet report).Returns world () after) :
    (conclude options quiet report).Returns world () after := by
  rwa [announce, hjson] at h

theorem of_announce_returns_of_some {report : Report} (hjson : options.jsonFile = some name)
    (h : (announce options quiet report).Returns world () after) :
    ∃ between, (writeReport report name).Returns world () between ∧
      (conclude options quiet report).Returns between () after := by
  rw [announce, hjson, Run.returns_bind_iff] at h
  obtain ⟨_, between, hwrite, hrest⟩ := h
  exact ⟨between, hwrite, hrest⟩

theorem of_announce_fails {report : Report}
    (h : (announce options quiet report).Fails world failure after) :
    ∃ name, options.jsonFile = some name ∧ failure.task = some (.writingSummary name) := by
  rw [announce] at h
  cases hjson : options.jsonFile with
  | none =>
    rw [hjson] at h
    exact absurd h not_fails_conclude
  | some name =>
    rw [hjson, Run.fails_bind_iff] at h
    rcases h with hwrite | ⟨_, _, -, hrest⟩
    · exact ⟨name, rfl, of_writeReport_fails hwrite⟩
    · exact absurd hrest not_fails_conclude

end PathVeil.Command
