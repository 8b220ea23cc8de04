import PathVeil.Proofs.Command.Stages
import PathVeil.Proofs.Rule.Compilation

/-!
# PathVeil.Proofs.Command.Failure

What a `filter` command that fails has done to files and to the standard output. The
rules are loaded and compiled and the input is looked up before the output is
created, and reading the input and writing the report come last.

All stages before the output are quiet, and a file that cannot be created is left
alone. So with a failure up to the creation of the output (`FailsEarly`), the world is
as it was, but for the log. Every other failure is one of reading the input or of
writing the report (`failsEarly_or_late`), and these come too late for that.
-/

namespace PathVeil.Command

variable {environment : Environment} {options : FilterOptions} {quiet : Bool} {world after : World}
  {failure : Failure}

/-- Whether the input can be opened. The standard input always can. -/
def InputFound (options : FilterOptions) (world : World) : Prop :=
  ∀ name, options.inputFile = some name →
    ∃ place, world.files.openNode world.directory name = .ok place

/-- Ways in which the command can fail up to the creation of the output. -/
inductive FailsEarly (environment : Environment) (options : FilterOptions) (world : World) :
    Failure → Prop
  /-- The rules cannot be loaded. -/
  | configuration {failure : Failure} {after : World}
      (fails : (buildConfig environment options.rules).Fails world failure after) :
      FailsEarly environment options world failure
  /-- The rules are there, and do not compile. -/
  | compilation {rules : List Rule} {between : World} {failure : Failure}
      (returns : (buildConfig environment options.rules).Returns world rules between)
      (error : Engine.ofRules rules = .error failure) :
      FailsEarly environment options world failure
  /-- There is an engine, and the input cannot be opened. -/
  | input {engine : Engine} {name : String} {e : FileError}
      (prepares : Prepares environment options world engine) (named : options.inputFile = some name)
      (error : world.files.openNode world.directory name = .error e) :
      FailsEarly environment options world ⟨.file e, some (.openingInput name)⟩
  /-- There are an engine and an input, and the output cannot be created. -/
  | output {engine : Engine} {name : String} {e : FileError}
      (prepares : Prepares environment options world engine) (found : InputFound options world)
      (named : options.output = some name)
      (error : world.files.writable world.directory name = .error e) :
      FailsEarly environment options world ⟨.file e, some (.creatingOutput name)⟩

theorem InputFound.returnsQuietly (h : InputFound options world) :
    ∃ input, (openInput options.inputFile).ReturnsQuietly world input := by
  cases hname : options.inputFile with
  | none => exact ⟨.stdin, openInput_stdin_returnsQuietly world⟩
  | some name =>
    obtain ⟨place, hplace⟩ := h name hname
    exact ⟨.file name place, openInput_returnsQuietly hplace⟩

theorem inputFound_of_openInput {input : Input}
    (h : (openInput options.inputFile).Returns world input after) : InputFound options world := by
  intro name hname
  rw [hname] at h
  obtain ⟨place, hplace, -⟩ := of_openInput_returns h
  exact ⟨place, hplace⟩

theorem FailsEarly.failsQuietly (h : FailsEarly environment options world failure) :
    (runFilter environment options quiet).FailsQuietly world failure := by
  rw [runFilter_eq]
  -- Each stage before the failing one returns, and hands on a world with the same files.
  cases h with
  | configuration fails => exact (prepare_failsQuietly_of_buildConfig fails).bind _
  | compilation returns error => exact (prepare_failsQuietly_of_ofRules returns error).bind _
  | input prepares named error =>
    refine (prepare_returnsQuietly prepares).failsQuietly_bind fun prepared hprepared => ?_
    rw [← hprepared.files, ← hprepared.directory] at error
    rw [named]
    exact (openInput_failsQuietly error).bind _
  | output prepares found named error =>
    refine (prepare_returnsQuietly prepares).failsQuietly_bind fun prepared hprepared => ?_
    rw [InputFound, ← hprepared.files, ← hprepared.directory] at found
    obtain ⟨input, hinput⟩ := InputFound.returnsQuietly found
    refine hinput.failsQuietly_bind fun opened hopened => ?_
    have hworld := hprepared.trans hopened
    rw [← hworld.files, ← hworld.directory] at error
    rw [named]
    exact (openOutput_failsQuietly error).bind _

/-- **A failed run touches no output.** If the rules cannot be loaded or do not
compile, if the input cannot be opened or the output cannot be created, then this is
how the command fails, all files are as they were, and nothing has been written to the
standard output. -/
theorem runFilter_fails_untouched (h : FailsEarly environment options world failure) :
    ∃ after, (runFilter environment options quiet).Fails world failure after ∧
      after.files = world.files ∧ after.stdout = world.stdout := by
  obtain ⟨after, hfails, hafter⟩ := h.failsQuietly
  exact ⟨after, hfails, hafter.files, hafter.stdout⟩

/-- A rule file that is not there, a rule that is too large, an input that is not there
and one that may not be read, and an output in a directory that is not there. -/
theorem runFilter_fails_untouched_missing :
    let files := (FileTree.put {} ["x"] (.file [47, 97])).put ["locked"] (.file [47, 97])
    let world : World := { files := files.forbid .reading ["locked"] }
    let source : RuleSource := { noDefaults := true, patterns := ["/a/{x}"] }
    let long := String.ofList (List.replicate 1025 'a')
    let untouched (options : FilterOptions) (failure : Failure) : Prop :=
      ∃ after, (runFilter {} options false).Fails world failure after ∧
        after.files = world.files ∧ after.stdout = world.stdout
    untouched { rules := { config := some "none.yaml" }, output := some "x" }
        ⟨.file .notFound, some (.readingConfig "none.yaml")⟩ ∧
      untouched { rules := { source with patterns := [long] }, output := some "x" }
        ⟨.fault (Compilation.failure [.overlong (Rule.ofPattern "cli_pattern_1" long "XXX") long]),
          some .compiling⟩ ∧
      untouched { rules := source, inputFile := some "none", output := some "x" }
        ⟨.file .notFound, some (.openingInput "none")⟩ ∧
      untouched { rules := source, inputFile := some "locked", output := some "x" }
        ⟨.file .permissionDenied, some (.openingInput "locked")⟩ ∧
      untouched
        { rules := source, inputFile := some "x", output := some "no/y", jsonFile := some "j" }
        ⟨.file .notFound, some (.creatingOutput "no/y")⟩ := by
  intro files world source long untouched
  let rules := [Rule.ofPattern "cli_pattern_1" "/a/{x}" "XXX"]
  have hprepares (options : FilterOptions) (h : options.rules = source) :
      Prepares {} options world ⟨rules.filterMap Rule.compiled?, rules⟩ := by
    have hconfig : (buildConfig {} source).Returns world rules _ :=
      Run.returns_of_toOption_eq (by decide +kernel)
    rw [← h] at hconfig
    exact ⟨rules, _, hconfig, rfl⟩
  refine ⟨?_, ?_, ?_, ?_, ?_⟩
  · exact runFilter_fails_untouched (.configuration (Run.fails_of_fst_eq (by decide +kernel)))
  · have hconfig : (buildConfig {} { source with patterns := [long] }).Returns world
        [Rule.ofPattern "cli_pattern_1" long "XXX"] _ :=
      Run.returns_of_toOption_eq (by decide +kernel)
    exact runFilter_fails_untouched (.compilation hconfig (by decide +kernel))
  · exact runFilter_fails_untouched (.input (hprepares _ rfl) rfl (by decide +kernel))
  · exact runFilter_fails_untouched (.input (hprepares _ rfl) rfl (by decide +kernel))
  · have hfound : InputFound { inputFile := some "x" } world := by
      intro name hname
      cases hname
      exact ⟨["x"], by decide +kernel⟩
    exact runFilter_fails_untouched (.output (hprepares _ rfl) hfound rfl (by decide +kernel))

/-- All other failures are those of reading the input and of writing the report. -/
theorem failsEarly_or_late (h : (runFilter environment options quiet).Fails world failure after) :
    FailsEarly environment options world failure ∨ failure.task = some .readingLine ∨
      ∃ name, options.jsonFile = some name ∧ failure.task = some (.writingSummary name) := by
  rw [runFilter_eq, Run.fails_bind_iff] at h
  -- Stage by stage: it fails here, or it has returned and a later one fails.
  rcases h with hprepare | ⟨engine, prepared, hprepare, h⟩
  · rcases of_prepare_fails hprepare with hconfig | ⟨rules, between, hconfig, herror⟩
    · exact Or.inl (.configuration hconfig)
    · exact Or.inl (.compilation hconfig herror)
  have hprepared := (quiet_prepare environment options).of_returns hprepare
  have hprepares := prepares_of_prepare hprepare
  rw [Run.fails_bind_iff] at h
  rcases h with hinput | ⟨input, opened, hinput, h⟩
  · obtain ⟨name, e, hname, herror, rfl⟩ := of_openInput_fails hinput
    rw [hprepared.files, hprepared.directory] at herror
    exact Or.inl (.input hprepares hname herror)
  have hopened := hprepared.trans ((quiet_openInput options.inputFile).of_returns hinput)
  rw [Run.fails_bind_iff] at h
  rcases h with houtput | ⟨output, created, -, h⟩
  · obtain ⟨name, e, hname, herror, rfl⟩ := of_openOutput_fails houtput
    have hfound := inputFound_of_openInput hinput
    rw [InputFound, hprepared.files, hprepared.directory] at hfound
    rw [hopened.files, hopened.directory] at herror
    exact Or.inl (.output hprepares hfound hname herror)
  rw [Run.fails_bind_iff] at h
  rcases h with hfilter | ⟨report, filtered, -, hannounce⟩
  · exact Or.inr (Or.inl (of_filterInto_fails hfilter))
  · exact Or.inr (Or.inr (of_announce_fails hannounce))

end PathVeil.Command
