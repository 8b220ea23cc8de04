import PathVeil.Proofs.World.Returns

/-!
# PathVeil.Proofs.World.Fails

Runs that fail, and what they have done by then: what a run did before it failed
stays done.

`Fails` is to failures what `Returns` is to results. Of two steps in a row, the
first fails, or it returns and the second fails from where it has left the world
(`fails_bind_iff`); so the stage at which a command has failed can be read off its
text.

Many stages only look at the world, and write to the log. Such a run is `Quiet`, and
`ReturnsQuietly` and `FailsQuietly` say how it ends without naming the world that it
leaves, of which nothing but the log is new.
-/

namespace PathVeil

/-- Whether nothing but what was written to the standard error stream has changed. -/
structure World.Undisturbed (world after : World) : Prop where
  files : after.files = world.files
  directory : after.directory = world.directory
  stdin : after.stdin = world.stdin
  stdout : after.stdout = world.stdout

theorem World.Undisturbed.refl (world : World) : world.Undisturbed world := ⟨rfl, rfl, rfl, rfl⟩

theorem World.Undisturbed.trans {world between after : World} (h : world.Undisturbed between)
    (h' : between.Undisturbed after) : world.Undisturbed after where
  files := h'.files.trans h.files
  directory := h'.directory.trans h.directory
  stdin := h'.stdin.trans h.stdin
  stdout := h'.stdout.trans h.stdout

namespace Run

variable {α β : Type} {world after : World} {failure : Failure} {a : α}

/-! ### Failures -/

/-- From this world the run fails in this way, and leaves that world. -/
def Fails (run : Run α) (world : World) (failure : Failure) (after : World) : Prop :=
  run.run.run world = (.error failure, after)

theorem fails_of_fst_eq {run : Run α} (h : (run.run.run world).1 = .error failure) :
    run.Fails world failure (run.run.run world).2 :=
  Prod.ext h rfl

@[simp] theorem not_fails_pure : ¬ Fails (pure a) world failure after := nofun

@[simp] theorem not_fails_get : ¬ Fails get world failure after := nofun

@[simp] theorem not_fails_log {records : List Log.Record} :
    ¬ Fails (log records) world failure after := nofun

@[simp] theorem not_fails_setContent {place : Place} {content : List UInt8} :
    ¬ Fails (setContent place content) world failure after := nofun

@[simp] theorem not_fails_writeOutput {bytes : List UInt8} :
    ¬ Fails (writeOutput bytes) world failure after := nofun

@[simp] theorem not_fails_writeError {text : String} :
    ¬ Fails (writeError text) world failure after := nofun

@[simp] theorem fails_ofExcept_iff {result : Except Failure α} :
    Fails (ofExcept result) world failure after ↔ result = .error failure ∧ world = after := by
  cases result with
  | ok result => exact ⟨nofun, nofun⟩
  | error found =>
    constructor
    · intro h
      cases h
      exact ⟨rfl, rfl⟩
    · rintro ⟨h, rfl⟩
      cases h
      rfl

@[simp] theorem fails_attempt_iff {task : Task} {result : Except FileError α} :
    Fails (attempt task result) world failure after ↔
      ∃ e, result = .error e ∧ failure = ⟨.file e, some task⟩ ∧ world = after := by
  cases result with
  | ok result => exact ⟨nofun, nofun⟩
  | error found =>
    constructor
    · intro h
      cases h
      exact ⟨found, rfl, rfl, rfl⟩
    · rintro ⟨e, h, rfl, rfl⟩
      cases h
      rfl

/-- A run of two steps fails if the first does, or if the second does from where the
first has left the world. -/
theorem fails_bind_iff {first : Run α} {next : α → Run β} :
    Fails (first >>= next) world failure after ↔
      first.Fails world failure after ∨
        ∃ a between, first.Returns world a between ∧ (next a).Fails between failure after := by
  rw [Fails, run_bind]
  rcases hfirst : first.run.run world with ⟨found | a, between⟩
  · constructor
    · intro h
      cases h
      exact Or.inl hfirst
    · rintro (h | ⟨_, _, h, -⟩)
      · cases hfirst.symm.trans h
        rfl
      · cases hfirst.symm.trans h
  · constructor
    · intro h
      exact Or.inr ⟨a, between, hfirst, h⟩
    · rintro (h | ⟨_, _, h, hnext⟩)
      · cases hfirst.symm.trans h
      · cases hfirst.symm.trans h
        exact hnext

@[simp] theorem fails_map_iff {f : α → β} {run : Run α} :
    Fails (f <$> run) world failure after ↔ run.Fails world failure after := by
  rw [← bind_pure_comp, fails_bind_iff]
  simp only [not_fails_pure, and_false, exists_false, or_false]

theorem Fails.bind {first : Run α} (h : first.Fails world failure after) (next : α → Run β) :
    Fails (first >>= next) world failure after :=
  fails_bind_iff.mpr (Or.inl h)

theorem Returns.fails_bind {first : Run α} {next : α → Run β} {between : World}
    (h : first.Returns world a between) (hnext : (next a).Fails between failure after) :
    Fails (first >>= next) world failure after :=
  fails_bind_iff.mpr (Or.inr ⟨a, between, h, hnext⟩)

/-! ### Quiet runs -/

/-- Whether a run leaves the world undisturbed, however it ends. -/
def Quiet (run : Run α) : Prop := ∀ world : World, world.Undisturbed (run.run.run world).2

namespace Quiet

variable {run : Run α}

theorem of_returns (hquiet : run.Quiet) (h : run.Returns world a after) :
    world.Undisturbed after := by
  have hworld := hquiet world
  rw [Returns] at h
  rwa [h] at hworld

theorem of_fails (hquiet : run.Quiet) (h : run.Fails world failure after) :
    world.Undisturbed after := by
  have hworld := hquiet world
  rw [Fails] at h
  rwa [h] at hworld

protected theorem pure : Quiet (pure a) := World.Undisturbed.refl

protected theorem get : Quiet get := World.Undisturbed.refl

protected theorem log (records : List Log.Record) : Quiet (log records) :=
  fun _ => ⟨rfl, rfl, rfl, rfl⟩

protected theorem ofExcept (result : Except Failure α) : Quiet (ofExcept result) := by
  cases result with
  | ok result => exact World.Undisturbed.refl
  | error failure => exact World.Undisturbed.refl

protected theorem attempt (task : Task) (result : Except FileError α) :
    Quiet (attempt task result) := by
  cases result with
  | ok result => exact World.Undisturbed.refl
  | error e => exact World.Undisturbed.refl

protected theorem bind {next : α → Run β} (h : run.Quiet) (hnext : ∀ a, (next a).Quiet) :
    Quiet (run >>= next) := by
  intro world
  have hworld := h world
  rw [run_bind]
  rcases hrun : run.run.run world with ⟨failure | a, between⟩
  · rwa [hrun] at hworld
  · rw [hrun] at hworld
    exact hworld.trans (hnext a between)

protected theorem map (f : α → β) (h : run.Quiet) : Quiet (f <$> run) := by
  rw [← bind_pure_comp]
  exact h.bind fun _ => Quiet.pure

end Quiet

/-- From this world the run returns this result, and leaves the world undisturbed. -/
def ReturnsQuietly (run : Run α) (world : World) (a : α) : Prop :=
  ∃ after, run.Returns world a after ∧ world.Undisturbed after

/-- From this world the run fails in this way, and leaves the world undisturbed. -/
def FailsQuietly (run : Run α) (world : World) (failure : Failure) : Prop :=
  ∃ after, run.Fails world failure after ∧ world.Undisturbed after

theorem Quiet.returnsQuietly {run : Run α} (hquiet : run.Quiet) (h : run.Returns world a after) :
    run.ReturnsQuietly world a :=
  ⟨after, h, hquiet.of_returns h⟩

theorem Quiet.failsQuietly {run : Run α} (hquiet : run.Quiet)
    (h : run.Fails world failure after) : run.FailsQuietly world failure :=
  ⟨after, h, hquiet.of_fails h⟩

theorem returnsQuietly_pure (a : α) (world : World) : ReturnsQuietly (pure a) world a :=
  ⟨world, rfl, .refl world⟩

theorem returnsQuietly_get (world : World) : ReturnsQuietly get world world :=
  ⟨world, rfl, .refl world⟩

theorem returnsQuietly_log (records : List Log.Record) (world : World) :
    (log records).ReturnsQuietly world () :=
  ⟨_, rfl, ⟨rfl, rfl, rfl, rfl⟩⟩

theorem returnsQuietly_ofExcept {result : Except Failure α} (h : result = .ok a) (world : World) :
    (ofExcept result).ReturnsQuietly world a :=
  ⟨world, returns_ofExcept_iff.mpr ⟨h, rfl⟩, .refl world⟩

theorem failsQuietly_ofExcept {result : Except Failure α} (h : result = .error failure)
    (world : World) : (ofExcept result).FailsQuietly world failure :=
  ⟨world, fails_ofExcept_iff.mpr ⟨h, rfl⟩, .refl world⟩

theorem returnsQuietly_attempt {result : Except FileError α} (h : result = .ok a) (task : Task)
    (world : World) : (attempt task result).ReturnsQuietly world a :=
  ⟨world, returns_attempt_iff.mpr ⟨h, rfl⟩, .refl world⟩

theorem failsQuietly_attempt {result : Except FileError α} {e : FileError} (h : result = .error e)
    (task : Task) (world : World) : (attempt task result).FailsQuietly world ⟨.file e, some task⟩ :=
  ⟨world, fails_attempt_iff.mpr ⟨e, h, rfl, rfl⟩, .refl world⟩

theorem FailsQuietly.bind {first : Run α} (h : first.FailsQuietly world failure)
    (next : α → Run β) : (first >>= next).FailsQuietly world failure := by
  obtain ⟨after, hfails, hafter⟩ := h
  exact ⟨after, hfails.bind next, hafter⟩

theorem ReturnsQuietly.failsQuietly_bind {first : Run α} {next : α → Run β}
    (h : first.ReturnsQuietly world a)
    (hnext : ∀ between : World, world.Undisturbed between → (next a).FailsQuietly between failure) :
    (first >>= next).FailsQuietly world failure := by
  obtain ⟨between, hreturns, hbetween⟩ := h
  obtain ⟨after, hfails, hafter⟩ := hnext between hbetween
  exact ⟨after, hreturns.fails_bind hfails, hbetween.trans hafter⟩

theorem ReturnsQuietly.bind {first : Run α} {next : α → Run β} {b : β}
    (h : first.ReturnsQuietly world a)
    (hnext : ∀ between : World, world.Undisturbed between → (next a).ReturnsQuietly between b) :
    (first >>= next).ReturnsQuietly world b := by
  obtain ⟨between, hreturns, hbetween⟩ := h
  obtain ⟨after, hreturns', hafter⟩ := hnext between hbetween
  exact ⟨after, returns_bind_iff.mpr ⟨a, between, hreturns, hreturns'⟩, hbetween.trans hafter⟩

end Run

end PathVeil
