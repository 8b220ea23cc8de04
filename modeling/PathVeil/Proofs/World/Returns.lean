import PathVeil.World

/-!
# PathVeil.Proofs.World.Returns

Runs that return, taken apart into the runs they are made of.

`Returns` relates the world a run begins in to its result and to the world it
leaves. A run that fails returns nothing. There is one lemma for each way to
make a run, so that what a command does can be read off its text, step by step,
without opening the monad.
-/

namespace PathVeil

/-- Outcomes can be compared, so that a run from a given world can be evaluated. -/
instance decidableEqExcept {ε α : Type} [DecidableEq ε] [DecidableEq α] : DecidableEq (Except ε α)
  | .ok a, .ok b => decidable_of_iff (a = b) ⟨congrArg Except.ok, Except.ok.inj⟩
  | .error a, .error b => decidable_of_iff (a = b) ⟨congrArg Except.error, Except.error.inj⟩
  | .ok _, .error _ => isFalse nofun
  | .error _, .ok _ => isFalse nofun

namespace Run

variable {α β : Type} {world after : World} {a : α} {b : β}

/-- From this world the run returns this result, and leaves that world. -/
def Returns (run : Run α) (world : World) (a : α) (after : World) : Prop :=
  run.run.run world = (.ok a, after)

theorem returns_of_toOption_eq {run : Run α} (h : (run.run.run world).1.toOption = some a) :
    run.Returns world a (run.run.run world).2 := by
  cases hresult : (run.run.run world).1 with
  | error failure =>
    rw [hresult] at h
    cases h
  | ok result =>
    rw [hresult] at h
    cases h
    exact Prod.ext hresult rfl

@[simp] theorem returns_pure_iff {result : α} :
    Returns (pure result) world a after ↔ result = a ∧ world = after := by
  constructor
  · intro h
    cases h
    exact ⟨rfl, rfl⟩
  · rintro ⟨rfl, rfl⟩
    rfl

theorem run_bind (first : Run α) (next : α → Run β) (world : World) :
    (first >>= next).run.run world =
      match first.run.run world with
      | (.ok a, between) => (next a).run.run between
      | (.error failure, between) => (.error failure, between) := by
  change (match first.run.run world with
    | (result, between) => (ExceptT.bindCont next result).run between) = _
  rcases first.run.run world with ⟨failure | a, between⟩
  · rfl
  · rfl

/-- A run of two steps returns if both do, the second from where the first has
left the world. -/
theorem returns_bind_iff {first : Run α} {next : α → Run β} :
    Returns (first >>= next) world b after ↔
      ∃ a between, first.Returns world a between ∧ (next a).Returns between b after := by
  rw [Returns, run_bind]
  constructor
  · intro h
    rcases hfirst : first.run.run world with ⟨failure | a, between⟩
    · rw [hfirst] at h
      cases h
    · rw [hfirst] at h
      exact ⟨a, between, hfirst, h⟩
  · rintro ⟨a, between, hfirst, hnext⟩
    rw [Returns] at hfirst
    rw [hfirst]
    exact hnext

theorem returns_map_iff {f : α → β} {run : Run α} :
    Returns (f <$> run) world b after ↔ ∃ a, run.Returns world a after ∧ f a = b := by
  rw [← bind_pure_comp, returns_bind_iff]
  simp only [returns_pure_iff]
  constructor
  · rintro ⟨a, between, hrun, hb, rfl⟩
    exact ⟨a, hrun, hb⟩
  · rintro ⟨a, hrun, hb⟩
    exact ⟨a, after, hrun, hb, rfl⟩

@[simp] theorem returns_get_iff {seen : World} :
    Returns get world seen after ↔ world = seen ∧ world = after :=
  returns_pure_iff (a := seen)

@[simp] theorem returns_log_iff {records : List Log.Record} {result : Unit} :
    Returns (log records) world result after ↔
      { world with emissions := world.emissions ++ records.map .record } = after := by
  constructor
  · intro h
    cases h
    rfl
  · rintro rfl
    rfl

@[simp] theorem returns_writeError_iff {text : String} {result : Unit} :
    Returns (writeError text) world result after ↔
      { world with emissions := world.emissions ++ [.text text] } = after := by
  constructor
  · intro h
    cases h
    rfl
  · rintro rfl
    rfl

@[simp] theorem returns_writeOutput_iff {bytes : List UInt8} {result : Unit} :
    Returns (writeOutput bytes) world result after ↔
      { world with stdout := world.stdout ++ bytes } = after := by
  constructor
  · intro h
    cases h
    rfl
  · rintro rfl
    rfl

@[simp] theorem returns_setContent_iff {place : Place} {content : List UInt8} {result : Unit} :
    Returns (setContent place content) world result after ↔
      { world with files := world.files.put place (.file content) } = after := by
  constructor
  · intro h
    cases h
    rfl
  · rintro rfl
    rfl

@[simp] theorem returns_ofExcept_iff {result : Except Failure α} :
    Returns (ofExcept result) world a after ↔ result = .ok a ∧ world = after := by
  cases result with
  | error failure => exact ⟨nofun, nofun⟩
  | ok result => rw [ofExcept, returns_pure_iff, Except.ok.injEq]

@[simp] theorem returns_attempt_iff {task : Task} {result : Except FileError α} :
    Returns (attempt task result) world a after ↔ result = .ok a ∧ world = after := by
  cases result with
  | error failure => exact ⟨nofun, nofun⟩
  | ok result => rw [attempt, returns_pure_iff, Except.ok.injEq]

end Run

end PathVeil
