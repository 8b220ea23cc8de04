import PathVeil.Program
import PathVeil.Proofs.Command.Stages

/-!
# PathVeil.Proofs.Command.Rights

A run goes and writes only where it may. A name does not lead through a directory that
may not be entered (`FileTree.walk_through_denied`). Whatever the command and however it
ends, a file that is not as it was is one that the program had the right to write, or a
new one in a directory in which it had the right to put it (`Program.permits_of_run_ne`).

## Proof shape

`FileTree.Within` is the invariant: a tree has come from a first one by writing that was
permitted there. It asks for the rights in the first tree alone, so that it does not
matter what may be done with a file once it is there.

`Run.Stays` says that a run keeps the invariant, and what is known of its result. A
place that has been created is one that may be written (`stays_create`), and only such
a place is given a content later.
-/

namespace PathVeil

namespace FileTree

variable {tree after : FileTree} {directory place next : Place} {name : String}
  {names more : List String}

/-! ### Directories that may not be entered -/

theorem walk_cons_of_enter (hmore : more ≠ []) (henter : tree.enter place name = .ok next)
    (hnext : tree.get? next = some .directory) :
    tree.walk place (name :: more) = tree.walk next more := by
  rw [walk.eq_3 _ _ _ _ hmore, henter]
  simp only [hnext]

/-- A name that leads to a directory can be gone on from there. -/
theorem walk_append (hmore : more ≠ []) (hwalk : tree.walk place names = .ok next)
    (hnext : tree.get? next = some .directory) :
    tree.walk place (names ++ more) = tree.walk next more := by
  induction names generalizing place with
  | nil =>
    cases hwalk
    rfl
  | cons name names ih =>
    cases names with
    | nil => exact walk_cons_of_enter hmore hwalk hnext
    | cons following names =>
      obtain ⟨between, henter, hbetween, hrest⟩ := walk_cons_cons_eq_ok_iff.mp hwalk
      rw [List.cons_append, walk_cons_of_enter (by simp) henter hbetween]
      exact ih hrest

theorem walk_of_denied (hdenied : tree.permits .entering place = false) :
    tree.walk place (name :: more) = .error .permissionDenied := by
  have henter : tree.enter place name = .error .permissionDenied := by
    simp [enter, hdenied]
  cases more with
  | nil => exact henter
  | cons following more => rw [walk.eq_3 _ _ _ _ (List.cons_ne_nil following more), henter]

/-- No name leads through a directory that may not be entered, wherever it is on the
way and whatever is behind it. -/
theorem walk_through_denied (hwalk : tree.walk place names = .ok next)
    (hnext : tree.get? next = some .directory) (hdenied : tree.permits .entering next = false) :
    tree.walk place (names ++ name :: more) = .error .permissionDenied := by
  rw [walk_append (List.cons_ne_nil name more) hwalk hnext]
  exact walk_of_denied hdenied

/-! ### Files that may be written -/

/-- Whether a tree has come from another one by writing what may be written there. -/
structure Within (tree after : FileTree) : Prop where
  permits : after.permits = tree.permits
  get?_eq : ∀ place, after.get? place = tree.get? place ∨
    tree.permits .writing (tree.gate place) = true

namespace Within

theorem refl (tree : FileTree) : tree.Within tree := ⟨rfl, fun _ => Or.inl rfl⟩

theorem put (h : tree.Within after) (hplace : tree.permits .writing (tree.gate place) = true)
    (content : List UInt8) : tree.Within (after.put place (.file content)) := by
  refine ⟨h.permits, fun other => ?_⟩
  by_cases hother : other = place
  · rw [hother]
    exact Or.inr hplace
  · rw [get?_put_of_ne after _ hother]
    exact h.get?_eq other

/-- What may be written by now could be written at first, unless it has been. -/
theorem permits_of_writable (h : tree.Within after)
    (hwritable : after.writable directory name = .ok place) :
    tree.permits .writing (tree.gate place) = true := by
  obtain ⟨-, -, -, hpermits⟩ := writable_eq_ok_iff.mp hwritable
  rcases h.get?_eq place with hsame | hplace
  · rwa [gate, hsame, h.permits] at hpermits
  · exact hplace

end Within

/-- A directory that takes no new files, and a file in it that may still be written. -/
example :
    let tree := (put {} ["y"] (.file [])).forbid .writing []
    tree.writable [] "y" = .ok ["y"] ∧ tree.writable [] "z" = .error .permissionDenied := by
  decide +kernel

end FileTree

/-! ### Runs -/

namespace Run

variable {α β : Type} {tree : FileTree} {run : Run α} {mid : α → Prop} {post : β → Prop}

/-- Whether a run writes only what may be written in this tree, and all that it returns
has this property. -/
def Stays (tree : FileTree) (run : Run α) (post : α → Prop) : Prop :=
  ∀ world : World, tree.Within world.files →
    tree.Within (run.run.run world).2.files ∧ ∀ a, (run.run.run world).1 = .ok a → post a

theorem Stays.bind {next : α → Run β} (h : run.Stays tree mid)
    (hnext : ∀ a, mid a → (next a).Stays tree post) : Stays tree (run >>= next) post := by
  intro world hworld
  obtain ⟨hbetween, hmid⟩ := h world hworld
  rw [run_bind]
  rcases hrun : run.run.run world with ⟨failure | a, between⟩
  · rw [hrun] at hbetween
    exact ⟨hbetween, nofun⟩
  · rw [hrun] at hbetween hmid
    exact hnext a (hmid a rfl) between hbetween

theorem Stays.bind_true {next : α → Run β} (h : run.Stays tree fun _ => True)
    (hnext : ∀ a, (next a).Stays tree post) : Stays tree (run >>= next) post :=
  h.bind fun a _ => hnext a

theorem stays_of_files (h : ∀ world : World, (run.run.run world).2.files = world.files) :
    run.Stays tree fun _ => True := by
  intro world hworld
  rw [h world]
  exact ⟨hworld, fun _ _ => trivial⟩

theorem Quiet.stays (h : run.Quiet) : run.Stays tree fun _ => True :=
  stays_of_files fun world => (h world).files

theorem stays_pure {a : α} (h : mid a) : Stays tree (pure a) mid := by
  intro world hworld
  refine ⟨hworld, fun a' ha' => ?_⟩
  cases ha'
  exact h

theorem stays_setContent {place : Place} (h : tree.permits .writing (tree.gate place) = true)
    (content : List UInt8) : (setContent place content).Stays tree fun _ => True :=
  fun _ hworld => ⟨hworld.put h content, fun _ _ => trivial⟩

theorem stays_writeOutput (bytes : List UInt8) :
    (writeOutput bytes).Stays tree fun _ => True :=
  stays_of_files fun _ => rfl

theorem stays_writeError (text : String) : (writeError text).Stays tree fun _ => True :=
  stays_of_files fun _ => rfl

end Run

/-! ### Commands -/

namespace Command

open Run (Quiet stays_pure stays_setContent stays_writeOutput stays_writeError)

variable {options : FilterOptions} {quiet : Bool} {tree : FileTree}

theorem stays_inform (message : String) : (inform message).Stays tree fun _ => True :=
  (Quiet.log _).stays

/-- A place that has been created is one that may be written. -/
theorem stays_create (task : Task) (name : String) :
    (create task name).Stays tree fun place =>
      tree.permits .writing (tree.gate place) = true := by
  intro world hworld
  rcases hrun : (create task name).run.run world with ⟨failure | place, after⟩
  · obtain ⟨e, -, -, rfl⟩ := fails_create_iff.mp hrun
    exact ⟨hworld, nofun⟩
  · obtain ⟨hwritable, rfl⟩ := returns_create_iff.mp hrun
    have hplace := hworld.permits_of_writable hwritable
    refine ⟨hworld.put hplace [], fun found hfound => ?_⟩
    cases hfound
    exact hplace

theorem stays_openOutput (name? : Option String) :
    (openOutput name?).Stays tree fun output =>
      ∀ place, output = some place → tree.permits .writing (tree.gate place) = true := by
  cases name? with
  | none => exact stays_pure nofun
  | some name =>
    refine (stays_inform _).bind_true fun _ => (stays_create _ name).bind fun place hplace => ?_
    refine stays_pure fun found hfound => ?_
    cases hfound
    exact hplace

theorem stays_filterInto {output : Option Place}
    (h : ∀ place, output = some place → tree.permits .writing (tree.gate place) = true)
    (engine : Engine) (reveal : Bool) (input : Input) :
    (filterInto engine reveal input output).Stays tree fun _ => True := by
  refine (quiet_readInput input).stays.bind_true fun bytes =>
    (Quiet.log _).stays.bind_true fun _ => ?_
  cases output with
  | none => exact (stays_writeOutput _).bind_true fun _ => stays_pure trivial
  | some place =>
    exact (stays_setContent (h place rfl) _).bind_true fun _ => stays_pure trivial

theorem stays_writeReport (report : Report) (name : String) :
    (writeReport report name).Stays tree fun _ => True :=
  (stays_create _ name).bind fun _ hplace =>
    (stays_setContent hplace _).bind_true fun _ => stays_inform _

theorem stays_conclude (report : Report) :
    (conclude options quiet report).Stays tree fun _ => True := by
  rw [conclude]
  split
  · exact (stays_writeError _).bind_true fun _ => stays_inform _
  · exact stays_inform _

theorem stays_announce (report : Report) :
    (announce options quiet report).Stays tree fun _ => True := by
  rw [announce]
  cases options.jsonFile with
  | none => exact stays_conclude report
  | some name => exact (stays_writeReport report name).bind_true fun _ => stays_conclude report

theorem stays_runFilter (environment : Environment) (options : FilterOptions) (quiet : Bool) :
    (runFilter environment options quiet).Stays tree fun _ => True := by
  rw [runFilter_eq]
  exact (quiet_prepare environment options).stays.bind_true fun engine =>
    (quiet_openInput options.inputFile).stays.bind_true fun input =>
      (stays_openOutput options.output).bind fun output houtput =>
        (stays_filterInto houtput engine environment.reveals input).bind_true fun report =>
          stays_announce report

theorem stays_run (environment : Environment) (quiet : Bool) (command : Command) :
    (run environment quiet command).Stays tree fun _ => True := by
  cases command with
  | filter options => exact stays_runFilter environment options quiet
  | list source =>
    exact (quiet_buildConfig environment source).stays.bind_true fun _ => stays_writeOutput _
  | check pattern replacement paths => exact stays_writeOutput _

end Command

/-! ### The main result -/

namespace Program

variable {environment : Environment} {arguments : List String} {options : Options}
  {world : World} {place : Place}

theorem files_refuse (refusal : CommandLine.Refusal) :
    (refuse world refusal).world.files = world.files := by
  -- For any bytes, so that no help text is encoded to see this.
  have hprint (bytes : List UInt8) : ({ world with stdout := bytes } : World).files = world.files :=
    rfl
  unfold refuse
  split
  case h_1 => exact hprint _
  case h_2 => exact hprint _
  case h_3 => rfl
  case h_4 => rfl

theorem world_run (h : CommandLine.read environment.ruleFile arguments = .ok options) :
    (run environment arguments world).world =
      ((Run.log [⟨.info, "pathscrub", s!"pathscrub started. Version: {version}"⟩] >>= fun _ =>
        Command.run environment options.quiet options.command).run.run world).2 := by
  rw [run, h]
  rfl

/-- **A run writes only where it may.** Whatever the arguments and however the program
ends, a file that is not what it was is one that could be written, or that could be put
into its directory. -/
theorem permits_of_run_ne
    (h : (run environment arguments world).world.files.get? place ≠ world.files.get? place) :
    world.files.permits .writing (world.files.gate place) = true := by
  have hwithin : world.files.Within (run environment arguments world).world.files := by
    cases hread : CommandLine.read environment.ruleFile arguments with
    | error refusal =>
      rw [run, hread, files_refuse]
      exact .refl _
    | ok options =>
      rw [world_run hread]
      have hstays (records : List Log.Record) :
          (Run.log records >>= fun _ =>
            Command.run environment options.quiet options.command).Stays world.files fun _ => True :=
        (Run.Quiet.log records).stays.bind_true fun _ => Command.stays_run _ _ _
      exact (hstays _ world (.refl _)).1
  exact (hwithin.get?_eq place).resolve_left h

end Program

end PathVeil
