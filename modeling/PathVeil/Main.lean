import PathVeil.Program

/-!
# PathVeil.Main

The program at work: it looks at the files that its command line speaks of and at
what it may do with them, runs, and puts into effect what the run has left.
-/

namespace PathVeil.Main

/-- The files that a command writes, in order. -/
def writtenNames : Command → List String
  | .filter options => options.output.toList ++ options.jsonFile.toList
  | _ => []

/-- The files that a command may read or write. -/
def fileNames (environment : Environment) (command : Command) : List String :=
  let ruleFiles (source : RuleSource) : List String :=
    source.config.toList
      ++ Configuration.userFiles environment.homeDirectory? environment.configHome
  match command with
  | .filter options =>
    ruleFiles options.rules ++ options.inputFile.toList ++ writtenNames command
  | .list source => ruleFiles source
  | .check .. => []

/-- The places that the parts of a name lead to, one after another. -/
def stations (place : Place) : List String → List Place
  | [] => []
  | name :: names =>
    match FileTree.step place name with
    | .ok next => next :: stations next names
    | .error _ => []

/-- The places that have to be known to follow names from a directory. -/
def placesOf (directory : Place) (names : List String) : List Place :=
  (names.flatMap fun name =>
    stations (if name.startsWith "/" then [] else directory) (FileTree.parts name)).eraseDups

/-- The absolute name of a place. -/
def absolute (place : Place) : String := "/" ++ "/".intercalate place

/-- Whether a command reads the standard input. -/
def readsStdin : Command → Bool
  | .filter options => options.inputFile.isNone
  | _ => false

/-- The surroundings of the program. -/
def surroundings : IO Environment := do
  return {
    home := ← IO.getEnv "HOME"
    configHome := ← IO.getEnv "XDG_CONFIG_HOME"
    ruleFile := ← IO.getEnv "PATHSCRUB_CONFIG"
    revealPaths := ← IO.getEnv "PATHSCRUB_ALLOW_DEBUG_PII"
    logFilter := ← IO.getEnv "RUST_LOG" }

/-- Whether something was refused because the program has no right to it. -/
def isDenied {α : Type} : Except IO.Error α → Bool
  | .error (.permissionDenied ..) => true
  | _ => false

/-- Whether something was refused because a step can only be made from a directory, by
the number that the system has for that. -/
def isNoDirectory {α : Type} : Except IO.Error α → Bool
  | .error (.inappropriateType _ code _) => code = 20
  | _ => false

/-- Opens a file at its end, to find out whether it may be written. -/
def openForWriting (name : String) : IO (Except IO.Error Unit) := do
  return (← (IO.FS.Handle.mk name .append).toBaseIO).map fun _ => ()

/-- What stands for a content that may not be read. No output and no report is like it,
so that a file that was written can be told from it. -/
def unknownContent : List UInt8 := [0]

/-- Looks at a place, and notes what there is and what may not be done with it. What is
there and cannot be read for another reason counts as a directory. Whether a file may be
written is left open. -/
def look (tree : FileTree) (place : Place) : IO FileTree := do
  let content ← (IO.FS.readBinFile (absolute place)).toBaseIO
  -- The step from a directory to itself leads to no file, so none is made.
  let step ← openForWriting (absolute place ++ "/.")
  let tree := if isDenied step then tree.forbid .entering place else tree
  match content with
  | .ok bytes => return tree.put place (.file bytes.toList)
  | .error (.noFileOrDirectory ..) => return tree
  | .error (.permissionDenied ..) =>
    let node := if isNoDirectory step then .file unknownContent else .directory
    return (tree.put place node).forbid .reading place
  | .error _ => return tree.put place .directory

/-- The files at some places. -/
def snapshot (places : List Place) : IO FileTree := places.foldlM look {}

/-- The files that are not as they were, in the order in which they were written. -/
def changes (before after : FileTree) : List (Place × List UInt8) :=
  after.entries.reverse.filterMap fun (place, node) =>
    match node with
    | .file content => if before.get? place = some node then none else some (place, content)
    | .directory => none

/-- The first of the places at which no file may be written. -/
def firstDenied : List Place → IO (Option Place)
  | [] => return none
  | place :: places => do
    if isDenied (← openForWriting (absolute place)) then return some place
    firstDenied places

/-- Runs the program, and finds out whether it may write the files that it has to. If
not, no file has been given a content yet, and it is run once more knowing that. -/
def settle (environment : Environment) (arguments names : List String) (world : World) :
    Nat → IO Program.Ending
  | 0 => return Program.run environment arguments world
  | attempts + 1 => do
    let ending := Program.run environment arguments world
    let files := ending.world.files
    let places := names.filterMap fun name => (files.writable world.directory name).toOption
    -- A file that is not there by now was not asked for: the run has failed before that.
    match ← firstDenied (places.filter fun place => (files.get? place).isSome) with
    | none => return ending
    | some place =>
      let files := world.files.forbid .writing (world.files.gate place)
      settle environment arguments names { world with files } attempts

end PathVeil.Main

open PathVeil PathVeil.Main in
/-- The program. -/
def main (arguments : List String) : IO UInt32 := do
  let environment ← surroundings
  let directory := FileTree.parts (← IO.currentDir).toString
  let command? := (CommandLine.read environment.ruleFile arguments).toOption.map Options.command
  let names := (command?.map (fileNames environment)).getD []
  let files ← snapshot (directory :: placesOf directory names)
  let stdin ← if command?.any readsStdin then (← IO.getStdin).readBinToEnd else pure .empty
  let world : World := { files, directory, stdin := stdin.toList }
  let targets := (command?.map writtenNames).getD []
  let ending ← settle environment arguments targets world targets.length
  for (place, content) in changes files ending.world.files do
    IO.FS.writeBinFile (absolute place) content.toByteArray
  let stdout ← IO.getStdout
  stdout.write ending.world.stdout.toByteArray
  stdout.flush
  (← IO.getStderr).putStr ending.stderr
  return ending.exitCode.toUInt32
