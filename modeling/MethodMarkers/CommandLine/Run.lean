import MethodMarkers.CommandLine.Help
import MethodMarkers.Failure
import MethodMarkers.Log.Threshold
import MethodMarkers.Report

namespace MethodMarkers.CommandLine
open Terminal

structure Surroundings where
  /-- Whether the output goes to a terminal, which may show colours. -/
  terminal : Bool := false
  /-- The level of the log, as the environment asks for it. -/
  logLevel : Option String := none
  deriving DecidableEq, Repr

structure Execution where
  exit : Nat
  output : String
  errorOutput : String
  tree : Tree
  deriving DecidableEq, Repr

/-- The exit for arguments that are refused. -/
def refusedArgumentsExit : Nat :=
  2

def contradiction : Failure :=
  ⟨.usage, "The '--verbose' and '--quiet' options are mutually exclusive."⟩

def complain (failure : Failure) (console : Option Console) : Session Unit :=
  match console with
  | some console =>
    console.error (console.styled { colour := some .brightRed } failure.message)
  | none => .happen (.complained (stripSequences s!"Error: {failure.message}\n"))

def processFiles (settings : Settings) (options : Options) (console : Console) (level : Level) :
    Tree → List Path → Session (Except BatchFault (List FileResult) × Tree)
  | tree, [] => pure (.ok [], tree)
  | tree, path :: paths => do
    match ← Session.ofLogged (Batch.oneFile settings.procedure options.dryRun tree path) with
    | .error fault => pure (.error fault, tree)
    | .ok (result, tree) => do
      Report.file console level options.diff result
      let (results, tree) ← processFiles settings options console level tree paths
      pure (results.map (result :: ·), tree)

def exitOf (dryRun : Bool) (results : List FileResult) : Exit :=
  if dryRun && results.any (·.changed) then .wouldChange else .success

/-- Instruments a target. What was done before a fault is kept. -/
def processTarget (settings : Settings) (options : Options) (console : Console) (level : Level)
    (tree : Tree) (target : Path) : Session (Except Failure Exit × Tree) := do
  match ← Session.ofLogged (Batch.resolve settings.procedure tree (toString target)) with
  | .error fault => pure (.error (.ofBatch fault), tree)
  | .ok paths => do
    match ← processFiles settings options console level tree paths with
    | (.error fault, tree) => pure (.error (.ofBatch fault), tree)
    | (.ok results, tree) => do
      Report.summary console level options.dryRun results
      pure (.ok (exitOf options.dryRun results), tree)

def perform (options : Options) (console : Console) (tree : Tree) :
    Session (Except Failure Exit × Tree) := do
  match reportLevel? options.verbose options.quiet with
  | none => pure (.error contradiction, tree)
  | some level => do
    let directory := if options.noConfig then none else some tree.workingPath
    let files := options.configFiles.map Path.ofString
    match ← Session.ofLogged (Settings.load tree directory files) with
    | .error fault => pure (.error (.ofLoad fault), tree)
    | .ok settings =>
      if options.dumpConfig then do
        console.print settings.document false
        pure (.ok .success, tree)
      else match options.path with
        | none => do
          console.print helpText false
          pure (.ok .usage, tree)
        | some path => processTarget settings options console level tree (Path.ofString path)

def settingsFiles (options : Options) : List Path :=
  [SettingsFile.ownName, SettingsFile.sharedName].map Path.ofString ++
    options.configFiles.map Path.ofString

/-- The lowest level that the log shows. A zero from the environment is taken at its word. -/
def shownLevel (surroundings : Surroundings) : Except BadLevel Level := do
  Level.threshold (← Level.ofEnvironment surroundings.logLevel) surroundings.logLevel

def runOptions (surroundings : Surroundings) (tree : Tree) (options : Options) : Execution :=
  match shownLevel surroundings with
  | .error _ => ⟨Exit.failure.code, "", "", tree⟩
  | .ok level =>
    let console : Console := ⟨surroundings.terminal && !options.noColor⟩
    let session := perform options console tree
    let finish (exit : Exit) (events : List Event) (tree : Tree) : Execution :=
      ⟨exit.code, outputText events,
        errorText level surroundings.terminal events, tree⟩
    match session.value with
    | (.ok exit, tree) => finish exit session.trace tree
    | (.error failure, tree) =>
      finish failure.exit (session.trace ++ (complain failure none).trace) tree

/-- Runs the command. Refused arguments, help and version leave everything else undone; help and
version are given even with extra arguments. A path with a null character is an error that nothing
is said about. -/
def run (surroundings : Surroundings) (tree : Tree) (arguments : List String) : Execution :=
  let refuse (fault : UsageFault) : Execution :=
    ⟨refusedArgumentsExit, "", stripSequences fault.text, tree⟩
  match Options.ofArguments arguments with
  | .error fault => refuse fault
  | .ok options =>
    match options.question with
    | some .version => ⟨Exit.success.code, versionText, "", tree⟩
    | some _ => ⟨Exit.success.code, helpText, "", tree⟩
    | none =>
      if options.hasNul then ⟨Exit.failure.code, "", "", tree⟩
      else if options.extra ≠ [] then refuse (.extraArguments options.extra)
      else runOptions surroundings tree options

end MethodMarkers.CommandLine
