import MethodMarkers.Draft.Override
import MethodMarkers.SettingsTable
import MethodMarkers.Text.Encoding
import MethodMarkers.Text.Newline
import MethodMarkers.Tree

namespace MethodMarkers
open Text

inductive SettingsFault where
  | unreadable (path : Path) (fault : SystemFault)
  | invalid (origin : String)
  | wrongKind (origin : String) (fault : WrongKind)
  deriving DecidableEq, Repr

/-- A text that is no document is told by its origin alone. The words of the parser, which a report
appends behind a colon, are the parser's and not part of this message. -/
def SettingsFault.message : SettingsFault → String
  | unreadable path fault => s!"Cannot read config file {path}: {fault.message}"
  | invalid origin => s!"Invalid TOML in {origin}"
  | wrongKind origin fault => s!"{origin}: {fault.message}"

/-- Why settings are not loaded: a fault of the settings, or one that was not expected here. -/
inductive LoadFault where
  | settings (fault : SettingsFault)
  | clash (clash : Toml.Clash)
  | coding (fault : CodingFault)
  | closed (fault : OpenFault)
  | override (fault : OverrideFault)
  deriving DecidableEq, Repr

namespace SettingsFile

def ownName : String :=
  "profmark.toml"

def sharedName : String :=
  "pyproject.toml"

def sharedKey : Toml.Key :=
  ["tool", "profmark"]

def parse (origin : String) (text : String) : Except LoadFault Toml.Table :=
  match Toml.parse text with
  | .ok table => .ok table
  | .error .invalid => .error (.settings (.invalid origin))
  | .error (.clash clash) => .error (.clash clash)

/-- The document in a file. Line ends of any style count as line feeds. -/
def readDocument (tree : Tree) (path : Path) : Logged (Except LoadFault Toml.Table) :=
  match tree.read path with
  | .error (.refused fault) => pure (.error (.settings (.unreadable path fault)))
  | .error .nulInName => pure (.error (.closed .nulInName))
  | .ok (_, bytes) =>
    match Utf8.decode bytes with
    | .error fault => pure (.error (.coding fault))
    | .ok text =>
      match parse (toString path) (String.ofList (unifyNewlines text)) with
      | .error fault => pure (.error fault)
      | .ok table => do
        .note .debug s!"Loaded TOML from {path} ({table.length} top-level keys)"
        pure (.ok table)

def tableBelow? : Toml.Key → Toml.Table → Option Toml.Table
  | [], table => some table
  | name :: rest, table =>
    match table.get name with
    | .table entries => tableBelow? rest entries
    | _ => none

def sharedTable? (document : Toml.Table) : Option Toml.Table :=
  tableBelow? sharedKey document

/-- The settings table of a file; empty for a shared file without one. -/
def readTable (tree : Tree) (path : Path) : Logged (Except LoadFault Toml.Table) := do
  match ← readDocument tree path with
  | .error fault => pure (.error fault)
  | .ok document =>
    if path.name = sharedName then
      match sharedTable? document with
      | some table => pure (.ok table)
      | none => do
        let key := ".".intercalate sharedKey
        .note .debug s!"No [{key}] section in {path}"
        pure (.ok [])
    else pure (.ok document)

def read (tree : Tree) (path : Path) : Logged (Except LoadFault Draft) := do
  match ← readTable tree path with
  | .error fault => pure (.error fault)
  | .ok table =>
    match ← SettingsTable.read (some path) table with
    | .error fault => pure (.error (.settings (.wrongKind (toString path) fault)))
    | .ok draft => pure (.ok draft)

def isFile (tree : Tree) (path : Path) : Except LoadFault Bool :=
  (tree.isFile path).mapError fun fault => .closed (.refused fault)

/-- The settings file of a directory: its own one, or a shared one that has settings. -/
def discover (tree : Tree) (directory : Path) : Logged (Except LoadFault (Option Path)) := do
  let own := directory / Path.ofString ownName
  let shared := directory / Path.ofString sharedName
  match isFile tree own with
  | .error fault => pure (.error fault)
  | .ok true => pure (.ok (some own))
  | .ok false =>
    match isFile tree shared with
    | .error fault => pure (.error fault)
    | .ok false => pure (.ok none)
    | .ok true =>
      match ← readDocument tree shared with
      | .error fault => pure (.error fault)
      | .ok document => pure (.ok (if (sharedTable? document).isSome then some shared else none))

def mergeFiles (tree : Tree) : Draft → List Path → Logged (Except LoadFault Draft)
  | draft, [] => pure (.ok draft)
  | draft, path :: paths => do
    .note .info s!"Merging config file {path}"
    match ← read tree path with
    | .error fault => pure (.error fault)
    | .ok layer => mergeFiles tree (draft.merge layer) paths

def mergeDiscovered (tree : Tree) (directory : Path) (draft : Draft) :
    Logged (Except LoadFault Draft) := do
  match ← discover tree directory with
  | .error fault => pure (.error fault)
  | .ok none => pure (.ok draft)
  | .ok (some path) => do
    .note .info s!"Using project config {path}"
    match ← read tree path with
    | .error fault => pure (.error fault)
    | .ok layer => pure (.ok (draft.merge layer))

end SettingsFile

/-- Names that overrides cannot have beside the arguments of `load`. -/
def loadArguments : List String :=
  ["config_paths", "cwd", "no_config"]

/-- The settings for a run: the built-in ones, over them those of the directory's settings file, of
further files in order, and of overrides. Without a directory no settings file is looked for. -/
def Snapshot.load (tree : Tree) (directory : Option Path) (files : List Path)
    (overrides : Toml.Table) : Logged (Except LoadFault Snapshot) := do
  if let some (name, _) := overrides.find? (loadArguments.contains ·.1) then
    return .error (.override (.misuse (.argumentTwice name)))
  let discovered ← match directory with
    | none => pure (.ok Draft.defaults)
    | some directory => SettingsFile.mergeDiscovered tree directory Draft.defaults
  match discovered with
  | .error fault => pure (.error fault)
  | .ok draft =>
    match ← SettingsFile.mergeFiles tree draft files with
    | .error fault => pure (.error fault)
    | .ok draft =>
      match draft.freezeWith overrides with
      | .error fault => pure (.error (.override fault))
      | .ok snapshot => do
        .note .debug s!"Effective config: {snapshot.display}"
        pure (.ok snapshot)

def Settings.load (tree : Tree) (directory : Option Path) (files : List Path) :
    Logged (Except LoadFault Settings) := do
  return (← Snapshot.load tree directory files []).map Snapshot.settings

end MethodMarkers
