import MethodMarkers.Draft
import MethodMarkers.Log
import MethodMarkers.Toml.Document
import MethodMarkers.Toml.Printer

namespace MethodMarkers
open Text

inductive WrongKind where
  | noTable (key kind : String)
  | noText (key value : String)
  | noTexts (key value : String)
  deriving DecidableEq, Repr

def WrongKind.message : WrongKind → String
  | noTable key kind => s!"[{key}] must be a table, got {kind}"
  | noText key value => s!"'{key}' must be a string, got {value}"
  | noTexts key value => s!"'{key}' must be a list of strings, got {value}"

namespace SettingsTable

/-- The table of a key; empty if there is no value. -/
def tableAt (table : Toml.Table) (key : String) : Except WrongKind Toml.Table :=
  match table.get key with
  | .missing => .ok []
  | .table entries => .ok entries
  | value => .error (.noTable key value.kind)

def textAt? (table : Toml.Table) (key : String) : Except WrongKind (Option String) :=
  match table.get key with
  | .missing => .ok none
  | .text text => .ok (some text)
  | value => .error (.noText key value.display)

def textsAt? (table : Toml.Table) (key : String) : Except WrongKind (Option (List String)) :=
  match table.get key with
  | .missing => .ok none
  | value =>
    match value.texts? with
    | some texts => .ok (some texts)
    | none => .error (.noTexts key value.display)

def sections : List (String × List String) :=
  [("markers", ["begin", "end", "indent_unit"]),
   ("scanner", ["iterator_markers"]),
   ("files", ["extensions", "include_patterns", "exclude_patterns", "encoding"])]

/-- A warning for a section without meaning, or for each key without meaning in a section. -/
def unknownParts (origin : String) (name : String) (value : Toml.Value) : List String :=
  match sections.lookup name with
  | none => [s!"Unknown config section [{name}] in {origin}"]
  | some known =>
    let unknown := (value.entries?.getD []).filter fun entry => !known.contains entry.1
    unknown.map fun entry => s!"Unknown config key '{name}.{entry.1}' in {origin}"

def warnings (origin : String) (table : Toml.Table) : List String :=
  table.flatMap fun entry => unknownParts origin entry.1 entry.2

/-- The layer that a table describes. Its sections are looked at first, then the extensions, then
all other keys. -/
def draft (table : Toml.Table) : Except WrongKind Draft := do
  let markers ← tableAt table "markers"
  let scanner ← tableAt table "scanner"
  let files ← tableAt table "files"
  let extensions ← textsAt? files "extensions"
  let beginSample ← textAt? markers "begin"
  let endSample ← textAt? markers "end"
  let indentUnit ← textAt? markers "indent_unit"
  let iteratorMarkers ← textsAt? scanner "iterator_markers"
  let includePatterns ← textsAt? files "include_patterns"
  let excludePatterns ← textsAt? files "exclude_patterns"
  let encoding ← textAt? files "encoding"
  let list (texts : Option (List String)) : Toml.Value := (texts.map .ofTexts).getD .missing
  return {
    beginSample := .ofText? beginSample, endSample := .ofText? endSample
    indentUnit := .ofText? indentUnit, iteratorMarkers := list iteratorMarkers
    extensions := list (extensions.map (·.map normalizeExtension))
    includePatterns := list includePatterns, excludePatterns := list excludePatterns
    encoding := .ofText? encoding }

def originName (source : Option Path) : String :=
  (source.map toString).getD "<config>"

/-- Reads a table, with a warning for everything in it that has no meaning. -/
def read (source : Option Path) (table : Toml.Table) : Logged (Except WrongKind Draft) := do
  (warnings (originName source) table).forM (.note .warning)
  return (draft table).map fun layer => { layer with sources := source.toList }

end SettingsTable

def Snapshot.table (snapshot : Snapshot) : Toml.Table :=
  [("markers", .table
      [("begin", snapshot.beginSample), ("end", snapshot.endSample),
       ("indent_unit", snapshot.indentUnit)]),
   ("scanner", .table [("iterator_markers", .list snapshot.iteratorMarkers)]),
   ("files", .table
      [("extensions", .list snapshot.extensions),
       ("include_patterns", .list snapshot.includePatterns),
       ("exclude_patterns", .list snapshot.excludePatterns),
       ("encoding", snapshot.encoding)])]

namespace Settings

def table (settings : Settings) : Toml.Table :=
  (Snapshot.ofSettings settings).table

def document (settings : Settings) : String :=
  (Toml.print? settings.table).getD ""

end Settings

end MethodMarkers
