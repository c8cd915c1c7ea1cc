import MethodMarkers.Misuse
import MethodMarkers.Settings

namespace MethodMarkers
open Text

/-- Settings with values of any kind. Whether a value is of use shows only where it is used. -/
structure Snapshot where
  beginSample : Toml.Value
  endSample : Toml.Value
  indentUnit : Toml.Value
  iteratorMarkers : List Toml.Value
  extensions : List Toml.Value
  includePatterns : List Toml.Value
  excludePatterns : List Toml.Value
  encoding : Toml.Value
  sources : List Path
  deriving Repr

/-- Items between parentheses; a single one is followed by a comma. -/
def displayItems (items : List String) : String :=
  match items with
  | [item] => "(" ++ item ++ ",)"
  | items => "(" ++ ", ".intercalate items ++ ")"

namespace Snapshot

def ofSettings (settings : Settings) : Snapshot where
  beginSample := .text settings.markers.beginSample
  endSample := .text settings.markers.endSample
  indentUnit := .text settings.markers.indentUnit
  iteratorMarkers := settings.iteratorMarkers.map .text
  extensions := settings.extensions.map .text
  includePatterns := settings.includePatterns.map .text
  excludePatterns := settings.excludePatterns.map .text
  encoding := .text settings.encoding
  sources := settings.sources

/-- The settings in texts: what shows a value stands for it, and a list ends before its first value
of another kind. -/
def settings (snapshot : Snapshot) : Settings where
  markers :=
    { beginSample := snapshot.beginSample.plain
      endSample := snapshot.endSample.plain
      indentUnit := snapshot.indentUnit.plain }
  iteratorMarkers := Toml.Value.leadingTexts snapshot.iteratorMarkers
  extensions := Toml.Value.leadingTexts snapshot.extensions
  includePatterns := Toml.Value.leadingTexts snapshot.includePatterns
  excludePatterns := Toml.Value.leadingTexts snapshot.excludePatterns
  encoding := snapshot.encoding.plain
  sources := snapshot.sources

def display (snapshot : Snapshot) : String :=
  let list (values : List Toml.Value) : String := displayItems (values.map Toml.Value.display)
  let fields : List (String × String) :=
    [("begin_marker", snapshot.beginSample.display),
     ("end_marker", snapshot.endSample.display),
     ("indent_unit", snapshot.indentUnit.display),
     ("iterator_markers", list snapshot.iteratorMarkers),
     ("extensions", list snapshot.extensions),
     ("include_patterns", list snapshot.includePatterns),
     ("exclude_patterns", list snapshot.excludePatterns),
     ("encoding", snapshot.encoding.display),
     ("config_files", displayItems (snapshot.sources.map Path.display))]
  "Config(" ++ ", ".intercalate (fields.map fun field => field.1 ++ "=" ++ field.2) ++ ")"

end Snapshot

end MethodMarkers
