import MethodMarkers.Snapshot
import MethodMarkers.Text.Blank
import MethodMarkers.Text.Case

namespace MethodMarkers
open Text

/-- A layer of settings: whatever is missing is left to the layers below. -/
structure Draft where
  beginSample : Toml.Value := .missing
  endSample : Toml.Value := .missing
  indentUnit : Toml.Value := .missing
  iteratorMarkers : Toml.Value := .missing
  extensions : Toml.Value := .missing
  includePatterns : Toml.Value := .missing
  excludePatterns : Toml.Value := .missing
  encoding : Toml.Value := .missing
  sources : List Path := []
  /-- What was set under names of no setting, the last first. It hides what had the name before. -/
  strays : Toml.Table := []
  deriving Repr

def normalizeExtension (extension : String) : String :=
  let text := lower (String.ofList (trim extension.toList))
  if text.toList.head? = some '.' then text else "." ++ text

def Toml.Value.over (upper lower : Value) : Value :=
  if upper.isMissing then lower else upper

namespace Draft

def ofSnapshot (snapshot : Snapshot) : Draft where
  beginSample := snapshot.beginSample
  endSample := snapshot.endSample
  indentUnit := snapshot.indentUnit
  iteratorMarkers := .list snapshot.iteratorMarkers
  extensions := .list snapshot.extensions
  includePatterns := .list snapshot.includePatterns
  excludePatterns := .list snapshot.excludePatterns
  encoding := snapshot.encoding
  sources := snapshot.sources

def defaults : Draft :=
  ofSnapshot (.ofSettings {})

/-- The upper layer wins wherever it is set; the sources of both are kept. -/
def merge (lower upper : Draft) : Draft where
  beginSample := upper.beginSample.over lower.beginSample
  endSample := upper.endSample.over lower.endSample
  indentUnit := upper.indentUnit.over lower.indentUnit
  iteratorMarkers := upper.iteratorMarkers.over lower.iteratorMarkers
  extensions := upper.extensions.over lower.extensions
  includePatterns := upper.includePatterns.over lower.includePatterns
  excludePatterns := upper.excludePatterns.over lower.excludePatterns
  encoding := upper.encoding.over lower.encoding
  sources := lower.sources ++ upper.sources
  strays := upper.strays ++ lower.strays

def allow (draft : Draft) (operation : String) : Except Misuse Unit :=
  match draft.strays.get operation with
  | .missing => .ok ()
  | value => .error (.notCallable value.kind)

/-- Refuses to use the sources of a draft once all that it held was replaced. -/
def requireSources (draft : Draft) : Except Misuse Unit :=
  if (draft.strays.get "__dict__").isMissing then .ok ()
  else .error (.lacks "MutableConfig" "config_files")

def mergeAllowed (lower upper : Draft) : Except Misuse Draft := do
  lower.allow "merge_with"
  lower.requireSources
  return lower.merge upper

def fields (draft : Draft) : Except Misuse Toml.Table := do
  draft.requireSources
  return [("begin_marker", draft.beginSample), ("end_marker", draft.endSample),
    ("indent_unit", draft.indentUnit), ("iterator_markers", draft.iteratorMarkers),
    ("extensions", draft.extensions), ("include_patterns", draft.includePatterns),
    ("exclude_patterns", draft.excludePatterns), ("encoding", draft.encoding),
    ("config_files", .list (draft.sources.map fun path => .text (toString path)))]

/-- The part of a draft that freezing takes over. It goes through the list of settings, which a
value may hide. -/
def copy (draft : Draft) : Except Misuse Draft :=
  match draft.strays.get "__dataclass_fields__" with
  | .missing => .ok draft
  | .table [] => .ok { sources := draft.sources }
  | .table (entry :: _) => .error (.lacks entry.2.kind "_field_type")
  | value => .error (.lacks value.kind "values")

def listOf (value : Toml.Value) : Except Misuse (List Toml.Value) :=
  if value.isVacant then .ok [] else value.items

def freeze (draft : Draft) : Except Misuse Snapshot := do
  draft.allow "freeze"
  let full := defaults.merge (← draft.copy)
  let iteratorMarkers ← listOf full.iteratorMarkers
  let extensions ← listOf full.extensions
  let includePatterns ← listOf full.includePatterns
  let excludePatterns ← listOf full.excludePatterns
  draft.requireSources
  return {
    beginSample := full.beginSample, endSample := full.endSample, indentUnit := full.indentUnit
    iteratorMarkers, extensions, includePatterns, excludePatterns
    encoding := full.encoding, sources := full.sources }

end Draft

end MethodMarkers
