import MethodMarkers.Draft

namespace MethodMarkers

inductive OverrideFault where
  | unknown (name : String)
  | misuse (fault : Misuse)
  deriving DecidableEq, Repr

def OverrideFault.message : OverrideFault → String
  | unknown name => s!"Unknown config override: {name}"
  | misuse fault => fault.message

namespace Draft

def settingNames : List String :=
  ["begin_marker", "end_marker", "indent_unit", "iterator_markers", "extensions",
    "include_patterns", "exclude_patterns", "encoding"]

def spareNames : List String :=
  ["from_defaults", "from_toml_dict", "from_file", "merge_with", "apply_overrides", "freeze",
    "__annotations__", "__class__", "__dataclass_fields__", "__dataclass_params__", "__delattr__",
    "__dict__", "__dir__", "__doc__", "__eq__", "__format__", "__ge__", "__getattribute__",
    "__getstate__", "__gt__", "__hash__", "__init__", "__init_subclass__", "__le__", "__lt__",
    "__match_args__", "__module__", "__ne__", "__new__", "__reduce__", "__reduce_ex__", "__repr__",
    "__setattr__", "__sizeof__", "__str__", "__subclasshook__", "__weakref__"]

def set (draft : Draft) (name : String) (value : Toml.Value) : Except Misuse Draft :=
  match name with
  | "begin_marker" => .ok { draft with beginSample := value }
  | "end_marker" => .ok { draft with endSample := value }
  | "indent_unit" => .ok { draft with indentUnit := value }
  | "iterator_markers" => .ok { draft with iteratorMarkers := value }
  | "extensions" => do
    let extensions ← Toml.Value.textsWith "strip" (← value.items)
    return { draft with extensions := .ofTexts (extensions.map normalizeExtension) }
  | "include_patterns" => .ok { draft with includePatterns := value }
  | "exclude_patterns" => .ok { draft with excludePatterns := value }
  | "encoding" => .ok { draft with encoding := value }
  | "__class__" => .error (.noClass value.kind)
  | "__weakref__" => .error (.notWritable name)
  | "__dict__" =>
    match value with
    | .table entries => .ok { strays := (name, value) :: entries }
    | value => .error (.noDictionary value.kind)
  | _ => .ok { draft with strays := (name, value) :: draft.strays }

/-- Sets names to values in order, up to the first fault. A missing value leaves everything as it
is. -/
def setAll : Draft → Toml.Table → Draft × Except OverrideFault Unit
  | draft, [] => (draft, .ok ())
  | draft, (name, value) :: rest =>
    if !(settingNames ++ spareNames).contains name then (draft, .error (.unknown name))
    else if value.isMissing then setAll draft rest
    else match draft.set name value with
      | .ok draft => setAll draft rest
      | .error fault => (draft, .error (.misuse fault))

/-- Applies overrides. What was applied before a fault stays. -/
def applyOverrides (draft : Draft) (overrides : Toml.Table) : Draft × Except OverrideFault Unit :=
  match draft.allow "apply_overrides" with
  | .error fault => (draft, .error (.misuse fault))
  | .ok () =>
    if (overrides.lookup "self").isSome then (draft, .error (.misuse .draftTwice))
    else setAll draft overrides

def freezeWith (draft : Draft) (overrides : Toml.Table) : Except OverrideFault Snapshot := do
  let (draft, applied) := draft.applyOverrides overrides
  applied
  draft.freeze.mapError .misuse

end Draft

end MethodMarkers
