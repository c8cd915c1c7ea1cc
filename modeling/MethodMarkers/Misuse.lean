import MethodMarkers.Toml.Value

namespace MethodMarkers

/-- A use that a value does not allow. The value is told by its kind. -/
inductive Misuse where
  | notIterable (kind : String)
  /-- The value was set under the name of an operation. -/
  | notCallable (kind : String)
  | lacks (kind part : String)
  | notJoinable (kind : String)
  | notSearchable (kind : String)
  | noEncoding (kind : String)
  | noClass (kind : String)
  | noDictionary (kind : String)
  | notWritable (part : String)
  /-- An override has the name of the draft that it is for. -/
  | draftTwice
  /-- An override has the name of another argument of the same operation. -/
  | argumentTwice (name : String)
  deriving DecidableEq, Repr

def Misuse.message : Misuse → String
  | notIterable kind => s!"'{kind}' object is not iterable"
  | notCallable kind => s!"'{kind}' object is not callable"
  | lacks kind part => s!"'{kind}' object has no attribute '{part}'"
  | notJoinable kind => s!"can only concatenate str (not \"{kind}\") to str"
  | notSearchable kind => s!"'in <string>' requires string as left operand, not {kind}"
  | noEncoding kind => s!"open() argument 'encoding' must be str or None, not {kind}"
  | noClass kind => s!"__class__ must be set to a class, not '{kind}' object"
  | noDictionary kind => s!"__dict__ must be set to a dictionary, not a '{kind}'"
  | notWritable part => s!"attribute '{part}' of 'MutableConfig' objects is not writable"
  | draftTwice => "MutableConfig.apply_overrides() got multiple values for argument 'self'"
  | argumentTwice name =>
    s!"profmark.config.model.load_config() got multiple values for keyword argument '{name}'"

namespace Toml.Value

def items : Value → Except Misuse (List Value)
  | list values => .ok values
  | text s => .ok (s.toList.map fun c => text c.toString)
  | table entries => .ok (entries.map fun entry => text entry.1)
  | value => .error (.notIterable value.kind)

def isVacant : Value → Bool
  | missing | text "" | integer 0 | float (.finite _ 0) | boolean false | list [] | table [] => true
  | _ => false

def leadingTexts : List Value → List String
  | text s :: values => s :: leadingTexts values
  | _ => []

def firstOther? (values : List Value) : Option Value :=
  values.find? (·.text?.isNone)

def textsWith (part : String) (values : List Value) : Except Misuse (List String) :=
  values.mapM fun
    | text s => .ok s
    | value => .error (.lacks value.kind part)

end Toml.Value

end MethodMarkers
