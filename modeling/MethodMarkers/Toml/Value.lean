import MethodMarkers.Binary64.Shortest
import MethodMarkers.Text.Quoted
import MethodMarkers.Toml.Moment

namespace MethodMarkers.Toml
open Text

/-- A value of a document. No text spells a missing value. -/
inductive Value where
  | missing
  | text (text : String)
  | integer (n : Int)
  | float (x : Binary64)
  | boolean (b : Bool)
  | moment (moment : Moment)
  | list (items : List Value)
  | table (entries : List (String × Value))
  deriving Inhabited, Repr

/-- Keys with their values, in the order of their first appearance. -/
abbrev Table := List (String × Value)

namespace Value

def kind : Value → String
  | missing => "NoneType"
  | text _ => "str"
  | integer _ => "int"
  | float _ => "float"
  | boolean _ => "bool"
  | moment m => m.kind
  | list _ => "list"
  | table _ => "dict"

def isMissing : Value → Bool
  | missing => true
  | _ => false

theorem isMissing_iff {value : Value} : value.isMissing = true ↔ value = missing := by
  cases value <;> simp [isMissing]

def text? : Value → Option String
  | text s => some s
  | _ => none

def entries? : Value → Option Table
  | table entries => some entries
  | _ => none

def ofText? : Option String → Value
  | some s => text s
  | none => missing

def ofTexts (texts : List String) : Value :=
  list (texts.map text)

def texts? : Value → Option (List String)
  | list items => items.mapM text?
  | _ => none

mutual

def display : Value → String
  | missing => "None"
  | text s => quoted s
  | integer n => toString n
  | float x => x.text
  | boolean b => displayBool b
  | moment m => m.display
  | list items => "[" ++ ", ".intercalate (displayItems items) ++ "]"
  | table entries => "\x7b" ++ ", ".intercalate (displayEntries entries) ++ "\x7d"

def displayItems : List Value → List String
  | [] => []
  | item :: items => item.display :: displayItems items

def displayEntries : List (String × Value) → List String
  | [] => []
  | (key, value) :: entries => (quoted key ++ ": " ++ value.display) :: displayEntries entries

end

def plain : Value → String
  | text s => s
  | value => value.display

end Value

/-- The value of a key; a key that is not there has a missing value. -/
def Table.get (table : Table) (key : String) : Value :=
  (table.lookup key).getD .missing

end MethodMarkers.Toml
