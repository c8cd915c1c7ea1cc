import MethodMarkers.Log
import MethodMarkers.Text.Case
import MethodMarkers.Text.Numeral
import MethodMarkers.Text.Quoted

namespace MethodMarkers
open Text

/-- A text of nothing but digits that spell no number, or too many of them. -/
inductive BadLevel where
  | malformed (text : String)
  | tooLong (count : Nat)
  deriving DecidableEq, Repr

def BadLevel.message : BadLevel → String
  | malformed text =>
    "invalid literal for int() with base 10: " ++ String.ofList ((quoted text).toList.take 200)
  | tooLong count =>
    s!"Exceeds the limit ({longestNumeral} digits) for integer string conversion: " ++
      s!"value has {count} digits; use sys.set_int_max_str_digits() to increase the limit"

namespace Level

def ofName? : String → Option Level
  | "TRACE" => some trace
  | "DEBUG" => some debug
  | "INFO" => some info
  | "WARNING" | "WARN" => some warning
  | "ERROR" => some error
  | "CRITICAL" | "FATAL" => some critical
  | "NOTSET" => some 0
  | _ => none

/-- The level that a text asks for, by number or by name in letters of any case. A text that names
none asks for nothing. -/
def ofText (text : String) : Except BadLevel (Option Level) :=
  let cs := (trim text.toList).map asciiCapital
  let name := String.ofList cs
  if cs ≠ [] ∧ cs.all isDigit then
    match integer? 10 cs with
    | .ok n => .ok (some n)
    | .error .malformed => .error (.malformed name)
    | .error (.tooLong count) => .error (.tooLong count)
  else .ok (ofName? name)

def ofEnvironment : Option String → Except BadLevel (Option Level)
  | none => .ok none
  | some text => if text = "" then .ok none else ofText text

/-- The lowest level that is shown: the given one, or what the environment asks for. Zero there
counts as nothing, and without a wish only critical records are shown. -/
def threshold (level : Option Level) (environment : Option String) : Except BadLevel Level :=
  match level with
  | some level => .ok level
  | none => do
    match ← ofEnvironment environment with
    | none => .ok critical
    | some level => .ok (if level = 0 then critical else level)

/-- Below this threshold the place of a record is shown too. -/
def showsCallSite (threshold : Level) : Bool :=
  decide (threshold < info)

end Level

end MethodMarkers
