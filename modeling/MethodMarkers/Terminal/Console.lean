import MethodMarkers.Log.Rendering

namespace MethodMarkers.Terminal

inductive Event where
  | printed (text : String)
  | complained (text : String)
  | recorded (record : Record)
  deriving DecidableEq, Repr

abbrev Session := Traced Event

def Session.ofLogged {α : Type} (x : Logged α) : Session α :=
  x.mapTrace .recorded

def outputText (events : List Event) : String :=
  String.join (events.map fun event =>
    match event with
    | .printed text => text
    | _ => "")

/-- What was complained of, and the records from a threshold on, one a line. -/
def errorText (threshold : Level) (colour : Bool) (events : List Event) : String :=
  String.join (events.map fun event =>
    match event with
    | .printed _ => ""
    | .complained text => text
    | .recorded record =>
      if threshold ≤ record.level then record.render none colour ++ "\n" else "")

/-- How a text stands out: in a colour, and bold or dim, or expressly not. -/
structure Emphasis where
  colour : Option Style := none
  bold : Option Bool := none
  dim : Option Bool := none
  deriving DecidableEq, Repr

def setting (style : Style) (wanted : Bool) : List Char :=
  if wanted then style.on else style.off

/-- A text with emphasis, and a reset behind it in any case. -/
def Emphasis.apply (emphasis : Emphasis) (text : String) : String :=
  let colour := (emphasis.colour.map Style.on).getD []
  let bold := (emphasis.bold.map (setting .bold)).getD []
  let dim := (emphasis.dim.map (setting .dim)).getD []
  String.ofList (colour ++ bold ++ dim ++ text.toList ++ sequence 0)

/-- A terminal to write to, with or without colour. Without colour no control sequence is written.
-/
structure Console where
  colour : Bool
  deriving DecidableEq, Repr

namespace Console

def lineEnd (ends : Bool) : String :=
  if ends then "\n" else ""

def clean (console : Console) (text : String) : String :=
  if console.colour then text else stripSequences text

def print (console : Console) (text : String) (ends : Bool := true) : Session Unit :=
  .happen (.printed (console.clean (text ++ lineEnd ends)))

def complain (console : Console) (colour : Style) (text : String) (ends : Bool) : Session Unit :=
  let emphasis : Emphasis := { colour := some colour }
  .happen (.complained (console.clean (emphasis.apply text ++ lineEnd ends)))

def warn (console : Console) (text : String) (ends : Bool := true) : Session Unit :=
  console.complain .yellow text ends

def error (console : Console) (text : String) (ends : Bool := true) : Session Unit :=
  console.complain .brightRed text ends

def styled (console : Console) (emphasis : Emphasis) (text : String) : String :=
  if console.colour then emphasis.apply text else text

end Console

end MethodMarkers.Terminal
