import MethodMarkers.Binary64.Places
import MethodMarkers.Template.Place

namespace MethodMarkers.Template
open Text Toml

def asciiText (cs : List Char) : List Char :=
  cs.flatMap fun c => if c.toNat < 128 then [c] else numericEscape c

/-- The whole number in an argument; what stands behind the point of another number is dropped. -/
def wholeOf (letter : Char) : Value → Except Fault Int
  | .integer n => .ok n
  | .boolean b => .ok (if b then 1 else 0)
  | .float x =>
    match x, x.truncate? with
    | _, some n => .ok n
    | .nan, none => .error .notANumber
    | _, none => .error .infinite
  | value => .error (.notNumber letter value.kind)

def integerOf (letter : Char) : Value → Except Fault Int
  | .integer n => .ok n
  | .boolean b => .ok (if b then 1 else 0)
  | value => .error (.notInteger letter value.kind)

def realOf : Value → Except Fault Binary64
  | .float x => .ok x
  | .boolean b => .ok (.ofInt (if b then 1 else 0))
  | .integer n =>
    match Binary64.ofInt n with
    | .infinite _ => .error .tooLargeForReal
    | x => .ok x
  | value => .error (.notReal value.kind)

def characterOf : Value → Except Fault Char
  | .text s =>
    match s.toList with
    | [c] => .ok c
    | _ => .error .notCharacter
  | .integer n => ofNumber n
  | .boolean b => ofNumber (if b then 1 else 0)
  | _ => .error .notCharacter
where
  ofNumber (n : Int) : Except Fault Char :=
    if 0 ≤ n ∧ n < 0x110000 then .ok (Char.ofNat n.toNat) else .error .characterOutOfRange

/-- What stands for an argument, in three parts: its sign, the mark of its base, and the rest. -/
structure Parts where
  sign : List Char := []
  mark : List Char := []
  body : List Char
  /-- Whether it may be filled up with zeros. -/
  isNumber : Bool := false

def numberParts (place : Place) (mark text : List Char) : Parts :=
  match text with
  | '-' :: body => ⟨['-'], mark, body, true⟩
  | body => ⟨if place.plus then ['+'] else if place.blank then [' '] else [], mark, body, true⟩

def integerParts (place : Place) (base : Nat) (mark : List Char) (n : Int) : Except Fault Parts :=
  let precision := place.precision.getD 0
  if precisionBound - 4 < precision then .error .precisionTooLarge
  else
    let digits := Nat.toDigits base n.natAbs
    let padded := Binary64.zeros (precision - digits.length) ++ digits
    .ok (numberParts place (if place.alternate then mark else [])
      (if n < 0 then '-' :: padded else padded))

def realParts (place : Place) (layout : Binary64.Layout) (x : Binary64) : Parts :=
  numberParts place [] (x.format layout place.alternate (place.precision.getD 6))

def Parts.capital (parts : Parts) : Parts :=
  { parts with mark := parts.mark.map Char.toUpper, body := parts.body.map Char.toUpper }

def textParts (place : Place) (cs : List Char) : Parts :=
  { body := match place.precision with
      | some n => cs.take n
      | none => cs }

def convert (place : Place) (letter : Char) (index : Nat) (value : Value) : Except Fault Parts :=
  let real (layout : Binary64.Layout) : Except Fault Parts := do
    return realParts place layout (← realOf value)
  match letter with
  | 's' => .ok (textParts place value.plain.toList)
  | 'r' => .ok (textParts place value.display.toList)
  | 'a' => .ok (textParts place (asciiText value.display.toList))
  | 'd' | 'i' | 'u' => do
    integerParts { place with alternate := false } 10 [] (← wholeOf letter value)
  | 'o' => do integerParts place 8 ['0', 'o'] (← integerOf letter value)
  | 'x' => do integerParts place 16 ['0', 'x'] (← integerOf letter value)
  | 'X' => do return (← integerParts place 16 ['0', 'x'] (← integerOf letter value)).capital
  | 'e' => real .scientific
  | 'E' => do return (← real .scientific).capital
  | 'f' => real .fixed
  | 'F' => do return (← real .fixed).capital
  | 'g' => real .general
  | 'G' => do return (← real .general).capital
  | 'c' => do return { body := [← characterOf value] }
  | _ => .error (.unknownConversion letter index)

/-- The text for a place, filled up to its width: with blanks on one side of it, or with zeros
behind the sign and the mark of a number. -/
def lay (place : Place) (parts : Parts) : List Char :=
  let front := parts.sign ++ parts.mark
  let missing := place.width.getD 0 - (front.length + parts.body.length)
  if place.toLeft then front ++ parts.body ++ List.replicate missing ' '
  else if parts.isNumber && place.zero then front ++ Binary64.zeros missing ++ parts.body
  else List.replicate missing ' ' ++ front ++ parts.body

/-- Fills the places of a template of so many characters. Fuel bounds how many are left. -/
def fillWith (size : Nat) : (fuel : Nat) → Supply → List Char → Except Fault (List Char)
  | _, .listed (_ :: _), [] => .error .tooManyArguments
  | 0, _, _ | _, _, [] => .ok []
  | fuel + 1, supply, '%' :: '%' :: cs => ('%' :: ·) <$> fillWith size fuel supply cs
  | fuel + 1, supply, '%' :: cs => do
    let reader ← readPlace supply cs
    match reader.rest with
    | [] => .error .incomplete
    | letter :: rest =>
      let (value, supply) ← reader.supply.next
      let parts ← convert reader.place letter (size - rest.length - 1) value
      return lay reader.place parts ++ (← fillWith size fuel supply rest)
  | fuel + 1, supply, c :: cs => (c :: ·) <$> fillWith size fuel supply cs

/-- A template with its places filled. Without arguments a template is a plain text. -/
def fill (template : String) (arguments : List Value) : Except Fault String :=
  let cs := template.toList
  if arguments.isEmpty then .ok template
  else String.ofList <$> fillWith cs.length (cs.length + 1) (.of arguments) cs

end MethodMarkers.Template
