import MethodMarkers.Toml.Quoted
import MethodMarkers.Toml.Reading
import MethodMarkers.Toml.Value

namespace MethodMarkers.Toml
open Text

def isDigitOf (base : Nat) (c : Char) : Bool :=
  (hexValue? c).any (decide <| · < base)

/-- A text without its underscores, each of which has to stand between two digits. -/
def dropUnderscores? (base : Nat) : List Char → Option (List Char)
  | [] => some []
  | '_' :: _ => none
  | c :: '_' :: d :: cs =>
    if isDigitOf base c && isDigitOf base d then (c :: ·) <$> dropUnderscores? base (d :: cs)
    else none
  | c :: cs => (c :: ·) <$> dropUnderscores? base cs

def baseOf : List Char → Nat
  | '0' :: 'x' :: _ => 16
  | '0' :: 'o' :: _ => 8
  | '0' :: 'b' :: _ => 2
  | _ => 10

def hasLeadingZero : List Char → Bool
  | '0' :: c :: _ => c ∉ ['.', 'e', 'E', 'x', 'o', 'b']
  | _ => false

def endsWithPoint (cs : List Char) : Bool :=
  cs.getLast? == some '.' || (cs.takeWhile (·.toLower != 'e')).getLast? == some '.'

/-- A number. A sign stands only before the base ten, and before a digit or a word there. -/
def number? (token : List Char) : Option Value :=
  let sign := token.take 1 |>.filter fun c => c == '+' || c == '-'
  let magnitude := token.drop sign.length
  let base := baseOf magnitude
  if hasLeadingZero magnitude then none
  else if sign ≠ [] ∧ (base ≠ 10 ∨ magnitude.head? = some '.') then none
  else do
    let digits ← dropUnderscores? base magnitude
    if endsWithPoint digits then none
    else match integer? base (sign ++ digits) with
      | .ok n => some (.integer n)
      | .error (.tooLong _) => none
      | .error .malformed => Value.float <$> Binary64.ofText? (sign ++ digits)

def digits? (cs : List Char) : Option Nat :=
  if cs.all Char.isDigit then
    match integer? 10 cs with
    | .ok n => some n.toNat
    | .error _ => none
  else none

def fixedNumber? (width : Nat) (cs : List Char) : Option (Nat × List Char) :=
  if (cs.take width).length = width then (digits? (cs.take width)).map (·, cs.drop width)
  else none

def afterMark? (marks : List Char) : List Char → Option (List Char)
  | [] => none
  | c :: cs => if marks.contains c then some cs else none

/-- A date, whose year may have any number of digits. -/
def date? (cs : List Char) : Option (Date × List Char) := do
  let year ← digits? (cs.takeWhile Char.isDigit)
  let (month, cs) ← fixedNumber? 2 (← afterMark? ['-'] (cs.dropWhile Char.isDigit))
  let (day, cs) ← fixedNumber? 2 (← afterMark? ['-'] cs)
  let date : Date := ⟨year, month, day⟩
  if date.valid then some (date, cs) else none

/-- The microseconds in the digits behind a point; those beyond the sixth do not count. -/
def fraction? : List Char → Option (Nat × List Char)
  | '.' :: cs =>
    let places := cs.takeWhile Char.isDigit
    if places = [] then none
    else (digits? ((places ++ Binary64.zeros 6).take 6)).map (·, cs.drop places.length)
  | cs => some (0, cs)

/-- The seconds and microseconds behind a colon; a time may have none. -/
def seconds? : List Char → Option ((Nat × Nat) × List Char)
  | ':' :: cs => do
    let (second, cs) ← fixedNumber? 2 cs
    let (microsecond, cs) ← fraction? cs
    return ((second, microsecond), cs)
  | cs => some ((0, 0), cs)

def time? (cs : List Char) : Option (Time × List Char) := do
  let (hour, cs) ← fixedNumber? 2 cs
  let (minute, cs) ← fixedNumber? 2 (← afterMark? [':'] cs)
  let ((second, microsecond), cs) ← seconds? cs
  let time : Time := ⟨hour, minute, second, microsecond⟩
  if time.valid then some (time, cs) else none

/-- What stands behind the time of a moment: nothing, or an offset up to a day. -/
def offset? : List Char → Option (Option Offset)
  | [] => some none
  | ['Z'] | ['z'] => some (some .universal)
  | mark :: cs => do
    let cs ← afterMark? ['+', '-', '|'] (mark :: cs)
    let (hours, cs) ← fixedNumber? 2 cs
    let (minutes, cs) ← fixedNumber? 2 (← afterMark? [':'] cs)
    if cs = [] ∧ hours < 24 ∧ minutes < 60 then
      some (some (.minutes mark (60 * hours + minutes)))
    else none

def moment? (cs : List Char) : Option Moment :=
  match date? cs with
  | some (date, []) => some (.date date)
  | some (date, rest) => do
    let (time, rest) ← time? (← afterMark? ['T', 't', ' '] rest)
    return .dateTime date time (← offset? rest)
  | none =>
    match time? cs with
    | some (time, []) => some (.time time)
    | _ => none

def endsToken (c : Char) : Bool :=
  [' ', '\t', '\n', '\r', '#', ',', ']', '}'].contains c

/-- The moment or number that begins with a digit, and the text behind it. The text behind a date on
its line has to be blank up to the next mark, or the date's time. -/
def ofDigit? (cs : List Char) : Option (Value × List Char) :=
  let token := cs.takeWhile (!endsToken ·)
  let rest := cs.dropWhile (!endsToken ·)
  match date? token with
  | some (date, []) =>
    let continues (c : Char) : Bool := c == ' ' || !endsToken c
    let more := dropBlanksEnd (rest.takeWhile continues)
    let moment := if more = [] then some (.date date) else moment? (token ++ more)
    moment.map (Value.moment ·, rest.dropWhile continues)
  | _ => ((Value.moment <$> moment? token).or (number? token)).map (·, rest)

def startsWith (word : String) (cs : List Char) : Bool :=
  word.toList.isPrefixOf cs

/-- A value that is no quoted text, list or table, and the text behind it. -/
def scalar (cs : List Char) : Except Refusal (Found Value) :=
  let token := cs.takeWhile (!endsToken ·)
  let isWord := token = "inf".toList ∨ token = "nan".toList
  if startsWith "true" cs then .ok (.boolean true, cs.drop 4)
  else if startsWith "false" cs then .ok (.boolean false, cs.drop 5)
  else if cs.head?.any Char.isDigit then require (ofDigit? cs)
  else if cs.head? = some '+' ∨ cs.head? = some '-' ∨ isWord then
    require ((number? token).map (·, cs.dropWhile (!endsToken ·)))
  else refuseAt cs

end MethodMarkers.Toml
