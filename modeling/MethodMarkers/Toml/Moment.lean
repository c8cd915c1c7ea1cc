namespace MethodMarkers.Toml

structure Date where
  year : Nat
  month : Nat
  day : Nat
  deriving DecidableEq, Repr

structure Time where
  hour : Nat
  minute : Nat
  second : Nat
  microsecond : Nat
  deriving DecidableEq, Repr

/-- How far a clock is from universal time: behind it for a minus sign, ahead of it for any other
mark. -/
inductive Offset where
  | universal
  | minutes (mark : Char) (count : Nat)
  deriving DecidableEq, Repr

/-- A date, a time of day, or both. -/
inductive Moment where
  | date (date : Date)
  | time (time : Time)
  | dateTime (date : Date) (time : Time) (offset : Option Offset)
  deriving DecidableEq, Repr

def padded : (width : Nat) → Nat → List Char
  | 0, _ => []
  | width + 1, n => padded width (n / 10) ++ [Nat.digitChar (n % 10)]

def padText (width n : Nat) : String :=
  String.ofList (padded width n)

def isLeapYear (year : Nat) : Bool :=
  year % 4 == 0 && (year % 100 != 0 || year % 400 == 0)

def daysInMonth (year month : Nat) : Nat :=
  if month = 2 then if isLeapYear year then 29 else 28
  else if month = 4 ∨ month = 6 ∨ month = 9 ∨ month = 11 then 30
  else 31

def Date.valid (date : Date) : Bool :=
  decide (1 ≤ date.year) && decide (date.year ≤ 9999) &&
    decide (1 ≤ date.month) && decide (date.month ≤ 12) && decide (1 ≤ date.day) &&
    decide (date.day ≤ daysInMonth date.year date.month)

def Time.valid (time : Time) : Bool :=
  decide (time.hour < 24) && decide (time.minute < 60) && decide (time.second < 60)

def Date.text (date : Date) : String :=
  s!"{padText 4 date.year}-{padText 2 date.month}-{padText 2 date.day}"

/-- Microseconds are written only when there are any. -/
def Time.text (time : Time) : String :=
  s!"{padText 2 time.hour}:{padText 2 time.minute}:{padText 2 time.second}" ++
    if time.microsecond = 0 then "" else "." ++ padText 6 time.microsecond

def Offset.text : Offset → String
  | universal => "+00:00"
  | minutes mark count =>
    (if mark == '-' && count != 0 then "-" else "+") ++ padText 2 (count / 60) ++ ":" ++
      padText 2 (count % 60)

def Moment.text : Moment → String
  | date d => d.text
  | time t => t.text
  | dateTime d t offset =>
    d.text ++ "T" ++ t.text ++ ((offset.map Offset.text).getD "")

/-- The seconds and microseconds of a time as they are displayed: zeros at the end are left out. -/
def Time.smallParts (time : Time) : List Nat :=
  if time.microsecond = 0 then if time.second = 0 then [] else [time.second]
  else [time.second, time.microsecond]

def Date.parts (date : Date) : List Nat :=
  [date.year, date.month, date.day]

def Time.parts (time : Time) : List Nat :=
  time.hour :: time.minute :: time.smallParts

def displaySpan (behind : Bool) (minutes : Nat) : String :=
  if minutes = 0 then "datetime.timedelta(0)"
  else if behind then s!"datetime.timedelta(days=-1, seconds={86400 - 60 * minutes})"
  else s!"datetime.timedelta(seconds={60 * minutes})"

/-- An offset with its name, which keeps the mark that was written. -/
def Offset.display : Offset → String
  | universal => "datetime.timezone(datetime.timedelta(0), 'UTC')"
  | minutes mark count =>
    let name := mark.toString ++ padText 2 (count / 60) ++ ":" ++ padText 2 (count % 60)
    let span := displaySpan (mark == '-') count
    s!"datetime.timezone({span}, '{name}')"

def displayParts (parts : List Nat) : String :=
  ", ".intercalate (parts.map toString)

def Moment.display : Moment → String
  | date d => s!"datetime.date({displayParts d.parts})"
  | time t => s!"datetime.time({displayParts t.parts})"
  | dateTime d t offset =>
    let zone := match offset with
      | some offset => ", tzinfo=" ++ offset.display
      | none => ""
    s!"datetime.datetime({displayParts (d.parts ++ t.parts)}{zone})"

def Moment.kind : Moment → String
  | date _ => "date"
  | time _ => "time"
  | dateTime .. => "datetime"

end MethodMarkers.Toml
