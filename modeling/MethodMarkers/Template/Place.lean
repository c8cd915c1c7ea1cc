import MethodMarkers.Template.Fault
import MethodMarkers.Toml.Value

namespace MethodMarkers.Template

/-- What fills the places of a template: arguments in order, or a table whose entries places name. A
table itself, and each entry that was named, can be used once. -/
inductive Supply where
  | listed (rest : List Toml.Value)
  | keyed (table : Toml.Table) (current : Option Toml.Value)

/-- A single table that has entries is there to be named. -/
def Supply.of : List Toml.Value → Supply
  | [.table (entry :: entries)] => .keyed (entry :: entries) (some (.table (entry :: entries)))
  | arguments => .listed arguments

def Supply.next : Supply → Except Fault (Toml.Value × Supply)
  | listed (value :: rest) => .ok (value, .listed rest)
  | keyed table (some value) => .ok (value, .keyed table none)
  | _ => .error .tooFewArguments

def Supply.find (key : String) : Supply → Except Fault Supply
  | listed _ => .error .noTable
  | keyed table _ =>
    match table.lookup key with
    | some value => .ok (.keyed table (some value))
    | none => .error (.noEntry key)

structure Place where
  toLeft : Bool := false
  plus : Bool := false
  blank : Bool := false
  alternate : Bool := false
  zero : Bool := false
  width : Option Nat := none
  precision : Option Nat := none
  deriving DecidableEq, Repr

/-- The part of a place that its reader is in, with the text that is left and what fills it. -/
structure Reader where
  place : Place
  rest : List Char
  supply : Supply

def readMarks (place : Place) : List Char → Place × List Char
  | '-' :: cs => readMarks { place with toLeft := true } cs
  | '+' :: cs => readMarks { place with plus := true } cs
  | ' ' :: cs => readMarks { place with blank := true } cs
  | '#' :: cs => readMarks { place with alternate := true } cs
  | '0' :: cs => readMarks { place with zero := true } cs
  | cs => (place, cs)

def untilClosed (depth : Nat) (key : List Char) : List Char → Option (List Char × List Char)
  | [] => none
  | ')' :: cs =>
    if depth = 0 then some (key.reverse, cs) else untilClosed (depth - 1) (')' :: key) cs
  | '(' :: cs => untilClosed (depth + 1) ('(' :: key) cs
  | c :: cs => untilClosed depth (c :: key) cs

def readKey (supply : Supply) : List Char → Except Fault (List Char × Supply)
  | '(' :: cs =>
    match supply with
    | .listed _ => .error .noTable
    | .keyed .. =>
      match untilClosed 0 [] cs with
      | none => .error .unclosedKey
      | some (key, rest) => do return (rest, ← supply.find (String.ofList key))
  | cs => .ok (cs, supply)

/-- The number that digits spell, and what follows; a number beyond the limit is refused. -/
def readNumber (limit : Nat) (tooBig : Fault) (n : Nat) :
    List Char → Except Fault (Nat × List Char)
  | [] => .ok (n, [])
  | c :: cs =>
    if c.isDigit then
      let n := 10 * n + (c.toNat - '0'.toNat)
      if limit < n then .error tooBig else readNumber limit tooBig n cs
    else .ok (n, c :: cs)

def sizeOf : Toml.Value → Except Fault Int
  | .integer n => .ok n
  | .boolean b => .ok (if b then 1 else 0)
  | _ => .error .sizeNotInteger

/-- One more than the greatest size of a width, and of a precision. -/
def widthBound : Nat :=
  Nat.pow 2 63

def precisionBound : Nat :=
  Nat.pow 2 31

/-- Reads a width. A negative argument asks for the left side. -/
def readWidth (reader : Reader) : Except Fault Reader :=
  match reader.rest with
  | '*' :: rest => do
    let (value, supply) ← reader.supply.next
    let n ← sizeOf value
    if (n < 0 ∧ widthBound < n.natAbs) ∨ (0 ≤ n ∧ widthBound ≤ n.natAbs) then
      .error .widthOutOfRange
    else
      let toLeft := reader.place.toLeft || decide (n < 0)
      return ⟨{ reader.place with width := some n.natAbs, toLeft }, rest, supply⟩
  | c :: rest =>
    if c.isDigit then do
      let (n, rest) ← readNumber (widthBound - 1) .widthTooBig 0 (c :: rest)
      return { reader with place := { reader.place with width := some n }, rest }
    else .ok reader
  | [] => .ok reader

/-- Reads a precision behind a point. A negative argument counts as zero. -/
def readPrecision (reader : Reader) : Except Fault Reader :=
  match reader.rest with
  | '.' :: '*' :: rest => do
    let (value, supply) ← reader.supply.next
    let n ← sizeOf value
    if (n < 0 ∧ precisionBound < n.natAbs) ∨ (0 ≤ n ∧ precisionBound ≤ n.natAbs) then
      .error .precisionOutOfRange
    else return ⟨{ reader.place with precision := some n.toNat }, rest, supply⟩
  | '.' :: rest => do
    let (n, rest) ← readNumber (precisionBound - 1) .precisionTooBig 0 rest
    return { reader with place := { reader.place with precision := some n }, rest }
  | _ => .ok reader

/-- A letter that says nothing. -/
def dropSizeLetter : List Char → List Char
  | 'h' :: cs | 'l' :: cs | 'L' :: cs => cs
  | cs => cs

/-- Reads a place behind its percent sign up to the letter of its conversion. -/
def readPlace (supply : Supply) (cs : List Char) : Except Fault Reader := do
  let (cs, supply) ← readKey supply cs
  let (place, rest) := readMarks {} cs
  let reader ← readPrecision (← readWidth ⟨place, rest, supply⟩)
  return { reader with rest := dropSizeLetter reader.rest }

end MethodMarkers.Template
