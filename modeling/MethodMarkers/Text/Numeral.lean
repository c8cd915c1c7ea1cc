import MethodMarkers.Text.Blank
import MethodMarkers.Text.Digit

namespace MethodMarkers.Text

inductive NumeralFault where
  | malformed
  /-- There are more decimal digits than are read. -/
  | tooLong (count : Nat)
  deriving DecidableEq, Repr

def longestNumeral : Nat :=
  4300

/-- White space around a numeral: the information separators are none here. -/
def isNumeralBlank (c : Char) : Bool :=
  isBlank c && !(decide (0x1C ≤ c.toNat) && decide (c.toNat ≤ 0x1F))

def splitSign : List Char → Bool × List Char
  | '-' :: cs => (true, cs)
  | '+' :: cs => (false, cs)
  | cs => (false, cs)

def hexValue? (c : Char) : Option Nat :=
  if c.isDigit then some (c.toNat - '0'.toNat)
  else if 'a' ≤ c ∧ c ≤ 'f' then some (c.toNat - 'a'.toNat + 10)
  else if 'A' ≤ c ∧ c ≤ 'F' then some (c.toNat - 'A'.toNat + 10)
  else none

def digitValue? (base : Nat) (c : Char) : Option Nat :=
  ((hexValue? c).or (decimalValue? c)).filter (decide <| · < base)

/-- The values of the digits that a text begins with, and the text behind them. An underscore may
stand between two digits, and there is at least one. -/
def digitRun? (base : Nat) (afterDigit : Bool) : List Char → Option (List Nat × List Char)
  | [] => if afterDigit then some ([], []) else none
  | c :: cs =>
    if c = '_' then if afterDigit then digitRun? base false cs else none
    else match digitValue? base c with
      | some digit => (digitRun? base true cs).map fun (digits, rest) => (digit :: digits, rest)
      | none => if afterDigit then some ([], c :: cs) else none

def baseLetter? : (base : Nat) → Option Char
  | 2 => some 'b'
  | 8 => some 'o'
  | 16 => some 'x'
  | _ => none

def dropBaseMark (base : Nat) : List Char → List Char
  | '0' :: letter :: cs =>
    if baseLetter? base = some letter.toLower then
      match cs with
      | '_' :: cs => cs
      | cs => cs
    else '0' :: letter :: cs
  | cs => cs

def ofDigits (base : Nat) (digits : List Nat) : Nat :=
  digits.foldl (fun n digit => base * n + digit) 0

/-- The whole number that a text spells in a base, with an optional sign, between white space. -/
def integer? (base : Nat) (cs : List Char) : Except NumeralFault Int :=
  let (negative, cs) := splitSign (cs.dropWhile isNumeralBlank)
  match digitRun? base false (dropBaseMark base cs) with
  | none => .error .malformed
  | some (digits, rest) =>
    if base = 10 ∧ longestNumeral < digits.length then .error (.tooLong digits.length)
    else if rest.all isNumeralBlank then
      .ok (if negative then -(ofDigits base digits : Int) else ofDigits base digits)
    else .error .malformed

end MethodMarkers.Text
