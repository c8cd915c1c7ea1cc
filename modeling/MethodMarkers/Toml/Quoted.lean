import MethodMarkers.Text.Numeral
import MethodMarkers.Text.Quoted

namespace MethodMarkers.Toml
open Text

def isPlain (c : Char) : Bool :=
  c == '\t' || (decide (32 ≤ c.toNat) && c.toNat != 127)

def shortEscapes : List (Char × Char) :=
  [('"', '"'), ('\\', '\\'), ('\x08', 'b'), ('\t', 't'), ('\n', 'n'), ('\x0c', 'f'), ('\r', 'r')]

def encodeChar (c : Char) : List Char :=
  match shortEscapes.lookup c with
  | some letter => ['\\', letter]
  | none => if isPlain c then [c] else '\\' :: 'u' :: hexDigits 4 c.toNat

def encode (s : String) : List Char :=
  '"' :: s.toList.flatMap encodeChar ++ ['"']

def charOf? (n : Int) : Option Char :=
  if 0 ≤ n ∧ n.toNat.isValidChar then some (Char.ofNat n.toNat) else none

/-- The characters that an escape of one letter may mean: there is one more than are written. -/
def letterEscapes : List (Char × Char) :=
  shortEscapes ++ [('\x1b', 'e')]

def numeralWidth? : Char → Option Nat
  | 'x' => some 2
  | 'u' => some 4
  | 'U' => some 8
  | _ => none

/-- Whether a number of more than two digits seems to be half of a pair, by its first two
characters. -/
def seemsHalfPair : List Char → Bool
  | first :: second :: _ :: _ =>
    first.toLower == 'd' && !(decide ('0' ≤ second) && decide (second ≤ '7'))
  | _ => false

/-- The character with the number that an escape spells in base sixteen. -/
def numberedChar? (cs : List Char) : Option Char :=
  if seemsHalfPair cs then none
  else match integer? 16 cs with
    | .ok n => charOf? n
    | .error _ => none

def isLineEnd (c : Char) : Bool :=
  c == '\n' || c == '\r'

def isGap (c : Char) : Bool :=
  c == ' ' || c == '\t' || isLineEnd c

inductive EscapeState where
  | outside
  /-- Behind the backslash. -/
  | begun
  /-- In a character's number: how many characters are left, and those so far, last one first. -/
  | numeral (left : Nat) (done : List Char)
  /-- In the white space that a backslash at the end of a line swallows. -/
  | gap (lineEnded : Bool)
  deriving DecidableEq, Repr

/-- Where a reader is behind swallowed white space. Without a line feed in it the backslash was no
escape. -/
def EscapeState.afterGap? (lineEnded : Bool) (cs : List Char) : Option EscapeState :=
  if cs.head?.any isGap then some (gap lineEnded)
  else if lineEnded then some outside
  else none

/-- What a closing run of quotes leaves of a text that began with three: the three before the text
behind it, and up to two more, which belong to the text. -/
def closeLines? (quote : Char) (done rest : List Char) : Option (String × List Char) :=
  let more := rest.takeWhile (· == quote)
  if more.length ≤ 2 then
    some (String.ofList (done.reverse ++ more), rest.drop more.length)
  else none

/-- A text up to its closing quote, or its closing three quotes when it may have several lines, and
what follows. `done` holds the characters before it, last one first. A backslash escapes only
between double quotes. -/
def decodeFrom (quote : Char) (multiline : Bool) (done : List Char) :
    EscapeState → List Char → Option (String × List Char)
  | _, [] => none
  | .outside, c :: cs =>
    if c = quote then
      if !multiline then some (String.ofList done.reverse, cs)
      else if cs.take 2 = [quote, quote] then closeLines? quote done (cs.drop 2)
      else decodeFrom quote multiline (c :: done) .outside cs
    else if c = '\\' ∧ quote = '"' then decodeFrom quote multiline done .begun cs
    else if isPlain c || (multiline && isLineEnd c) then
      decodeFrom quote multiline (c :: done) .outside cs
    else none
  | .begun, c :: cs =>
    match numeralWidth? c with
    | some width => decodeFrom quote multiline done (.numeral width []) cs
    | none =>
      match letterEscapes.find? (·.2 == c) with
      | some (meant, _) => decodeFrom quote multiline (meant :: done) .outside cs
      | none =>
        if multiline && isGap c then
          match EscapeState.afterGap? (c == '\n') cs with
          | some state => decodeFrom quote multiline done state cs
          | none => none
        else none
  | .gap lineEnded, c :: cs =>
    match EscapeState.afterGap? (lineEnded || c == '\n') cs with
    | some state => decodeFrom quote multiline done state cs
    | none => none
  | .numeral left numeral, c :: cs =>
    if 1 < left then decodeFrom quote multiline done (.numeral (left - 1) (c :: numeral)) cs
    else match numberedChar? (c :: numeral).reverse with
      | some meant => decodeFrom quote multiline (meant :: done) .outside cs
      | none => none

/-- The text behind a line end: a line feed, which a carriage return may precede. A carriage return
alone ends no line. -/
def afterLineEnd? : List Char → Option (List Char)
  | '\n' :: cs | '\r' :: '\n' :: cs => some cs
  | _ => none

/-- A text of several lines does not begin with the line end behind its opening quotes. -/
def dropLineEnd (cs : List Char) : List Char :=
  (afterLineEnd? cs).getD cs

def isQuote (c : Char) : Bool :=
  c == '"' || c == '\x27'

/-- A text between quotes, and whether there are three of them on each side, so that it may have
several lines. -/
def decode? : List Char → Option ((Bool × String) × List Char)
  | quote :: cs =>
    if !isQuote quote then none
    else if cs.take 2 = [quote, quote] then
      (decodeFrom quote true [] .outside (dropLineEnd (cs.drop 2))).map
        fun (text, rest) => ((true, text), rest)
    else (decodeFrom quote false [] .outside cs).map fun (text, rest) => ((false, text), rest)
  | [] => none

end MethodMarkers.Toml
