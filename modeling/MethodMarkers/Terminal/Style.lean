import MethodMarkers.Text.Word

namespace MethodMarkers.Terminal
open Text

structure Style where
  onNumber : Nat
  offNumber : Nat
  deriving DecidableEq, Repr

def escapeChar : Char :=
  '\x1b'

def sequence (number : Nat) : List Char :=
  escapeChar :: '[' :: Nat.toDigits 10 number ++ ['m']

namespace Style

def bold : Style := ⟨1, 22⟩
def dim : Style := ⟨2, 22⟩
def red : Style := ⟨31, 39⟩
def green : Style := ⟨32, 39⟩
def yellow : Style := ⟨33, 39⟩
def blue : Style := ⟨34, 39⟩
def cyan : Style := ⟨36, 39⟩
def white : Style := ⟨37, 39⟩
def gray : Style := ⟨90, 39⟩
def brightRed : Style := ⟨91, 39⟩

def on (style : Style) : List Char :=
  sequence style.onNumber

def off (style : Style) : List Char :=
  sequence style.offNumber

end Style

/-- Whether a reset sequence follows before the end of the line. -/
def resetFollows : List Char → Bool
  | [] => false
  | '\x1b' :: '[' :: '0' :: 'm' :: _ => true
  | c :: cs => c != '\n' && resetFollows cs

/-- Puts `off` before and `on` behind every stretch of a line from one reset sequence to the next.
-/
def releaseResets (off on : List Char) (inside : Bool) : List Char → List Char
  | [] => []
  | '\x1b' :: '[' :: '0' :: 'm' :: cs =>
    if inside then sequence 0 ++ on ++ releaseResets off on false cs
    else if resetFollows cs then off ++ sequence 0 ++ releaseResets off on true cs
    else sequence 0 ++ releaseResets off on false cs
  | c :: cs => c :: releaseResets off on inside cs

def releaseLineEnds (off on : List Char) : List Char → List Char
  | [] => []
  | '\r' :: '\n' :: cs => off ++ '\r' :: '\n' :: on ++ releaseLineEnds off on cs
  | '\n' :: cs => off ++ '\n' :: on ++ releaseLineEnds off on cs
  | c :: cs => c :: releaseLineEnds off on cs

/-- Begins a style again wherever the text ends it. -/
def Style.resume (style : Style) (cs : List Char) : List Char :=
  replacePart style.off (style.off ++ style.on) cs

/-- A text in styles. The text keeps its own sequences, and no style reaches over a line end. -/
def paint (styles : List Style) (text : String) : String :=
  let on := styles.flatMap Style.on
  let off := styles.flatMap Style.off
  let cs := text.toList
  let body :=
    if cs.contains escapeChar then
      releaseResets off on false (styles.foldl (fun cs style => style.resume cs) cs)
    else cs
  String.ofList (on ++ releaseLineEnds off on body ++ off)

def paintIf (colour : Bool) (styles : List Style) (text : String) : String :=
  if colour then paint styles text else text

def sequenceLength? : List Char → Option Nat
  | '\x1b' :: '[' :: cs =>
    let isParameter (c : Char) : Bool := decide ('0' ≤ c) && decide (c ≤ '?')
    let isIntermediate (c : Char) : Bool := decide (' ' ≤ c) && decide (c ≤ '/')
    let rest := cs.dropWhile isParameter
    match rest.dropWhile isIntermediate with
    | final :: after =>
      if '@' ≤ final ∧ final ≤ '~' then some (cs.length + 2 - after.length) else none
    | [] => none
  | _ => none

def dropSequences (skip : Nat) : List Char → List Char
  | [] => []
  | c :: cs =>
    match skip with
    | left + 1 => dropSequences left cs
    | 0 =>
      match sequenceLength? (c :: cs) with
      | some length => dropSequences (length - 1) cs
      | none => c :: dropSequences 0 cs

def stripSequences (text : String) : String :=
  String.ofList (dropSequences 0 text.toList)

end MethodMarkers.Terminal
