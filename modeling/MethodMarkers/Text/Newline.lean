namespace MethodMarkers.Text

inductive Newline where
  | lf
  | crlf
  | cr
  deriving DecidableEq, Repr

namespace Newline

def text : Newline → String
  | lf => "\n"
  | crlf => "\r\n"
  | cr => "\r"

end Newline

/-- A line without its end, and how it ends; only the last line of a text may have no end. -/
structure CutLine where
  chars : List Char
  newline : Option Newline
  deriving DecidableEq, Repr

/-- Puts a character in front of a text that is already cut into lines. A line feed that begins the
text belongs to a carriage return put in front of it. -/
def consChar (c : Char) (lines : List CutLine) : List CutLine :=
  match c, lines with
  | '\n', lines => ⟨[], some .lf⟩ :: lines
  | '\r', ⟨[], some .lf⟩ :: lines => ⟨[], some .crlf⟩ :: lines
  | '\r', lines => ⟨[], some .cr⟩ :: lines
  | c, [] => [⟨[c], none⟩]
  | c, line :: lines => ⟨c :: line.chars, line.newline⟩ :: lines

/-- The lines of a text. Only the three newlines end a line; every other separator is part of it. -/
def cutLines (text : List Char) : List CutLine :=
  text.foldr consChar []

structure NewlineCounts where
  lf : Nat
  crlf : Nat
  cr : Nat
  deriving DecidableEq, Repr

namespace NewlineCounts

def ofLines (lines : List CutLine) : NewlineCounts where
  lf := lines.countP (·.newline == some .lf)
  crlf := lines.countP (·.newline == some .crlf)
  cr := lines.countP (·.newline == some .cr)

/-- The most frequent newline. Ties go to LF before CRLF and CRLF before CR, and a text without
newlines has LF. -/
def dominant (counts : NewlineCounts) : Newline :=
  if counts.crlf ≤ counts.lf ∧ counts.cr ≤ counts.lf then .lf
  else if counts.cr ≤ counts.crlf then .crlf
  else .cr

def mixed (counts : NewlineCounts) : Bool :=
  decide (1 < (if counts.lf = 0 then 0 else 1) + (if counts.crlf = 0 then 0 else 1) +
    (if counts.cr = 0 then 0 else 1))

end NewlineCounts

def byteOrderMark : Char :=
  '\ufeff'

/-- Lines between which `separator` stands; it also follows the last line if `terminated`. A marked
text begins with a byte order mark. -/
def joinLines (separator : String) (terminated marked : Bool) (lines : List String) : String :=
  (if marked then byteOrderMark.toString else "") ++ separator.intercalate lines ++
    (if terminated && !lines.isEmpty then separator else "")

def unifyNewlines : List Char → List Char
  | [] => []
  | '\r' :: '\n' :: cs => '\n' :: unifyNewlines cs
  | '\r' :: cs => '\n' :: unifyNewlines cs
  | c :: cs => c :: unifyNewlines cs

/-- The characters at which a displayed text is cut into lines; a line feed after a carriage return
does not cut again. -/
def isSeparator (c : Char) : Bool :=
  let n := c.toNat
  (decide (0xA ≤ n) && decide (n ≤ 0xD)) || (decide (0x1C ≤ n) && decide (n ≤ 0x1E)) ||
    n == 0x85 || n == 0x2028 || n == 0x2029

/-- `displayLines` of a text whose first line begins with `line`, last character first. -/
def displayLinesAfter (line : List Char) : List Char → List String
  | [] => if line.isEmpty then [] else [String.ofList line.reverse]
  | '\r' :: '\n' :: cs => String.ofList line.reverse :: displayLinesAfter [] cs
  | c :: cs =>
    if isSeparator c then String.ofList line.reverse :: displayLinesAfter [] cs
    else displayLinesAfter (c :: line) cs

def displayLines (text : String) : List String :=
  displayLinesAfter [] text.toList

end MethodMarkers.Text
