import MethodMarkers.Text.Blank
import MethodMarkers.Text.Pattern
import MethodMarkers.Text.Quoted
import MethodMarkers.Path

namespace MethodMarkers
open Text

/-- A pattern that selects paths in the way of ignore files. A negated one deselects. -/
structure IgnorePattern where
  negated : Bool
  pattern : Pattern

namespace IgnorePattern

inductive Member where
  | one (c : Char)
  | range (first last : Char)
  deriving DecidableEq, Repr

inductive Piece where
  | literal (c : Char)
  | anyChar
  | anyRun
  | oneOf (negated : Bool) (members : List Member)
  deriving DecidableEq, Repr

def Member.holds (c : Char) : Member → Bool
  | one d => c == d
  | range first last => decide (first ≤ c) && decide (c ≤ last)

def members : List Char → List Member
  | a :: '-' :: b :: rest => .range a b :: members rest
  | a :: rest => .one a :: members rest
  | [] => []

/-- What stands in a bracket expression and what follows it, if it is closed. A closing bracket that
comes first is a member. -/
def bracket? (cs : List Char) : Option (List Char × List Char) :=
  let (first, rest) := match cs with
    | ']' :: rest => ([']'], rest)
    | rest => ([], rest)
  let inside := rest.takeWhile (· != ']')
  match rest.drop inside.length with
  | _ :: after => some (first ++ inside, after)
  | [] => none

inductive SegmentFault where
  | unclosed
  | loneBackslash
  deriving DecidableEq, Repr

/-- The pieces of a segment. A bracket that is never closed undoes the whole pattern. -/
def pieces : (fuel : Nat) → List Char → Except SegmentFault (List Piece)
  | 0, _ | _, [] => .ok []
  | fuel + 1, '\\' :: cs =>
    match cs with
    | [] => .error .loneBackslash
    | c :: cs => (pieces fuel cs).map (.literal c :: ·)
  | fuel + 1, '*' :: cs => (pieces fuel cs).map (.anyRun :: ·)
  | fuel + 1, '?' :: cs => (pieces fuel cs).map (.anyChar :: ·)
  | fuel + 1, '[' :: cs =>
    let (negated, cs) := match cs with
      | '!' :: cs | '^' :: cs => (true, cs)
      | cs => (false, cs)
    match bracket? cs with
    | some (inside, rest) => (pieces fuel rest).map (.oneOf negated (members inside) :: ·)
    | none => .error .unclosed
  | fuel + 1, c :: cs => (pieces fuel cs).map (.literal c :: ·)

def notSlash (c : Char) : Bool :=
  c != '/'

def Piece.pattern : Piece → Pattern
  | literal c => .literal [c]
  | anyChar => .one notSlash
  | anyRun => .runOrEmpty notSlash
  | oneOf negated members => .one fun c => members.any (·.holds c) != negated

inductive Segment where
  | anyDirectories
  | anyName
  | name (pieces : List Piece)
  deriving DecidableEq, Repr

def segment (cs : List Char) : Except SegmentFault Segment :=
  if cs = ['*', '*'] then .ok .anyDirectories
  else if cs = ['*'] then .ok .anyName
  else (pieces cs.length cs).map .name

def slash : Pattern :=
  .literal ['/']

/-- Any character but a line feed, which no run of directories spans. -/
def anyRun : Pattern :=
  .run (· != '\n')

/-- The pattern of the segments from one on. `slashBefore` tells whether something came before that
a slash must part from the next name. -/
def compile (isFirst slashBefore : Bool) : List Segment → Pattern
  | [] => .empty
  | .anyDirectories :: [] =>
    if isFirst then .seq .textStart (.optional (.seq anyRun slash)) else slash
  | .anyDirectories :: rest =>
    if isFirst then
      .seq .textStart (.seq (.optional (.seq anyRun slash)) (compile false false rest))
    else .seq (.optional (.seq slash anyRun)) (compile false true rest)
  | segment :: rest =>
    let name := match segment with
      | .name pieces => .concat (pieces.map Piece.pattern)
      | _ => .run notSlash
    let after := match rest with
      | [] => .choice slash .textEnd
      | rest => compile false true rest
    .seq (if isFirst then .textStart else if slashBefore then slash else .empty) (.seq name after)

def collapse : List Segment → List Segment
  | .anyDirectories :: .anyDirectories :: rest => collapse (.anyDirectories :: rest)
  | first :: rest => first :: collapse rest
  | [] => []

/-- The segments of a pattern as it is matched: a single name may stand at any depth, and a slash at
the end asks for a directory. -/
def normalize (parts : List (List Char)) : List (List Char) :=
  let anywhere := ['*', '*']
  let anchored := match parts with
    | [] :: rest => rest
    | [one] => if one = anywhere then [one] else [anywhere, one]
    | [one, []] => if one = anywhere then [one, []] else [anywhere, one, []]
    | parts => parts
  match anchored.getLast? with
  | some [] => anchored.dropLast ++ [anywhere]
  | _ => anchored

/-- The whole pattern: of the shortest ones, some match every path and some every path below a
directory. -/
def ofSegments (isDirectory : Bool) : List Segment → Pattern
  | [.anyDirectories] => if isDirectory then slash else .one (· != '\n')
  | [.anyDirectories, .anyName] => .one (· != '\n')
  | [.anyDirectories, .anyName, .anyDirectories] => slash
  | segments => compile true false segments

def escapedChars : List Char :=
  "()[]\x7b\x7d?*+-|^$\\.&~# \t\n\r\x0b\x0c".toList

structure Spelled where
  text : List Char
  range : Option (Char × Char) := none

def spelledLiteral (c : Char) : List Char :=
  if c ∈ escapedChars then ['\\', c] else [c]

def spelledMember (c : Char) : List Char :=
  if c = '\\' then ['\\', '\\'] else [c]

def Member.spelled : Member → Spelled
  | one c => ⟨spelledMember c, none⟩
  | range first last => ⟨spelledMember first ++ '-' :: spelledMember last, some (first, last)⟩

def Piece.spelled : Piece → List Spelled
  | literal c => [⟨spelledLiteral c, none⟩]
  | anyChar => [⟨"[^/]".toList, none⟩]
  | anyRun => [⟨"[^/]*".toList, none⟩]
  | oneOf negated members =>
    ⟨if negated then ['[', '^'] else ['['], none⟩ :: members.map Member.spelled ++ [⟨[']'], none⟩]

/-- The segments of a pattern as a regular expression, in which messages count positions. -/
def spell (isFirst slashBefore : Bool) : List Segment → List Spelled
  | [] => []
  | .anyDirectories :: rest =>
    if isFirst then ⟨"^(?:.+/)?".toList, none⟩ :: spell false false rest
    else ⟨"(?:/.+)?".toList, none⟩ :: spell false true rest
  | .anyName :: rest =>
    ⟨(if isFirst then ['^'] else if slashBefore then ['/'] else []) ++ "[^/]+".toList, none⟩ ::
      spell false true rest
  | .name pieces :: rest =>
    ⟨if isFirst then ['^'] else if slashBefore then ['/'] else [], none⟩ ::
      pieces.flatMap Piece.spelled ++ spell false true rest

structure BadRange where
  first : Char
  last : Char
  /-- How many characters stand before the range. -/
  position : Nat
  /-- The line of the range and its column there, where there is more than one line. -/
  place : Option (Nat × Nat)
  deriving DecidableEq, Repr

def badRangeAfter (before : List Char) : List Spelled → Option BadRange
  | [] => none
  | part :: parts =>
    match part.range with
    | some (first, last) =>
      if last < first then
        let column := (before.reverse.takeWhile (· != '\n')).length + 1
        let whole := before ++ (part :: parts).flatMap Spelled.text
        some ⟨first, last, before.length,
          if '\n' ∈ whole then some (before.count '\n' + 1, column) else none⟩
      else badRangeAfter (before ++ part.text) parts
    | none => badRangeAfter (before ++ part.text) parts

def badRange? (segments : List Segment) : Option BadRange :=
  badRangeAfter [] (spell true false segments)

inductive Invalid where
  | line (line : String)
  | badRange (range : BadRange)
  deriving DecidableEq, Repr

def BadRange.message (range : BadRange) : String :=
  let first := String.ofList (spelledMember range.first)
  let last := String.ofList (spelledMember range.last)
  s!"bad character range {first}-{last} at position {range.position}" ++
    match range.place with
    | some (line, column) => s!" (line {line}, column {column})"
    | none => ""

def Invalid.message : Invalid → String
  | line text => "Invalid git pattern: " ++ quoted text
  | badRange range => range.message

/-- White space at the end of a line counts only after a backslash. -/
def dropEnd (line : List Char) : List Char :=
  if ['\\', ' '].isSuffixOf line then line else dropBlanksEnd line

/-- Reads a line of an ignore file; comments, blank lines and lone slashes are no patterns. -/
def ofLine? (line : String) : Except Invalid (Option IgnorePattern) :=
  let cs := dropEnd line.toList
  if cs.isEmpty || cs.head? == some '#' || cs == ['/'] then .ok none
  else
    let negated := cs.head? == some '!'
    let parts := Path.splitAt '/' (if negated then cs.tail else cs)
    let normal := normalize parts
    if normal.isEmpty then .error (.line line)
    else match normal.mapM segment with
      | .error .loneBackslash => .error (.line line)
      | .error .unclosed => .ok none
      | .ok segments =>
        let isDirectory := parts.getLast? == some []
        match badRange? (collapse segments) with
        | some range => .error (.badRange range)
        | none => .ok (some ⟨negated, ofSegments isDirectory (collapse segments)⟩)

/-- The patterns among lines that are not blank, or none when there is no such line. -/
def ofLines? (lines : List String) : Except Invalid (Option (List IgnorePattern)) :=
  match lines.filter fun line => !allBlank line.toList with
  | [] => .ok none
  | lines => (lines.mapM ofLine?).map fun patterns => some (patterns.filterMap id)

def relative : List Char → List Char
  | '/' :: cs => cs
  | '.' :: '/' :: cs => cs
  | cs => cs

/-- Whether the patterns select a path: the last one that matches decides. -/
def select (patterns : List IgnorePattern) (path : String) : Bool :=
  let cs := relative path.toList
  match patterns.reverse.find? (·.pattern.occursIn cs) with
  | some pattern => !pattern.negated
  | none => false

end IgnorePattern

end MethodMarkers
