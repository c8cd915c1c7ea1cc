import MethodMarkers.Block
import MethodMarkers.Markers
import MethodMarkers.Misuse

namespace MethodMarkers
open Text

inductive BlockFault where
  | notStarted
  | unfinished (name : String)
  | noOpening (name : String)
  | noClosing (name : String)
  | foreign (fault : Buffer.Foreign)
  | misuse (fault : Misuse)
  deriving DecidableEq, Repr

def displayMethod (name : String) (finished : Bool) : String :=
  s!"MethodBlock({quoted name}, finished={displayBool finished})"

def BlockFault.message : BlockFault → String
  | notStarted => "BlockLocator.feed() called before start()"
  | unfinished name => displayMethod name false ++ " has not finished"
  | noOpening name => displayMethod name true ++ " has no start_line"
  | noClosing name => displayMethod name true ++ " has no end_line"
  | foreign fault => fault.message
  | misuse fault => fault.message

structure MethodBlock where
  name : String
  block : Block
  deriving DecidableEq, Repr

namespace MethodBlock

def display (method : MethodBlock) : String :=
  displayMethod method.name method.block.finished

def label (method : MethodBlock) (buffer : Buffer) : String :=
  Markers.label buffer.fileName method.name

def ends (method : MethodBlock) : Except BlockFault (Line × Line) :=
  if method.block.finished then
    match method.block.opening, method.block.closing with
    | none, _ => .error (.noOpening method.name)
    | some _, none => .error (.noClosing method.name)
    | some first, some last => .ok (first, last)
  else .error (.unfinished method.name)

def body (method : MethodBlock) (buffer : Buffer) : Except BlockFault (List Line) := do
  let (first, last) ← method.ends
  (buffer.range first last).mapError .foreign

def defaultIteratorMarkers : List String :=
  ["yield return", "yield break"]

def holdsAny (needles : List String) (line : Line) : Bool :=
  needles.any fun needle => containsPart needle.toList line.text.toList

def isIterator (method : MethodBlock) (buffer : Buffer) (iteratorMarkers : List String) :
    Except BlockFault Bool :=
  (method.body buffer).map fun lines => lines.any (holdsAny iteratorMarkers)

def holdsReturn (line : Line) : Bool :=
  containsWord "return".toList line.text.toList

/-- The body lines before which the method may leave. -/
def earlyExits (method : MethodBlock) (buffer : Buffer) : Except BlockFault (List Line) :=
  (method.body buffer).map (·.filter holdsReturn)

/-- Inserts the same text before each line, and keeps what was inserted before a failure. -/
def insertBeforeEach (text : String) : List Line → Buffer → Except Buffer.Foreign Unit × Buffer
  | [], buffer => (.ok (), buffer)
  | line :: lines, buffer =>
    match buffer.insertBefore line text with
    | .ok inserted => insertBeforeEach text lines inserted
    | .error fault => (.error fault, buffer)

/-- Puts a begin line after the opening line and end lines before the closing line and before each
early exit, all found before the first insertion. -/
def insertMarkers (markers : Markers) (label : String) (first last : Line) (exits : List Line)
    (buffer : Buffer) : Except Buffer.Foreign Unit × Buffer :=
  let indent := leadingWhitespace first.text ++ markers.indentUnit
  match buffer.insertAfter first (markers.beginLine indent label) with
  | .ok begun => insertBeforeEach (markers.endLine indent) (last :: exits) begun
  | .error fault => (.error fault, buffer)

/-- Marks the body of a method that is no iterator, and answers how many lines were inserted. -/
def instrument (method : MethodBlock) (markers : Markers) (iteratorMarkers : List String)
    (buffer : Buffer) : Logged (Except BlockFault Nat × Buffer) :=
  match method.isIterator buffer iteratorMarkers, method.ends, method.earlyExits buffer with
  | .error fault, _, _ | _, .error fault, _ | _, _, .error fault => pure (.error fault, buffer)
  | .ok true, _, _ => do
    .note .debug s!"Skipping iterator-shaped method {method.name}"
    pure (.ok 0, buffer)
  | .ok false, .ok (first, last), .ok exits => do
    let label := method.label buffer
    match insertMarkers markers label first last exits buffer with
    | (.error fault, buffer) => pure (.error (.foreign fault), buffer)
    | (.ok (), buffer) =>
      let inserted := 2 + exits.length
      .note .debug
        s!"Instrumented {label}: {inserted} line(s) inserted ({exits.length} early exit(s))"
      pure (.ok inserted, buffer)

end MethodBlock

end MethodMarkers
