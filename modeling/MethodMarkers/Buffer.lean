import MethodMarkers.Path

namespace MethodMarkers

/-- A line of a buffer. Its home and serial number tell it from every other line, whatever is
inserted around it. -/
structure Line where
  home : Nat
  serial : Nat
  text : String
  deriving DecidableEq, Repr

/-- The lines of one file, in order. Serial numbers are given out upwards and never twice. -/
structure Buffer where
  home : Nat
  path : Option Path
  lines : List Line
  nextSerial : Nat
  deriving DecidableEq, Repr

def takeThrough {α : Type} (p : α → Bool) : List α → List α
  | [] => []
  | a :: as => if p a then [a] else a :: takeThrough p as

namespace Buffer

def empty (home : Nat) (path : Option Path) : Buffer :=
  ⟨home, path, [], 0⟩

def texts (buffer : Buffer) : List String :=
  buffer.lines.map Line.text

def fileName (buffer : Buffer) : String :=
  (buffer.path.map Path.name).getD ""

def newLine (buffer : Buffer) (text : String) : Line :=
  ⟨buffer.home, buffer.nextSerial, text⟩

/-- A new line at a position; positions past the end insert nothing. -/
def insertAt (buffer : Buffer) (position : Nat) (text : String) : Buffer :=
  { buffer with
    lines := buffer.lines.insertIdx position (buffer.newLine text)
    nextSerial := buffer.nextSerial + 1 }

def append (buffer : Buffer) (text : String) : Buffer :=
  buffer.insertAt buffer.lines.length text

def ofTexts (home : Nat) (path : Option Path) (texts : List String) : Buffer :=
  texts.foldl append (empty home path)

structure Foreign where
  line : Line
  buffer : Buffer
  deriving DecidableEq, Repr

def owning (buffer : Buffer) (line : Line) : Except Foreign Buffer :=
  if line.home = buffer.home then .ok buffer else .error ⟨line, buffer⟩

def insertAfter (buffer : Buffer) (line : Line) (text : String) : Except Foreign Buffer :=
  (buffer.owning line).map (·.insertAt (buffer.lines.idxOf line + 1) text)

def insertBefore (buffer : Buffer) (line : Line) (text : String) : Except Foreign Buffer :=
  (buffer.owning line).map (·.insertAt (buffer.lines.idxOf line) text)

/-- The lines from `first` to `last`, or to the end when `last` does not follow. -/
def range (buffer : Buffer) (first last : Line) : Except Foreign (List Line) :=
  (buffer.owning first).map fun buffer =>
    takeThrough (· == last) (buffer.lines.dropWhile (· != first))

end Buffer

def Line.display (line : Line) : String :=
  s!"LineNode({Text.quoted line.text})"

def Buffer.display (buffer : Buffer) : String :=
  let path := (buffer.path.map Path.display).getD "None"
  s!"LineBuffer(path={path}, lines={buffer.lines.length})"

def Buffer.Foreign.message (fault : Foreign) : String :=
  s!"{fault.line.display} does not belong to {fault.buffer.display}"

end MethodMarkers
