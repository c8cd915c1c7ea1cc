import MethodMarkers.Buffer
import MethodMarkers.Log

namespace MethodMarkers
open Text

/-- A block of braces followed line by line from the line that defines it. Braces in strings and
comments count like any other. -/
structure Block where
  define : Option Line := none
  /-- The line whose brace took the depth from 0 to 1. -/
  opening : Option Line := none
  closing : Option Line := none
  depth : Int := 0
  finished : Bool := false
  /-- Whether the depth has been above 0. -/
  opened : Bool := false
  lastFed : Option Line := none
  deriving DecidableEq, Repr

namespace Block

def readChar (line : Line) (block : Block) (c : Char) : Block :=
  match c with
  | '{' =>
    { block with
      opening := if block.depth = 0 then block.opening <|> some line else block.opening
      depth := block.depth + 1
      opened := block.opened || decide (0 ≤ block.depth) }
  | '}' => { block with depth := block.depth - 1 }
  | _ => block

/-- A block closes with a line that holds a closing brace and leaves the depth at 0, once the depth
has been above 0. -/
def closesWith (block : Block) (line : Line) : Bool :=
  decide (block.depth = 0) && line.text.toList.contains '}' && block.opened

def advance (block : Block) (line : Line) : Logged Block :=
  if block.finished then pure block
  else
    let read := line.text.toList.foldl (readChar line) { block with lastFed := some line }
    if read.closesWith line then do
      .note .trace s!"Block closed at {quoted line.text}"
      pure { read with closing := some line, finished := true }
    else pure read

/-- Starts on a line in place of whatever was followed before. -/
def restart (block : Block) (line : Line) : Logged Block :=
  advance
    { block with
      define := some line
      opening := none
      closing := none
      depth := 0
      finished := false
      opened := false
      lastFed := none }
    line

def start (line : Line) : Logged Block :=
  ({} : Block).restart line

def feed (block : Block) (line : Line) : Option (Logged Block) :=
  block.define.map fun _ => block.advance line

/-- The lines from the defining line to the closing one, or to the last line seen. -/
def text (block : Block) (buffer : Buffer) : Except Buffer.Foreign (List String) :=
  match block.define, block.closing <|> block.lastFed with
  | none, _ => .ok []
  | some define, none => .ok [define.text]
  | some define, some last => (buffer.range define last).map (·.map Line.text)

end Block

end MethodMarkers
