import MethodMarkers.Log
import MethodMarkers.Misuse
import MethodMarkers.Text.Encoding
import MethodMarkers.Text.Newline
import MethodMarkers.Tree

namespace MethodMarkers
open Text

structure Layout where
  newline : Newline
  endsWithNewline : Bool
  /-- Whether the text began with a byte order mark. -/
  marked : Bool
  deriving DecidableEq, Repr

structure Source where
  lines : List String
  layout : Layout
  counts : NewlineCounts
  deriving DecidableEq, Repr

namespace Source

def endsWithNewline (lines : List CutLine) : Bool :=
  lines.getLast?.any (·.newline.isSome)

/-- Splits a text into lines. One byte order mark at the front belongs to the layout. -/
def ofText (text : List Char) : Source :=
  let marked := text.head? == some byteOrderMark
  let lines := cutLines (if marked then text.tail else text)
  let counts := NewlineCounts.ofLines lines
  { lines := lines.map fun line => String.ofList line.chars
    layout := ⟨counts.dominant, endsWithNewline lines, marked⟩
    counts }

end Source

def Layout.render (layout : Layout) (lines : List String) : String :=
  joinLines layout.newline.text layout.endsWithNewline layout.marked lines

inductive FileFault where
  | closed (fault : OpenFault)
  | coding (fault : CodingFault)
  | misuse (fault : Misuse)
  deriving DecidableEq, Repr

/-- A file as it was read: its text, and the place and the encoding for writing it back. -/
structure OpenSource where
  source : Source
  location : Location
  encoding : Encoding
  deriving DecidableEq, Repr

namespace Source

def noteRead (path : Path) (source : Source) : Logged Unit := do
  let newline := quoted source.layout.newline.text
  let counts := source.counts
  if counts.mixed then
    let found := s!"LF={counts.lf}, CRLF={counts.crlf}, CR={counts.cr}"
    .note .debug s!"Mixed line endings in {path} ({found}); writing {newline}"
  let ends := displayBool source.layout.endsWithNewline
  let mark := displayBool source.layout.marked
  let layout := s!"newline={newline}, ends_with_newline={ends}, bom={mark}"
  .note .debug s!"Read {path}: {source.lines.length} line(s), {layout}"

/-- Reads a file. A file that cannot be opened is refused before its encoding is looked up, unless
no encoding can have the name. -/
def read (tree : Tree) (path : Path) (encodingName : String) :
    Logged (Except FileFault OpenSource) :=
  match Encoding.named encodingName, tree.read path with
  | .error .nulInName, _ => pure (.error (.coding .nulInName))
  | _, .error fault => pure (.error (.closed fault))
  | named, .ok (location, bytes) =>
    match named with
    | .error fault => pure (.error (.coding fault))
    | .ok encoding =>
      match encoding.decode bytes with
      | .error fault => pure (.error (.coding fault))
      | .ok text => do
        let source := ofText text
        noteRead path source
        pure (.ok ⟨source, location, encoding⟩)

end Source

/-- Writes lines back in the layout of the file, and answers how many bytes were written. Nothing
is written unless all of the text can be encoded. -/
def OpenSource.write (image : OpenSource) (tree : Tree) (path : Path) (lines : List String) :
    Logged (Except CodingFault (Nat × Tree)) :=
  match image.encoding.encode (image.source.layout.render lines).toList with
  | .error fault => pure (.error fault)
  | .ok bytes => do
    .note .debug s!"Wrote {bytes.length} bytes to {path}"
    pure (.ok (bytes.length, tree.write image.location bytes))

end MethodMarkers
