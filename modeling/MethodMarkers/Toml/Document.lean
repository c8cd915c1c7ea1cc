import MethodMarkers.Toml.Statement

namespace MethodMarkers.Toml

/-- A table under a header, while its statements are being read. -/
structure Frame where
  key : Key
  /-- The names that the header has beyond those of the header around it. -/
  names : Key
  isItem : Bool
  /-- What makes the table that the first of several names stands for. -/
  origin : Origin
  /-- The tables before it in its list. -/
  earlier : List Entries
  entries : Entries

namespace Frame

def node (frame : Frame) : Node :=
  if frame.isItem then .tables (frame.earlier ++ [frame.entries])
  else .table .header frame.entries

def within (node : Node) : Key → Node
  | [] => node
  | name :: names => .table .implied [(name, within node names)]

def entry (frame : Frame) : String × Node :=
  match frame.names with
  | [] => ("", frame.node)
  | [name] => (name, frame.node)
  | name :: inner :: names => (name, .table frame.origin [(inner, within frame.node names)])

/-- Whether a header with a key opens a table inside this one. -/
def encloses (frame : Frame) (key : Key) : Bool :=
  frame.key.isPrefixOf key && decide (frame.key.length < key.length)

/-- Whether a header opens the next table in this one's list. -/
def isRepeatedBy (frame : Frame) (isItem : Bool) (key : Key) : Bool :=
  frame.isItem && isItem && frame.key == key && frame.names.length == 1

def checked (frame : Frame) : Except Fault Frame :=
  match Entries.check Entries.enough frame.entries with
  | .ok () => .ok frame
  | .error clash => .error (.clash clash)

def take (frame : Frame) (name : String) (entries : Except Clash Entries) : Except Fault Frame :=
  match (do
    let entries ← entries
    Entries.checkUse Entries.enough name entries
    pure entries : Except Clash Entries) with
  | .ok entries => .ok { frame with entries }
  | .error clash => .error (.clash clash)

end Frame

/-- What statements have made so far: the top of the document, and the tables that are being read,
innermost first. -/
structure Assembly where
  top : Entries
  frames : List Frame

namespace Assembly

/-- At the top of a document every clash is a mistake in the text. -/
def takeTop (entries : Except Clash Entries) : Except Fault Entries :=
  entries.mapError fun _ => .invalid

/-- Finishes tables from the innermost one outwards, up to one that `stays`. -/
def finish (stays : Frame → Bool) (top : Entries) : Frame → List Frame → Except Fault Assembly
  | frame, [] => do
    if stays frame then pure ⟨top, [frame]⟩
    else
      let (name, node) := (← frame.checked).entry
      pure ⟨← takeTop (Entries.add Entries.enough true name node top), []⟩
  | frame, outer :: frames => do
    if stays frame then pure ⟨top, frame :: outer :: frames⟩
    else
      let (name, node) := (← frame.checked).entry
      let outer ← outer.take name (Entries.add Entries.enough false name node outer.entries)
      finish stays top outer frames

def finishUntil (stays : Frame → Bool) (assembly : Assembly) : Except Fault Assembly :=
  match assembly.frames with
  | [] => .ok assembly
  | frame :: frames => finish stays assembly.top frame frames

def newFrame (assembly : Assembly) (isItem : Bool) (key : Key) : Frame :=
  let names := key.drop ((assembly.frames.head?.map (·.key.length)).getD 0)
  let inList := assembly.frames.any fun frame => !frame.earlier.isEmpty && frame.key == names.take 1
  let origin := if isItem && inList then Origin.impliedItem else .implied
  { key, names, isItem, origin, earlier := [], entries := [] }

def openTable (assembly : Assembly) (isItem : Bool) (key : Key) : Except Fault Assembly := do
  let assembly ← assembly.finishUntil fun frame =>
    frame.encloses key || frame.isRepeatedBy isItem key
  match assembly.frames with
  | frame :: frames =>
    if frame.isRepeatedBy isItem key then
      let frame ← frame.checked
      let next := { frame with earlier := frame.earlier ++ [frame.entries], entries := [] }
      pure { assembly with frames := next :: frames }
    else pure { assembly with frames := assembly.newFrame isItem key :: frame :: frames }
  | [] => pure { assembly with frames := [assembly.newFrame isItem key] }

def add (assembly : Assembly) : Statement → Except Fault Assembly
  | .pair key value =>
    match assembly.frames with
    | [] => do
      pure { assembly with top := ← takeTop (Entries.define true value key assembly.top) }
    | frame :: frames => do
      let frame ← frame.take (key.headD "") (Entries.define false value key frame.entries)
      pure { assembly with frames := frame :: frames }
  | .header key => assembly.openTable false key
  | .itemHeader key => assembly.openTable true key
  | .broken fault => .error fault

end Assembly

def tableOf (statements : List Statement) : Except Fault Table := do
  let assembly ← statements.foldlM Assembly.add ⟨[], []⟩
  let assembly ← assembly.finishUntil fun _ => false
  assembly.top.values.mapError .clash

def parse (text : String) : Except Fault Table :=
  tableOf (statements text.toList)

end MethodMarkers.Toml
