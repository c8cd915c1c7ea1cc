import MethodMarkers.Batch
import MethodMarkers.Snapshot

namespace MethodMarkers.Snapshot

def insertionMisuse? (snapshot : Snapshot) : Option Misuse :=
  match snapshot.indentUnit, snapshot.beginSample with
  | .text _, .text _ => none
  | .text _, value => some (.lacks value.kind "replace")
  | value, _ => some (.notJoinable value.kind)

/-- Why a method cannot be marked. Its lines are searched for the iterator markers in turn; one that
is no text ends the search, unless one in front of it is found in the first line. -/
def misuse? (snapshot : Snapshot) (buffer : Buffer) (method : MethodBlock) : Option Misuse :=
  match method.body buffer with
  | .error _ | .ok [] => none
  | .ok (first :: lines) =>
    let needles := Toml.Value.leadingTexts snapshot.iteratorMarkers
    match Toml.Value.firstOther? snapshot.iteratorMarkers with
    | some value =>
      if MethodBlock.holdsAny needles first then none else some (.notSearchable value.kind)
    | none =>
      if (first :: lines).any (MethodBlock.holdsAny needles) then none
      else snapshot.insertionMisuse?

def mark (snapshot : Snapshot) : Instrument.Marking :=
  fun numbered buffer method =>
    match snapshot.misuse? buffer method with
    | some fault => pure (.error (.misuse fault))
    | none => Instrument.markMethod snapshot.settings numbered buffer method

def selection (snapshot : Snapshot) : Selection where
  extensions := Toml.Value.textsWith "lower" snapshot.extensions
  includePatterns := Toml.Value.textsWith "strip" snapshot.includePatterns
  excludePatterns := Toml.Value.textsWith "strip" snapshot.excludePatterns

def read (snapshot : Snapshot) (tree : Tree) (path : Path) : Logged (Except FileFault OpenSource) :=
  match snapshot.encoding with
  | .text encoding => Source.read tree path encoding
  | value => pure (.error (.misuse (.noEncoding value.kind)))

def procedure (snapshot : Snapshot) : Procedure where
  find tree target := Discovery.ofTarget tree target snapshot.selection
  read := snapshot.read
  mark path := Instrument.linesBy snapshot.mark (some path)

end MethodMarkers.Snapshot
