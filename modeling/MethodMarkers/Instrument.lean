import MethodMarkers.Scanner
import MethodMarkers.Settings

namespace MethodMarkers

inductive MethodStatus where
  | instrumented
  | skippedIterator
  deriving DecidableEq, Repr

def MethodStatus.text : MethodStatus → String
  | instrumented => "instrumented"
  | skippedIterator => "skipped (iterator)"

structure MethodOutcome where
  name : String
  status : MethodStatus
  inserted : Nat
  /-- The number of the signature line, counted from 1; 0 when it is not known. -/
  line : Nat
  /-- The lines from signature to closing brace, before any insertion into them. -/
  text : List String
  deriving DecidableEq, Repr

structure FileResult where
  path : Option Path
  /-- The lines of the file, and its lines with all methods marked. -/
  before : List String
  after : List String
  methods : List MethodOutcome
  /-- The method whose block never closed. -/
  unfinished : Option String
  mixedNewlines : Bool := false
  /-- The size of the written file; none when the file was not written. -/
  bytesWritten : Option Nat := none
  deriving DecidableEq, Repr

namespace FileResult

def changed (result : FileResult) : Bool :=
  result.after != result.before

def instrumented (result : FileResult) : List MethodOutcome :=
  result.methods.filter (·.status == .instrumented)

def skipped (result : FileResult) : List MethodOutcome :=
  result.methods.filter (·.status == .skippedIterator)

def inserted (result : FileResult) : Nat :=
  result.methods.foldl (fun total method => total + method.inserted) 0

end FileResult

namespace Instrument

def lineNumber (lines : List Line) (line : Option Line) : Nat :=
  match line.bind fun line => lines.findIdx? (· == line) with
  | some index => index + 1
  | none => 0

/-- Marks one closed method, whose number is counted in `numbered`, the lines before the first
insertion. A block without an opening or closing line has no outcome. -/
def markMethod (settings : Settings) (numbered : List Line) (buffer : Buffer)
    (method : MethodBlock) : Logged (Except BlockFault (Buffer × Option MethodOutcome)) :=
  if method.block.opening.isNone || method.block.closing.isNone then do
    .note .warning
      s!"{Path.textOf buffer.path}: {method.name} closed without opening a body, left untouched"
    pure (.ok (buffer, none))
  else
    let line := lineNumber numbered method.block.define
    match method.block.text buffer, method.isIterator buffer settings.iteratorMarkers with
    | .error fault, _ => pure (.error (.foreign fault))
    | _, .error fault => pure (.error fault)
    | .ok text, .ok true => do
      .note .info s!"{Path.textOf buffer.path}: {method.name} is iterator-shaped, left untouched"
      pure (.ok (buffer, some ⟨method.name, .skippedIterator, 0, line, text⟩))
    | .ok text, .ok false => do
      match ← method.instrument settings.markers settings.iteratorMarkers buffer with
      | (.error fault, _) => pure (.error fault)
      | (.ok inserted, buffer) =>
        pure (.ok (buffer, some ⟨method.name, .instrumented, inserted, line, text⟩))

abbrev Marking := List Line → Buffer → MethodBlock →
  Logged (Except BlockFault (Buffer × Option MethodOutcome))

def markEach
    (mark : Buffer → MethodBlock → Logged (Except BlockFault (Buffer × Option MethodOutcome))) :
    List MethodBlock → Buffer → Logged (Except BlockFault (Buffer × List MethodOutcome))
  | [], buffer => pure (.ok (buffer, []))
  | method :: methods, buffer => do
    match ← mark buffer method with
    | .error fault => pure (.error fault)
    | .ok (buffer, outcome) =>
      match ← markEach mark methods buffer with
      | .error fault => pure (.error fault)
      | .ok (buffer, outcomes) => pure (.ok (buffer, outcome.toList ++ outcomes))

def linesBy (mark : Marking) (path : Option Path) (texts : List String) :
    Logged (Except BlockFault FileResult) := do
  let (buffer, scanner) ← Scanner.scanTexts path texts
  match ← markEach (mark buffer.lines) scanner.finished buffer with
  | .error fault => pure (.error fault)
  | .ok (updated, methods) =>
    pure (.ok
      { path, before := texts, after := updated.texts, methods
        unfinished := scanner.active.map MethodBlock.name })

def lines (settings : Settings) (path : Option Path) (texts : List String) :
    Logged (Except BlockFault FileResult) :=
  linesBy (markMethod settings) path texts

end Instrument

end MethodMarkers
