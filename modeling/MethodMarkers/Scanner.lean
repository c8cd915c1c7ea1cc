import MethodMarkers.MethodBlock
import MethodMarkers.Signature

namespace MethodMarkers
open Text

/-- A scan under way: idle, or following the block of one method. Nothing inside that block is a
method of its own. -/
structure Scanner where
  finished : List MethodBlock := []
  active : Option MethodBlock := none
  deriving DecidableEq, Repr

namespace Scanner

def settle (buffer : Buffer) (scanner : Scanner) (method : MethodBlock) :
    Logged (Scanner × Option MethodBlock) :=
  if method.block.finished then do
    let lines := match method.block.text buffer with
      | .ok lines => lines
      | .error _ => []
    let text := "\n".intercalate lines
    .note .debug s!"Finished method {method.name}:\n{text}"
    pure (⟨scanner.finished ++ [method], none⟩, some method)
  else pure ({ scanner with active := some method }, none)

/-- Takes the next line of the buffer, and answers the method that closed with it. -/
def push (buffer : Buffer) (scanner : Scanner) (line : Line) :
    Logged (Scanner × Option MethodBlock) := do
  match scanner.active with
  | some method =>
    let block ← method.block.advance line
    scanner.settle buffer { method with block }
  | none =>
    match ← Signature.ofLine? line.text with
    | none => pure (scanner, none)
    | some signature =>
      .note .debug s!"Candidate method {quoted signature.name} at {quoted line.text}"
      let block ← Block.start line
      scanner.settle buffer ⟨signature.name, block⟩

/-- Ends a scan: a method still open is reported and stays pending. -/
def conclude (scanner : Scanner) : Logged Scanner := do
  if let some method := scanner.active then
    .note .debug s!"Method {method.name} never closed before end of input; left untouched"
  pure scanner

def scan (buffer : Buffer) : Logged Scanner := do
  let scanner ← buffer.lines.foldlM
    (fun scanner line => return (← push buffer scanner line).1) ({} : Scanner)
  scanner.conclude

/-- Appends a text to the buffer and scans it as the next line. -/
def take (state : Buffer × Scanner) (text : String) : Logged (Buffer × Scanner) := do
  let buffer := state.1.append text
  let (scanner, _) ← push buffer state.2 (state.1.newLine text)
  pure (buffer, scanner)

def scanTexts (path : Option Path) (texts : List String) : Logged (Buffer × Scanner) := do
  let (buffer, scanner) ← texts.foldlM take (Buffer.empty 0 path, ({} : Scanner))
  pure (buffer, ← scanner.conclude)

end Scanner

end MethodMarkers
