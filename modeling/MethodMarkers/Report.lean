import MethodMarkers.Diff.Hunk
import MethodMarkers.Diff.Preview
import MethodMarkers.Instrument
import MethodMarkers.Terminal.Console

namespace MethodMarkers
open Terminal

def FileResult.diff (result : FileResult) : String :=
  let name := (result.path.map toString).getD "<buffer>"
  Diff.unified (name ++ " (original)") (name ++ " (instrumented)") result.before result.after

namespace Report

def statusText (console : Console) (outcome : MethodOutcome) : String :=
  match outcome.status with
  | .instrumented =>
    console.styled { colour := some .green } s!"instrumented (+{outcome.inserted} lines)"
  | .skippedIterator => console.styled { colour := some .yellow } outcome.status.text

def method (console : Console) (level : Level) (outcome : MethodOutcome) : Session Unit := do
  let status := statusText console outcome
  console.print s!"  {outcome.name} (line {outcome.line}): {status}"
  if level ≤ .debug then
    outcome.text.forM fun line => console.print s!"    | {line}"

def file (console : Console) (level : Level) (showDiff : Bool) (result : FileResult) :
    Session Unit := do
  let name := Path.textOf result.path
  if level ≤ .warning then
    console.print s!"Processing file: {name}"
    if result.mixedNewlines then
      console.warn s!"  mixed line endings in {name}, normalized"
  if level ≤ .info then
    result.methods.forM (method console level)
    if let some unfinished := result.unfinished then
      console.print (console.styled { dim := some true } s!"  {unfinished}: block never closed")
  if showDiff && result.changed then
    console.print (if console.colour then Diff.preview true result.diff else result.diff) false

def summary (console : Console) (level : Level) (dryRun : Bool) (results : List FileResult) :
    Session Unit := do
  if level ≤ .warning then
    let total (count : FileResult → Nat) : Nat :=
      results.foldl (fun sum result => sum + count result) 0
    let changed := results.countP (·.changed)
    let effect := if dryRun then "would change" else "changed"
    let marked := total (·.instrumented.length)
    let skipped := total (·.skipped.length)
    let inserted := total (·.inserted)
    console.print (s!"{results.length} file(s) processed, {changed} {effect}: " ++
      s!"{marked} method(s) instrumented, {skipped} skipped, {inserted} line(s) inserted.")

end Report

end MethodMarkers
