import MethodMarkers.Discovery
import MethodMarkers.Instrument
import MethodMarkers.Source

namespace MethodMarkers

inductive BatchFault where
  | discovery (fault : DiscoveryFault)
  | file (fault : FileFault)
  | block (fault : BlockFault)
  deriving DecidableEq, Repr

/-- What a run over several files did: the results of the files that were processed, the tree
afterwards, and what stopped the run, if anything did. -/
structure Run where
  results : List FileResult
  tree : Tree
  fault : Option BatchFault
  deriving DecidableEq, Repr

structure Procedure where
  find : Tree → Path → Logged (Except DiscoveryFault (List Path))
  read : Tree → Path → Logged (Except FileFault OpenSource)
  mark : Path → List String → Logged (Except BlockFault FileResult)

def Settings.procedure (settings : Settings) : Procedure where
  find tree target := Discovery.ofTarget tree target settings.selection
  read tree path := Source.read tree path settings.encoding
  mark path := Instrument.lines settings (some path)

namespace Batch

/-- Reads, instruments and writes back one file. A dry run writes nothing. -/
def oneFile (procedure : Procedure) (dryRun : Bool) (tree : Tree) (path : Path) :
    Logged (Except BatchFault (FileResult × Tree)) := do
  .note .info s!"Processing file: {path}"
  match ← procedure.read tree path with
  | .error fault => pure (.error (.file fault))
  | .ok image =>
    match ← procedure.mark path image.source.lines with
    | .error fault => pure (.error (.block fault))
    | .ok result => do
      let result := { result with mixedNewlines := image.source.counts.mixed }
      if let some name := result.unfinished then
        .note .debug s!"{path}: method {name} never closed"
      if dryRun then do
        .note .debug s!"Dry run: {path} not written"
        pure (.ok (result, tree))
      else
        match ← image.write tree path result.after with
        | .error fault => pure (.error (.file (.coding fault)))
        | .ok (size, tree) => pure (.ok ({ result with bytesWritten := some size }, tree))

def files (procedure : Procedure) (dryRun : Bool) : Tree → List Path → Logged Run
  | tree, [] => pure ⟨[], tree, none⟩
  | tree, path :: paths => do
    match ← oneFile procedure dryRun tree path with
    | .error fault => pure ⟨[], tree, some fault⟩
    | .ok (result, tree) => do
      let run ← files procedure dryRun tree paths
      pure { run with results := result :: run.results }

def resolve (procedure : Procedure) (tree : Tree) (target : String) :
    Logged (Except BatchFault (List Path)) := do
  match ← procedure.find tree (Path.ofString target) with
  | .error fault => pure (.error (.discovery fault))
  | .ok files => do
    if files.isEmpty then
      .note .info s!"No matching files under {target}"
    pure (.ok files)

/-- Processes every file of a target. The files are found before the first is touched. -/
def target (procedure : Procedure) (dryRun : Bool) (tree : Tree) (target : String) :
    Logged Run := do
  match ← resolve procedure tree target with
  | .error fault => pure ⟨[], tree, some fault⟩
  | .ok paths => files procedure dryRun tree paths

end Batch

end MethodMarkers
