import MethodMarkers.CommandLine.Run

namespace MethodMarkers.Disk

def pathText (place : Location) : String :=
  "/" ++ "/".intercalate place

def locationOf (path : String) : Location :=
  (Path.ofString path).segments

def kindAt? (place : Location) : IO (Option IO.FS.FileType) := do
  try
    let metadata ← ((← IO.currentDir) / pathText place).symlinkMetadata
    return some metadata.type
  catch _ => return none

def linkedPlace? (place : Location) : IO (Option Location) := do
  try
    return some (locationOf (← IO.FS.realPath (pathText place)).toString)
  catch _ => return none

def contentAt (place : Location) : IO (List UInt8) := do
  return (← IO.FS.readBinFile (pathText place)).toList

/-- Takes what is on the way from a directory over some steps into a tree, and answers where the
steps lead. -/
partial def follow (tree : Tree) (here : Location) : List String → IO (Tree × Location)
  | [] => return (tree, here)
  | "." :: rest => follow tree here rest
  | ".." :: rest => follow tree here.dropLast rest
  | name :: rest => do
    let place := here ++ [name]
    match ← kindAt? place with
    | some .dir => follow (tree.put place .directory) place rest
    | some .file => return (tree.put place (.file (← contentAt place)), place)
    | some .symlink =>
      match ← linkedPlace? place with
      | none => return (tree, place)
      | some target =>
        let (tree, target) ← follow (tree.put place (.link (pathText target))) [] target
        follow tree target rest
    | _ => return (tree, place)

/-- Takes everything below a directory into a tree. -/
partial def takeBelow (tree : Tree) (place : Location) : IO Tree := do
  let mut tree := tree
  for entry in ← ((← IO.currentDir) / pathText place).readDir do
    let (grown, inner) ← follow tree place [entry.fileName]
    tree := grown
    if inner == place ++ [entry.fileName] && (← kindAt? inner) == some .dir then
      tree ← takeBelow tree inner
  return tree

def snapshot (files : List Path) (target : Option Path) : IO Tree := do
  let here := locationOf (← IO.currentDir).toString
  let start (path : Path) : Location := if path.slashes = 0 then here else []
  let mut tree := Tree.empty here
  for path in files do
    tree := (← follow tree (start path) path.segments).1
  match target with
  | none => return tree
  | some path =>
    let (grown, place) ← follow tree (start path) path.segments
    if (← kindAt? place) == some .dir then takeBelow grown place else return grown

def save (before after : Tree) : IO Unit := do
  for (place, entry) in after.entries do
    if let .file content := entry then
      if before.get? place != some entry then
        IO.FS.writeBinFile (pathText place) ⟨content.toArray⟩

end MethodMarkers.Disk

open MethodMarkers in
def main (arguments : List String) : IO UInt32 := do
  let options := ((CommandLine.Options.ofArguments arguments).toOption).getD {}
  let tree ← Disk.snapshot (CommandLine.settingsFiles options) (options.path.map Path.ofString)
  let surroundings : CommandLine.Surroundings :=
    { terminal := ← (← IO.getStdout).isTty, logLevel := ← IO.getEnv "PROFMARK_LOG_LEVEL" }
  let done := CommandLine.run surroundings tree arguments
  Disk.save tree done.tree
  IO.print done.output
  IO.eprint done.errorOutput
  return .ofNat done.exit
