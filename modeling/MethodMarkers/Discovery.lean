import MethodMarkers.IgnorePattern
import MethodMarkers.Log
import MethodMarkers.Misuse
import MethodMarkers.Settings
import MethodMarkers.Text.Case
import MethodMarkers.Tree

namespace MethodMarkers
open Text

inductive DiscoveryFault where
  | invalidPath (path : Path)
  | refused (fault : SystemFault)
  | pattern (fault : IgnorePattern.Invalid)
  | misuse (fault : Misuse)
  deriving DecidableEq, Repr

def DiscoveryFault.message : DiscoveryFault → String
  | invalidPath path => s!"Path {path} is not a file's nor a folder's path"
  | refused fault => fault.message
  | pattern fault => fault.message
  | misuse fault => fault.message

/-- Which files are taken from a directory. A part that is no list of texts is refused where it is
needed. -/
structure Selection where
  extensions : Except Misuse (List String) := .ok [".cs"]
  includePatterns : Except Misuse (List String) := .ok []
  excludePatterns : Except Misuse (List String) := .ok []
  deriving Repr

def Settings.selection (settings : Settings) : Selection :=
  ⟨.ok settings.extensions, .ok settings.includePatterns, .ok settings.excludePatterns⟩

namespace Discovery

def hasExtension (extensions : List String) (path : Path) : Bool :=
  (extensions.map lower).contains (lower path.suffix)

/-- The path by which patterns select a file: its place relative to the place of the directory, or
the path itself when the file lies elsewhere. -/
def matchPath (tree : Tree) (directory path : Path) : String :=
  match tree.locate directory, tree.locate path with
  | .ok base, .ok place =>
    match Tree.below? base place with
    | some names => "/".intercalate names
    | none => toString path
  | _, _ => toString path

def visited (tree : Tree) (directory : Path) : List Path :=
  match tree.locate directory with
  | .ok base =>
    (tree.namesBelow base).map fun names =>
      { directory with segments := directory.segments ++ names }
  | .error _ => []

def filesAmong (tree : Tree) : List Path → Except SystemFault (List Path)
  | [] => .ok []
  | path :: paths => do
    let isFile ← tree.isFile path
    let files ← filesAmong tree paths
    pure (if isFile then path :: files else files)

def selected (tree : Tree) (directory : Path) (patterns : Option (List IgnorePattern))
    (whenSelected : Bool) (paths : List Path) : List Path :=
  match patterns with
  | none => paths
  | some patterns =>
    paths.filter fun path =>
      IgnorePattern.select patterns (matchPath tree directory path) == whenSelected

def sortPaths (paths : List Path) : List Path :=
  paths.mergeSort fun a b => !b.precedes a

def displayPaths (paths : List Path) : String :=
  "[" ++ ", ".intercalate (paths.map Path.display) ++ "]"

def patternsOf (lines : Except Misuse (List String)) :
    Except DiscoveryFault (Option (List IgnorePattern)) := do
  (IgnorePattern.ofLines? (← lines.mapError .misuse)).mapError .pattern

def filesBelow (tree : Tree) (directory : Path) : Except SystemFault (List Path) := do
  filesAmong tree (if ← tree.isDirectory directory then visited tree directory else [])

def below (tree : Tree) (directory : Path) (selection : Selection) :
    Logged (Except DiscoveryFault (List Path)) :=
  match selection.extensions, filesBelow tree directory with
  | .error fault, _ => pure (.error (.misuse fault))
  | _, .error fault => pure (.error (.refused fault))
  | .ok extensions, .ok files => do
    let candidates := files.filter (hasExtension extensions)
    .note .debug s!"Found {candidates.length} candidate file(s) below {directory}"
    match patternsOf selection.includePatterns with
    | .error fault => pure (.error fault)
    | .ok included =>
      let candidates := selected tree directory included true candidates
      match patternsOf selection.excludePatterns with
      | .error fault => pure (.error fault)
      | .ok excluded => do
        let found := sortPaths (selected tree directory excluded false candidates)
        .note .trace s!"Files to process: {found.length} -- {displayPaths found}"
        pure (.ok found)

/-- The files of a target: the target itself if it is a file, and those below it if it is a
directory. -/
def ofTarget (tree : Tree) (target : Path) (selection : Selection) :
    Logged (Except DiscoveryFault (List Path)) :=
  match tree.isFile target, tree.isDirectory target with
  | .error fault, _ | _, .error fault => pure (.error (.refused fault))
  | .ok true, _ => pure (.ok [target])
  | .ok false, .ok true => below tree target selection
  | .ok false, .ok false => pure (.error (.invalidPath target))

end Discovery

end MethodMarkers
