import MethodMarkers.Path

namespace MethodMarkers
open Text

inductive Entry where
  | file (content : List UInt8)
  | directory
  | link (target : String)
  deriving DecidableEq, Repr

abbrev Location := List String

/-- Files, directories and links by location, and the working directory. The root is a directory
without an entry of its own. -/
structure Tree where
  workingDirectory : Location
  entries : List (Location × Entry)
  deriving DecidableEq, Repr

inductive SystemCause where
  | notFound
  | notDirectory
  | isDirectory
  | nameTooLong
  | tooManyLinks
  deriving DecidableEq, Repr

namespace SystemCause

def number : SystemCause → Nat
  | notFound => 2
  | notDirectory => 20
  | isDirectory => 21
  | nameTooLong => 36
  | tooManyLinks => 40

def text : SystemCause → String
  | notFound => "No such file or directory"
  | notDirectory => "Not a directory"
  | isDirectory => "Is a directory"
  | nameTooLong => "File name too long"
  | tooManyLinks => "Too many levels of symbolic links"

end SystemCause

structure SystemFault where
  number : Nat
  text : String
  path : Option String
  deriving DecidableEq, Repr

namespace SystemFault

def of (cause : SystemCause) (path : Path) : SystemFault :=
  ⟨cause.number, cause.text, some (toString path)⟩

def message (fault : SystemFault) : String :=
  s!"[Errno {fault.number}] {fault.text}" ++
    match fault.path with
    | some path => ": " ++ quoted path
    | none => ""

end SystemFault

inductive OpenFault where
  | refused (fault : SystemFault)
  /-- No system can be asked for a name that holds a null character. -/
  | nulInName
  deriving DecidableEq, Repr

def OpenFault.message : OpenFault → String
  | refused fault => fault.message
  | nulInName => "embedded null byte"

namespace Tree

def workingPath (tree : Tree) : Path :=
  ⟨1, tree.workingDirectory⟩

def get? (tree : Tree) (location : Location) : Option Entry :=
  if location = [] then some .directory else tree.entries.lookup location

def nameLimit : Nat :=
  255

def pathLimit : Nat :=
  4095

def linkLimit : Nat :=
  40

/-- The steps that a link's target asks for. A slash at the end asks for a directory. -/
def targetSteps (target : String) : List String :=
  let steps := ((Path.splitAt '/' target.toList).map String.ofList).filter (· != "")
  if target.toList.getLast? = some '/' then steps ++ ["."] else steps

/-- Walks from a directory, following at most `links` links, to the place that the steps lead to. -/
def walk (tree : Tree) (links : Nat) (here : Location) :
    List String → Except SystemCause Location
  | [] => .ok here
  | "." :: rest => walk tree links here rest
  | ".." :: rest => walk tree links here.dropLast rest
  | name :: rest =>
    if nameLimit < name.utf8ByteSize then .error .nameTooLong
    else match tree.get? (here ++ [name]) with
      | none => .error .notFound
      | some .directory => walk tree links (here ++ [name]) rest
      | some (.file _) => if rest = [] then .ok (here ++ [name]) else .error .notDirectory
      | some (.link target) =>
        match links with
        | 0 => .error .tooManyLinks
        | fewer + 1 =>
          walk tree fewer (if target.toList.head? = some '/' then [] else here)
            (targetSteps target ++ rest)
termination_by steps => (links, steps.length)

/-- The place of a path, with all links on the way followed. A path with a null character leads
nowhere. -/
def locate (tree : Tree) (path : Path) : Except SystemCause Location :=
  if path.hasNul then .error .notFound
  else if pathLimit < (toString path).utf8ByteSize then .error .nameTooLong
  else tree.walk linkLimit (if path.slashes = 0 then tree.workingDirectory else []) path.segments

def find (tree : Tree) (path : Path) : Except SystemCause (Location × Entry) := do
  let location ← tree.locate path
  match tree.get? location with
  | some entry => .ok (location, entry)
  | none => .error .notFound

/-- Whether the path leads to an entry of a kind. A path that leads nowhere does not; a name that is
too long is still refused. -/
def leadsTo (tree : Tree) (kind : Entry → Bool) (path : Path) : Except SystemFault Bool :=
  match tree.find path with
  | .ok (_, entry) => .ok (kind entry)
  | .error .nameTooLong => .error (.of .nameTooLong path)
  | .error _ => .ok false

def Entry.isFile : Entry → Bool
  | .file _ => true
  | _ => false

def Entry.isDirectory : Entry → Bool
  | .directory => true
  | _ => false

def isFile (tree : Tree) (path : Path) : Except SystemFault Bool :=
  tree.leadsTo Entry.isFile path

def isDirectory (tree : Tree) (path : Path) : Except SystemFault Bool :=
  tree.leadsTo Entry.isDirectory path

def read (tree : Tree) (path : Path) : Except OpenFault (Location × List UInt8) :=
  if path.hasNul then .error .nulInName
  else match tree.find path with
    | .ok (location, .file content) => .ok (location, content)
    | .ok (_, .directory) => .error (.refused (.of .isDirectory path))
    | .ok (_, .link _) => .error (.refused (.of .notFound path))
    | .error cause => .error (.refused (.of cause path))

def empty (workingDirectory : Location) : Tree :=
  ⟨workingDirectory, [(workingDirectory, .directory)]⟩

def missingDirectories (tree : Tree) (location : Location) : List Location :=
  ((List.range location.length).map location.take).filter fun place => (tree.get? place).isNone

/-- The tree with an entry at a location, and with all directories on the way to it. -/
def put (tree : Tree) (location : Location) (entry : Entry) : Tree :=
  let directories := (tree.missingDirectories location).map fun place => (place, Entry.directory)
  { tree with
    entries := (tree.entries ++ directories).filter (·.1 != location) ++ [(location, entry)] }

def write (tree : Tree) (location : Location) (content : List UInt8) : Tree :=
  { tree with
    entries := tree.entries.map fun (place, entry) =>
      if place = location then (place, .file content) else (place, entry) }

/-- What follows a prefix of a location, if there is more. -/
def below? (directory location : Location) : Option (List String) :=
  match directory, location with
  | [], [] => none
  | [], rest => some rest
  | _ :: _, [] => none
  | a :: directory, b :: location => if a = b then below? directory location else none

/-- The names that lead from a directory to each entry below it; links are not followed. -/
def namesBelow (tree : Tree) (directory : Location) : List (List String) :=
  tree.entries.filterMap fun entry => below? directory entry.1

/-- Every regular file below the working directory with its content. -/
def filesHere (tree : Tree) : List (List String × List UInt8) :=
  tree.entries.filterMap fun (location, entry) =>
    match entry, below? tree.workingDirectory location with
    | .file content, some names => some (names, content)
    | _, _ => none

end Tree

end MethodMarkers
