import MethodMarkers.Text.Quoted

namespace MethodMarkers

/-- A file path: the number of slashes at its front (none for a relative path, two only when exactly
two were written) and its segments, none of them empty or a single dot. -/
structure Path where
  slashes : Nat
  segments : List String
  deriving DecidableEq, Repr

namespace Path

def splitAt (separator : Char) : List Char → List (List Char)
  | [] => [[]]
  | c :: cs =>
    if c = separator then [] :: splitAt separator cs
    else match splitAt separator cs with
      | [] => [[c]]
      | piece :: pieces => (c :: piece) :: pieces

/-- The slashes that count at the front of a path: three or more are as good as one. -/
def leadingSlashes (cs : List Char) : Nat :=
  match (cs.takeWhile (· == '/')).length with
  | 0 => 0
  | 2 => 2
  | _ => 1

def ofString (s : String) : Path :=
  ⟨leadingSlashes s.toList,
    ((splitAt '/' s.toList).map String.ofList).filter fun piece => piece != "" && piece != "."⟩

instance : ToString Path where
  toString path :=
    let text := String.ofList (List.replicate path.slashes '/') ++ "/".intercalate path.segments
    if text == "" then "." else text

def hasNul (path : Path) : Bool :=
  path.segments.any (·.toList.contains '\x00')

def name (path : Path) : String :=
  path.segments.getLastD ""

/-- The end of a file name from its last dot on, if that dot is neither its first nor its last
character. -/
def suffixOf (name : List Char) : List Char :=
  let after := name.reverse.takeWhile (· != '.')
  if after = [] ∨ name.length ≤ after.length + 1 then [] else '.' :: after.reverse

def suffix (path : Path) : String :=
  String.ofList (suffixOf path.name.toList)

/-- An absolute right path replaces the left one. -/
def join (directory path : Path) : Path :=
  if path.slashes = 0 then { directory with segments := directory.segments ++ path.segments }
  else path

instance : Div Path where
  div := join

def textPrecedes (a b : String) : Bool :=
  a.toList.lex b.toList fun c d => decide (c.toNat < d.toNat)

def precedes (a b : Path) : Bool :=
  a.segments.lex b.segments textPrecedes

def textOf (path : Option Path) : String :=
  (path.map toString).getD "None"

def display (path : Path) : String :=
  s!"PosixPath({Text.quoted (toString path)})"

end Path

end MethodMarkers
