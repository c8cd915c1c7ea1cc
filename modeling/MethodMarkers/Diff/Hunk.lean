import MethodMarkers.Diff.Matching

namespace MethodMarkers.Diff

/-- A stretch of the two texts that is either kept or changed as a whole. -/
structure Section where
  kept : Bool
  oldFrom : Nat
  oldTo : Nat
  newFrom : Nat
  newTo : Nat
  deriving DecidableEq, Repr

namespace Section

def changed (oldFrom oldTo newFrom newTo : Nat) : List Section :=
  if oldFrom < oldTo ∨ newFrom < newTo then [⟨false, oldFrom, oldTo, newFrom, newTo⟩] else []

/-- The sections from a place in both texts on, between and along the runs. -/
def along (oldSize newSize : Nat) : (i j : Nat) → List Run → List Section
  | i, j, [] => changed i oldSize j newSize
  | i, j, run :: runs =>
    changed i run.old j run.new ++
      ⟨true, run.old, run.old + run.length, run.new, run.new + run.length⟩ ::
        along oldSize newSize (run.old + run.length) (run.new + run.length) runs

def context : Nat :=
  3

def lastLines (part : Section) : Section :=
  { part with
    oldFrom := max part.oldFrom (part.oldTo - context)
    newFrom := max part.newFrom (part.newTo - context) }

def firstLines (part : Section) : Section :=
  { part with
    oldTo := min part.oldTo (part.oldFrom + context)
    newTo := min part.newTo (part.newFrom + context) }

def trimFirst : List Section → List Section
  | [] => []
  | first :: rest => (if first.kept then first.lastLines else first) :: rest

def trimLast : List Section → List Section
  | [] => []
  | [last] => [if last.kept then last.firstLines else last]
  | first :: rest => first :: trimLast rest

/-- Cuts the sections where more lines are kept than two contexts hold. A group that would change
nothing is left out at the end. -/
def groups : (group : List Section) → List Section → List (List Section)
  | group, [] => if group.all Section.kept then [] else [group]
  | group, next :: rest =>
    if next.kept ∧ 2 * context < next.oldTo - next.oldFrom then
      (group ++ [next.firstLines]) :: groups [next.lastLines] rest
    else groups (group ++ [next]) rest

end Section

inductive PatchLine where
  | context (text : String)
  | removed (text : String)
  | added (text : String)
  deriving DecidableEq, Repr

def PatchLine.display : PatchLine → String
  | context text => " " ++ text
  | removed text => "-" ++ text
  | added text => "+" ++ text

/-- A group of changes with its context, and the lines it covers in both texts. Places are counted
from 0. -/
structure Hunk where
  oldFrom : Nat
  oldTo : Nat
  newFrom : Nat
  newTo : Nat
  lines : List PatchLine
  deriving DecidableEq, Repr

namespace Hunk

def slice (lines : List String) (first last : Nat) : List String :=
  (lines.drop first).take (last - first)

def linesOf (old new : List String) (part : Section) : List PatchLine :=
  if part.kept then (slice old part.oldFrom part.oldTo).map .context
  else (slice old part.oldFrom part.oldTo).map .removed ++
    (slice new part.newFrom part.newTo).map .added

def ofGroup? (old new : List String) (group : List Section) : Option Hunk :=
  match group.head?, group.getLast? with
  | some first, some last =>
    some ⟨first.oldFrom, last.oldTo, first.newFrom, last.newTo, group.flatMap (linesOf old new)⟩
  | _, _ => none

/-- A range of lines, counted from 1: one number for one line, and for no line the line before. -/
def displayRange (first last : Nat) : String :=
  let length := last - first
  if length = 1 then toString (first + 1)
  else
    let start := if length = 0 then first else first + 1
    s!"{start},{length}"

def display (hunk : Hunk) : String :=
  let old := displayRange hunk.oldFrom hunk.oldTo
  let new := displayRange hunk.newFrom hunk.newTo
  s!"@@ -{old} +{new} @@\n" ++ String.join (hunk.lines.map fun line => line.display ++ "\n")

end Hunk

def hunks (old new : List String) : List Hunk :=
  let sections := Section.along old.length new.length 0 0 (runs old.toArray new.toArray)
  (Section.groups [] (Section.trimLast (Section.trimFirst sections))).filterMap
    (Hunk.ofGroup? old new)

/-- A unified diff; empty for equal texts. -/
def unified (oldName newName : String) (old new : List String) : String :=
  match hunks old new with
  | [] => ""
  | hunks => s!"--- {oldName}\n+++ {newName}\n" ++ String.join (hunks.map Hunk.display)

end MethodMarkers.Diff
