namespace MethodMarkers.Text

/-- Patterns over characters. Choices are tried from left to right and runs from the longest, so
that the first way to match is the one found. -/
inductive Pattern where
  | empty
  | one (p : Char → Bool)
  | literal (cs : List Char)
  | run (p : Char → Bool)
  | seq (a b : Pattern)
  | choice (a b : Pattern)
  | named (name : String) (a : Pattern)
  | textStart
  | textEnd

namespace Pattern

abbrev Captures := List (String × List Char)

structure Place where
  isStart : Bool
  rest : List Char

abbrev Next (α : Type) := Place → Captures → Option α

/-- One or more characters of a class, longest run first. -/
def matchRun {α : Type} (p : Char → Bool) (next : List Char → Option α) : List Char → Option α
  | [] => none
  | c :: cs => if p c then matchRun p next cs <|> next cs else none

def dropLiteral? : (cs text : List Char) → Option (List Char)
  | [], text => some text
  | _ :: _, [] => none
  | c :: cs, d :: text => if c = d then dropLiteral? cs text else none

/-- The result of `next` at the first match of the pattern from a place after which `next`
succeeds. -/
def attempt {α : Type} : Pattern → Next α → Next α
  | empty, next, place, found => next place found
  | one p, next, place, found =>
    match place.rest with
    | [] => none
    | c :: cs => if p c then next ⟨false, cs⟩ found else none
  | literal cs, next, place, found =>
    match dropLiteral? cs place.rest with
    | some rest => next ⟨place.isStart && cs.isEmpty, rest⟩ found
    | none => none
  | run p, next, place, found => matchRun p (fun rest => next ⟨false, rest⟩ found) place.rest
  | seq a b, next, place, found => attempt a (attempt b next) place found
  | choice a b, next, place, found => attempt a next place found <|> attempt b next place found
  | named name a, next, place, found =>
    attempt a (fun after found =>
      next after ((name, place.rest.take (place.rest.length - after.rest.length)) :: found))
      place found
  | textStart, next, place, found => if place.isStart then next place found else none
  | textEnd, next, place, found =>
    if place.rest = [] ∨ place.rest = ['\n'] then next place found else none

def optional (a : Pattern) : Pattern :=
  choice a empty

def runOrEmpty (p : Char → Bool) : Pattern :=
  optional (run p)

def concat (as : List Pattern) : Pattern :=
  as.foldr seq empty

def anyOf : List Pattern → Pattern
  | [] => one fun _ => false
  | [a] => a
  | a :: b :: as => choice a (anyOf (b :: as))

def searchFrom (a : Pattern) : Bool → List Char → Option Captures
  | isStart, [] => attempt a (fun _ found => some found) ⟨isStart, []⟩ []
  | isStart, c :: cs =>
    attempt a (fun _ found => some found) ⟨isStart, c :: cs⟩ [] <|> searchFrom a false cs

def search (a : Pattern) (cs : List Char) : Option Captures :=
  searchFrom a true cs

def occursIn (a : Pattern) (cs : List Char) : Bool :=
  (a.search cs).isSome

end Pattern

end MethodMarkers.Text
