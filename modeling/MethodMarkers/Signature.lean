import MethodMarkers.Log
import MethodMarkers.Text.Blank
import MethodMarkers.Text.Pattern
import MethodMarkers.Text.Quoted
import MethodMarkers.Text.Word

namespace MethodMarkers
open Text

inductive Access where
  | everyone
  | owner
  | assembly
  | heirs
  deriving DecidableEq, Repr

def Access.keyword : Access → String
  | everyone => "public"
  | owner => "private"
  | assembly => "internal"
  | heirs => "protected"

def Access.all : List Access :=
  [everyone, owner, assembly, heirs]

def Access.ofKeyword? (word : String) : Option Access :=
  Access.all.find? (·.keyword == word)

structure Signature where
  name : String
  access : Option Access
  isStatic : Bool
  deriving DecidableEq, Repr

namespace Signature

def head (line : List Char) : List Char :=
  line.takeWhile (· != '{')

def isNameChar (c : Char) : Bool :=
  isWordChar c || c == '<' || c == '>'

def isTypeChar (c : Char) : Bool :=
  isNameChar c || c == '[' || c == ']'

/-- `[access] [static] Type Name (…)`, where a modifier is given up when the rest needs it as the
type or the name. -/
def pattern : Pattern :=
  .concat
    [.optional (.seq (.named "access" (.anyOf (Access.all.map (.literal ·.keyword.toList))))
      (.run isBlank)),
     .optional (.seq (.named "static" (.literal "static".toList)) (.run isBlank)),
     .run isTypeChar, .run isBlank,
     .named "name" (.run isNameChar), .runOrEmpty isBlank,
     .literal ['('], .runOrEmpty (· != ')'), .literal [')'],
     .runOrEmpty isBlank, .runOrEmpty (· == '{')]

def ofCaptures (found : Pattern.Captures) : Signature where
  name := String.ofList ((found.lookup "name").getD [])
  access := (found.lookup "access").bind fun word => Access.ofKeyword? (String.ofList word)
  isStatic := (found.lookup "static").isSome

def inHead? (line : List Char) : Option Signature :=
  (pattern.search (head line)).map ofCaptures

inductive Exclusion where
  | terminated
  | construction
  | returned
  | control
  | comment
  | asynchronous
  deriving DecidableEq, Repr

namespace Exclusion

def name : Exclusion → String
  | terminated => "ends_with_terminator"
  | construction => "constructs_object"
  | returned => "contains_return"
  | control => "contains_control_keyword"
  | comment => "contains_comment"
  | asynchronous => "is_async"

/-- Only `returned` looks at the head alone, so that a body on the signature line may return. -/
def applies (line : List Char) : Exclusion → Bool
  | terminated => (dropBlanksEnd line).getLast?.any fun c => c == ';' || c == ','
  | construction => containsWord "new".toList line
  | returned => containsWord "return".toList (head line)
  | control => containsWord "if".toList line || containsWord "foreach".toList line
  | comment =>
    containsPart "//".toList line || containsPart "/*".toList line ||
      (dropBlanks line).head? == some '*'
  | asynchronous => containsWord "async".toList line

def all : List Exclusion :=
  [terminated, construction, returned, control, comment, asynchronous]

def among (line : List Char) : List Exclusion :=
  all.filter (applies line)

def first? (line : List Char) : Option Exclusion :=
  all.find? (applies line)

end Exclusion

/-- The signature on a line, if the line reads as one and no exclusion applies. -/
def ofLine? (line : String) : Logged (Option Signature) :=
  match inHead? line.toList, Exclusion.first? line.toList with
  | some signature, none => pure (some signature)
  | some _, some reason => do
    .note .trace s!"Signature-like line rejected by {reason.name}: {quoted line}"
    pure none
  | none, _ => pure none

end Signature

end MethodMarkers
