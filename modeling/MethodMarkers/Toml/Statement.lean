import MethodMarkers.Toml.Node
import MethodMarkers.Toml.Scalar

namespace MethodMarkers.Toml

/-- A document is a list of statements. A header opens a table for the keys behind it. What is no
statement ends the list. -/
inductive Statement where
  | pair (key : Key) (value : Value)
  | header (key : Key)
  | itemHeader (key : Key)
  | broken (fault : Fault)

def isBare (c : Char) : Bool :=
  c.isAlphanum || c == '_' || c == '-'

def isSpace (c : Char) : Bool :=
  c == ' ' || c == '\t'

def dropSpace (cs : List Char) : List Char :=
  cs.dropWhile isSpace

def dropComment (cs : List Char) : Except Refusal (List Char) :=
  let comment := cs.takeWhile (!isLineEnd ·)
  if comment.all isPlain then .ok (cs.drop comment.length) else refuse

def dropGap (inComment : Bool) : List Char → Except Refusal (List Char)
  | [] => .ok []
  | c :: cs =>
    if isLineEnd c then dropGap false cs
    else if inComment then if isPlain c then dropGap true cs else refuse
    else if isSpace c then dropGap false cs
    else if c = '#' then dropGap true cs
    else .ok (c :: cs)

/-- A name without quotes. It has no blanks inside. -/
def bareName (cs : List Char) : Except Refusal (Found String) :=
  let name := Text.trim (cs.takeWhile fun c => isBare c || isSpace c)
  if name = [] ∨ name.any isSpace then refuse
  else .ok (String.ofList name, cs.dropWhile fun c => isBare c || isSpace c)

def readName (cs : List Char) : Except Refusal (Found String) :=
  let cs := dropSpace cs
  if cs.head?.any isQuote then do
    let ((multiline, name), rest) ← require (decode? cs)
    if multiline then refuseAt rest else .ok (name, dropSpace rest)
  else bareName cs

/-- A key of at most `limit` names, and the text behind it and the blanks that follow it. -/
def readKeyWith : (limit : Nat) → List Char → Except Refusal (Found Key)
  | 0, _ => refuse
  | limit + 1, cs => do
    let (name, rest) ← readName cs
    match rest with
    | '.' :: rest => do
      let (names, rest) ← readKeyWith limit rest
      return (name :: names, rest)
    | rest => return ([name], rest)

def readKey (cs : List Char) : Except Refusal (Found Key) :=
  readKeyWith longestKey cs

def keyEquals (cs : List Char) : Except Refusal (Found Key) := do
  let (key, rest) ← readKey cs
  match rest with
  | '=' :: rest => return (key, dropSpace rest)
  | rest => refuseAt rest

def deepest : Nat :=
  100

mutual

/-- A value and the text behind it. Fuel bounds the depth of the recursion. -/
def valueWith : (fuel depth : Nat) → List Char → Except Refusal (Found Value)
  | 0, _, _ => refuse
  | fuel + 1, depth, '[' :: cs =>
    if depth < deepest then do
      let (items, rest) ← itemsWith fuel (depth + 1) cs
      return (.list items, rest)
    else refuse
  | fuel + 1, depth, '{' :: cs =>
    if depth < deepest then do
      let (entries, rest) ← pairsWith fuel (depth + 1) true [] cs
      match entries.values with
      | .ok table => return (.table table, rest)
      | .error clash => .error (.fault (.clash clash))
    else refuse
  | _ + 1, _, cs =>
    if cs.head?.any isQuote then
      require ((decode? cs).map fun ((_, text), rest) => (.text text, rest))
    else scalar cs

/-- The items of a list up to its closing bracket; a comma may follow the last. An item that breaks
off at a closing bracket is left out and ends the list there. -/
def itemsWith : (fuel depth : Nat) → List Char → Except Refusal (Found (List Value))
  | 0, _, _ => refuse
  | fuel + 1, depth, cs => do
    match valueWith fuel depth (← dropGap false cs) with
    | .error (.brokenOff rest) => return ([], rest)
    | .error refusal => .error refusal
    | .ok (item, rest) =>
      match ← dropGap false rest with
      | ',' :: rest => do
        let (items, rest) ← itemsWith fuel depth rest
        return (item :: items, rest)
      | ']' :: rest => return ([item], rest)
      | _ => refuse

/-- The keys and values of a table up to its closing brace, behind some `entries`; a comma may
follow the last. A key stands `mayFollow` only at the beginning and behind a comma. -/
def pairsWith : (fuel depth : Nat) → (mayFollow : Bool) → Entries → List Char →
    Except Refusal (Found Entries)
  | 0, _, _, _, _ => refuse
  | fuel + 1, depth, mayFollow, entries, cs => do
    match ← dropGap false cs with
    | '}' :: rest => return (entries, rest)
    | cs =>
      if !mayFollow then refuseAt cs
      else do
        let (key, rest) ← keyEquals cs
        let (value, rest) ← valueWith fuel depth rest
        match entries.define true value key with
        | .error clash => .error (.fault (.clash clash))
        | .ok entries =>
          match ← dropGap false rest with
          | ',' :: rest => pairsWith fuel depth true entries rest
          | rest => pairsWith fuel depth false entries rest

end

/-- A value and the text behind it. Between two characters there are at most three calls. -/
def readValue (cs : List Char) : Except Refusal (Found Value) :=
  valueWith (3 * cs.length + 3) 0 cs

def dropLine (cs : List Char) : Except Refusal (List Char) := do
  let rest ← match dropSpace cs with
    | '#' :: rest => dropComment rest
    | rest => .ok rest
  if rest = [] then .ok [] else require (afterLineEnd? rest)

def readPair (cs : List Char) : Except Refusal (Found Statement) := do
  let (key, rest) ← keyEquals cs
  let (value, rest) ← readValue rest
  return (.pair key value, ← dropLine rest)

/-- The text behind the closing brackets of a header and its line. -/
def dropBrackets (brackets : Nat) (cs : List Char) : Except Refusal (List Char) :=
  if cs.take brackets = List.replicate brackets ']' then dropLine (cs.drop brackets) else refuse

/-- Statements from a header's key on, where `following` tells those of a text. -/
def headerThen (following : List Char → List Statement) (brackets : Nat)
    (header : Key → Statement) (cs : List Char) : List Statement :=
  match readKey cs with
  | .error refusal => [.broken refusal.toFault]
  | .ok (key, rest) =>
    header key :: match dropBrackets brackets rest with
      | .error refusal => [.broken refusal.toFault]
      | .ok rest => following rest

/-- Whether a line holds no statement, by its first character that is no blank. -/
def opensNoStatement (c : Char) : Bool :=
  c == '#' || isLineEnd c

/-- At most `fuel` statements, each on lines of its own. -/
def statementsWith : (fuel : Nat) → List Char → List Statement
  | 0, _ => []
  | fuel + 1, cs =>
    match dropSpace cs with
    | [] => []
    | '[' :: '[' :: rest => headerThen (statementsWith fuel) 2 .itemHeader rest
    | '[' :: rest => headerThen (statementsWith fuel) 1 .header rest
    | rest =>
      if rest.head?.any opensNoStatement then
        match dropLine rest with
        | .error refusal => [.broken refusal.toFault]
        | .ok rest => statementsWith fuel rest
      else match readPair rest with
        | .error refusal => [.broken refusal.toFault]
        | .ok (pair, rest) => pair :: statementsWith fuel rest

/-- The statements of a text, as far as it can be read. No statement is empty. -/
def statements (cs : List Char) : List Statement :=
  statementsWith (cs.length + 1) cs

end MethodMarkers.Toml
