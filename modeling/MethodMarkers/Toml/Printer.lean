import MethodMarkers.Toml.Statement

namespace MethodMarkers.Toml

def nameText (name : String) : List Char :=
  if name.toList ≠ [] ∧ name.toList.all isBare then name.toList else encode name

def keyText (key : Key) : List Char :=
  List.intercalate ['.'] (key.map nameText)

def pairText (key : String) (value : List Char) : List Char :=
  nameText key ++ " = ".toList ++ value

def Moment.document (moment : Moment) : String :=
  match moment with
  | .dateTime d t (some .universal) => (Moment.dateTime d t none).text ++ "Z"
  | other => other.text

def Value.isTable : Value → Bool
  | .table _ => true
  | _ => false

/-- A list of nothing but tables, and of at least one, is written under headers. -/
def Value.areTables (items : List Value) : Bool :=
  !items.isEmpty && items.all Value.isTable

mutual

/-- A value on one line. A missing value cannot be written. -/
def Value.document? : Value → Option (List Char)
  | .missing => none
  | .text s => some (encode s)
  | .integer n => some (toString n).toList
  | .float x => some x.text.toList
  | .boolean b => some (toString b).toList
  | .moment m => some m.document.toList
  | .list items => do
    return '[' :: List.intercalate ", ".toList (← itemDocuments? items) ++ [']']
  | .table entries => do
    return '{' :: List.intercalate ", ".toList (← pairDocuments? entries) ++ ['}']

def itemDocuments? : List Value → Option (List (List Char))
  | [] => some []
  | item :: items => do return (← item.document?) :: (← itemDocuments? items)

def pairDocuments? : List (String × Value) → Option (List (List Char))
  | [] => some []
  | (key, value) :: entries => do
    return pairText key (← value.document?) :: (← pairDocuments? entries)

end

def Value.hasHeaders : Value → Bool
  | .table _ => true
  | .list items => areTables items
  | _ => false

def hasLines (entries : List (String × Value)) : Bool :=
  entries.any (!·.2.hasHeaders)

def linesOf? : List (String × Value) → Option (List Char)
  | [] => some []
  | (name, value) :: entries => do
    if value.hasHeaders then linesOf? entries
    else return pairText name (← value.document?) ++ '\n' :: (← linesOf? entries)

def blankLineIf (wanted : Bool) : List Char :=
  if wanted then ['\n'] else []

/-- The header of a table. A table that holds nothing but tables needs none. -/
def tableHeader (key : Key) (entries : List (String × Value)) : List Char :=
  if entries.isEmpty || hasLines entries then '[' :: keyText key ++ [']', '\n'] else []

def itemHeader (key : Key) : List Char :=
  '[' :: '[' :: keyText key ++ [']', ']', '\n']

mutual

/-- The tables in the table with a key, in order, and its lists of tables. A blank line stands
before a table that is not the first or follows `lines`, and before a list that was `preceded` by
any entry. -/
def sectionsOf? (key : Key) (lines preceded followsTable : Bool) :
    List (String × Value) → Option (List Char)
  | [] => some []
  | (name, .table entries) :: rest => do
    let own := key ++ [name]
    let inner ← sectionsOf? own (hasLines entries) false false entries
    return blankLineIf (lines || followsTable) ++ tableHeader own entries ++ (← linesOf? entries) ++
      inner ++ (← sectionsOf? key lines true true rest)
  | (name, .list items) :: rest => do
    if Value.areTables items then
      return (← itemsOf? (key ++ [name]) preceded items) ++
        (← sectionsOf? key lines true true rest)
    else sectionsOf? key lines true followsTable rest
  | _ :: rest => sectionsOf? key lines true followsTable rest

/-- The tables of a list. A blank line stands before each that follows a table with entries. -/
def itemsOf? (key : Key) (blank : Bool) : List Value → Option (List Char)
  | .table entries :: items => do
    let inner ← sectionsOf? key (hasLines entries) false false entries
    return blankLineIf blank ++ itemHeader key ++ (← linesOf? entries) ++ inner ++
      (← itemsOf? key (!entries.isEmpty) items)
  | _ => some []

end

/-- The text of a table as a document. -/
def print? (table : Table) : Option String := do
  let inner ← sectionsOf? [] (hasLines table) false false table
  return String.ofList ((← linesOf? table) ++ inner)

/-- A table without its missing values and those of the tables in it. -/
def Table.dropMissing (table : Table) : Table :=
  (table.filter (!·.2.isMissing)).map fun (key, value) =>
    match value with
    | .table entries => (key, .table (entries.filter (!·.2.isMissing)))
    | value => (key, value)

end MethodMarkers.Toml
