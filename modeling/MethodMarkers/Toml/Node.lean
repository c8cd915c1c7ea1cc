import MethodMarkers.Toml.Reading
import MethodMarkers.Toml.Value

namespace MethodMarkers.Toml

abbrev Key := List String

def longestKey : Nat :=
  100

/-- What made a table. -/
inductive Origin where
  /-- Its own header. -/
  | header
  /-- The header of a table inside it. -/
  | implied
  /-- The header of an item inside it, below items of a list that has its name. -/
  | impliedItem
  /-- A key with dots. -/
  | dotted
  deriving DecidableEq, Repr

/-- Whether a table may be written in several places. -/
def Origin.isOpen (origin : Origin) : Bool :=
  decide (origin ≠ .header)

/-- A part of a document that is being read: a complete value, a table, or the tables of a list that
have headers of their own. Entries of one name are parts of one table. -/
inductive Node where
  | leaf (value : Value)
  | table (origin : Origin) (entries : List (String × Node))
  | tables (items : List (List (String × Node)))

abbrev Entries := List (String × Node)

def Node.entries : Node → Entries
  | table _ entries => entries
  | _ => []

def Node.isTable : Node → Bool
  | table .. => true
  | _ => false

namespace Entries

def parts (entries : Entries) (name : String) : List Node :=
  (entries.filter fun entry => entry.1 = name).map Prod.snd

def lastPart? (entries : Entries) (name : String) : Option Node :=
  (entries.parts name).getLast?

def isScattered (entries : Entries) (name : String) : Bool :=
  decide (1 < (entries.parts name).length)

def names (entries : Entries) : List String :=
  (entries.map Prod.fst).eraseDups

def joined (entries : Entries) (name : String) : Entries :=
  (entries.parts name).flatMap Node.entries

/-- The name of the table that was written last. -/
def lastTable? (entries : Entries) : Option String :=
  (entries.reverse.find? fun entry => entry.2.isTable).map Prod.fst

def replaceLast (name : String) (node : Node) (entries : Entries) : Entries :=
  let behind := entries.reverse.takeWhile fun entry => entry.1 ≠ name
  entries.take (entries.length - behind.length - 1) ++ (name, node) :: behind.reverse

/-- Adds an entry. Behind an entry of its name that is no table there cannot be another. -/
def push (name : String) (node : Node) (entries : Entries) : Except Clash Entries :=
  match entries.lastPart? name with
  | none | some (.table ..) => .ok (entries ++ [(name, node)])
  | some _ => .error (.keyPresent name)

def gather (name : String) (entries : Entries) : Except Clash Entries :=
  (entries.joined name).foldlM (fun gathered (part, node) => push part node gathered) []

/-- Whether tables to be merged share a list of tables. Fuel bounds their depth. -/
def shareList : (fuel : Nat) → Entries → Entries → Bool
  | 0, _, _ => false
  | fuel + 1, lower, upper =>
    upper.any fun (name, node) =>
      match lower.lastPart? name, node with
      | some (.tables _), _ => true
      | some (.table origin inner), .table origin' inner' =>
        origin.isOpen && origin'.isOpen && shareList fuel inner inner'
      | _, _ => false

/-- How a table and a later one of its name go together. -/
inductive Union where
  /-- The later one is another part of the table. -/
  | scattered
  | merged
  | clash (clash : Clash)

/-- Tables that headers imply and that follow each other are merged, as are those that share a list
of tables; parts that keys with dots made are never merged. A table without an own header may get
one. -/
def unionOf (fuel : Nat) (name : String) (entries : Entries) (old : Origin) (inner : Entries)
    (new : Origin) (more : Entries) : Union :=
  let isDotted := old = .dotted ∨ new = .dotted
  if old.isOpen then
    if new.isOpen then
      if isDotted then .scattered
      else if entries.lastTable? = some name ∨ shareList fuel inner more then .merged
      else .scattered
    else if old = .dotted then .clash .redefined
    else .scattered
  else if new.isOpen ∧ new ≠ .dotted then .scattered
  else .clash (.keyPresent name)

mutual

/-- Whether the parts of every scattered table go together. -/
def check : (fuel : Nat) → Entries → Except Clash Unit
  | 0, _ => .ok ()
  | fuel + 1, entries => entries.names.forM fun name => checkName fuel name entries

def checkName : (fuel : Nat) → String → Entries → Except Clash Unit
  | 0, _, _ => .ok ()
  | fuel + 1, name, entries =>
    if entries.isScattered name then do
      let together ← (entries.joined name).foldlM
        (fun together (part, node) => add fuel false part node together) []
      check fuel together
    else .ok ()

def checkUse : (fuel : Nat) → String → Entries → Except Clash Unit
  | 0, _, _ => .ok ()
  | fuel + 1, name, entries =>
    if entries.isScattered name then do check fuel (← gather name entries) else .ok ()

/-- Adds an entry or makes it part of one that is there. If that is `checked`, the parts of its
table must go together. -/
def add : (fuel : Nat) → (checked : Bool) → String → Node → Entries → Except Clash Entries
  | 0, _, _, _, entries => .ok entries
  | fuel + 1, checked, name, node, entries => do
    let pushed : Except Clash Entries := do
      let entries ← push name node entries
      if checked then checkName fuel name entries
      pure entries
    let clash : Except Clash Entries := .error (.keyPresent name)
    match entries.lastPart? name with
    | none => pushed
    | some old => do
      checkUse fuel name entries
      match old, node with
      | .table _ inner, .table .impliedItem more =>
        pure (replaceLast name (.tables [inner, more]) entries)
      | .tables items, .table .impliedItem more =>
        pure (replaceLast name (.tables (items ++ [more])) entries)
      | .tables items, .table .implied more => do
        let last ← addAll fuel more (items.getLastD [])
        pure (replaceLast name (.tables (items.dropLast ++ [last])) entries)
      | .table origin inner, .table origin' more =>
        match unionOf fuel name entries origin inner origin' more with
        | .scattered => pushed
        | .merged => do
          pure (replaceLast name (.table origin (← addAll fuel more inner)) entries)
        | .clash clash => .error clash
      | .tables items, .tables more => pure (replaceLast name (.tables (items ++ more)) entries)
      | _, _ => clash

def addAll : (fuel : Nat) → (more : Entries) → Entries → Except Clash Entries
  | 0, _, entries => .ok entries
  | fuel + 1, more, entries =>
    more.foldlM (fun entries (name, node) => do
      let entries ← add fuel true name node entries
      checkUse fuel name entries
      pure entries) entries

end

/-- More than enough fuel: a header and a key give a table at most twice as many tables around it as
a key has names, and each takes four steps. -/
def enough : Nat :=
  10 * longestKey

/-- A value under the names of a key, below tables that the key makes. -/
def ofKey (value : Value) : Key → Node
  | [] => .leaf value
  | name :: names => .table .dotted [(name, ofKey value names)]

/-- Gives a key a value. Where a key has dots, the parts of its table are checked at once. -/
def define (checked : Bool) (value : Value) : Key → Entries → Except Clash Entries
  | [], entries => .ok entries
  | name :: names, entries =>
    add enough (checked || !names.isEmpty) name (ofKey value names) entries

mutual

/-- The value that a node stands for. Fuel bounds its depth. -/
def valueOf : (fuel : Nat) → Node → Except Clash Value
  | 0, _ => .ok .missing
  | _ + 1, .leaf value => .ok value
  | fuel + 1, .table _ entries => .table <$> valuesOf fuel entries
  | fuel + 1, .tables items =>
    .list <$> items.mapM fun entries => .table <$> valuesOf fuel entries

/-- The table that entries stand for, with every name in its first place. -/
def valuesOf : (fuel : Nat) → Entries → Except Clash Table
  | 0, _ => .ok []
  | fuel + 1, entries =>
    entries.names.mapM fun name =>
      if entries.isScattered name then do
        let together ← gather name entries
        check enough together
        return (name, .table (← valuesOf fuel together))
      else do
        return (name, ← valueOf fuel ((entries.lastPart? name).getD (.leaf .missing)))

end

def values (entries : Entries) : Except Clash Table :=
  valuesOf enough entries

end Entries

end MethodMarkers.Toml
