namespace MethodMarkers.Toml

inductive Clash where
  /-- The name already has a value. -/
  | keyPresent (name : String)
  /-- The name is that of a table which keys with dots made. -/
  | redefined
  deriving DecidableEq, Repr

def Clash.message : Clash → String
  | keyPresent name => s!"Key \"{name}\" already exists."
  | redefined => "Redefinition of an existing table"

inductive Fault where
  | invalid
  | clash (clash : Clash)
  deriving DecidableEq, Repr

inductive Refusal where
  | fault (fault : Fault)
  /-- The part breaks off at a closing bracket, with a text behind it. A list around the part ends
  there. -/
  | brokenOff (rest : List Char)
  deriving DecidableEq, Repr

def Refusal.toFault : Refusal → Fault
  | fault f => f
  | brokenOff _ => .invalid

abbrev Found (α : Type) :=
  α × List Char

def refuse {α : Type} : Except Refusal α :=
  .error (.fault .invalid)

/-- Refuses a text whose first character cannot stand there. -/
def refuseAt {α : Type} : List Char → Except Refusal α
  | ']' :: rest => .error (.brokenOff rest)
  | _ => refuse

def require {α : Type} : Option α → Except Refusal α
  | some found => .ok found
  | none => refuse

end MethodMarkers.Toml
