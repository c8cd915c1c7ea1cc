import MethodMarkers.Buffer

namespace MethodMarkers

/-- Both ends of a chain of lines, and how many lines it has. -/
structure Chain where
  path : Option Path
  first : Option Line := none
  last : Option Line := none
  size : Nat := 0
  nextSerial : Nat := 0
  deriving DecidableEq, Repr

/-- Lines that know their neighbours, in one chain for each home. Whoever holds a line can reach
what is next to it, whichever chain it is in. -/
@[ext]
structure LinkedLines where
  prev : Line → Option Line
  next : Line → Option Line
  chain : Nat → Chain

/-- The first lines that a chain of links comes by, at most `bound` of them. -/
def follow (link : Line → Option Line) : (bound : Nat) → Option Line → List Line
  | 0, _ | _, none => []
  | bound + 1, some line => line :: follow link bound (link line)

namespace Chain

def fileName (chain : Chain) : String :=
  (chain.path.map Path.name).getD ""

def display (chain : Chain) : String :=
  let path := (chain.path.map Path.display).getD "None"
  s!"LineBuffer(path={path}, lines={chain.size})"

structure Foreign where
  line : Line
  chain : Chain
  deriving DecidableEq, Repr

def Foreign.message (fault : Foreign) : String :=
  s!"{fault.line.display} does not belong to {fault.chain.display}"

end Chain

namespace LinkedLines

def empty (paths : Nat → Option Path) : LinkedLines where
  prev _ := none
  next _ := none
  chain home := { path := paths home }

section Writes
variable (lines : LinkedLines) (line : Line) (home : Nat) (neighbour : Option Line)

def setPrev : LinkedLines :=
  { lines with prev := fun other => if other = line then neighbour else lines.prev other }

def setNext : LinkedLines :=
  { lines with next := fun other => if other = line then neighbour else lines.next other }

def setChain (chain : Chain) : LinkedLines :=
  { lines with chain := fun other => if other = home then chain else lines.chain other }

def setFirst : LinkedLines :=
  lines.setChain home { lines.chain home with first := some line }

def setLast : LinkedLines :=
  lines.setChain home { lines.chain home with last := some line }

def grow : LinkedLines :=
  lines.setChain home { lines.chain home with size := (lines.chain home).size + 1 }

@[simp] theorem setPrev_prev (other : Line) :
    (lines.setPrev line neighbour).prev other =
      if other = line then neighbour else lines.prev other :=
  rfl

@[simp] theorem setPrev_next : (lines.setPrev line neighbour).next = lines.next :=
  rfl

@[simp] theorem setPrev_chain : (lines.setPrev line neighbour).chain = lines.chain :=
  rfl

@[simp] theorem setNext_prev : (lines.setNext line neighbour).prev = lines.prev :=
  rfl

@[simp] theorem setNext_next (other : Line) :
    (lines.setNext line neighbour).next other =
      if other = line then neighbour else lines.next other :=
  rfl

@[simp] theorem setNext_chain : (lines.setNext line neighbour).chain = lines.chain :=
  rfl

@[simp] theorem setChain_prev (chain : Chain) : (lines.setChain home chain).prev = lines.prev :=
  rfl

@[simp] theorem setChain_next (chain : Chain) : (lines.setChain home chain).next = lines.next :=
  rfl

@[simp] theorem setChain_chain (chain : Chain) (other : Nat) :
    (lines.setChain home chain).chain other = if other = home then chain else lines.chain other :=
  rfl

end Writes

def newLine (lines : LinkedLines) (home : Nat) (text : String) : Line :=
  ⟨home, (lines.chain home).nextSerial, text⟩

def make (lines : LinkedLines) (home : Nat) (text : String) : LinkedLines :=
  let line := lines.newLine home text
  let chain := lines.chain home
  ((lines.setPrev line none).setNext line none).setChain home
    { chain with nextSerial := chain.nextSerial + 1 }

def append (lines : LinkedLines) (home : Nat) (text : String) : LinkedLines :=
  let line := lines.newLine home text
  let made := lines.make home text
  let linked := match (made.chain home).last with
    | none => (made.setFirst line home).setLast line home
    | some last => ((made.setPrev line (some last)).setNext last (some line)).setLast line home
  linked.grow home

def putAfter (lines : LinkedLines) (home : Nat) (target : Line) (text : String) : LinkedLines :=
  let line := lines.newLine home text
  let made := lines.make home text
  let made := (made.setPrev line (some target)).setNext line (made.next target)
  let linked := match made.next target with
    | none => made.setLast line home
    | some following => made.setPrev following (some line)
  (linked.setNext target (some line)).grow home

def putBefore (lines : LinkedLines) (home : Nat) (target : Line) (text : String) : LinkedLines :=
  let line := lines.newLine home text
  let made := lines.make home text
  let made := (made.setNext line (some target)).setPrev line (made.prev target)
  let linked := match made.prev target with
    | none => made.setFirst line home
    | some preceding => made.setNext preceding (some line)
  (linked.setPrev target (some line)).grow home

def checkOwned (lines : LinkedLines) (home : Nat) (line : Line) : Except Chain.Foreign Unit :=
  if line.home = home then .ok () else .error ⟨line, lines.chain home⟩

def nodes (lines : LinkedLines) (home : Nat) : List Line :=
  let chain := lines.chain home
  follow lines.next chain.nextSerial chain.first

def reversed (lines : LinkedLines) (home : Nat) : List Line :=
  let chain := lines.chain home
  follow lines.prev chain.nextSerial chain.last

def texts (lines : LinkedLines) (home : Nat) : List String :=
  (lines.nodes home).map Line.text

def range (lines : LinkedLines) (home : Nat) (first last : Line) :
    Except Chain.Foreign (List Line) := do
  lines.checkOwned home first
  pure (takeThrough (· == last) (follow lines.next (lines.chain home).nextSerial (some first)))

end LinkedLines

inductive Insertion (Target : Type) where
  | append (text : String)
  | after (target : Target) (text : String)
  | before (target : Target) (text : String)
  deriving DecidableEq, Repr

namespace Insertion

def text {Target : Type} : Insertion Target → String
  | append text | after _ text | before _ text => text

def target? {Target : Type} : Insertion Target → Option Target
  | append _ => none
  | after target _ | before target _ => some target

/-- The insertion by lines, where the targets are numbers of lines that were handed out. -/
def resolve? (handed : List Line) : Insertion Nat → Option (Insertion Line)
  | append text => some (.append text)
  | after target text => handed[target]?.map (.after · text)
  | before target text => handed[target]?.map (.before · text)

end Insertion

namespace LinkedLines

def place (lines : LinkedLines) (home : Nat) : Insertion Line → LinkedLines
  | .append text => lines.append home text
  | .after target text => lines.putAfter home target text
  | .before target text => lines.putBefore home target text

def insert (lines : LinkedLines) (home : Nat) (insertion : Insertion Line) :
    Except Chain.Foreign Line × LinkedLines :=
  match insertion.target?.elim (.ok ()) (lines.checkOwned home) with
  | .error fault => (.error fault, lines)
  | .ok () => (.ok (lines.newLine home insertion.text), lines.place home insertion)

end LinkedLines

end MethodMarkers
