namespace MethodMarkers.Diff

structure Run where
  old : Nat
  new : Nat
  length : Nat
  deriving DecidableEq, Repr

structure Window where
  oldFrom : Nat
  oldTo : Nat
  newFrom : Nat
  newTo : Nat
  deriving DecidableEq, Repr

def agree (old new : Array String) (i j : Nat) : Bool :=
  match old[i]?, new[j]? with
  | some a, some b => a == b
  | _, _ => false

/-- Lines that make up more than a hundredth of a new text of 200 lines or more start no run. -/
def isPopular (new : Array String) (line : String) : Bool :=
  decide (200 ≤ new.size) && decide (new.size / 100 + 1 < new.count line)

/-- For each old line the positions of its equals in the new text, unless it is popular. -/
def seeds (old new : Array String) : Array (List Nat) :=
  old.map fun line =>
    if isPopular new line then []
    else (List.range new.size).filter fun j => agree #[line] new 0 j

def countBack (p : Nat → Nat → Bool) : (room : Nat) → Nat → Nat → Nat
  | 0, _, _ => 0
  | room + 1, i, j => if p i j then countBack p room (i - 1) (j - 1) + 1 else 0

def countOn (p : Nat → Nat → Bool) : (room : Nat) → Nat → Nat → Nat
  | 0, _, _ => 0
  | room + 1, i, j => if p i j then countOn p room (i + 1) (j + 1) + 1 else 0

/-- The run of seeds that ends at a pair of positions, within the window. -/
def runEndingAt (seeds : Array (List Nat)) (window : Window) (i j : Nat) : Run :=
  let length := countBack (fun i j => (seeds[i]?.getD []).contains j)
    (min (i - window.oldFrom) (j - window.newFrom) + 1) i j
  ⟨i + 1 - length, j + 1 - length, length⟩

def longestSeeded (seeds : Array (List Nat)) (window : Window) : Run :=
  (List.range' window.oldFrom (window.oldTo - window.oldFrom)).foldl
    (fun best i =>
      ((seeds[i]?.getD []).filter fun j =>
        decide (window.newFrom ≤ j) && decide (j < window.newTo)).foldl
        (fun best j =>
          let run := runEndingAt seeds window i j
          if best.length < run.length then run else best)
        best)
    ⟨window.oldFrom, window.newFrom, 0⟩

def extend (old new : Array String) (window : Window) (run : Run) : Run :=
  let back := if run.old = 0 ∨ run.new = 0 then 0 else
    countBack (agree old new) (min (run.old - window.oldFrom) (run.new - window.newFrom))
      (run.old - 1) (run.new - 1)
  let oldEnd := run.old + run.length
  let newEnd := run.new + run.length
  let on := countOn (agree old new) (min (window.oldTo - oldEnd) (window.newTo - newEnd))
    oldEnd newEnd
  ⟨run.old - back, run.new - back, back + run.length + on⟩

/-- The runs of a window: the longest one, and those on either side of it. Each of them takes at
least one old line, so that `depth` need not exceed the number of old lines. -/
def runsIn (old new : Array String) (seeds : Array (List Nat)) : (depth : Nat) → Window → List Run
  | 0, _ => []
  | depth + 1, window =>
    if window.oldFrom < window.oldTo ∧ window.newFrom < window.newTo then
      let run := extend old new window (longestSeeded seeds window)
      if run.length = 0 then []
      else
        runsIn old new seeds depth { window with oldTo := run.old, newTo := run.new } ++
          run :: runsIn old new seeds depth
            { window with oldFrom := run.old + run.length, newFrom := run.new + run.length }
    else []

def joinTouching : List Run → List Run
  | [] => []
  | run :: runs =>
    match joinTouching runs with
    | [] => [run]
    | next :: rest =>
      if run.old + run.length = next.old ∧ run.new + run.length = next.new then
        ⟨run.old, run.new, run.length + next.length⟩ :: rest
      else run :: next :: rest

def runs (old new : Array String) : List Run :=
  joinTouching (runsIn old new (seeds old new) old.size ⟨0, old.size, 0, new.size⟩)

end MethodMarkers.Diff
