import MethodMarkers.Text.CaseRanges

namespace MethodMarkers.Text

def CapitalRun.contains (run : CapitalRun) (n : Nat) : Bool :=
  decide (run.first ≤ n) && decide (n ≤ run.last) && (n - run.first) % run.step == 0

def smallLetter (c : Char) : Char :=
  if c.toNat < 128 then c.toLower
  else match capitalRuns.find? (·.contains c.toNat) with
    | some run => Char.ofNat (c.toNat + run.toSmall).toNat
    | none => c

def isCaseIgnorable (c : Char) : Bool :=
  inRanges caseIgnorableRanges c

/-- Whether the first character that casing does not pass over is a letter with case. -/
def leadsWithCased (cs : List Char) : Bool :=
  (cs.find? (!isCaseIgnorable ·)).any (inRanges casedRanges)

/-- A capital sigma is final when a letter stands before it and none after it. -/
def isFinalSigma (before after : List Char) : Bool :=
  leadsWithCased before && !leadsWithCased after

/-- Small letters for a text of which `before` is already done, last character first. -/
def lowerAfter (before : List Char) : List Char → List Char
  | [] => []
  | c :: cs =>
    (if c = 'Σ' then [if isFinalSigma before cs then 'ς' else 'σ']
     else if c = 'İ' then ['i', '\u0307']
     else [smallLetter c]) ++ lowerAfter (c :: before) cs

def lower (s : String) : String :=
  String.ofList (lowerAfter [] s.toList)

/-- The ASCII capital of a character that has one: a small ASCII letter, the dotless i or the long
s. Any other character is left alone. -/
def asciiCapital (c : Char) : Char :=
  if c = 'ı' then 'I' else if c = 'ſ' then 'S' else c.toUpper

end MethodMarkers.Text
