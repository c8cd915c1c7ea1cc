import MethodMarkers.Text.DigitRanges

namespace MethodMarkers.Text

/-- The value of a decimal digit of any script. -/
def decimalValue? (c : Char) : Option Nat :=
  (digitZeros.find? fun first => decide (first ≤ c.toNat) && decide (c.toNat < first + 10)).map
    (c.toNat - ·)

def isDigit (c : Char) : Bool :=
  (decimalValue? c).isSome || inRanges shapedDigitRanges c

def decimalNumber? (cs : List Char) : Option Nat :=
  cs.foldlM (fun n c => (decimalValue? c).map (10 * n + ·)) 0

end MethodMarkers.Text
