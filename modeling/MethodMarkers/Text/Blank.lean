import MethodMarkers.Text.Ranges

namespace MethodMarkers.Text

/-- White space of every script: tab to carriage return, the four information separators, space,
next line, and the spaces and line separators beyond Latin. -/
def blankRanges : List (Nat × Nat) :=
  [(0x9, 0xD), (0x1C, 0x20), (0x85, 0x85), (0xA0, 0xA0), (0x1680, 0x1680), (0x2000, 0x200A),
   (0x2028, 0x2029), (0x202F, 0x202F), (0x205F, 0x205F), (0x3000, 0x3000)]

def isBlank (c : Char) : Bool :=
  inRanges blankRanges c

def dropBlanks (cs : List Char) : List Char :=
  cs.dropWhile isBlank

def dropBlanksEnd (cs : List Char) : List Char :=
  (dropBlanks cs.reverse).reverse

def trim (cs : List Char) : List Char :=
  dropBlanksEnd (dropBlanks cs)

def allBlank (cs : List Char) : Bool :=
  cs.all isBlank

end MethodMarkers.Text
