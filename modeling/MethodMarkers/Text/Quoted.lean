import MethodMarkers.Text.UnprintableRanges

namespace MethodMarkers.Text

def isPrintable (c : Char) : Bool :=
  if c.toNat < 128 then decide (32 ≤ c.toNat) && c.toNat != 127
  else !inRanges unprintableRanges c

def hexDigit (n : Nat) : Char :=
  Nat.digitChar (n % 16)

def hexDigits : (width : Nat) → Nat → List Char
  | 0, _ => []
  | width + 1, n => hexDigits width (n / 16) ++ [hexDigit n]

def numericEscape (c : Char) : List Char :=
  if c.toNat < 0x100 then '\\' :: 'x' :: hexDigits 2 c.toNat
  else if c.toNat < 0x10000 then '\\' :: 'u' :: hexDigits 4 c.toNat
  else '\\' :: 'U' :: hexDigits 8 c.toNat

def quotedChar (quote c : Char) : List Char :=
  if c = quote ∨ c = '\\' then ['\\', c]
  else match c with
    | '\n' => ['\\', 'n']
    | '\r' => ['\\', 'r']
    | '\t' => ['\\', 't']
    | _ => if isPrintable c then [c] else numericEscape c

/-- The quote character for a text: single, unless the text holds a single quote and no double. -/
def quoteFor (cs : List Char) : Char :=
  if '\x27' ∈ cs ∧ '"' ∉ cs then '"' else '\x27'

/-- A text between quotes, on one line and with every unprintable character escaped. -/
def quoted (s : String) : String :=
  let quote := quoteFor s.toList
  String.ofList (quote :: s.toList.flatMap (quotedChar quote) ++ [quote])

def displayBool (b : Bool) : String :=
  if b then "True" else "False"

end MethodMarkers.Text
