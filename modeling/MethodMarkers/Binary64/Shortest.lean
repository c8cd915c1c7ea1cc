import MethodMarkers.Binary64

namespace MethodMarkers.Binary64

/-- A positive number in decimal: its first digit has the weight `10 ^ exponent`. -/
structure Decimal where
  digits : List Char
  exponent : Int
  deriving DecidableEq, Repr

/-- The quarters of a unit between which all numbers round to the given one. The gap below a power
of two is half the gap above it. -/
def bounds (units : Nat) : Nat × Nat :=
  let step := spacing units
  (4 * units - (if units = Nat.pow 2 (Nat.log2 units) ∧ 1 < step then step else 2 * step),
    4 * units + 2 * step)

/-- The bounds themselves round to a number when its last significant bit is zero. -/
def includesBounds (units : Nat) : Bool :=
  units / spacing units % 2 == 0

def leadingExponent (units : Nat) : Int :=
  (digitCount (units * Nat.pow 10 400 / one) : Int) - 401

/-- A multiple of `10 ^ power` that rounds to the number, the nearest if there are several. Of two
equally near the even one is taken. -/
def nearestOnGrid? (units : Nat) (power : Int) : Option Nat :=
  let weight := Nat.pow 10 power.toNat * 4 * one
  let scale := Nat.pow 10 (-power).toNat
  let (low, high) := bounds units
  let fits (n : Nat) : Bool :=
    if includesBounds units then
      decide (low * scale ≤ n * weight) && decide (n * weight ≤ high * scale)
    else decide (low * scale < n * weight) && decide (n * weight < high * scale)
  let nearest := roundQuotient (4 * units * scale) weight
  let below := 4 * units * scale / weight
  [nearest, below, below + 1].find? fits

def dropZerosEnd (digits : List Char) : List Char :=
  (digits.reverse.dropWhile (· == '0')).reverse

def decimalOf? (units count : Nat) : Option Decimal :=
  (nearestOnGrid? units (leadingExponent units - (count - 1 : Nat))).map fun n =>
    let digits := Nat.toDigits 10 n
    ⟨dropZerosEnd digits, leadingExponent units + (digits.length - count : Nat)⟩

/-- The shortest decimal that rounds to a positive number; seventeen digits are always enough. -/
def shortest (units : Nat) : Decimal :=
  ((List.range 17).findSome? fun n => decimalOf? units (n + 1)).getD ⟨['0'], 0⟩

def zeros (n : Nat) : List Char :=
  List.replicate n '0'

/-- Positional from a ten-thousandth up to ten to the sixteenth, and with at least one decimal
place; otherwise with an exponent of at least two digits. -/
def Decimal.text (decimal : Decimal) : List Char :=
  let ⟨digits, exponent⟩ := decimal
  if 0 ≤ exponent ∧ exponent < 16 then
    let wholeSize := exponent.toNat + 1
    let places := digits.drop wholeSize
    digits.take wholeSize ++ zeros (wholeSize - digits.length) ++
      '.' :: (if places = [] then ['0'] else places)
  else if -4 ≤ exponent ∧ exponent < 0 then
    '0' :: '.' :: zeros ((-exponent).toNat - 1) ++ digits
  else
    let size := Nat.toDigits 10 exponent.natAbs
    digits.take 1 ++ (if digits.length ≤ 1 then [] else '.' :: digits.drop 1) ++
      'e' :: (if exponent < 0 then '-' else '+') :: zeros (2 - size.length) ++ size

def text : Binary64 → String
  | nan => "nan"
  | infinite negative => if negative then "-inf" else "inf"
  | finite negative units =>
    let magnitude := if units = 0 then ['0', '.', '0'] else (shortest units).text
    String.ofList (if negative then '-' :: magnitude else magnitude)

end MethodMarkers.Binary64
