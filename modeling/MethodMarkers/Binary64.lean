import MethodMarkers.Text.Numeral

namespace MethodMarkers
open Text

/-- A binary floating point number of 64 bits. The finite ones count units of `2 ^ -1074`. -/
inductive Binary64 where
  | nan
  | infinite (negative : Bool)
  | finite (negative : Bool) (units : Nat)
  deriving DecidableEq, Repr

namespace Binary64

def one : Nat :=
  Nat.pow 2 1074

def spacing (units : Nat) : Nat :=
  Nat.pow 2 (Nat.log2 units - 52)

def roundQuotient (numerator denominator : Nat) : Nat :=
  let quotient := numerator / denominator
  let twice := 2 * (numerator % denominator)
  if denominator < twice ∨ (twice = denominator ∧ quotient % 2 = 1) then quotient + 1 else quotient

def ofQuotient (negative : Bool) (numerator denominator : Nat) : Binary64 :=
  let step := spacing (numerator * one / denominator)
  let units := roundQuotient (numerator * one) (denominator * step) * step
  if Nat.pow 2 1024 * one ≤ units then infinite negative else finite negative units

def digitCount (n : Nat) : Nat :=
  (Nat.toDigits 10 n).length

/-- The number nearest to `digits * 10 ^ exponent`. Far beyond the greatest number and far below the
least one the digits do not matter. -/
def ofDecimal (negative : Bool) (digits : Nat) (exponent : Int) : Binary64 :=
  let magnitude := digitCount digits + exponent
  if digits = 0 ∨ magnitude < -400 then finite negative 0
  else if 400 < magnitude then infinite negative
  else if 0 ≤ exponent then ofQuotient negative (digits * Nat.pow 10 exponent.toNat) 1
  else ofQuotient negative digits (Nat.pow 10 (-exponent).toNat)

def splitFirst (isMark : Char → Bool) (cs : List Char) : List Char × Option (List Char) :=
  (cs.takeWhile (!isMark ·), match cs.dropWhile (!isMark ·) with
    | [] => none
    | _ :: rest => some rest)

/-- Reads digits with at most one point among them, which may be followed by an exponent. -/
def ofNumeral? (cs : List Char) : Option Binary64 := do
  let (negative, cs) := splitSign cs
  let (mantissa, exponentText) := splitFirst (fun c => c == 'e' || c == 'E') cs
  let (whole, fraction) := splitFirst (· == '.') mantissa
  let exponent : Int ← match exponentText with
    | none => some 0
    | some cs => do
      let (below, cs) := splitSign cs
      let n ← decimalNumber? cs
      if cs = [] then none else pure (if below then -n else n)
  let places := fraction.getD []
  let digits ← decimalNumber? (whole ++ places)
  if whole ++ places = [] then none
  else return ofDecimal negative digits (exponent - places.length)

def trimNumeral (cs : List Char) : List Char :=
  ((cs.dropWhile isNumeralBlank).reverse.dropWhile isNumeralBlank).reverse

/-- The number that a text spells: by one of two words, or in digits between white space. -/
def ofText? (cs : List Char) : Option Binary64 :=
  let (negative, magnitude) := splitSign cs
  if magnitude = "inf".toList then some (infinite negative)
  else if magnitude = "nan".toList then some nan
  else ofNumeral? (trimNumeral cs)

end Binary64

end MethodMarkers
