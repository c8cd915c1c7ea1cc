import MethodMarkers.Binary64.Shortest

namespace MethodMarkers.Binary64

inductive Layout where
  /-- So many places behind the point. -/
  | fixed
  /-- One digit before the point, so many places behind it, and an exponent. -/
  | scientific
  /-- So many significant digits, with an exponent only where the number is large or small. -/
  | general
  deriving DecidableEq, Repr

/-- The multiple of `10 ^ power` nearest to a number, counted in that unit; a half goes to the even
neighbour. -/
def roundTo (units : Nat) (power : Int) : Nat :=
  roundQuotient (units * Nat.pow 10 (-power).toNat) (one * Nat.pow 10 power.toNat)

/-- The first `places + 1` digits of a number as a whole number, and the exponent of the first one.
Rounding up to the next power of ten takes a digit away. -/
def significant (units places : Nat) : Nat × Int :=
  if units = 0 then (0, 0)
  else
    let exponent := leadingExponent units
    let n := roundTo units (exponent - places)
    if n < Nat.pow 10 (places + 1) then (n, exponent) else (n / 10, exponent + 1)

/-- A decimal whose last `places` digits stand behind a point. The point is left out before no
digits, unless it is wanted. -/
def pointed (keepPoint : Bool) (places n : Nat) : List Char :=
  let digits := Nat.toDigits 10 n
  let padded := zeros (places + 1 - digits.length) ++ digits
  padded.take (padded.length - places) ++
    (if places = 0 ∧ !keepPoint then [] else ['.']) ++ padded.drop (padded.length - places)

def exponentText (exponent : Int) : List Char :=
  let size := Nat.toDigits 10 exponent.natAbs
  'e' :: (if exponent < 0 then '-' else '+') :: zeros (2 - size.length) ++ size

def dropEmptyPlaces (cs : List Char) : List Char :=
  if cs.contains '.' then
    let kept := (cs.reverse.dropWhile (· == '0')).reverse
    if kept.getLast? = some '.' then kept.dropLast else kept
  else cs

/-- A number without its sign. With `keepPoint` there is a point even before no digits, and zeros at
the end stay. -/
def Layout.magnitude (layout : Layout) (keepPoint : Bool) (precision units : Nat) : List Char :=
  match layout with
  | fixed => pointed keepPoint precision (roundTo units (-precision))
  | scientific =>
    let (n, exponent) := significant units precision
    pointed keepPoint precision n ++ exponentText exponent
  | general =>
    let count := max 1 precision
    let (n, exponent) := significant units (count - 1)
    let trim (cs : List Char) : List Char := if keepPoint then cs else dropEmptyPlaces cs
    if -4 ≤ exponent ∧ exponent < count then
      trim (pointed keepPoint (count - 1 - exponent).toNat n)
    else trim (pointed keepPoint (count - 1) n) ++ exponentText exponent

def format (layout : Layout) (keepPoint : Bool) (precision : Nat) : Binary64 → List Char
  | nan => "nan".toList
  | infinite negative => if negative then "-inf".toList else "inf".toList
  | finite negative units =>
    (if negative then ['-'] else []) ++ layout.magnitude keepPoint precision units

def truncate? : Binary64 → Option Int
  | finite negative units =>
    let whole : Int := units / one
    some (if negative then -whole else whole)
  | _ => none

def ofInt (n : Int) : Binary64 :=
  ofQuotient (decide (n < 0)) n.natAbs 1

end MethodMarkers.Binary64
