import MethodMarkers.Text.Quoted

namespace MethodMarkers.Template
open Text

inductive Fault where
  | tooFewArguments
  | tooManyArguments
  /-- A place names an entry, but the arguments are no table. -/
  | noTable
  | noEntry (key : String)
  | unclosedKey
  | incomplete
  /-- No conversion has the letter that stands at an index of the template. -/
  | unknownConversion (letter : Char) (index : Nat)
  | widthTooBig
  | precisionTooBig
  /-- There is room for no number with so many digits. -/
  | precisionTooLarge
  | sizeNotInteger
  /-- An argument for a width is beyond 64 bits, or one for a precision beyond 32. -/
  | widthOutOfRange
  | precisionOutOfRange
  | notInteger (letter : Char) (kind : String)
  | notNumber (letter : Char) (kind : String)
  | notReal (kind : String)
  | notCharacter
  | characterOutOfRange
  | infinite
  | notANumber
  | tooLargeForReal
  deriving DecidableEq, Repr

def Fault.message : Fault → String
  | tooFewArguments => "not enough arguments for format string"
  | tooManyArguments => "not all arguments converted during string formatting"
  | noTable => "format requires a mapping"
  | noEntry key => quoted key
  | unclosedKey => "incomplete format key"
  | incomplete => "incomplete format"
  | unknownConversion letter index =>
    let shown := if 31 ≤ letter.toNat ∧ letter.toNat < 127 then letter else '?'
    let number := String.ofList (Nat.toDigits 16 letter.toNat)
    s!"unsupported format character '{shown}' (0x{number}) at index {index}"
  | widthTooBig => "width too big"
  | precisionTooBig => "precision too big"
  | precisionTooLarge => "precision too large"
  | sizeNotInteger => "* wants int"
  | widthOutOfRange => "Python int too large to convert to C ssize_t"
  | precisionOutOfRange => "Python int too large to convert to C int"
  | notInteger letter kind => s!"%{letter} format: an integer is required, not {kind}"
  | notNumber letter kind => s!"%{letter} format: a real number is required, not {kind}"
  | notReal kind => s!"must be real number, not {kind}"
  | notCharacter => "%c requires int or char"
  | characterOutOfRange => "%c arg not in range(0x110000)"
  | infinite => "cannot convert float infinity to integer"
  | notANumber => "cannot convert float NaN to integer"
  | tooLargeForReal => "int too large to convert to float"

/-- The class of a fault: what is wrong with the kind of an argument, with a value, with its size,
or that an entry is missing. -/
inductive FaultClass where
  | kind
  | value
  | size
  | entry
  deriving DecidableEq, Repr

def Fault.class : Fault → FaultClass
  | noEntry _ => .entry
  | precisionTooLarge | widthOutOfRange | precisionOutOfRange | characterOutOfRange | infinite
  | tooLargeForReal => .size
  | unclosedKey | incomplete | unknownConversion .. | widthTooBig | precisionTooBig | notANumber =>
    .value
  | _ => .kind

end MethodMarkers.Template
