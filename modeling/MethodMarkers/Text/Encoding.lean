import MethodMarkers.Text.Quoted

namespace MethodMarkers.Text

/-- Why bytes are no text, or a text has no bytes. Positions count bytes when decoding and
characters when encoding. -/
inductive CodingFault where
  | unknownEncoding (name : String)
  /-- No encoding can be looked up by a name that holds a null character. -/
  | nulInName
  | noByteOrderMark
  /-- The bytes from the first position to the last; `byte` is there if it is but one. -/
  | undecodable (codec : String) (byte : Option UInt8) (first last : Int) (reason : String)
  | unencodable (codec : String) (chars : List Char) (position limit : Nat)
  deriving DecidableEq, Repr

namespace CodingFault

def inBytes (codec : String) (bytes : List UInt8) (position : Nat) (reason : String) :
    CodingFault :=
  let byte := match bytes with
    | [byte] => some byte
    | _ => none
  .undecodable codec byte position (position + bytes.length - 1) reason

def inPart (codec : String) (bytes : List UInt8) (start stop : Int) (reason : String) :
    CodingFault :=
  let byte := if 0 ≤ start ∧ stop = start + 1 then bytes[start.toNat]? else none
  .undecodable codec byte start (stop - 1) reason

def message : CodingFault → String
  | unknownEncoding name => s!"unknown encoding: {name}"
  | nulInName => "embedded null character"
  | noByteOrderMark => "UTF-16 stream does not start with BOM"
  | undecodable codec (some byte) first _ reason =>
    let number := String.ofList (hexDigits 2 byte.toNat)
    s!"'{codec}' codec can't decode byte 0x{number} in position {first}: {reason}"
  | undecodable codec none first last reason =>
    s!"'{codec}' codec can't decode bytes in position {first}-{last}: {reason}"
  | unencodable codec [c] position limit =>
    let number := String.ofList (numericEscape c)
    s!"'{codec}' codec can't encode character '{number}' in position {position}: " ++
      s!"ordinal not in range({limit})"
  | unencodable codec chars position limit =>
    let last := position + chars.length - 1
    s!"'{codec}' codec can't encode characters in position {position}-{last}: " ++
      s!"ordinal not in range({limit})"

end CodingFault

namespace Utf8

def encodeChar (c : Char) : List UInt8 :=
  let n := c.toNat
  let tail (shift : Nat) : UInt8 := .ofNat (0x80 + n / shift % 64)
  if n < 0x80 then [.ofNat n]
  else if n < 0x800 then [.ofNat (0xC0 + n / 64), tail 1]
  else if n < 0x10000 then [.ofNat (0xE0 + n / 4096), tail 64, tail 1]
  else [.ofNat (0xF0 + n / 262144), tail 4096, tail 64, tail 1]

def encode (cs : List Char) : List UInt8 :=
  cs.flatMap encodeChar

/-- A sequence of bytes that is not complete: the bits and bytes seen so far, how many bytes are
owed, and the range of the next one. -/
structure Pending where
  bits : Nat
  owed : Nat
  low : UInt8
  high : UInt8
  /-- Last byte first. -/
  seen : List UInt8

def Pending.ofLead? (b : UInt8) : Option Pending :=
  if 0xC2 ≤ b ∧ b ≤ 0xDF then some ⟨b.toNat - 0xC0, 1, 0x80, 0xBF, [b]⟩
  else if b = 0xE0 then some ⟨0, 2, 0xA0, 0xBF, [b]⟩
  else if b = 0xED then some ⟨0xD, 2, 0x80, 0x9F, [b]⟩
  else if 0xE1 ≤ b ∧ b ≤ 0xEF then some ⟨b.toNat - 0xE0, 2, 0x80, 0xBF, [b]⟩
  else if b = 0xF0 then some ⟨0, 3, 0x90, 0xBF, [b]⟩
  else if 0xF1 ≤ b ∧ b ≤ 0xF3 then some ⟨b.toNat - 0xF0, 3, 0x80, 0xBF, [b]⟩
  else if b = 0xF4 then some ⟨4, 3, 0x80, 0x8F, [b]⟩
  else none

def fault (seen : List UInt8) (position : Nat) (reason : String) : CodingFault :=
  .inBytes "utf-8" seen.reverse (position - seen.length) reason

/-- Decodes the bytes from a position on. `done` holds the characters before it, last one first. -/
def decodeFrom (done : List Char) (position : Nat) :
    Option Pending → List UInt8 → Except CodingFault (List Char)
  | none, [] => .ok done.reverse
  | some pending, [] => .error (fault pending.seen position "unexpected end of data")
  | none, b :: bs =>
    if b < 0x80 then decodeFrom (.ofNat b.toNat :: done) (position + 1) none bs
    else match Pending.ofLead? b with
      | some pending => decodeFrom done (position + 1) (some pending) bs
      | none => .error (fault [b] (position + 1) "invalid start byte")
  | some pending, b :: bs =>
    if pending.low ≤ b ∧ b ≤ pending.high then
      let bits := 64 * pending.bits + (b.toNat - 0x80)
      if pending.owed ≤ 1 then decodeFrom (.ofNat bits :: done) (position + 1) none bs
      else decodeFrom done (position + 1)
        (some ⟨bits, pending.owed - 1, 0x80, 0xBF, b :: pending.seen⟩) bs
    else .error (fault pending.seen position "invalid continuation byte")

def decode (bytes : List UInt8) : Except CodingFault (List Char) :=
  decodeFrom [] 0 none bytes

end Utf8

namespace Utf16

inductive Order where
  | little
  | big
  deriving DecidableEq, Repr

def Order.codec : Order → String
  | little => "utf-16-le"
  | big => "utf-16-be"

def Order.unit (order : Order) (a b : UInt8) : Nat :=
  match order with
  | little => a.toNat + 256 * b.toNat
  | big => 256 * a.toNat + b.toNat

def Order.bytes (order : Order) (unit : Nat) : List UInt8 :=
  match order with
  | little => [.ofNat (unit % 256), .ofNat (unit / 256)]
  | big => [.ofNat (unit / 256), .ofNat (unit % 256)]

def encodeChar (order : Order) (c : Char) : List UInt8 :=
  let n := c.toNat
  if n < 0x10000 then order.bytes n
  else order.bytes (0xD800 + (n - 0x10000) / 0x400) ++ order.bytes (0xDC00 + n % 0x400)

def encode (order : Order) (cs : List Char) : List UInt8 :=
  cs.flatMap (encodeChar order)

def isHigh (unit : Nat) : Bool :=
  decide (0xD800 ≤ unit) && decide (unit < 0xDC00)

def isLow (unit : Nat) : Bool :=
  decide (0xDC00 ≤ unit) && decide (unit < 0xE000)

/-- Decodes the bytes from a position on, after the first half of a pair if there is one. `done`
holds the characters before it, last one first. -/
def decodeFrom (order : Order) (done : List Char) (position : Nat) :
    Option (UInt8 × UInt8) → List UInt8 → Except CodingFault (List Char)
  | none, [] => .ok done.reverse
  | none, [b] => .error (.inBytes order.codec [b] position "truncated data")
  | some (a, b), [] =>
    .error (.inBytes order.codec [a, b] (position - 2) "unexpected end of data")
  | some (a, b), [c] =>
    .error (.inBytes order.codec [a, b, c] (position - 2) "unexpected end of data")
  | none, a :: b :: bytes =>
    let unit := order.unit a b
    if isHigh unit then decodeFrom order done (position + 2) (some (a, b)) bytes
    else if isLow unit then
      .error (.inBytes order.codec [a, b] position "illegal encoding")
    else decodeFrom order (.ofNat unit :: done) (position + 2) none bytes
  | some (a, b), c :: d :: bytes =>
    let low := order.unit c d
    if isLow low then
      let n := 0x10000 + (order.unit a b - 0xD800) * 0x400 + (low - 0xDC00)
      decodeFrom order (.ofNat n :: done) (position + 2) none bytes
    else .error (.inBytes order.codec [a, b] (position - 2) "illegal UTF-16 surrogate")

def decodeMarked : List UInt8 → Except CodingFault (List Char)
  | [] => .ok []
  | 0xFF :: 0xFE :: bytes => decodeFrom .little [] 2 none bytes
  | 0xFE :: 0xFF :: bytes => decodeFrom .big [] 2 none bytes
  | bytes => (decodeFrom .little [] 0 none bytes).bind fun _ => .error .noByteOrderMark

end Utf16

/-- Encodings in which a byte is a character below a limit. -/
structure SingleByte where
  codec : String
  limit : Nat

namespace SingleByte

def ascii : SingleByte :=
  ⟨"ascii", 128⟩

def latin1 : SingleByte :=
  ⟨"latin-1", 256⟩

def decode (single : SingleByte) (bytes : List UInt8) : Except CodingFault (List Char) :=
  let fits (b : UInt8) : Bool := decide (b.toNat < single.limit)
  match bytes.dropWhile fits with
  | [] => .ok (bytes.map fun b => .ofNat b.toNat)
  | b :: _ => .error (.inBytes single.codec [b] (bytes.takeWhile fits).length
      s!"ordinal not in range({single.limit})")

def encode (single : SingleByte) (cs : List Char) : Except CodingFault (List UInt8) :=
  let fits (c : Char) : Bool := decide (c.toNat < single.limit)
  match cs.dropWhile fits with
  | [] => .ok (cs.map fun c => .ofNat c.toNat)
  | rest => .error (.unencodable single.codec (rest.takeWhile (!fits ·)) (cs.takeWhile fits).length
      single.limit)

end SingleByte

/-- The encodings of source files. -/
inductive Encoding where
  | utf8
  /-- UTF-8 with a byte order mark, which is no part of the text. -/
  | utf8Marked
  | ascii
  | latin1
  /-- UTF-16 with a byte order mark, which is no part of the text. -/
  | utf16Marked
  | utf16 (order : Utf16.Order)
  /-- What the system reads texts in, which is UTF-8. Nothing is written in it. -/
  | locale
  deriving DecidableEq, Repr

namespace Encoding

/-- The name of the system's encoding, which is spelled in no other way. -/
def localeName : String :=
  "locale"

def names : List (String × Encoding) :=
  [("utf_8", utf8), ("utf_8_sig", utf8Marked), ("ascii", ascii), ("latin_1", latin1),
   ("utf_16", utf16Marked), ("utf_16_le", utf16 .little), ("utf_16_be", utf16 .big)]

/-- Further names, in which a dot may stand for an underscore. -/
def aliases : List (Encoding × List String) :=
  [(utf8, ["u8", "utf", "utf8", "utf8_ucs2", "utf8_ucs4", "cp65001"]),
   (ascii, ["646", "ansi_x3.4_1968", "ansi_x3_4_1968", "ansi_x3.4_1986", "cp367", "csascii",
     "ibm367", "iso646_us", "iso_646.irv_1991", "iso_ir_6", "us", "us_ascii"]),
   (latin1, ["8859", "cp819", "csisolatin1", "ibm819", "iso8859", "iso8859_1", "iso_8859_1",
     "iso_8859_1_1987", "iso_ir_100", "l1", "latin", "latin1"]),
   (utf16Marked, ["u16", "utf16"]),
   (utf16 .little, ["unicodelittleunmarked", "utf_16le"]),
   (utf16 .big, ["unicodebigunmarked", "utf_16be"])]

def ofAlias? (name : String) : Option Encoding :=
  (aliases.find? fun entry => entry.2.contains name).map Prod.fst

/-- A name with each run of punctuation between other characters turned into one underscore. -/
def normalizeName (name : List Char) : List Char :=
  go [] name
where
  go (done : List Char) : List Char → List Char
    | [] => done.reverse
    | c :: cs =>
      if c.isAlphanum || c == '.' then go (c.toLower :: done) cs
      else if done.isEmpty || done.head? == some '_' ||
        (cs.all fun c => !(c.isAlphanum || c == '.'))
      then go done cs
      else go ('_' :: done) cs

/-- The encoding of a name. The scope is the encodings above under all their names; the name of any
other codec counts as unknown, also where a system has such a codec. -/
def ofName? (name : String) : Option Encoding :=
  if name = localeName then some locale
  else
    let cs := normalizeName name.toList
    let undotted := cs.map fun c => if c = '.' then '_' else c
    ((ofAlias? (String.ofList cs)).or (ofAlias? (String.ofList undotted))).or
      (names.lookup (String.ofList cs))

def decode : Encoding → List UInt8 → Except CodingFault (List Char)
  | utf8, bytes | locale, bytes => Utf8.decode bytes
  | utf8Marked, [] | utf8Marked, [0xEF] | utf8Marked, [0xEF, 0xBB] => .ok []
  | utf8Marked, 0xEF :: 0xBB :: 0xBF :: bytes => Utf8.decode bytes
  | utf8Marked, bytes => Utf8.decode bytes
  | ascii, bytes => SingleByte.ascii.decode bytes
  | latin1, bytes => SingleByte.latin1.decode bytes
  | utf16Marked, bytes => Utf16.decodeMarked bytes
  | utf16 order, bytes => Utf16.decodeFrom order [] 0 none bytes

def encode : Encoding → List Char → Except CodingFault (List UInt8)
  | utf8, cs => .ok (Utf8.encode cs)
  | utf8Marked, cs => .ok (0xEF :: 0xBB :: 0xBF :: Utf8.encode cs)
  | ascii, cs => SingleByte.ascii.encode cs
  | latin1, cs => SingleByte.latin1.encode cs
  | utf16Marked, cs => .ok (0xFF :: 0xFE :: Utf16.encode .little cs)
  | utf16 order, cs => .ok (Utf16.encode order cs)
  | locale, _ => .error (.unknownEncoding localeName)

/-- The encoding of a name within the scope of `ofName?`. -/
def named (name : String) : Except CodingFault Encoding :=
  if name.toList.contains '\x00' then .error .nulInName
  else match ofName? name with
    | some encoding => .ok encoding
    | none => .error (.unknownEncoding name)

end Encoding

end MethodMarkers.Text
