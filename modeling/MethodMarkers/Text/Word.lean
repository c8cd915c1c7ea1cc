import MethodMarkers.Text.WordRanges

namespace MethodMarkers.Text

/-- Letters and numbers of every script, and the underscore. Combining marks are not word
characters. -/
def isWordChar (c : Char) : Bool :=
  if c.toNat < 128 then c.isAlphanum || c == '_' else inRanges wordRanges c

/-- Whether `word` stands at the start of the text and the character after it, if any, is no word
character. -/
def startsWithWord (word cs : List Char) : Bool :=
  word.isPrefixOf cs && !((cs.drop word.length).head?.any isWordChar)

/-- `containsWord` for a text that follows a word character, or does not. -/
def containsWordAfter (word : List Char) : Bool → List Char → Bool
  | _, [] => false
  | afterWordChar, c :: cs =>
    (!afterWordChar && startsWithWord word (c :: cs)) || containsWordAfter word (isWordChar c) cs

/-- Whether `word` occurs with no word character on either side. -/
def containsWord (word cs : List Char) : Bool :=
  containsWordAfter word false cs

def containsPart (part : List Char) : List Char → Bool
  | [] => part.isEmpty
  | c :: cs => part.isPrefixOf (c :: cs) || containsPart part cs

/-- Every occurrence of `part`, from the left and without overlap, replaced by `by_`. An empty part
is not replaced. -/
def replacePart (part by_ : List Char) (cs : List Char) : List Char :=
  go 0 cs
where
  go : Nat → List Char → List Char
    | _, [] => []
    | skip + 1, _ :: rest => go skip rest
    | 0, c :: rest =>
      if !part.isEmpty && part.isPrefixOf (c :: rest) then by_ ++ go (part.length - 1) rest
      else c :: go 0 rest

end MethodMarkers.Text
