import DocTypes.Text.Ranges

/-!
# White space

`isBlank` is the white space of Unicode together with the four information separators. Trimming
cuts characters of this class, or of a class given, off either end of a text.
-/

namespace DocTypes

/-- The white-space characters. -/
def blankRanges : List (Nat × Nat) :=
  [(0x9, 0xD), (0x1C, 0x20), (0x85, 0x85), (0xA0, 0xA0), (0x1680, 0x1680), (0x2000, 0x200A),
   (0x2028, 0x2029), (0x202F, 0x202F), (0x205F, 0x205F), (0x3000, 0x3000)]

/-- Is `c` white space? -/
def isBlank (c : Char) : Bool :=
  inRanges blankRanges c

/-- `text` without its leading characters of class `p`. -/
def trimStartBy (p : Char → Bool) (text : List Char) : List Char :=
  text.dropWhile p

/-- `text` without its trailing characters of class `p`. -/
def trimEndBy (p : Char → Bool) (text : List Char) : List Char :=
  (text.reverse.dropWhile p).reverse

/-- `text` without white space at its start. -/
def trimStart (text : List Char) : List Char :=
  trimStartBy isBlank text

/-- `text` without white space at its end. -/
def trimEnd (text : List Char) : List Char :=
  trimEndBy isBlank text

/-- `text` without white space at either end. -/
def trim (text : List Char) : List Char :=
  trimEnd (trimStart text)

/-- Is `text` white space throughout? -/
def isBlankText (text : List Char) : Bool :=
  text.all isBlank

/-- A space or a tab: the blanks that indent a line. -/
def isIndent (c : Char) : Bool :=
  c == ' ' || c == '\t'

end DocTypes
