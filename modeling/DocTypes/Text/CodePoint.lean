/-!
# Texts of code points

A `String` is made of characters, and half of a surrogate pair is none. Escapes can spell such a
half, so what a program's literals hold and what is printed of them is a `Text`: any code points.
To the lexer each of them is a character, a half the replacement character, which is like it in all
that tokens are told by.
-/

namespace DocTypes

/-- Is it one half of a pair that spells a code point above `0xFFFF`? -/
def isSurrogate (point : Nat) : Bool :=
  0xD800 ≤ point && point ≤ 0xDFFF

/-- Is it the code point of a character? -/
def isScalar (point : Nat) : Bool :=
  point < 0x110000 && !isSurrogate point

/-- The code points of characters. -/
def codePoints (text : List Char) : List Nat :=
  text.map Char.toNat

/-- The character that a code point is seen as. -/
def shownChar (point : Nat) : Char :=
  if isScalar point then Char.ofNat point else '\uFFFD'

/-- A text, halves of surrogate pairs among its code points. -/
structure Text where
  points : List Nat
deriving DecidableEq, Repr

namespace Text

/-- The text of characters. -/
def ofChars (chars : List Char) : Text :=
  ⟨codePoints chars⟩

/-- The text of a string. -/
def ofString (text : String) : Text :=
  ofChars text.toList

instance : Coe String Text :=
  ⟨ofString⟩

instance : Append Text :=
  ⟨fun text text' => ⟨text.points ++ text'.points⟩⟩

/-- Texts one after the other. -/
def join (texts : List Text) : Text :=
  ⟨texts.flatMap points⟩

/-- Texts one after the other, with a separator between any two. -/
def intercalate (separator : Text) (texts : List Text) : Text :=
  ⟨separator.points.intercalate (texts.map points)⟩

/-- The characters that the text is seen as. -/
def chars (text : Text) : List Char :=
  text.points.map shownChar

/-- The text as a string, if it is made of characters. -/
def string? (text : Text) : Option String :=
  if text.points.all isScalar then some (String.ofList text.chars) else none

end Text

end DocTypes
