import DocTypes.Text.CodePoint

/-!
# Offsets, spans and positions

A text is a list of characters and an offset counts characters. A span is a half-open range of
offsets, a position the line and column of an offset, both counted from one.
-/

namespace DocTypes

/-- The offsets from `start` up to, not including, `stop`. -/
structure Span where
  start : Nat
  stop : Nat
deriving DecidableEq, Repr

/-- The characters of `text` at the offsets from `start` up to `stop`. -/
def slice {α : Type} (text : List α) (start stop : Nat) : List α :=
  (text.drop start).take (stop - start)

/-- The characters of `text` that a span covers. -/
def Span.text (span : Span) (source : List Char) : List Char :=
  slice source span.start span.stop

/-- The code points of `text` that a span covers. -/
def Span.points (span : Span) (text : Text) : List Nat :=
  slice text.points span.start span.stop

/-- The offset that `place` means in a text of this length: below zero it counts from the end. -/
def offsetIn (length : Nat) (place : Int) : Nat :=
  (if place < 0 then place + length else place).toNat

/-- The characters of `text` from one place up to another; a place that is not given means the
text's end on that side. -/
def cut (text : List Char) (start stop : Option Int) : List Char :=
  slice text ((start.map (offsetIn text.length)).getD 0)
    ((stop.map (offsetIn text.length)).getD text.length)

/-- The number of characters of `text` after its last line break. -/
def lastLineLength (text : List Char) : Nat :=
  (text.reverse.takeWhile (· != '\n')).length

/-- A line and a column, both counted from one. -/
structure Position where
  line : Nat
  column : Nat
deriving DecidableEq, Repr

/-- The position of an offset, recounted from the start of the text. -/
def positionAt (text : List Char) (offset : Nat) : Position where
  line := (text.take offset).count '\n' + 1
  column := lastLineLength (text.take offset) + 1

/-- A message that ends in the place it speaks of. -/
def Position.locate (position : Position) (message : String) : String :=
  message ++ " at line " ++ toString position.line ++ " col " ++ toString position.column

/-- A line and a column as a message gives them. What was read has them from one on, but an edit can
make them any numbers. -/
structure Mark where
  line : Int
  column : Int
deriving DecidableEq, Repr

/-- The mark of an offset, counted from the start of the text. An offset behind the text's end
counts on in its last line; one below zero counts lines up to where it lies from the end. -/
def markAt (text : List Char) (offset : Int) : Mark :=
  let before := cut text none offset
  { line := before.count '\n' + 1
    column := offset - (before.length - lastLineLength before : Nat) + 1 }

/-- A message that ends in the place it speaks of. -/
def Mark.locate (mark : Mark) (message : String) : String :=
  message ++ " at line " ++ toString mark.line ++ " col " ++ toString mark.column

end DocTypes
