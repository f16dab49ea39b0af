/-!
# Lines

A text is cut into lines at its line breaks, and `joinLines` puts them together again. A carriage
return ends a line too where `plainBreaks` is used.
-/

namespace DocTypes

/-- The parts of a text between the characters `c`; there is one more than there are such. -/
def splitAll (c : Char) : List Char → List (List Char)
  | [] => [[]]
  | d :: rest =>
    match splitAll c rest with
    | [] => [[d]]
    | part :: later => if d == c then [] :: part :: later else (d :: part) :: later

/-- The lines of a text. -/
def splitLines (text : List Char) : List (List Char) :=
  splitAll '\n' text

/-- Lines with a line break between any two. -/
def joinLines (lines : List (List Char)) : List Char :=
  List.intercalate ['\n'] lines

/-- A text with a line feed for every line break. -/
def plainBreaks : List Char → List Char
  | [] => []
  | '\r' :: '\n' :: rest => '\n' :: plainBreaks rest
  | '\r' :: rest => '\n' :: plainBreaks rest
  | c :: rest => c :: plainBreaks rest

end DocTypes
