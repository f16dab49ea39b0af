/-!
# Comments in JSON

Configuration files may hold comments and a comma after the last item of a list. Both are dropped
before the text is read. A string is kept as it is, whatever it looks like.
-/

namespace DocTypes

/-- Where in a text with comments a reader stands. -/
inductive CommentMode where
  | plain
  | string
  | lineComment
  | blockComment
deriving DecidableEq, Repr

/-- Blanks between the tokens of a JSON text. -/
def isJsonBlank (c : Char) : Bool :=
  c == ' ' || c == '\t' || c == '\r' || c == '\n'

/-- Does a closing bracket or brace come first, after blanks perhaps? -/
def closesNext (text : List Char) : Bool :=
  match text.dropWhile isJsonBlank with
  | c :: _ => c == ']' || c == '\x7d'
  | [] => false

/-- A text from a mode on, without comments and commas before a closing bracket. A line comment
ends before the line break, and what is left open ends with the text. -/
def stripFrom : CommentMode → List Char → List Char
  | _, [] => []
  | .plain, '"' :: rest => '"' :: stripFrom .string rest
  | .plain, '/' :: '/' :: rest => stripFrom .lineComment rest
  | .plain, '/' :: '*' :: rest => stripFrom .blockComment rest
  | .plain, ',' :: rest =>
    if closesNext rest then stripFrom .plain rest else ',' :: stripFrom .plain rest
  | .plain, c :: rest => c :: stripFrom .plain rest
  | .string, '"' :: rest => '"' :: stripFrom .plain rest
  | .string, '\\' :: c :: rest => '\\' :: c :: stripFrom .string rest
  | .string, c :: rest => c :: stripFrom .string rest
  | .lineComment, '\n' :: rest => '\n' :: stripFrom .plain rest
  | .lineComment, _ :: rest => stripFrom .lineComment rest
  | .blockComment, '*' :: '/' :: rest => stripFrom .plain rest
  | .blockComment, _ :: rest => stripFrom .blockComment rest

/-- A text without comments and commas before a closing bracket. -/
def stripComments (text : List Char) : List Char :=
  stripFrom .plain text

end DocTypes
