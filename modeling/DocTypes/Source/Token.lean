import DocTypes.Text.Position

/-!
# Tokens and comments

What the lexer makes of a source text: tokens, each with its text, span and position, and the
comments between them.
-/

namespace DocTypes

/-- The classes of tokens. -/
inductive TokenKind where
  | name
  | privateName
  | number
  | string
  | template
  | regex
  | punctuator
  | endOfInput
deriving DecidableEq, Repr

/-- A token of the source. `afterBreak` tells that a line break stands between the token before
it and this one. The code points are given if not all of them are characters; `text` is what they
are seen as then. -/
structure Token where
  kind : TokenKind
  text : String
  span : Span
  line : Nat
  column : Nat
  afterBreak : Bool
  points? : Option (List Nat) := none
deriving Repr

/-- The code points of a token. -/
def Token.points (token : Token) : List Nat :=
  token.points?.getD (codePoints token.text.toList)

/-- Where a token starts, as a line and a column. -/
def Token.position (token : Token) : Position :=
  ⟨token.line, token.column⟩

/-- Is it the punctuator or the word `text`? -/
def Token.is (token : Token) (text : String) : Bool :=
  token.text == text && (token.kind == .punctuator || token.kind == .name)

/-- Is it the punctuator `text`? -/
def Token.isPunctuator (token : Token) (text : String) : Bool :=
  token.kind == .punctuator && token.text == text

/-- The ways to write a comment. -/
inductive CommentKind where
  | block
  | line
  | hashbang
deriving DecidableEq, Repr

/-- The name of a way to write a comment. -/
def CommentKind.text : CommentKind → String
  | .block => "Block"
  | .line => "Line"
  | .hashbang => "Hashbang"

/-- A comment of the source; `text` leaves out the delimiters. -/
structure Comment where
  kind : CommentKind
  text : List Char
  span : Span
  line : Nat
deriving Repr

/-- A documentation comment opens with exactly two asterisks and is not empty. -/
def Comment.isDoc (comment : Comment) : Bool :=
  comment.kind == .block &&
    match comment.text with
    | '*' :: '*' :: _ => false
    | ['*'] => false
    | '*' :: _ => true
    | _ => false

/-- The number of the line that holds the comment's last character. -/
def Comment.lastLine (comment : Comment) : Nat :=
  comment.line + comment.text.count '\n'

/-- A source text taken apart: its tokens, the end-of-input token and its comments. -/
structure Lexed where
  tokens : List Token
  endToken : Token
  comments : List Comment
deriving Repr

/-- The tokens with the end-of-input token as the last. -/
def Lexed.allTokens (lexed : Lexed) : List Token :=
  lexed.tokens ++ [lexed.endToken]

end DocTypes
