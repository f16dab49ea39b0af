import DocTypes.Text.Quoted
import DocTypes.Source.Scanner
import DocTypes.Source.Token

/-!
# The lexer

`lex` takes a source text apart into tokens and comments. It works in steps: each step of
`Lexer.step` takes at least one character, either a blank, a comment or a token, so that as many
steps as there are characters reach the end.

Two things depend on what came before. A slash opens a regular expression unless the token before
it ends an operand, and a closing brace that matches the opening of a template substitution takes
up the template text again; `Lexer.braces` remembers, innermost first, which of the open braces are
substitutions.
-/

namespace DocTypes

/-- Why a text is not a sequence of tokens. -/
inductive LexCause where
  | unterminatedComment
  | invalidPrivateName
  | invalidNumber
  | invalidExponent
  | nameAfterNumber
  | unterminatedString
  | unterminatedTemplate
  | unterminatedRegex
  | unexpected (c : Char)
deriving DecidableEq, Repr

/-- The wording of a cause. -/
def LexCause.text : LexCause → String
  | .unterminatedComment => "unterminated comment"
  | .invalidPrivateName => "invalid private name"
  | .invalidNumber => "invalid number literal"
  | .invalidExponent => "invalid number exponent"
  | .nameAfterNumber => "identifier directly after number"
  | .unterminatedString => "unterminated string literal"
  | .unterminatedTemplate => "unterminated template literal"
  | .unterminatedRegex => "unterminated regular expression"
  | .unexpected c => "unexpected character: " ++ String.ofList (quoted [c])

/-- A cause and the place where it was met. -/
structure LexError where
  cause : LexCause
  position : Position
deriving Repr

/-- The error as it is reported. -/
def LexError.message (error : LexError) : String :=
  error.position.locate error.cause.text

/-- The words after which a slash opens a regular expression. -/
def wordsBeforeExpression : List String :=
  ["await", "case", "delete", "do", "else", "extends", "in", "instanceof", "new", "of", "return",
   "throw", "typeof", "void", "yield"]

/-- Does a slash after the token `last` open a regular expression? -/
def regexAllowedAfter : Option Token → Bool
  | none => true
  | some last =>
    match last.kind with
    | .name => wordsBeforeExpression.contains last.text
    | .punctuator => !([")", "]", "\x7d", "++", "--"].contains last.text)
    | .template => last.text.toList.getLast? == some '{'
    | _ => false

/-- The lexer between two steps. `lineStart` is the offset of the current line, `breakPending` tells
that a line break was met since the last token; tokens and comments are the latest first. -/
structure Lexer where
  rest : List Char
  offset : Nat := 0
  line : Nat := 1
  lineStart : Nat := 0
  breakPending : Bool := false
  braces : List Bool := []
  tokens : List Token := []
  comments : List Comment := []
deriving Repr

/-- Moves past `taken`, counting its line breaks. -/
def Lexer.pass (lexer : Lexer) (taken rest : List Char) : Lexer :=
  { lexer with
    rest
    offset := lexer.offset + taken.length
    line := lexer.line + taken.count '\n'
    lineStart :=
      if taken.contains '\n' then lexer.offset + taken.length - lastLineLength taken
      else lexer.lineStart }

/-- The token of a kind at the lexer's place. -/
def Lexer.tokenHere (lexer : Lexer) (kind : TokenKind) (text : List Char) : Token where
  kind
  text := String.ofList text
  span := ⟨lexer.offset, lexer.offset + text.length⟩
  line := lexer.line
  column := lexer.offset - lexer.lineStart + 1
  afterBreak := lexer.breakPending

/-- Takes a token. -/
def Lexer.take (lexer : Lexer) (kind : TokenKind) (split : Split) : Lexer :=
  { lexer.pass split.1 split.2 with
    tokens := lexer.tokenHere kind split.1 :: lexer.tokens
    breakPending := false }

/-- Takes a comment written as `opening`, `text` and `closing`. -/
def Lexer.takeComment (lexer : Lexer) (kind : CommentKind) (opening text closing rest : List Char) :
    Lexer :=
  let taken := opening ++ text ++ closing
  { lexer.pass taken rest with
    comments := ⟨kind, text, ⟨lexer.offset, lexer.offset + taken.length⟩, lexer.line⟩ ::
      lexer.comments
    breakPending := lexer.breakPending || text.contains '\n' }

/-- A cause met `ahead` characters after the lexer's place. -/
def Lexer.fail (source : List Char) (lexer : Lexer) (cause : LexCause) (ahead : Nat := 0) :
    Except LexError α :=
  .error ⟨cause, positionAt source (lexer.offset + ahead)⟩

/-- Takes template text that starts with `opening`, a backtick or a closing brace. -/
def Lexer.takeTemplate (source : List Char) (lexer : Lexer) (opening : Char) (cs : List Char) :
    Except LexError Lexer :=
  match scanTemplate cs with
  | none => lexer.fail source .unterminatedTemplate
  | some (split, opensSubstitution) =>
    let lexer := lexer.take .template (split.prepend [opening])
    .ok (if opensSubstitution then { lexer with braces := true :: lexer.braces } else lexer)

/-- Takes a number. A name may not follow it directly. -/
def Lexer.takeNumber (source : List Char) (lexer : Lexer) : Except LexError Lexer :=
  match scanNumber lexer.rest with
  | .error .noDigits => lexer.fail source .invalidNumber
  | .error .noExponent => lexer.fail source .invalidExponent
  | .ok split =>
    if (split.2.head?.map isNameStart).getD false then
      lexer.fail source .nameAfterNumber split.1.length
    else .ok (lexer.take .number split)

/-- Takes a punctuator, and keeps the stack of open braces. -/
def Lexer.takePunctuator (source : List Char) (lexer : Lexer) (c : Char) (cs : List Char) :
    Except LexError Lexer :=
  match c, lexer.braces with
  | '}', true :: braces => Lexer.takeTemplate source { lexer with braces } c cs
  | _, _ =>
    match scanPunctuator lexer.rest with
    | none => lexer.fail source (.unexpected c)
    | some split =>
      let braces :=
        if c == '{' then false :: lexer.braces
        else if c == '}' then lexer.braces.drop 1
        else lexer.braces
      .ok { lexer.take .punctuator split with braces }

/-- Takes the token that starts with `c`. -/
def Lexer.takeToken (source : List Char) (lexer : Lexer) (c : Char) (cs : List Char) :
    Except LexError Lexer :=
  if isNameStart c then .ok (lexer.take .name (scanName lexer.rest))
  else if c == '#' then
    if (cs.head?.map isNameStart).getD false then
      .ok (lexer.take .privateName ((scanName cs).prepend [c]))
    else lexer.fail source .invalidPrivateName
  else if c.isDigit || (c == '.' && (cs.head?.map Char.isDigit).getD false) then
    lexer.takeNumber source
  else if c == '"' || c == '\'' then
    match scanString c cs with
    | none => lexer.fail source .unterminatedString
    | some split => .ok (lexer.take .string (split.prepend [c]))
  else if c == '\x60' then lexer.takeTemplate source c cs
  else if c == '/' && regexAllowedAfter lexer.tokens.head? then
    match scanRegex cs with
    | none => lexer.fail source .unterminatedRegex
    | some split => .ok (lexer.take .regex (split.prepend [c]))
  else lexer.takePunctuator source c cs

/-- The blanks between tokens that are not line breaks. -/
def isTokenBlank (c : Char) : Bool :=
  [' ', '\t', '\r', '\x0c', '\x0b', '\ufeff', '\u00a0'].contains c

/-- A line or paragraph separator: a line break that does not count as a new line. -/
def isSeparator (c : Char) : Bool :=
  c == '\u2028' || c == '\u2029'

/-- Takes a comment up to the end of the line. -/
def Lexer.takeLineComment (lexer : Lexer) (kind : CommentKind) (opening cs : List Char) : Lexer :=
  let split := cs.span (· != '\n')
  lexer.takeComment kind opening split.1 [] split.2

/-- One step, at the characters `c :: cs`: past a blank, a comment or a token. -/
def Lexer.step (source : List Char) (lexer : Lexer) (c : Char) (cs : List Char) :
    Except LexError Lexer :=
  if c == '\n' || isSeparator c then .ok { lexer.pass [c] cs with breakPending := true }
  else if isTokenBlank c then .ok (lexer.pass [c] cs)
  else
    match c, cs with
    | '/', '/' :: rest => .ok (lexer.takeLineComment .line ['/', '/'] rest)
    | '/', '*' :: rest =>
      match scanBlockComment rest with
      | none => lexer.fail source .unterminatedComment
      | some split =>
        .ok (lexer.takeComment .block ['/', '*'] (split.1.take (split.1.length - 2)) ['*', '/']
          split.2)
    | _, _ => lexer.takeToken source c cs

/-- At most `steps` steps, or fewer if the text ends. -/
def Lexer.run (source : List Char) : Nat → Lexer → Except LexError Lexer
  | 0, lexer => .ok lexer
  | steps + 1, lexer =>
    match lexer.rest with
    | [] => .ok lexer
    | c :: cs =>
      match lexer.step source c cs with
      | .error e => .error e
      | .ok next => Lexer.run source steps next

/-- The lexer at the start of a text, past its hashbang line if it has one. -/
def Lexer.start (source : List Char) : Lexer :=
  match source with
  | '#' :: '!' :: rest => Lexer.takeLineComment { rest := source } .hashbang ['#', '!'] rest
  | _ => { rest := source }

/-- Takes a source text apart. -/
def lex (source : List Char) : Except LexError Lexed :=
  match Lexer.run source source.length (Lexer.start source) with
  | .error e => .error e
  | .ok lexer =>
    .ok
      { tokens := lexer.tokens.reverse
        endToken := lexer.tokenHere .endOfInput []
        comments := lexer.comments.reverse }

/-- The token with its code points in a text, if not all of them are characters. Only strings can
hold others. -/
def Token.restore (text : Text) (token : Token) : Option Token :=
  let points := token.span.points text
  if points.all isScalar then some token
  else if token.kind == .string then some { token with points? := some points }
  else none

/-- Takes a text of code points apart, if those that are no characters all stand in strings. -/
def lexText? (text : Text) : Option Lexed := do
  let lexed ← (lex text.chars).toOption
  guard (lexed.comments.all fun comment => (comment.span.points text).all isScalar)
  let tokens ← lexed.tokens.mapM (Token.restore text)
  return { lexed with tokens }

end DocTypes
