import DocTypes.Text.Blank
import DocTypes.Text.Digit
import DocTypes.Text.Position
import DocTypes.Text.Quoted

/-!
# Tokens of type expressions

`TypeToken.lex` takes the text of a type apart. White space parts tokens and is dropped.
-/

namespace DocTypes

/-- The classes of tokens of a type. -/
inductive TypeTokenKind where
  | name
  | string
  | number
  | punctuator
  | endOfInput
deriving DecidableEq, Repr

/-- A token of a type and the offset of its first character. -/
structure TypeToken where
  kind : TypeTokenKind
  text : String
  offset : Nat
deriving DecidableEq, Repr

/-- Is it the punctuator or the word `text`? -/
def TypeToken.is (token : TypeToken) (text : String) : Bool :=
  token.text == text && (token.kind == .punctuator || token.kind == .name)

/-- Why a text is not a type expression. -/
inductive TypeCause where
  | unterminatedString
  | unexpectedCharacter (c : Char)
  | empty
  | endReached
  | unexpected (text : String)
  | expected (wanted found : String)
  | noParameterName
  | noFieldName
  /-- a token was to be taken after the last one -/
  | pastEnd
  /-- no token was taken where one had to be -/
  | stalled
deriving DecidableEq, Repr

/-- A type that cannot be read: the cause, the type's text, and where the cause lies. A type inside
a tag also names the tag. -/
structure TypeError where
  cause : TypeCause
  text : List Char
  position : Position
  tag : Option String := none
deriving DecidableEq, Repr

/-- The wording of a cause. Causes met after the tokens were found show the whole type. -/
def TypeError.reason (error : TypeError) : String :=
  let whole := " in type \x7b" ++ String.ofList error.text ++ "\x7d"
  match error.cause with
  | .unterminatedString => "unterminated string in type"
  | .unexpectedCharacter c => "unexpected character in type: " ++ String.ofList (quoted [c])
  | .empty => "empty type" ++ whole
  | .endReached => "unexpected end of type" ++ whole
  | .unexpected text => "unexpected '" ++ text ++ "'" ++ whole
  | .expected wanted found => "expected '" ++ wanted ++ "', got '" ++ found ++ "'" ++ whole
  | .noParameterName => "expected parameter name" ++ whole
  | .noFieldName => "expected object field name" ++ whole
  | .pastEnd => "read past the end" ++ whole
  | .stalled => "no progress" ++ whole

/-- The error as it is reported. -/
def TypeError.message (error : TypeError) : String :=
  let reason := match error.tag with
    | some tag => "in @" ++ tag ++ ": " ++ error.reason
    | none => error.reason
  error.position.locate reason

namespace TypeToken

/-- The punctuators of types, the longer ones first. -/
def punctuators : List String :=
  ["...", "=>", "\x7b", "\x7d", "(", ")", "[", "]", "<", ">", ",", ";", ":", "|", "&", "?", "!",
   "=", "*", "."]

/-- Can `c` start a name? -/
def isNameStart (c : Char) : Bool :=
  isLetter c || c == '_' || c == '$'

/-- Can `c` stand inside a name? -/
def isNamePart (c : Char) : Bool :=
  isAlphanumeric c || c == '_' || c == '$' || c == '-' || c == '#' || c == '~'

/-- Can `c` stand inside a number? -/
def isNumberPart (c : Char) : Bool :=
  isAlphanumeric c || c == '.' || c == '_'

/-- The rest of a string up to and including the closing `quote`; a backslash takes the next
character along. -/
def scanString (quote : Char) : List Char → Option (List Char × List Char)
  | [] => none
  | c :: rest =>
    if c == quote then some ([c], rest)
    else if c == '\\' then
      match rest with
      | [] => none
      | d :: rest => (scanString quote rest).map fun s => (c :: d :: s.1, s.2)
    else (scanString quote rest).map fun s => (c :: s.1, s.2)

/-- Does a number start with `c` before `rest`? -/
def startsNumber (c : Char) (rest : List Char) : Bool :=
  isDigitLike c || (c == '-' && (rest.head?.map isDigitLike).getD false)

/-- The token that starts with `c`, and the characters after it. -/
def scan (c : Char) (rest : List Char) :
    Except TypeCause ((TypeTokenKind × List Char) × List Char) :=
  if c == '"' || c == '\'' then
    match scanString c rest with
    | some split => .ok ((.string, c :: split.1), split.2)
    | none => .error .unterminatedString
  else if startsNumber c rest then
    .ok ((.number, c :: rest.takeWhile isNumberPart), rest.dropWhile isNumberPart)
  else if isNameStart c then
    .ok ((.name, c :: rest.takeWhile isNamePart), rest.dropWhile isNamePart)
  else
    match punctuators.find? fun p => p.toList.isPrefixOf (c :: rest) with
    | some p => .ok ((.punctuator, p.toList), (c :: rest).drop p.length)
    | none => .error (.unexpectedCharacter c)

/-- The tokens from an offset on, in at most `fuel` steps, each of which takes a character. -/
def lexFrom : Nat → Nat → List Char → Except (TypeCause × Nat) (List TypeToken)
  | _, _, [] => .ok []
  | 0, offset, _ :: _ => .error (.stalled, offset)
  | fuel + 1, offset, c :: rest =>
    if isBlank c then lexFrom fuel (offset + 1) rest
    else
      match scan c rest with
      | .error cause => .error (cause, offset)
      | .ok ((kind, taken), rest) => do
        let later ← lexFrom fuel (offset + taken.length) rest
        return ⟨kind, String.ofList taken, offset⟩ :: later

/-- The tokens of a type. Faults are placed in the type's own first line. -/
def lex (text : List Char) : Except TypeError (List TypeToken) :=
  match lexFrom text.length 0 text with
  | .ok tokens => .ok tokens
  | .error (cause, offset) => .error { cause, text, position := ⟨1, offset + 1⟩ }

end TypeToken

end DocTypes
