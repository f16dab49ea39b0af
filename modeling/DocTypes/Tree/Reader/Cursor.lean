import DocTypes.Source.Literal
import DocTypes.Source.Token
import DocTypes.Tree.Node

/-!
# The reader's cursor

The syntax reader takes tokens one by one from a `Cursor`, numbers the nodes it makes, and keeps
track of the `Scope` that decides how some words are read. Everything here is small: looking at
tokens, taking them, failing at them, and closing a node at the last token that was taken.
-/

namespace DocTypes

/-- Why a sequence of tokens is not a program. -/
inductive GrammarCause where
  | expected (wanted found : String)
  | expectedIdentifier (found : String)
  | expectedProperty (found : String)
  | expectedModule
  | expectedColon
  | unexpected (text : String)
  | unexpectedKeyword (word : String)
  | unexpectedInKey (text : String)
  | unexpectedExport
  | endReached
  | breakAfterThrow
  | noHandler
  | noFunctionName
  | noClassName
  | noImportSource
  | invalidTarget
  | openBlock
  | openSwitch
  | openAttributes
  | openClass
  | openTemplate
  | openSubstitution
deriving DecidableEq, Repr

/-- The wording of a cause. -/
def GrammarCause.text : GrammarCause → String
  | .expected wanted found => "expected '" ++ wanted ++ "', got '" ++ found ++ "'"
  | .expectedIdentifier found => "expected identifier, got '" ++ found ++ "'"
  | .expectedProperty found => "expected property name, got '" ++ found ++ "'"
  | .expectedModule => "expected module specifier"
  | .expectedColon => "expected ':' after property key"
  | .unexpected text => "unexpected '" ++ text ++ "'"
  | .unexpectedKeyword word => "unexpected keyword '" ++ word ++ "'"
  | .unexpectedInKey text => "unexpected '" ++ text ++ "' in property key"
  | .unexpectedExport => "unexpected export"
  | .endReached => "unexpected end of input"
  | .breakAfterThrow => "illegal newline after throw"
  | .noHandler => "missing catch or finally after try"
  | .noFunctionName => "function name required"
  | .noClassName => "class name required"
  | .noImportSource => "import() needs a module specifier"
  | .invalidTarget => "invalid assignment target"
  | .openBlock => "unterminated block"
  | .openSwitch => "unterminated switch"
  | .openAttributes => "unterminated import attributes"
  | .openClass => "unterminated class body"
  | .openTemplate => "unterminated template literal"
  | .openSubstitution => "expected '\x7d' closing template substitution"

/-- Why no program could be read from tokens. -/
inductive ReadFault where
  /-- the tokens do not fit the grammar -/
  | grammar (cause : GrammarCause) (position : Position)
  /-- a literal has no value -/
  | literal (fault : LiteralFault)
  /-- a key that is no name stands for itself in a pattern -/
  | namelessKey
  /-- a token was to be taken after the last one -/
  | pastEnd
  /-- no token was taken where one had to be -/
  | stalled
deriving DecidableEq, Repr

/-- What decides how words are read: `noIn` that `in` is not an operator, and the other flags which
kind of function stands around. -/
structure Scope where
  noIn : Bool := false
  inFunction : Bool := false
  inAsync : Bool := false
  inGenerator : Bool := false
deriving DecidableEq, Repr

/-- The scope of a function's body. -/
def Scope.function (isAsync isGenerator : Bool) : Scope where
  inFunction := true
  inAsync := isAsync
  inGenerator := isGenerator

/-- The scope of a field's value or of a static block: that of a plain function, but for `in`. -/
def Scope.member (scope : Scope) : Scope :=
  { Scope.function false false with noIn := scope.noIn }

/-- The reader's place in the tokens, and what it keeps besides. -/
structure Cursor where
  source : List Char
  pending : List Token
  endToken : Token
  /-- where the last token taken ends -/
  lastEnd : Nat := 0
  scope : Scope := {}
  /-- the number of the next node -/
  fresh : Nat := 0

/-- How many tokens are pending. -/
def Cursor.left (cursor : Cursor) : Nat :=
  cursor.pending.length

/-- A reader of syntax. -/
abbrev TreeReader := StateT Cursor (Except ReadFault)

namespace TreeReader

/-- The token `ahead` places after the next one. -/
def peek (ahead : Nat) : TreeReader Token := do
  let cursor ← get
  return cursor.pending[ahead]?.getD cursor.endToken

/-- The next token. -/
def current : TreeReader Token :=
  peek 0

/-- Takes the next token; the end of the input is never taken. -/
def advance : TreeReader Token := do
  let cursor ← get
  match cursor.pending with
  | [] => return cursor.endToken
  | token :: rest =>
    set { cursor with pending := rest, lastEnd := token.span.stop }
    return token

/-- Takes the next token for its effect. -/
def skip : TreeReader Unit := do
  let _ ← advance

/-- Is the next token the punctuator or word `text`? -/
def isAt (text : String) : TreeReader Bool :=
  return (← current).is text

/-- Is the next token of a kind? -/
def isAtKind (kind : TokenKind) : TreeReader Bool :=
  return (← current).kind == kind

/-- Takes the next token if it is the punctuator or word `text`. The end is not there to be taken.
-/
def eat (text : String) : TreeReader Bool := do
  if ← isAt text then
    if (← get).left == 0 then throw .pastEnd
    skip
    return true
  return false

/-- Fails at the next token. -/
def fail {α : Type} (cause : GrammarCause) : TreeReader α := do
  throw (.grammar cause (← current).position)

/-- Takes the punctuator or word `text`, which has to be next. -/
def expect (text : String) : TreeReader Unit := do
  if !(← eat text) then
    let token ← current
    fail (.expected text (if token.kind == .endOfInput then "end of input" else token.text))

/-- Takes a name, which has to be next. -/
def expectName : TreeReader Token := do
  let token ← current
  if token.kind != .name then fail (.expectedIdentifier token.text)
  advance

/-- Where the next token starts. -/
def start : TreeReader Nat :=
  return (← current).span.start

/-- A new node. -/
def make (kind : Kind) (span : Span) (fields : List (Field × Value)) : TreeReader Node := do
  let cursor ← get
  set { cursor with fresh := cursor.fresh + 1 }
  return .mk kind cursor.fresh (some span) none none fields

/-- A new node from `start` up to the end of the last token taken. -/
def finish (kind : Kind) (start : Nat) (fields : List (Field × Value)) : TreeReader Node := do
  make kind ⟨start, (← get).lastEnd⟩ fields

/-- The identifier that a token spells. -/
def identifier (token : Token) : TreeReader Node :=
  make .identifier token.span [(.name, .text token.text)]

/-- The private name that a token spells; the number sign is left out. -/
def privateIdentifier (token : Token) : TreeReader Node :=
  make .privateIdentifier token.span [(.name, .text (String.ofList (token.text.toList.drop 1)))]

/-- The value of a literal, or its fault. -/
def literalValue {α : Type} (value : Except LiteralFault α) : TreeReader α :=
  match value with
  | .ok value => return value
  | .error fault => throw (.literal fault)

/-- The literal that a string token spells. -/
def stringLiteral (token : Token) : TreeReader Node := do
  let points ← literalValue (stringValue token.points)
  let raw := (token.points?.map .decoded).getD (.text token.text)
  make .literal token.span [(.value, .decoded points), (.raw, raw)]

/-- The literal that a number token spells. -/
def numberLiteral (token : Token) : TreeReader Node := do
  let number ← literalValue (numberValue token.text.toList)
  make .literal token.span [(.value, .number number), (.raw, .text token.text)]

/-- Reads in another scope and comes back to the present one. -/
def within {α : Type} (inner : Scope → Scope) (reader : TreeReader α) : TreeReader α := do
  let outer := (← get).scope
  modify fun cursor => { cursor with scope := inner cursor.scope }
  let result ← reader
  modify fun cursor => { cursor with scope := outer }
  return result

/-- Reads where `in` is an operator. -/
def allowingIn {α : Type} (reader : TreeReader α) : TreeReader α :=
  within (fun scope => { scope with noIn := false }) reader

/-- Rounds as long as tokens are pending. -/
def many {α : Type} (round : TreeReader (Option (α × Bool))) : TreeReader (List α) := do
  rounds Cursor.left (throw .stalled) round ((← get).left + 1)

/-- Steps as long as tokens are pending. -/
def stepping {α : Type} (step : α → TreeReader (Option α)) (value : α) : TreeReader α := do
  steps Cursor.left (throw .stalled) step ((← get).left + 1) value

/-- May a statement end before the next token without a semicolon, or with it? -/
def statementEnds : TreeReader Bool := do
  let token ← current
  return token.kind == .endOfInput || token.afterBreak || token.is ";" || token.is "\x7d"

/-- Takes a semicolon. It may be missing before a closing brace, at the end of the input and after
a line break. -/
def semicolon : TreeReader Unit := do
  if ← eat ";" then return
  if !(← statementEnds) then fail (.expected ";" (← current).text)

/-- Nodes as the value of a field. -/
def nodes (items : List Node) : Value :=
  .list (items.map .node)

/-- What the reader is asked for one level down. -/
inductive Goal where
  | statement
  | expression
  | assignment
  | binary (floor : Nat)
  | unary
  | leftHandSide
  | construction
  | bindingTarget
  | bindingElement

end TreeReader

end DocTypes
