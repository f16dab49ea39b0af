import DocTypes.Rounds
import DocTypes.TypeExpr.Basic
import DocTypes.TypeExpr.Token

/-!
# Reading type expressions

A recursive-descent reader over the tokens of a type. The productions are written once, over a
function `recur` that stands for the reader one level further down; `TypeReader.root` ties the knot
with as many levels as there are tokens. That is enough, because every call of `recur` comes after a
token was taken. A reader that goes on without taking a token, or takes one after the last, fails
with a cause of its own (`stalled`, `pastEnd`), which no text gives rise to.

A production makes a type of a layer as soon as it has the parts, in whatever form types are wanted
(`TypeMaker`): `TypeExpr.read` makes trees.
-/

namespace DocTypes

/-- The reader's place: the tokens still to be taken, and the token at the end. -/
structure TypeCursor where
  pending : List TypeToken
  endToken : TypeToken

/-- How many tokens are pending. -/
def TypeCursor.left (cursor : TypeCursor) : Nat :=
  cursor.pending.length

/-- Why and at what offset a type cannot be read. -/
abbrev TypeFault := TypeCause × Nat

/-- A reader of the tokens of types, over the effects of `m`. -/
abbrev TypeReaderT (m : Type → Type) := StateT TypeCursor m

/-- A reader of types that has no other effect than to fail. -/
abbrev TypeReader := TypeReaderT (Except TypeFault)

/-- How readers make a type of a layer whose parts were made. -/
class TypeMaker (m : Type → Type) (κ : outParam Type) where
  make : TypeShape κ → TypeReaderT m κ

/-- Types are made as trees. -/
instance : TypeMaker (Except TypeFault) TypeExpr where
  make shape := pure shape.whole

/-- What a reader one level down is asked for: a whole type, or an operand of `&` and `|`. -/
inductive TypeGoal where
  | type
  | operand

namespace TypeReader

open TypeMaker (make)

variable {m : Type → Type} [Monad m] [MonadExceptOf TypeFault m]

/-- The token `ahead` places after the next one. -/
def peek (ahead : Nat) : TypeReaderT m TypeToken := do
  let cursor ← get
  return cursor.pending[ahead]?.getD cursor.endToken

/-- The next token. -/
def current : TypeReaderT m TypeToken :=
  peek 0

/-- Fails at the next token. -/
def fail (cause : TypeCause) : TypeReaderT m α := do
  throw (cause, (← current).offset)

/-- Takes the next token. The end is not there to be taken. -/
def advance : TypeReaderT m TypeToken := do
  let cursor ← get
  match cursor.pending with
  | [] => fail .pastEnd
  | token :: rest =>
    set { cursor with pending := rest }
    return token

/-- Is the next token the punctuator or word `text`? -/
def at? (text : String) : TypeReaderT m Bool :=
  return (← current).is text

/-- Does the token `ahead` places on have the text `text`? -/
def ahead? (ahead : Nat) (text : String) : TypeReaderT m Bool :=
  return (← peek ahead).text == text

/-- Takes the next token if it is the punctuator or word `text`. -/
def eat (text : String) : TypeReaderT m Bool := do
  if ← at? text then
    let _ ← advance
    return true
  return false

/-- Takes the punctuator or word `text`, which has to be next. -/
def expect (text : String) : TypeReaderT m Unit := do
  if !(← eat text) then
    let found := (← current).text
    fail (.expected text (if found == "" then "end of type" else found))

/-- Rounds as long as tokens are pending. -/
def many {α : Type} (round : TypeReaderT m (Option (α × Bool))) : TypeReaderT m (List α) := do
  rounds TypeCursor.left (fail .stalled) round ((← get).left + 1)

/-- Steps as long as tokens are pending. -/
def stepping {α : Type} (step : α → TypeReaderT m (Option α)) (value : α) : TypeReaderT m α := do
  steps TypeCursor.left (fail .stalled) step ((← get).left + 1) value

/-- The texts after which a bare `?` or `...` stands for itself. -/
def terminators : List String :=
  [",", ")", "]", "\x7d", ">", "|", "&", "=", ";", ""]

/-- Does a terminator follow the next token? -/
def terminated : TypeReaderT m Bool :=
  return terminators.contains (← peek 1).text

variable {κ : Type} [TypeMaker m κ] (recur : TypeGoal → TypeReaderT m κ)

/-- Types parted by commas up to `close`; a comma may stand before `close`. -/
def listUpTo (close : String) : TypeReaderT m (List κ) := do
  if ← eat close then return []
  let first ← recur .type
  let later ← many do
    if !(← eat ",") then return none
    if ← at? close then return none
    return some (← recur .type, true)
  expect close
  return first :: later

/-- From an opening bracket on: does an arrow follow the matching closing one? `depth` counts the
brackets that are open. -/
def arrowFollows (depth : Nat) : List TypeToken → Bool
  | [] => false
  | token :: rest =>
    if token.kind == .punctuator && ["(", "[", "\x7b", "<"].contains token.text then
      arrowFollows (depth + 1) rest
    else if token.kind == .punctuator && [")", "]", "\x7d", ">"].contains token.text then
      if depth == 1 then (rest.head?.map (·.text == "=>")).getD false
      else arrowFollows (depth - 1) rest
    else arrowFollows depth rest

/-- A colon and a type, if a colon is next. -/
def annotation? : TypeReaderT m (Option κ) := do
  if ← eat ":" then return some (← recur .type) else return none

/-- The parameters and the result of an arrow type. -/
def arrowType (constructs : Bool) : TypeReaderT m κ := do
  expect "("
  let parameters ← many do
    if ← at? ")" then return none
    let variadic ← eat "..."
    if (← current).kind != .name then fail .noParameterName
    let name := (← advance).text
    let optional ← eat "?"
    let type ← annotation? recur
    return some (← make (.parameter name type optional variadic), ← eat ",")
  expect ")"
  expect "=>"
  make (.function parameters (some (← recur .type)) true constructs)

/-- A function type that starts with the word `function`. -/
def functionType : TypeReaderT m κ := do
  let _ ← advance
  expect "("
  let parameters ← many do
    if ← at? ")" then return none
    let word ← current
    let parameter ← (do
      if (word.is "this" || word.is "new") && (← ahead? 1 ":") then
        let _ ← advance
        let _ ← advance
        make (.parameter word.text (some (← recur .type)) false false)
      else recur .type)
    return some (parameter, ← eat ",")
  expect ")"
  let result ← (do if ← eat ":" then return some (← recur .operand) else return none)
  make (.function parameters result false false)

/-- The inside of a quoted text, and its quote. -/
def unquote (text : String) : String × Char :=
  let cs := text.toList
  (String.ofList (cs.drop 1).dropLast, cs.head?.getD '"')

/-- The name of an object type's field and the quote around it. -/
def fieldName : TypeReaderT m (String × Option Char) := do
  match (← current).kind with
  | .string =>
    let (name, quote) := unquote (← advance).text
    return (name, some quote)
  | .name | .number => return ((← advance).text, none)
  | _ => fail .noFieldName

/-- Fields in braces. The first separator is taken for all. -/
def objectType : TypeReaderT m κ := do
  expect "\x7b"
  let fields ← many do
    if ← at? "\x7d" then return none
    let readonly ← (do
      let next := (← peek 1).kind
      if (← at? "readonly") && (next == .name || next == .string) then
        let _ ← advance
        return true
      else return false)
    let (name, quote) ← fieldName
    let optional ← eat "?"
    let type ← annotation? recur
    let field ← make (.field name type optional readonly quote)
    if (← at? ",") || (← at? ";") then
      let separator := (← advance).text
      return some ((field, some separator), true)
    else return some ((field, none), false)
  expect "\x7d"
  let separator := if (fields.head?.bind (·.2)) == some ";" then ';' else ','
  make (.object (fields.map (·.1)) separator)

/-- The names after points, if the next tokens are such. -/
def dottedRest : TypeReaderT m (List String) :=
  many do
    if (← at? ".") && (← peek 1).kind == .name then
      let _ ← advance
      return some ((← advance).text, true)
    else return none

/-- A type that no operator is applied to. -/
def primary : TypeReaderT m κ := do
  let token ← current
  match token.kind with
  | .string =>
    let (text, quote) := unquote (← advance).text
    make (.string text quote)
  | .number => make (.number (← advance).text)
  | _ =>
    if token.is "*" then
      let _ ← advance
      make .any
    else if token.is "(" then
      if arrowFollows 0 (← get).pending then arrowType recur false
      else
        let _ ← advance
        let inner ← recur .type
        expect ")"
        make (.parenthesis inner)
    else if token.is "\x7b" then objectType recur
    else if token.is "[" then
      let _ ← advance
      make (.tuple (← listUpTo recur "]"))
    else if token.is "new" && (← ahead? 1 "(") then
      let _ ← advance
      arrowType recur true
    else if token.is "function" && (← ahead? 1 "(") then functionType recur
    else
      match token.kind with
      | .name =>
        let _ ← advance
        make (.name (".".intercalate (token.text :: (← dottedRest))))
      | .endOfInput => fail .endReached
      | _ => fail (.unexpected token.text)

/-- The type with the next operator after it. -/
def suffix (type : κ) : TypeReaderT m (Option κ) := do
  if (← at? "[") && (← ahead? 1 "]") then
    let _ ← advance
    let _ ← advance
    return some (← make (.array type))
  else if ← eat "<" then
    return some (← make (.generic type (← listUpTo recur ">") false))
  else if (← at? ".") && (← ahead? 1 "<") then
    let _ ← advance
    let _ ← advance
    return some (← make (.generic type (← listUpTo recur ">") true))
  else if (← at? "?") && (← terminated) then
    let _ ← advance
    return some (← make (.nullable type false))
  else if ← eat "!" then return some (← make (.notNullable type false))
  else if ← eat "=" then return some (← make (.optional type))
  else return none

/-- A type with the operators after it. -/
def postfixed : TypeReaderT m κ := do
  stepping (suffix recur) (← primary recur)

/-- A type with the operators before it. -/
def operand : TypeReaderT m κ := do
  if ← at? "?" then
    let bare ← terminated
    let _ ← advance
    if bare then make .unknown else make (.nullable (← recur .operand) true)
  else if ← eat "!" then make (.notNullable (← recur .operand) true)
  else if ← at? "..." then
    let bare ← terminated
    let _ ← advance
    if bare then make (.variadic none) else make (.variadic (some (← recur .operand)))
  else if (← at? "typeof") && (← peek 1).kind == .name then
    let _ ← advance
    make (.typeof (← postfixed recur))
  else if ← eat "keyof" then make (.keyof (← recur .operand))
  else postfixed recur

/-- Operands parted by `sign`, at least one. -/
def separatedBy (sign : String) (item : TypeReaderT m κ) : TypeReaderT m (List κ) := do
  let first ← item
  let later ← many do
    if ← eat sign then return some (← item, true) else return none
  return first :: later

/-- Operands joined by `&`. -/
def conjunction : TypeReaderT m κ := do
  match ← separatedBy "&" (operand recur) with
  | [single] => return single
  | elements => make (.intersection elements)

/-- A whole type: alternatives parted by `|`. -/
def wholeType : TypeReaderT m κ := do
  let _ ← eat "|"
  match ← separatedBy "|" (conjunction recur) with
  | [single] => return single
  | elements => make (.union elements)

/-- The reader for a goal, over the reader one level down. -/
def step : TypeGoal → TypeReaderT m κ
  | .type => wholeType recur
  | .operand => operand recur

/-- The reader with a given number of levels. -/
def level : Nat → TypeGoal → TypeReaderT m κ
  | 0 => fun _ => fail .stalled
  | n + 1 => step (level n)

/-- A type that takes up all tokens. -/
def root (levels : Nat) : TypeReaderT m κ := do
  if (← current).kind == .endOfInput then fail .empty
  let type ← level levels .type
  let next ← current
  if next.kind != .endOfInput then fail (.unexpected next.text)
  return type

end TypeReader

/-- Reads a type expression that stands on line `line`. -/
def TypeExpr.read (text : List Char) (line : Nat) : Except TypeError TypeExpr := do
  let tokens ← TypeToken.lex text
  let cursor : TypeCursor := ⟨tokens, ⟨.endOfInput, "", text.length⟩⟩
  let reader : TypeReader TypeExpr := TypeReader.root (tokens.length + 1)
  match reader.run' cursor with
  | .ok type => return type
  | .error (cause, offset) => throw { cause, text, position := ⟨line, offset + 1⟩ }

end DocTypes
