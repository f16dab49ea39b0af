import DocTypes.Rounds
import DocTypes.Selector.Basic
import DocTypes.Text.Blank
import DocTypes.Text.Digit

/-!
# Reading selectors

The grammar, in which a pseudo-class holds selectors again:

    selectors  := selector ("," selector)*
    selector   := compound (combinator compound)*
    combinator := " " | ">" | "~" | "+"
    compound   := (kind | "*")? (attribute | pseudo)*
    attribute  := "[" path (("=" | "!=") value)? "]"
    pseudo     := ":has(" relative ")" | ":not(" selectors ")" | ":matches(" selectors ")"
                | ":first-child" | ":last-child"

A selector inside `:has` may start with a combinator; without one it means what stands below.
-/

namespace DocTypes

/-- Why a text is not a selector. -/
inductive SelectorCause where
  | expected (c : Char)
  | unexpected (c : Char)
  | expectedName
  | expectedSelector
  | expectedTest
  | expectedValue
  | openString
  | unknownPseudo (name : String)
deriving DecidableEq, Repr

/-- A selector that cannot be read: the cause, the text, and the column of the fault. -/
structure SelectorError where
  cause : SelectorCause
  text : List Char
  column : Nat
deriving DecidableEq, Repr

/-- The wording of a cause. -/
def SelectorCause.text : SelectorCause → String
  | .expected c => "expected '" ++ c.toString ++ "'"
  | .unexpected c => "unexpected '" ++ c.toString ++ "'"
  | .expectedName => "expected name"
  | .expectedSelector => "expected selector"
  | .expectedTest => "expected '=', '!=' or ']'"
  | .expectedValue => "expected value"
  | .openString => "unterminated string"
  | .unknownPseudo name => "unknown pseudo-class ':" ++ name ++ "'"

/-- The error as it is reported. -/
def SelectorError.message (error : SelectorError) : String :=
  error.cause.text ++ " in selector '" ++ String.ofList error.text ++ "' col " ++
    toString error.column

/-- The reader's place: the characters still to come, and how many were taken. -/
structure SelectorCursor where
  rest : List Char
  offset : Nat := 0

/-- A reader of selectors: it fails with a cause and the offset it lies at. -/
abbrev SelectorReader := StateT SelectorCursor (Except (SelectorCause × Nat))

namespace SelectorReader

/-- Fails at the next character. -/
def fail {α : Type} (cause : SelectorCause) : SelectorReader α := do
  throw (cause, (← get).offset)

/-- The next character. -/
def peek? : SelectorReader (Option Char) :=
  return (← get).rest.head?

/-- Takes a number of characters. -/
def skip (count : Nat) : SelectorReader Unit :=
  modify fun cursor => ⟨cursor.rest.drop count, cursor.offset + count⟩

/-- Takes characters as long as `p` holds of them. -/
def takeWhile (p : Char → Bool) : SelectorReader (List Char) := do
  let taken := (← get).rest.takeWhile p
  skip taken.length
  return taken

/-- Takes blanks, and tells whether there were any. -/
def skipBlanks : SelectorReader Bool :=
  return !(← takeWhile isBlank).isEmpty

/-- Takes blanks. -/
def blanks : SelectorReader Unit := do
  let _ ← skipBlanks

/-- Takes the character `c` if it is next. -/
def eat (c : Char) : SelectorReader Bool := do
  if (← peek?) == some c then
    skip 1
    return true
  return false

/-- Takes the character `c`, which has to be next. -/
def expect (c : Char) : SelectorReader Unit := do
  if !(← eat c) then fail (.expected c)

/-- Can `c` stand in a name? -/
def isNamePart (c : Char) : Bool :=
  isAlphanumeric c || c == '_' || c == '-' || c == '$'

/-- A name. -/
def name : SelectorReader String := do
  let taken ← takeWhile isNamePart
  if taken.isEmpty then fail .expectedName
  return String.ofList taken

/-- Rounds as long as characters are to come. -/
def many {α : Type} (round : SelectorReader (Option (α × Bool))) : SelectorReader (List α) := do
  rounds (·.rest.length) (pure []) round ((← get).rest.length + 1)

/-- The value of an attribute: in quotes, or up to a blank or a closing bracket. -/
def value : SelectorReader String := do
  let rest := (← get).rest
  match rest with
  | c :: rest =>
    if c == '"' || c == '\'' then
      if !rest.contains c then fail .openString
      let inside := rest.takeWhile (· != c)
      skip (inside.length + 2)
      return String.ofList inside
  | [] => pure ()
  let taken ← takeWhile fun c => !(c == ']' || c == ' ' || c == '\t')
  if taken.isEmpty then fail .expectedValue
  return String.ofList taken

/-- The names of a path after the first. -/
def pathRest : SelectorReader (List String) :=
  many do
    if ← eat '.' then return some (← name, true) else return none

/-- What is asked of an attribute, with the closing bracket. -/
def attributeTest : SelectorReader AttributeTest := do
  let rest := (← get).rest
  let test ← (do
    match rest with
    | ']' :: _ => return none
    | '!' :: '=' :: _ =>
      skip 2
      return some AttributeTest.differs
    | '=' :: _ =>
      skip 1
      return some AttributeTest.equals
    | _ => fail .expectedTest)
  match test with
  | none =>
    skip 1
    return .present
  | some test =>
    blanks
    let text ← value
    blanks
    expect ']'
    return test text

/-- A test of an attribute in square brackets. -/
def attributeSelector : SelectorReader Selector := do
  expect '['
  blanks
  let first ← name
  let later ← pathRest
  blanks
  return .attributeIs (first :: later) (← attributeTest)

variable (recur : SelectorReader Selector)

/-- Selectors parted by commas. -/
def selectors : SelectorReader (List Selector) := do
  let first ← recur
  let later ← many do
    blanks
    if ← eat ',' then
      blanks
      return some (← recur, true)
    else return none
  return first :: later

/-- Selectors parted by commas, each hung on the thing that the selector around is asked about. -/
def relatives : SelectorReader (List Selector) :=
  many do
    blanks
    let sign? := (← peek?).bind Combinator.ofSign?
    if sign?.isSome then
      skip 1
      blanks
    let selector ← recur
    blanks
    return some (selector.anchor (sign?.getD .descendant), ← eat ',')

/-- A pseudo-class. -/
def pseudo : SelectorReader Selector := do
  expect ':'
  match ← name with
  | "first-child" => return .edge false
  | "last-child" => return .edge true
  | name =>
    expect '('
    let inner ← (do
      match name with
      | "has" => return Selector.having (← relatives recur)
      | "not" =>
        blanks
        return .noneOf (← selectors recur)
      | "matches" | "is" =>
        blanks
        return .oneOf (← selectors recur)
      | _ => fail (.unknownPseudo name))
    blanks
    expect ')'
    return inner

/-- The kind that a compound starts with, if it starts with one. -/
def kind? : SelectorReader (List Selector) := do
  match ← peek? with
  | some c =>
    if c == '*' then
      skip 1
      return [.any]
    else if isLetter c || c == '_' then return [.kind (← name)]
    else return []
  | none => return []

/-- A kind with tests after it. -/
def compound : SelectorReader Selector := do
  let first ← kind?
  let later ← many do
    match ← peek? with
    | some '[' => return some (← attributeSelector, true)
    | some ':' => return some (← pseudo recur, true)
    | _ => return none
  match first ++ later with
  | [] => fail .expectedSelector
  | [part] => return part
  | parts => return .allOf parts

/-- Compounds with combinators between them, from the one after `left` on; at most `bound`. -/
def joinedTo : Nat → Selector → SelectorReader Selector
  | 0, left => return left
  | bound + 1, left => do
    let spaced ← skipBlanks
    match ← peek? with
    | none | some ',' | some ')' => return left
    | some c =>
      match Combinator.ofSign? c with
      | some combinator =>
        skip 1
        blanks
        joinedTo bound (.joined combinator left (← compound recur))
      | none =>
        if spaced then joinedTo bound (.joined .descendant left (← compound recur))
        else fail (.unexpected c)

/-- A selector, over the reader of those inside pseudo-classes. -/
def step : SelectorReader Selector := do
  let left ← compound recur
  joinedTo recur ((← get).rest.length + 1) left

/-- The reader of a selector, with pseudo-classes up to a number of levels deep. -/
def level : Nat → SelectorReader Selector
  | 0 => fail .expectedSelector
  | levels + 1 => step (level levels)

/-- Selectors that take up the whole text. -/
def root (levels : Nat) : SelectorReader (List Selector) := do
  blanks
  let selectors ← selectors (level levels)
  blanks
  match ← peek? with
  | some c => fail (.unexpected c)
  | none => return selectors

end SelectorReader

/-- Reads selectors parted by commas. A pseudo-class takes characters before it holds another, so
there are fewer levels than characters. -/
def Selector.read (text : List Char) : Except SelectorError (List Selector) :=
  match (SelectorReader.root (text.length + 1)).run' ⟨text, 0⟩ with
  | .ok selectors => .ok selectors
  | .error (cause, offset) => .error ⟨cause, text, offset + 1⟩

end DocTypes
