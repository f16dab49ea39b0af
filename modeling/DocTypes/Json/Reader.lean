import DocTypes.Json.Token

/-!
# JSON values

A JSON text is read token by token. Objects keep their members in order, and of two members with one
key the later one counts.
-/

namespace DocTypes

/-- A JSON value. -/
inductive Json where
  | null
  | bool (value : Bool)
  | number (text : List Char)
  | string (value : List Char)
  | array (items : List Json)
  | object (members : List (List Char × Json))
deriving Inhabited

namespace Json

/-- The value of a word. Infinities and the like are numbers. -/
def ofWord : String → Json
  | "null" => .null
  | "true" => .bool true
  | "false" => .bool false
  | text => .number text.toList

mutual

/-- The value at the start of a row of tokens, and the tokens after it. -/
def value? : Nat → List JsonToken → Option (Json × List JsonToken)
  | 0, _ => none
  | level + 1, tokens =>
    match tokens with
    | .string text :: rest => some (.string text, rest)
    | .number text :: rest => some (.number text, rest)
    | .word text :: rest => some (ofWord text, rest)
    | .mark '[' :: .mark ']' :: rest => some (.array [], rest)
    | .mark '[' :: rest => do
      let (items, rest) ← items? level rest
      return (.array items, rest)
    | .mark '\x7b' :: .mark '\x7d' :: rest => some (.object [], rest)
    | .mark '\x7b' :: rest => do
      let (members, rest) ← members? level rest
      return (.object members, rest)
    | _ => none

/-- The items of an array up to its closing bracket. -/
def items? : Nat → List JsonToken → Option (List Json × List JsonToken)
  | 0, _ => none
  | level + 1, tokens => do
    let (item, rest) ← value? level tokens
    match rest with
    | .mark ']' :: rest => return ([item], rest)
    | .mark ',' :: rest =>
      let (items, rest) ← items? level rest
      return (item :: items, rest)
    | _ => none

/-- The members of an object up to its closing brace. -/
def members? : Nat → List JsonToken → Option (List (List Char × Json) × List JsonToken)
  | 0, _ => none
  | level + 1, tokens =>
    match tokens with
    | .string key :: .mark ':' :: rest => do
      let (value, rest) ← value? level rest
      match rest with
      | .mark '\x7d' :: rest => return ([(key, value)], rest)
      | .mark ',' :: rest =>
        let (members, rest) ← members? level rest
        return ((key, value) :: members, rest)
      | _ => none
    | _ => none

end

/-- The value that a row of tokens writes. Two levels a token are enough: a value within another one
takes two, and is opened and closed by a token each. -/
def ofTokens? (tokens : List JsonToken) : Option Json :=
  match value? (2 * tokens.length + 1) tokens with
  | some (value, []) => some value
  | _ => none

/-- Reads a text. -/
def read? (text : List Char) : Option Json :=
  (JsonToken.lex? text).bind ofTokens?

end Json

end DocTypes
