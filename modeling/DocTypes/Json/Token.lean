import DocTypes.Json.Comments
import DocTypes.Number.Numeral

/-!
# Tokens of JSON

A JSON text is a row of tokens with blanks between them. Strings hold no control characters. Beside
the words of the format, those for the infinities and for no number are taken.
-/

namespace DocTypes

/-- A token of a JSON text. -/
inductive JsonToken where
  /-- a bracket, a brace, a colon or a comma -/
  | mark (c : Char)
  | string (value : List Char)
  | number (text : List Char)
  | word (text : String)
deriving DecidableEq, Repr

namespace JsonToken

/-- The value of a hexadecimal digit. -/
def hexValue? (c : Char) : Option Nat :=
  if '0' ≤ c && c ≤ '9' then some (c.toNat - '0'.toNat)
  else if 'a' ≤ c && c ≤ 'f' then some (c.toNat - 'a'.toNat + 10)
  else if 'A' ≤ c && c ≤ 'F' then some (c.toNat - 'A'.toNat + 10)
  else none

/-- The number that four hexadecimal digits write. -/
def hexUnit? (a b c d : Char) : Option Nat := do
  return (((← hexValue? a) * 16 + (← hexValue? b)) * 16 + (← hexValue? c)) * 16 + (← hexValue? d)

/-- What a backslash and a character stand for. -/
def escaped? : Char → Option Nat
  | '"' => some '"'.toNat
  | '\\' => some '\\'.toNat
  | '/' => some '/'.toNat
  | 'b' => some 8
  | 'f' => some 12
  | 'n' => some 10
  | 'r' => some 13
  | 't' => some 9
  | _ => none

/-- A string after its opening quote: its code units, and what follows its closing quote. -/
def stringBody? : List Char → Option (List Nat × List Char)
  | [] => none
  | '"' :: rest => some ([], rest)
  | '\\' :: 'u' :: a :: b :: c :: d :: rest => do
    let unit ← hexUnit? a b c d
    let (units, rest) ← stringBody? rest
    return (unit :: units, rest)
  | '\\' :: c :: rest => do
    let unit ← escaped? c
    let (units, rest) ← stringBody? rest
    return (unit :: units, rest)
  | c :: rest => do
    guard (' ' ≤ c)
    let (units, rest) ← stringBody? rest
    return (c.toNat :: units, rest)

/-- Is this the first half of a pair that writes one character? -/
def isHighHalf (unit : Nat) : Bool := 0xD800 ≤ unit && unit < 0xDC00

/-- Is this the second half of a pair that writes one character? -/
def isLowHalf (unit : Nat) : Bool := 0xDC00 ≤ unit && unit < 0xE000

/-- The characters of code units. A half that stands alone becomes the replacement character. -/
def joinHalves : List Nat → List Char
  | [] => []
  | [unit] => [if isHighHalf unit || isLowHalf unit then '\ufffd' else Char.ofNat unit]
  | high :: low :: rest =>
    if isHighHalf high && isLowHalf low then
      Char.ofNat (0x10000 + (high - 0xD800) * 0x400 + (low - 0xDC00)) :: joinHalves rest
    else
      (if isHighHalf high || isLowHalf high then '\ufffd' else Char.ofNat high) ::
        joinHalves (low :: rest)

/-- The words of a JSON text. -/
def words : List String :=
  ["null", "true", "false", "NaN", "Infinity", "-Infinity"]

/-- The part of a number before its fraction, without the sign: a zero, or digits that do not
begin with one. -/
def wholePart? : List Char → Option (List Char × List Char)
  | '0' :: rest => some (['0'], rest)
  | text =>
    match text.span Char.isDigit with
    | ([], _) => none
    | split => some split

/-- The fraction of a number, if it has one. -/
def fractionPart : List Char → List Char × List Char
  | '.' :: rest =>
    match rest.span Char.isDigit with
    | ([], _) => ([], '.' :: rest)
    | (digits, after) => ('.' :: digits, after)
  | text => ([], text)

/-- The sign at the start of an exponent, if it has one. -/
def exponentSign : List Char → List Char × List Char
  | '+' :: rest => (['+'], rest)
  | '-' :: rest => (['-'], rest)
  | text => ([], text)

/-- The exponent of a number, if it has one. -/
def exponentPart : List Char → List Char × List Char
  | [] => ([], [])
  | e :: rest =>
    if e == 'e' || e == 'E' then
      let (sign, digits) := exponentSign rest
      match digits.span Char.isDigit with
      | ([], _) => ([], e :: rest)
      | (digits, after) => (e :: sign ++ digits, after)
    else ([], e :: rest)

/-- The number at the start of a text. An integer has a bounded number of digits. -/
def number? (text : List Char) : Option (JsonToken × List Char) := do
  let (sign, text) := match text with
    | '-' :: rest => (['-'], rest)
    | _ => ([], text)
  let (whole, text) ← wholePart? text
  let (fraction, text) := fractionPart text
  let (exponent, text) := exponentPart text
  guard (whole.length ≤ Numeral.decimalDigitLimit || !(fraction ++ exponent).isEmpty)
  return (.number (sign ++ whole ++ fraction ++ exponent), text)

/-- The word at the start of a text. -/
def word? (text : List Char) : Option (JsonToken × List Char) := do
  let word ← words.find? fun word => word.toList.isPrefixOf text
  return (.word word, text.drop word.length)

/-- The token at the start of a text, which does not start with a blank. -/
def next? : List Char → Option (JsonToken × List Char)
  | [] => none
  | '"' :: rest => do
    let (units, rest) ← stringBody? rest
    return (.string (joinHalves units), rest)
  | c :: rest =>
    if "[]\x7b\x7d:,".toList.contains c then some (.mark c, rest)
    else (word? (c :: rest)).or (number? (c :: rest))

/-- The tokens of a text. -/
def lex? (text : List Char) : Option (List JsonToken) :=
  if (text.dropWhile isJsonBlank).isEmpty then some []
  else
    match next? (text.dropWhile isJsonBlank) with
    | none => none
    | some (token, rest) =>
      if _h : rest.length < text.length then (lex? rest).map (token :: ·) else none
termination_by text.length

end JsonToken

end DocTypes
